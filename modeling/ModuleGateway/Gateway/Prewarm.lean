import ModuleGateway.Gateway.Building

/-!
Prewarming: the packages of the settings are built before anyone asks for them. Here a package need
not be trusted; it is, because prewarmed packages are trusted at the start. All tasks look before the
first one builds, so two tasks for one specifier share a job.
-/

namespace ModuleGateway

/-- How far a prewarming task has come, by what it does next. -/
inductive Warming where
  /-- See whether there is anything to build. -/
  | checking (specifier : String)
  | locating (specifier : String)
  /-- Wait for a build. -/
  | building (b : Building)
  | ended (isReady : Bool)
  deriving DecidableEq

/-- The build a prewarming task waits for. -/
def Warming.building? : Warming → Option Building
  | .building b => some b
  | _ => none

namespace Gateway

/-- The entries of the settings that name a vendor module. -/
def warmable (g : Gateway) : List String :=
  g.settings.prewarm.filter Specifier.isServable

/-- Begins to prewarm, and tells for how many entries. -/
def prewarm (g : Gateway) (w : World) : Nat × World :=
  (g.warmable.length, { w with warming := w.warming ++ g.warmable })

/-- One step of a prewarming task up to its build. It changes nothing. -/
def glance (g : Gateway) (w : World) : Warming → Warming
  | .checking specifier =>
    if (g.sources.global? specifier).isSome || g.store.contains w.fs specifier then .ended true
    else .locating specifier
  | .locating specifier =>
    match g.sources.locate? w.fs specifier with
    | some m => .building (.vendor specifier m)
    | none => .ended false
  | .building b => .building b
  | .ended isReady => .ended isReady

/-- Waits for all prewarming that has begun, and tells how many entries are ready. -/
def wait (g : Gateway) (w : World) : Nat × World :=
  let tasks := w.warming.map fun specifier => g.glance w (g.glance w (.checking specifier))
  let wanted := tasks.filterMap Warming.building?
  -- A task is named by its place; the jobs are those that the tasks started.
  let join (state : List Building × World) (task : Building × Nat) : List Building × World :=
    let (b, place) := task
    let (jobs, w) := state
    (if w.coordinator.isBuilding b.key then jobs else jobs ++ [b], w.join (toString place) b)
  let (jobs, joined) := wanted.zipIdx.foldl join ([], { w with warming := [] })
  let worked := jobs.foldl (fun w b => (g.work w b).2) joined
  let (deliveries, woken) := worked.wake
  let ready := tasks.countP (· = .ended true) + deliveries.countP (·.outcome.isSuccess)
  (ready, woken)

end Gateway

end ModuleGateway
