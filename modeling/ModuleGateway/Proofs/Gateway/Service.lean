import ModuleGateway.Proofs.Gateway.Looking
import ModuleGateway.Proofs.Relink.Linking

/-!
The gateway at work for many clients at once. Requests and prewarming tasks come and go, jobs run
beside them, and any step of one may come between two steps of another. The outside may change files
at any time, and the gateway may be started again on what it left.

A step of a job that writes into the store is one step here; readers see all of an entry or nothing.
-/

namespace ModuleGateway

/-- What a client comes for. -/
inductive Errand where
  | request (r : Request)
  /-- A task that the gateway started itself. -/
  | prewarm (specifier : String)
  deriving DecidableEq

/-- How far a client has come. -/
inductive Pursuit where
  | asking (r : Request) (p : Progress)
  | warming (t : Warming)
  deriving DecidableEq

/-- What a client leaves with. -/
inductive Result where
  | replied (r : Request) (reply : Reply)
  | warmed (isReady : Bool)
  deriving DecidableEq

namespace Errand

/-- Any request may come; only servable entries of the settings are prewarmed. -/
def Offered (g : Gateway) : Errand → Prop
  | .request _ => True
  | .prewarm specifier => specifier ∈ g.warmable

def begin (g : Gateway) : Errand → Pursuit
  | .request r => .asking r (g.start r)
  | .prewarm specifier => .warming (.checking specifier)

end Errand

namespace Pursuit

/-- One step on the way to a build. -/
def look (g : Gateway) (w : World) : Pursuit → Pursuit
  | .asking r p => .asking r (g.look r w p)
  | .warming t => .warming (g.glance w t)

/-- The build that a client needs. -/
def building? : Pursuit → Option Building
  | .asking _ (.building b) => some b
  | .warming (.building b) => some b
  | _ => none

theorem building_cases {p : Pursuit} {b : Building} (h : p.building? = some b) :
    (∃ r, p = .asking r (.building b)) ∨ p = .warming (.building b) := by
  unfold building? at h
  split at h
  · cases h
    exact .inl ⟨_, rfl⟩
  · cases h
    exact .inr rfl
  · cases h

/-- What a client that needs no build leaves with. -/
def settled? : Pursuit → Option Result
  | .asking r (.answered reply) => some (.replied r (reply.fit r.method))
  | .warming (.ended isReady) => some (.warmed isReady)
  | _ => none

/-- What a client that waits for a build leaves with when it receives the outcome. -/
def receive? (g : Gateway) (outcome : Build.Outcome) : Pursuit → Option Result
  | .asking r (.building b) => some (.replied r ((g.replyOf b outcome).fit r.method))
  | .warming (.building _) => some (.warmed outcome.isSuccess)
  | _ => none

end Pursuit

/-- A job that runs. -/
structure Job where
  id : Build.JobId
  building : Building
  stage : Stage

/-- A gateway with its clients and jobs. -/
structure Service where
  gateway : Gateway
  /-- The file system that the gateway started on. -/
  origin : FileSystem
  world : World
  /-- The clients that have not left, by name. -/
  clients : List (String × Pursuit) := []
  jobs : List Job := []

/-- What happens in one step. -/
inductive Move where
  | arrive (client : String) (errand : Errand)
  | look (client : String)
  | join (client : String) (b : Building)
  /-- A job goes from one stage to the next. Linking resolves specifiers to installed packages. -/
  | work (b : Building) (before after : Stage) (resolved : List String)
  | publish (b : Building) (outcome : Build.Outcome)
  | answer (client : String) (result : Result)
  | leave (client : String)
  /-- Files change from outside. -/
  | change
  | restart
  deriving DecidableEq

namespace Gateway

/-- The installed specifiers that the output of a file's compilation is linked to. -/
def resolves (g : Gateway) (fs : FileSystem) (b : Building) : Stage → List String
  | .compiling source =>
    match g.compiler ⟨b.file, source, b.kind⟩, b.importer? with
    | .done output, some _ => Relink.resolved g.sources fs output
    | _, _ => []
  | _ => []

/-- A gateway that is set up works by the normal form of its settings, and knows where its source root
lies. -/
theorem ofSettings_spec {written : Settings} {compiler : Build.Compiler} {fs : FileSystem}
    {g : Gateway} (h : ofSettings written compiler fs = .ok g) :
    written.normalize = .ok g.settings ∧ g.store.directory = g.settings.cacheDirectory ∧
      g.compiler = compiler ∧ Source.root fs g.settings.sourceRoot = .ok g.root := by
  unfold Gateway.ofSettings at h
  cases hNormal : written.normalize with
  | error e => simp [hNormal, bind, Except.bind] at h
  | ok settings =>
      cases hRoot : Source.root fs settings.sourceRoot with
      | error e => simp [hNormal, hRoot, bind, Except.bind] at h
      | ok root =>
          simp only [hNormal, hRoot, bind, Except.bind, Except.ok.injEq] at h
          subst h
          exact ⟨rfl, rfl, rfl, hRoot⟩

end Gateway

namespace Service

/-- A gateway that starts, without clients. -/
def fresh (g : Gateway) (fs : FileSystem) : Service where
  gateway := g
  origin := fs
  world := g.newWorld fs

/-- A client has come further. -/
def setClient (s : Service) (name : String) (p : Pursuit) : Service :=
  { s with clients := s.clients.map fun c => if c.1 = name then (name, p) else c }

/-- A client leaves, and waits no more. -/
def dropClient (s : Service) (name : String) : Service :=
  { s with
    clients := s.clients.filter (·.1 ≠ name)
    world := { s.world with coordinator := s.world.coordinator.cancel name } }

/-- A client joins the job that runs for a build, or starts it. -/
def join (s : Service) (name : String) (b : Building) : Service :=
  { s with
    world := s.world.join name b
    jobs :=
      if s.world.coordinator.isBuilding b.key then s.jobs
      else s.jobs ++ [⟨s.world.coordinator.started, b, Stage.first b⟩] }

/-- The stage that a job goes on to, with the world it leaves. -/
def next (s : Service) (job : Job) : Stage × World :=
  s.gateway.advance job.building s.world job.stage

/-- A job goes on to its next stage. -/
def advance (s : Service) (job : Job) : Service :=
  { s with
    world := (s.next job).2
    jobs := s.jobs.map fun j =>
      if j.building.key = job.building.key then { j with stage := (s.next job).1 } else j }

/-- A job ends, and its key is free. -/
def publish (s : Service) (job : Job) : Service :=
  { s with
    world := { s.world with
      coordinator := s.world.coordinator.finish job.building.key (.returned job.stage.outcome) }
    jobs := s.jobs.filter (·.building.key ≠ job.building.key) }

/-- One step of a service whose gateway has these settings. Only the outside changes files that are
not the gateway's, and another start may come with another compiler and process number. -/
inductive Step (settings : Settings) : Service → Move → Service → Prop where
  | arrive {s : Service} {name : String} {errand : Errand}
      (hNew : ∀ c ∈ s.clients, c.1 ≠ name) (hOffered : errand.Offered s.gateway) :
      Step settings s (.arrive name errand)
        { s with clients := s.clients ++ [(name, errand.begin s.gateway)] }
  | look {s : Service} {name : String} {p : Pursuit} (hClient : (name, p) ∈ s.clients) :
      Step settings s (.look name) (s.setClient name (p.look s.gateway s.world))
  | join {s : Service} {name : String} {p : Pursuit} {b : Building}
      (hClient : (name, p) ∈ s.clients) (hBuilding : p.building? = some b)
      (hIdle : ∀ waiter ∈ s.world.coordinator.waiting, waiter.client ≠ name) :
      Step settings s (.join name b) (s.join name b)
  | work {s : Service} {job : Job} (hJob : job ∈ s.jobs)
      (hGoing : ∀ outcome, job.stage ≠ .ended outcome) :
      Step settings s
        (.work job.building job.stage (s.next job).1
          (s.gateway.resolves s.world.fs job.building job.stage))
        (s.advance job)
  | publish {s : Service} {job : Job} {outcome : Build.Outcome} (hJob : job ∈ s.jobs)
      (hEnded : job.stage = .ended outcome) :
      Step settings s (.publish job.building outcome) (s.publish job)
  | answer {s : Service} {name : String} {p : Pursuit} {result : Result}
      (hClient : (name, p) ∈ s.clients) (hSettled : p.settled? = some result) :
      Step settings s (.answer name result) (s.dropClient name)
  | receive {s : Service} {p : Pursuit} {result : Result} {d : Build.Delivery}
      (hDue : d ∈ s.world.coordinator.due) (hClient : (d.client, p) ∈ s.clients)
      (hReceived : p.receive? s.gateway d.outcome = some result) :
      Step settings s (.answer d.client result) (s.dropClient d.client)
  | leave {s : Service} {name : String} (hClient : ∃ p, (name, p) ∈ s.clients) :
      Step settings s (.leave name) (s.dropClient name)
  | change {s : Service} (fs : FileSystem) :
      Step settings s .change { s with world := { s.world with fs } }
  | restart {s : Service} {compiler : Build.Compiler} {g : Gateway} (process : Nat)
      (hStart : Gateway.ofSettings settings compiler s.world.fs = .ok g) :
      Step settings s .restart
        (fresh { g with store := { g.store with process } } s.world.fs)

/-- A run by the steps of a relation, with its moves, the latest first. -/
inductive Run (R : Service → Move → Service → Prop) (start : Service) :
    List Move → Service → Prop where
  | refl : Run R start [] start
  | step {moves : List Move} {move : Move} {s after : Service} (run : Run R start moves s)
      (hStep : R s move after) : Run R start (move :: moves) after

/-- What every step of a run keeps holds after the run. -/
theorem Run.invariant {R : Service → Move → Service → Prop} {start s : Service} {moves : List Move}
    {I : List Move → Service → Prop} (hRun : Run R start moves s) (hStart : I [] start)
    (hKept : ∀ {moves : List Move} {move : Move} {s after : Service},
      I moves s → R s move after → I (move :: moves) after) : I moves s := by
  induction hRun with
  | refl => exact hStart
  | step run hStep ih => exact hKept ih hStep

end Service

end ModuleGateway
