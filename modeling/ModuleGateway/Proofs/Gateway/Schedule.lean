import ModuleGateway.Proofs.Gateway.Bookkeeping
import ModuleGateway.Proofs.Store.Shelf

/-!
Runs that can be computed. A schedule picks one step after the other, and the service takes each pick
as far as it is possible. Schedules never change files from outside.
-/

namespace ModuleGateway

/-- What a schedule picks. A job is picked by its place among those that run. -/
inductive Choice where
  | arrive (client : String) (errand : Errand)
  | look (client : String)
  | join (client : String)
  | work (place : Nat)
  | publish (place : Nat)
  /-- A client that needs no build leaves with what it has. -/
  | answer (client : String)
  /-- A client leaves with the result of the job that it waited for. -/
  | receive (client : String)
  | leave (client : String)
  | restart (process : Nat)
  deriving DecidableEq

instance (g : Gateway) (errand : Errand) : Decidable (errand.Offered g) :=
  match errand with
  | .request _ => .isTrue trivial
  | .prewarm specifier => inferInstanceAs (Decidable (specifier ∈ g.warmable))

/-- Who comes in a move, and what for. -/
def Move.arrival? : Move → Option (String × Errand)
  | .arrive name errand => some (name, errand)
  | .look _ | .join .. | .work .. | .publish .. | .answer .. | .leave _ | .change | .restart => none

/-- Whether a move leaves all files as they are. -/
def Move.isStill : Move → Bool
  | .work _ (.persisting _) _ _ | .change | .restart => false
  | _ => true

/-- Whether a move is neither a job's step, nor a change from outside, nor a restart. -/
def Move.isCalm : Move → Bool
  | .work .. | .change | .restart => false
  | _ => true

namespace Service

/-- A step with nobody else at the store: files outside the store may change at any time. -/
structure Secluded (settings : Settings) (s : Service) (move : Move) (after : Service) : Prop where
  step : Step settings s move after
  change : move = .change → s.gateway.store.Untouched s.world.fs after.world.fs

/-- A step where writes into the store succeed, and where the gateway is started again only while no
job runs. -/
structure Orderly (settings : Settings) (s : Service) (move : Move) (after : Service) : Prop extends
    Secluded settings s move after where
  writes : ∀ specifier m content next resolved,
    move = .work (.vendor specifier m) (.persisting content) next resolved →
      ∃ written, s.gateway.store.write s.world.fs specifier content = .ok written
  restart : move = .restart → s.jobs = []

/-- How far a client has come. -/
def pursuit? (s : Service) (name : String) : Option Pursuit :=
  s.clients.lookup name

/-- Whether the store takes what a job writes next. -/
def storable (s : Service) (job : Job) : Bool :=
  match job.building, job.stage with
  | .vendor specifier _, .persisting content =>
    (s.gateway.store.write s.world.fs specifier content).toOption.isSome
  | _, _ => true

/-- The step that a schedule picks, if it is possible and the store takes what it writes. -/
def perform? (settings : Settings) (s : Service) : Choice → Option (Move × Service)
  | .arrive name errand =>
    if (∀ c ∈ s.clients, c.1 ≠ name) ∧ errand.Offered s.gateway then
      some (.arrive name errand,
        { s with clients := s.clients ++ [(name, errand.begin s.gateway)] })
    else none
  | .look name => do
    let p ← s.pursuit? name
    some (.look name, s.setClient name (p.look s.gateway s.world))
  | .join name => do
    let p ← s.pursuit? name
    let b ← p.building?
    if ∀ waiter ∈ s.world.coordinator.waiting, waiter.client ≠ name then
      some (.join name b, s.join name b)
    else none
  | .work place => do
    let job ← s.jobs[place]?
    match job.stage with
    | .ended _ => none
    | _ =>
      if s.storable job then
        some (.work job.building job.stage (s.next job).1
          (s.gateway.resolves s.world.fs job.building job.stage), s.advance job)
      else none
  | .publish place => do
    let job ← s.jobs[place]?
    match job.stage with
    | .ended outcome => some (.publish job.building outcome, s.publish job)
    | _ => none
  | .answer name => do
    let p ← s.pursuit? name
    let result ← p.settled?
    some (.answer name result, s.dropClient name)
  | .receive name => do
    let p ← s.pursuit? name
    let d ← s.world.coordinator.due.find? (·.client = name)
    let result ← p.receive? s.gateway d.outcome
    some (.answer name result, s.dropClient name)
  | .leave name => do
    let _ ← s.pursuit? name
    some (.leave name, s.dropClient name)
  | .restart process =>
    match s.jobs, Gateway.ofSettings settings s.gateway.compiler s.world.fs with
    | [], .ok g =>
      some (.restart, fresh { g with store := { g.store with process } } s.world.fs)
    | _, _ => none

/-- The moves of a schedule, the latest first, with the service after them. A pick that is not
possible ends the schedule. -/
def performs (settings : Settings) :
    List Choice → List Move → Service → List Move × Service
  | [], moves, s => (moves, s)
  | choice :: later, moves, s =>
    match s.perform? settings choice with
    | some (move, after) => performs settings later (move :: moves) after
    | none => (moves, s)

variable {settings : Settings} {s after : Service} {move : Move} {name : String} {p : Pursuit}

theorem mem_of_pursuit? (h : s.pursuit? name = some p) : (name, p) ∈ s.clients :=
  mem_of_lookup h

theorem Step.fs_eq (hStep : Step settings s move after) (hStill : move.isStill = true) :
    after.world.fs = s.world.fs := by
  cases hStep with
  | @work job hJob hGoing =>
      refine next_fs fun content hStage => ?_
      rw [hStage] at hStill
      cases hStill
  | change => cases hStill
  | restart => cases hStill
  | _ => rfl

theorem Orderly.of_calm (hCalm : move.isCalm = true) (hStep : Step settings s move after) :
    Orderly settings s move after where
  step := hStep
  writes := fun _ _ _ _ _ hMove => by
    rw [hMove] at hCalm
    cases hCalm
  change := fun hMove => by
    rw [hMove] at hCalm
    cases hCalm
  restart := fun hMove => by
    rw [hMove] at hCalm
    cases hCalm

theorem write_of_storable {job : Job} {specifier : String} {m : Package.Located}
    {content : ByteArray} (hBuilding : job.building = .vendor specifier m)
    (hStage : job.stage = .persisting content) (h : s.storable job = true) :
    ∃ written, s.gateway.store.write s.world.fs specifier content = .ok written := by
  simp only [storable, hBuilding, hStage] at h
  cases hWrite : s.gateway.store.write s.world.fs specifier content with
  | ok written => exact ⟨written, rfl⟩
  | error failed =>
      rw [hWrite] at h
      cases h

/-- What a schedule picks is an orderly step. -/
theorem perform?_sound {choice : Choice} (h : s.perform? settings choice = some (move, after)) :
    Orderly settings s move after := by
  cases choice with
  | arrive name errand =>
      simp only [perform?, Option.ite_none_right_eq_some] at h
      obtain ⟨⟨hNew, hOffered⟩, hMove⟩ := h
      cases hMove
      exact .of_calm rfl (.arrive hNew hOffered)
  | look name =>
      simp only [perform?, Option.bind_eq_bind, Option.bind_eq_some_iff] at h
      obtain ⟨p, hClient, hMove⟩ := h
      cases hMove
      exact .of_calm rfl (.look (mem_of_pursuit? hClient))
  | join name =>
      simp only [perform?, Option.bind_eq_bind, Option.bind_eq_some_iff,
        Option.ite_none_right_eq_some] at h
      obtain ⟨p, hClient, b, hBuilding, hIdle, hMove⟩ := h
      cases hMove
      exact .of_calm rfl (.join (mem_of_pursuit? hClient) hBuilding hIdle)
  | work place =>
      simp only [perform?, Option.bind_eq_bind, Option.bind_eq_some_iff] at h
      obtain ⟨job, hPlace, hMove⟩ := h
      have hJob : job ∈ s.jobs := List.mem_of_getElem? hPlace
      split at hMove
      · cases hMove
      · rename_i hGoing
        obtain ⟨hStorable, hMove⟩ := Option.ite_none_right_eq_some.mp hMove
        cases hMove
        refine ⟨⟨.work hJob hGoing, by simp⟩, ?_, by simp⟩
        intro specifier m content next resolved hSame
        injection hSame with hBuilding hStage
        exact write_of_storable hBuilding hStage hStorable
  | publish place =>
      simp only [perform?, Option.bind_eq_bind, Option.bind_eq_some_iff] at h
      obtain ⟨job, hPlace, hMove⟩ := h
      split at hMove
      · rename_i hEnded
        cases hMove
        exact .of_calm rfl (.publish (List.mem_of_getElem? hPlace) hEnded)
      · cases hMove
  | answer name =>
      simp only [perform?, Option.bind_eq_bind, Option.bind_eq_some_iff] at h
      obtain ⟨p, hClient, result, hSettled, hMove⟩ := h
      cases hMove
      exact .of_calm rfl (.answer (mem_of_pursuit? hClient) hSettled)
  | receive name =>
      simp only [perform?, Option.bind_eq_bind, Option.bind_eq_some_iff] at h
      obtain ⟨p, hClient, d, hDelivery, result, hReceived, hMove⟩ := h
      have hDue : d ∈ s.world.coordinator.due := List.mem_of_find?_eq_some hDelivery
      have hName : d.client = name := by simpa using List.find?_some hDelivery
      cases hMove
      subst hName
      exact .of_calm rfl (.receive hDue (mem_of_pursuit? hClient) hReceived)
  | leave name =>
      simp only [perform?, Option.bind_eq_bind, Option.bind_eq_some_iff] at h
      obtain ⟨p, hClient, hMove⟩ := h
      cases hMove
      exact .of_calm rfl (.leave ⟨p, mem_of_pursuit? hClient⟩)
  | restart process =>
      simp only [perform?] at h
      split at h
      · rename_i hJobs hStart
        cases h
        exact ⟨⟨.restart process hStart, by simp⟩, by simp, fun _ => hJobs⟩
      · cases h

theorem Run.mono {R Q : Service → Move → Service → Prop} {start : Service} {moves : List Move}
    (hMono : ∀ s move after, R s move after → Q s move after) (hRun : Run R start moves s) :
    Run Q start moves s := by
  induction hRun with
  | refl => exact .refl
  | step run hStep ih => exact ih.step (hMono _ _ _ hStep)

/-- A schedule makes an orderly run. -/
theorem run_performs {start : Service} {moves : List Move} (choices : List Choice)
    (hRun : Run (Orderly settings) start moves s) :
    Run (Orderly settings) start (performs settings choices moves s).1
      (performs settings choices moves s).2 := by
  induction choices generalizing moves s with
  | nil => exact hRun
  | cons choice later ih =>
      rw [performs]
      split
      · rename_i move after hPerformed
        exact ih (hRun.step (perform?_sound hPerformed))
      · exact hRun

end Service

end ModuleGateway
