import ModuleGateway.Proofs.Gateway.Sequential
import Mathlib.Algebra.GroupWithZero.Nat
import Mathlib.Algebra.Order.BigOperators.Group.List
import Mathlib.Algebra.Order.Group.Nat

/-!
Nobody has to wait for ever. What is left to do for the clients and jobs of a service can be counted, and
as long as there is a client some step of a client or a job makes it less. So from every state that is
reached, all clients can be answered.
-/

namespace ModuleGateway

open Build

/-- The looks that a client can take before it waits for a build or has its answer. -/
def Pursuit.left : Pursuit → Nat
  | .asking _ p => p.left
  | .warming (.checking _) => 2
  | .warming (.locating _) => 1
  | .warming (.building _) => 0
  | .warming (.ended _) => 0

/-- Whether a move is a step of a client on its way to an answer, or of a job. -/
def Move.goesOn : Move → Bool
  | .look _ | .join .. | .work .. | .publish .. | .answer .. => true
  | _ => false

namespace Service

variable {settings : Settings} {s after : Service} {name : String} {p : Pursuit} {job : Job}
  {b : Building} {move : Move} {moves : List Move}

/-! ### What is left to do -/

/-- Whether a client waits for a job. -/
def waits (waiting : List Waiter) (name : String) : Bool :=
  waiting.any (·.client = name)

/-- What joining may take: to join, all steps of a job, and to publish it. -/
def joinCost : Nat :=
  1 + Gateway.longestJob + 1

/-- What is left to do for a client: its looks, the build that it may need, and to leave. -/
def effort (waiting : List Waiter) (c : String × Pursuit) : Nat :=
  1 + if waits waiting c.1 then 0 else c.2.left + joinCost

/-- What is left to do for all clients and jobs. A job is published after its last step. -/
def total (s : Service) : Nat :=
  (s.clients.map (effort s.world.coordinator.waiting)).sum +
    (s.jobs.map fun j => j.stage.left + 1).sum

theorem left_pursuit_look (g : Gateway) (w : World) (p : Pursuit) :
    (p.look g w).left ≤ p.left - 1 := by
  cases p with
  | asking r progress => exact Gateway.left_look g r w progress
  | warming t =>
      show (Pursuit.warming (g.glance w t)).left ≤ _
      have hGlance := g.glance_spec w t
      generalize g.glance w t = next at hGlance ⊢
      cases hGlance <;> simp [Pursuit.left]

/-- A client that has nothing to look for has its answer or needs a build. -/
theorem settled_or_building (h : p.left = 0) :
    (∃ result, p.settled? = some result) ∨ ∃ b, p.building? = some b := by
  cases p with
  | asking r progress =>
      cases progress with
      | building b => exact .inr ⟨b, rfl⟩
      | answered reply => exact .inl ⟨_, rfl⟩
      | _ => cases h
  | warming t =>
      cases t with
      | building b => exact .inr ⟨b, rfl⟩
      | ended ready => exact .inl ⟨_, rfl⟩
      | _ => cases h

theorem left_of_building (h : p.building? = some b) : p.left = 0 := by
  obtain ⟨r, rfl⟩ | rfl := Pursuit.building_cases h
  · rfl
  · rfl

theorem receive?_of_building (g : Gateway) (outcome : Outcome) (h : p.building? = some b) :
    ∃ result, p.receive? g outcome = some result := by
  obtain ⟨r, rfl⟩ | rfl := Pursuit.building_cases h
  · exact ⟨_, rfl⟩
  · exact ⟨_, rfl⟩

theorem effort_of_idle {waiting : List Waiter} (h : waits waiting name = false) :
    effort waiting (name, p) = 1 + (p.left + joinCost) := by
  simp [effort, h]

theorem effort_of_waits {waiting : List Waiter} (h : waits waiting name = true) :
    effort waiting (name, p) = 1 := by
  simp [effort, h]

theorem waits_eq_false {waiting : List Waiter} :
    waits waiting name = false ↔ ∀ waiter ∈ waiting, waiter.client ≠ name := by
  simp [waits]

/-- Who leaves takes nobody else along. -/
theorem waits_cancel {c : Coordinator} {gone : String} (hOther : name ≠ gone) :
    waits (c.cancel gone).waiting name = waits c.waiting name := by
  rw [waits, waits, Coordinator.cancel, List.any_filter]
  congr 1
  funext waiter
  by_cases hName : waiter.client = name
  · simp [hName, hOther]
  · simp [hName]

/-- Whoever waits needs a build. -/
theorem building_of_waits (hBooked : Booked s) (hClient : (name, p) ∈ s.clients)
    (hWaits : waits s.world.coordinator.waiting name = true) :
    ∃ waiter ∈ s.world.coordinator.waiting, ∃ b, waiter.client = name ∧ p.building? = some b ∧
      ((∃ j ∈ s.jobs, j.id = waiter.job ∧ j.building.key = b.key) ∨
        (s.world.coordinator.ended.lookup waiter.job).isSome) := by
  obtain ⟨waiter, hWaiter, hName⟩ := List.any_eq_true.mp hWaits
  obtain rfl : waiter.client = name := by simpa using hName
  obtain ⟨q, b, hThere, hBuilding, hState⟩ := hBooked.waiters waiter hWaiter
  obtain rfl := client_unique hBooked.names hClient hThere
  exact ⟨waiter, hWaiter, b, rfl, hBuilding, hState⟩

/-! ### Sums -/

theorem sum_map_add_le {α : Type} {f g : α → Nat} {a : α} {k : Nat} {l : List α} (hMem : a ∈ l)
    (hLe : ∀ x ∈ l, f x ≤ g x) (hLess : f a + k ≤ g a) :
    (l.map f).sum + k ≤ (l.map g).sum := by
  obtain ⟨before, later, rfl⟩ := List.append_of_mem hMem
  have hBefore : (before.map f).sum ≤ (before.map g).sum :=
    List.sum_le_sum fun x hThere => hLe x (List.mem_append_left _ hThere)
  have hLater : (later.map f).sum ≤ (later.map g).sum :=
    List.sum_le_sum fun x hThere => hLe x (List.mem_append_right _ (List.mem_cons_of_mem _ hThere))
  simp only [List.map_append, List.map_cons, List.sum_append, List.sum_cons]
  omega

/-- A sum gets less when one of its members does and the others stay. -/
theorem sum_change_lt {α : Type} {f : α → Nat} {change : α → α} {a : α} {l : List α} (hMem : a ∈ l)
    (hLess : f (change a) < f a) (hRest : ∀ x ∈ l, x = a ∨ change x = x) :
    ((l.map change).map f).sum < (l.map f).sum := by
  rw [List.map_map]
  show (l.map (f ∘ change)).sum + 1 ≤ (l.map f).sum
  refine sum_map_add_le hMem (fun x hThere => ?_) hLess
  rw [Function.comp_apply]
  rcases hRest x hThere with rfl | hSame
  · exact Nat.le_of_lt hLess
  · rw [hSame]

theorem sum_filter_lt {α : Type} {keep : α → Bool} {f : α → Nat} {a : α} {l : List α} (hMem : a ∈ l)
    (hGone : keep a = false) (hPositive : 0 < f a) :
    ((l.filter keep).map f).sum < (l.map f).sum := by
  obtain ⟨before, later, rfl⟩ := List.append_of_mem hMem
  have hBefore : ((before.filter keep).map f).sum ≤ (before.map f).sum :=
    (List.filter_sublist.map f).sum_le_sum (by simp)
  have hLater : ((later.filter keep).map f).sum ≤ (later.map f).sum :=
    (List.filter_sublist.map f).sum_le_sum (by simp)
  rw [List.filter_append, List.filter_cons_of_neg (by simp [hGone])]
  simp only [List.map_append, List.map_cons, List.sum_append, List.sum_cons]
  omega

/-! ### Steps that make it less -/

theorem total_look (hBooked : Booked s) (hClient : (name, p) ∈ s.clients) (hLeft : 0 < p.left) :
    (s.setClient name (p.look s.gateway s.world)).total < s.total := by
  have hIdle : waits s.world.coordinator.waiting name = false := by
    rw [Bool.eq_false_iff]
    intro hWaits
    obtain ⟨-, -, b, -, hBuilding, -⟩ := building_of_waits hBooked hClient hWaits
    rw [left_of_building hBuilding] at hLeft
    exact Nat.lt_irrefl _ hLeft
  refine Nat.add_lt_add_right (sum_change_lt hClient ?_ fun c hMem => ?_) _
  · have hLess := left_pursuit_look s.gateway s.world p
    show effort s.world.coordinator.waiting _ < effort s.world.coordinator.waiting _
    rw [if_pos rfl, effort_of_idle hIdle, effort_of_idle hIdle]
    omega
  · by_cases hName : c.1 = name
    · have hSame : (name, c.2) ∈ s.clients := hName ▸ hMem
      exact .inl (by rw [client_unique hBooked.names hClient hSame, ← hName])
    · exact .inr (if_neg hName)

/-- A client that joins has less left to do, by what joining may take. -/
theorem sum_effort_join_le (hClient : (name, p) ∈ s.clients)
    (hIdle : ∀ waiter ∈ s.world.coordinator.waiting, waiter.client ≠ name) (id : JobId) :
    (s.clients.map (effort (s.world.coordinator.waiting ++ [⟨name, id⟩]))).sum + joinCost ≤
      (s.clients.map (effort s.world.coordinator.waiting)).sum := by
  have hJoined : waits (s.world.coordinator.waiting ++ [⟨name, id⟩]) name = true := by simp [waits]
  refine sum_map_add_le hClient (fun c hMem => ?_) ?_
  · cases hWaits : waits (s.world.coordinator.waiting ++ [⟨name, id⟩]) c.1 with
    | true =>
        rw [show c = (c.1, c.2) from rfl, effort_of_waits hWaits]
        exact Nat.le_add_right _ _
    | false =>
        have hBefore : waits s.world.coordinator.waiting c.1 = false := by
          rw [waits_eq_false] at hWaits ⊢
          exact fun waiter hWaiter => hWaits waiter (List.mem_append_left _ hWaiter)
        rw [show c = (c.1, c.2) from rfl, effort_of_idle hWaits, effort_of_idle hBefore]
  · rw [effort_of_waits hJoined, effort_of_idle (waits_eq_false.mpr hIdle)]
    omega

theorem total_join (hClient : (name, p) ∈ s.clients)
    (hIdle : ∀ waiter ∈ s.world.coordinator.waiting, waiter.client ≠ name) (b : Building) :
    (s.join name b).total < s.total := by
  have hFirst : (Stage.first b).left + 1 < joinCost := by
    have hLeft := Gateway.left_first b
    simp only [joinCost]
    omega
  cases hFound : s.world.coordinator.jobFor? b.key with
  | some id =>
      rw [join_of_taken hFound]
      have hLess := sum_effort_join_le hClient hIdle id
      simp only [total]
      omega
  | none =>
      rw [join_of_free hFound]
      have hLess := sum_effort_join_le hClient hIdle s.world.coordinator.started
      simp only [total, List.map_append, List.map_singleton, List.sum_append, List.sum_singleton]
      omega

theorem total_work (hBooked : Booked s) (hJob : job ∈ s.jobs)
    (hGoing : ∀ outcome, job.stage ≠ .ended outcome) : (s.advance job).total < s.total := by
  have hLeft : job.stage.left ≠ 0 := by
    intro hNone
    cases hStage : job.stage with
    | ended outcome => exact hGoing outcome hStage
    | _ =>
        rw [hStage] at hNone
        cases hNone
  have hWaiting : (s.advance job).world.coordinator.waiting = s.world.coordinator.waiting :=
    congrArg Coordinator.waiting (advance_coordinator _ _ _ _)
  rw [total, total, hWaiting]
  refine Nat.add_lt_add_left (sum_change_lt hJob ?_ fun j hMem => ?_) _
  · have hNext : (s.next job).1.left ≤ job.stage.left - 1 :=
      Gateway.left_advance s.gateway job.building s.world job.stage
    rw [if_pos rfl]
    show (s.next job).1.left + 1 < job.stage.left + 1
    omega
  · by_cases hKey : j.building.key = job.building.key
    · exact .inl (job_unique hBooked.keys hMem hJob hKey)
    · exact .inr (if_neg hKey)

theorem total_publish (hBooked : Booked s) (hJob : job ∈ s.jobs) : (s.publish job).total < s.total := by
  rw [Service.publish, finish_of_job hBooked hJob]
  exact Nat.add_lt_add_left (sum_filter_lt hJob (by simp) (Nat.succ_pos _)) _

theorem total_dropClient (hClient : (name, p) ∈ s.clients) : (s.dropClient name).total < s.total := by
  refine Nat.add_lt_add_right ?_ _
  have hSame : (s.dropClient name).clients.map (effort (s.dropClient name).world.coordinator.waiting) =
      (s.dropClient name).clients.map (effort s.world.coordinator.waiting) := by
    refine List.map_congr_left fun c hMem => ?_
    have hOther : c.1 ≠ name := by simpa using (List.mem_filter.mp hMem).2
    have hWaits : waits (s.dropClient name).world.coordinator.waiting c.1 =
        waits s.world.coordinator.waiting c.1 := waits_cancel hOther
    simp only [effort, hWaits]
  rw [hSame]
  exact sum_filter_lt hClient (by simp) (Nat.lt_of_lt_of_le Nat.one_pos (Nat.le_add_right _ _))

/-- As long as there is a client, something can be done that leaves less to do. -/
theorem exists_less (settings : Settings) (hBooked : Booked s) (hClients : s.clients ≠ []) :
    ∃ move after, Step settings s move after ∧ move.goesOn = true ∧ after.total < s.total := by
  rcases hJobs : s.jobs with _ | ⟨job, others⟩
  · obtain ⟨⟨name, p⟩, hClient⟩ := List.exists_mem_of_ne_nil _ hClients
    rcases Nat.eq_zero_or_pos p.left with hNone | hLeft
    · rcases settled_or_building hNone with ⟨result, hSettled⟩ | ⟨b, hBuilding⟩
      · exact ⟨_, _, .answer hClient hSettled, rfl, total_dropClient hClient⟩
      · cases hWaits : waits s.world.coordinator.waiting name with
        | false =>
            have hIdle := waits_eq_false.mp hWaits
            exact ⟨_, _, .join hClient hBuilding hIdle, rfl, total_join hClient hIdle b⟩
        | true =>
            -- Without jobs, the one that is waited for has ended.
            obtain ⟨waiter, hWaiter, needed, rfl, hNeeds, hState⟩ := building_of_waits hBooked hClient hWaits
            rcases hState with ⟨j, hRuns, -⟩ | hEnded
            · rw [hJobs] at hRuns
              cases hRuns
            · obtain ⟨ending, hEnding⟩ := Option.isSome_iff_exists.mp hEnded
              have hDue : ⟨waiter.client, waiter.job, ending.outcome⟩ ∈ s.world.coordinator.due :=
                List.mem_filterMap.mpr ⟨waiter, hWaiter, by rw [hEnding]; rfl⟩
              obtain ⟨result, hReceived⟩ := receive?_of_building s.gateway ending.outcome hBuilding
              exact ⟨_, _, .receive hDue hClient hReceived, rfl, total_dropClient hClient⟩
    · exact ⟨_, _, .look hClient, rfl, total_look hBooked hClient hLeft⟩
  · have hJob : job ∈ s.jobs := hJobs ▸ List.mem_cons_self
    by_cases hEnded : ∃ outcome, job.stage = .ended outcome
    · obtain ⟨outcome, hStage⟩ := hEnded
      exact ⟨_, _, .publish hJob hStage, rfl, total_publish hBooked hJob⟩
    · have hGoing : ∀ outcome, job.stage ≠ .ended outcome := fun outcome hStage => hEnded ⟨outcome, hStage⟩
      exact ⟨_, _, .work hJob hGoing, rfl, total_work hBooked hJob hGoing⟩

/-! ### Everyone is answered -/

theorem Run.trans {R : Service → Move → Service → Prop} {start t : Service} {later : List Move}
    (hFirst : Run R start moves s) (hSecond : Run R s later t) : Run R start (later ++ moves) t := by
  induction hSecond with
  | refl => exact hFirst
  | step run hStep ih => exact ih.step hStep

/-- From any state the clients and jobs can go on until nobody is left. -/
theorem can_finish (settings : Settings) (hBooked : Booked s) :
    ∃ later t, Run (Step settings) s later t ∧ t.clients = [] ∧ ∀ move ∈ later, move.goesOn = true := by
  induction hTotal : s.total using Nat.strong_induction_on generalizing s with
  | _ total ih =>
      by_cases hNone : s.clients = []
      · exact ⟨[], s, .refl, hNone, fun move hMem => (by cases hMem)⟩
      · obtain ⟨move, after, hStep, hGoes, hLess⟩ := exists_less settings hBooked hNone
        obtain ⟨later, t, hRun, hEmpty, hAll⟩ := ih after.total (hTotal ▸ hLess) (hStep.booked hBooked) rfl
        refine ⟨later ++ [move], t, (Run.refl.step hStep).trans hRun, hEmpty, fun other hMem => ?_⟩
        rcases List.mem_append.mp hMem with hLater | hFirst
        · exact hAll other hLater
        · rw [List.mem_singleton.mp hFirst]
          exact hGoes

/-- While all go on, a client is there until it is answered. -/
theorem Step.client_stays (hStep : Step settings s move after) (hGoes : move.goesOn = true)
    (hThere : ∃ p, (name, p) ∈ s.clients) :
    (∃ p, (name, p) ∈ after.clients) ∨ ∃ result, move = .answer name result := by
  obtain ⟨p, hClient⟩ := hThere
  have hDrops (gone : String) (result : Result) : (∃ p, (name, p) ∈ (s.dropClient gone).clients) ∨
      ∃ told, Move.answer gone result = .answer name told := by
    by_cases hName : name = gone
    · exact .inr ⟨result, by rw [hName]⟩
    · exact .inl ⟨p, List.mem_filter.mpr ⟨hClient, by simpa using hName⟩⟩
  cases hStep with
  | @look looker q hLooker =>
      by_cases hName : name = looker
      · exact .inl ⟨_, List.mem_map.mpr ⟨_, hClient, by rw [if_pos hName, hName]⟩⟩
      · exact .inl ⟨p, List.mem_map.mpr ⟨_, hClient, if_neg hName⟩⟩
  | join => exact .inl ⟨p, hClient⟩
  | work => exact .inl ⟨p, hClient⟩
  | publish => exact .inl ⟨p, hClient⟩
  | answer => exact hDrops _ _
  | receive => exact hDrops _ _
  | arrive => cases hGoes
  | leave => cases hGoes
  | change => cases hGoes
  | restart => cases hGoes

/-- Whoever is gone after all went on has been answered. -/
theorem Run.answered_or_there {t : Service} {later : List Move} (hRun : Run (Step settings) s later t)
    (hGoes : ∀ move ∈ later, move.goesOn = true) (hThere : ∃ p, (name, p) ∈ s.clients) :
    (∃ p, (name, p) ∈ t.clients) ∨ ∃ result, .answer name result ∈ later := by
  induction hRun with
  | refl => exact .inl hThere
  | @step earlier move u after run hStep ih =>
      rcases ih fun other hMem => hGoes other (List.mem_cons_of_mem _ hMem) with hStill | ⟨result, hTold⟩
      · refine (hStep.client_stays (hGoes move List.mem_cons_self) hStill).imp_right ?_
        rintro ⟨result, rfl⟩
        exact ⟨result, List.mem_cons_self⟩
      · exact .inr ⟨result, List.mem_cons_of_mem _ hTold⟩

end Service

end ModuleGateway
