import ModuleGateway.Proofs.Gateway.Bookkeeping

/-!
Handling one request at a time is one of the ways in which a service can run: the client arrives, looks
as long as it has to, joins the job for its build, and leaves with the result before anyone else comes.
-/

namespace ModuleGateway

open Build

/-! ### Steps that are left -/

/-- The steps that a request can take before it waits for a build or is answered. -/
def Progress.left : Progress → Nat
  | .recalling _ => 3
  | .trusting _ => 2
  | .locating _ => 1
  | .resolving .. => 2
  | .validating .. => 1
  | .building _ => 0
  | .answered _ => 0

/-- The steps that a job can take before it ends. -/
def Stage.left : Stage → Nat
  | .checking => 4
  | .reading => 3
  | .compiling _ => 2
  | .persisting _ => 1
  | .ended _ => 0

namespace Gateway

theorem left_start (g : Gateway) (r : Request) : (g.start r).left ≤ longestLook := by
  have hStart := g.start_spec r
  generalize g.start r = progress at hStart ⊢
  cases hStart <;> simp [Progress.left, longestLook]

theorem left_look (g : Gateway) (r : Request) (w : World) (p : Progress) :
    (g.look r w p).left ≤ p.left - 1 := by
  have hLook := g.look_spec r w p
  generalize g.look r w p = next at hLook ⊢
  cases hLook <;> simp [Progress.left]

theorem left_looks (g : Gateway) (r : Request) (w : World) (n : Nat) (p : Progress) :
    (g.looks r w n p).left ≤ p.left - n := by
  induction n generalizing p with
  | zero => exact Nat.le_refl _
  | succ n ih =>
      have hLook := left_look g r w p
      have hLooks := ih (g.look r w p)
      rw [looks]
      omega

/-- A request that has as many steps left as the longest look takes comes to a build or an answer. -/
theorem settles_of_left (g : Gateway) (r : Request) (w : World) {p : Progress}
    (hLeft : p.left ≤ longestLook) :
    (∃ reply, g.looks r w longestLook p = .answered reply) ∨
      ∃ b, g.looks r w longestLook p = .building b := by
  have hNone : (g.looks r w longestLook p).left = 0 := by
    have hLooks := left_looks g r w longestLook p
    omega
  cases hEnd : g.looks r w longestLook p with
  | answered reply => exact .inl ⟨reply, rfl⟩
  | building b => exact .inr ⟨b, rfl⟩
  | _ =>
      rw [hEnd] at hNone
      cases hNone

/-- After the longest look every request waits for a build or is answered. -/
theorem looks_settles (g : Gateway) (r : Request) (w : World) :
    (∃ reply, g.looks r w longestLook (g.start r) = .answered reply) ∨
      ∃ b, g.looks r w longestLook (g.start r) = .building b :=
  settles_of_left g r w (left_start g r)

theorem left_first (b : Building) : (Stage.first b).left ≤ longestJob := by
  cases b
  · exact Nat.le_refl 4
  · exact (by decide : 3 ≤ 4)

theorem left_afterLinking (b : Building) (linked : Except String String) :
    (afterLinking b linked).left ≤ 1 := by
  cases linked with
  | error message => exact Nat.zero_le _
  | ok output =>
      cases b with
      | vendor specifier m => exact Nat.le_refl 1
      | source file validator kind => exact Nat.zero_le _

theorem left_advance (g : Gateway) (b : Building) (w : World) (stage : Stage) :
    (g.advance b w stage).1.left ≤ stage.left - 1 := by
  have hAdvance := g.advance_spec b w stage
  generalize (g.advance b w stage).1 = next, (g.advance b w stage).2 = after at hAdvance ⊢
  cases hAdvance with
  | compiled => exact left_afterLinking b _
  | stored | missing | read | unreadable | persisted | ended => simp [Stage.left]

theorem left_advances (g : Gateway) (b : Building) (n : Nat) (stage : Stage) (w : World) :
    (g.advances b n stage w).1.left ≤ stage.left - n := by
  induction n generalizing stage w with
  | zero => exact Nat.le_refl _
  | succ n ih =>
      have hAdvance := left_advance g b w stage
      have hAdvances := ih (g.advance b w stage).1 (g.advance b w stage).2
      show (g.advances b n (g.advance b w stage).1 (g.advance b w stage).2).1.left ≤ _
      omega

/-- After the longest job every job has ended. -/
theorem advances_ends (g : Gateway) (b : Building) (w : World) :
    ∃ outcome, (g.advances b longestJob (Stage.first b) w).1 = .ended outcome := by
  have hNone : (g.advances b longestJob (Stage.first b) w).1.left = 0 := by
    have hLeft := left_advances g b longestJob (Stage.first b) w
    have hFirst := left_first b
    omega
  cases hEnd : (g.advances b longestJob (Stage.first b) w).1 with
  | ended outcome => exact ⟨outcome, rfl⟩
  | _ =>
      rw [hEnd] at hNone
      cases hNone

theorem advances_coordinator (g : Gateway) (b : Building) (n : Nat) (stage : Stage) (w : World) :
    (g.advances b n stage w).2.coordinator = w.coordinator := by
  induction n generalizing stage w with
  | zero => rfl
  | succ n ih =>
      rw [advances]
      exact (ih _ _).trans (Service.advance_coordinator g b w stage)

end Gateway

/-! ### A coordinator with one client -/

/-- No job runs, and nobody waits. -/
structure Build.Coordinator.AtRest (c : Coordinator) : Prop where
  running : c.running = []
  waiting : c.waiting = []

namespace Build.Coordinator

variable {c : Coordinator}

theorem AtRest.isBuilding (h : c.AtRest) (key : String) : c.isBuilding key = false := by
  rw [Coordinator.isBuilding, jobFor?, h.running]
  rfl

theorem AtRest.request (h : c.AtRest) (client key : String) :
    c.request client key =
      { c with
        running := [⟨key, c.started⟩]
        started := c.started + 1
        waiting := [⟨client, c.started⟩] } := by
  rw [Coordinator.request, jobFor?, h.running, h.waiting]
  rfl

/-- The only job ends while its client waits. -/
theorem AtRest.finish (h : c.AtRest) (client key : String) (ending : Ending) :
    (c.request client key).finish key ending =
      { c with
        started := c.started + 1
        ended := (c.started, ending) :: c.ended
        waiting := [⟨client, c.started⟩] } := by
  rw [h.request, Coordinator.finish, jobFor?]
  simp [h.running]

theorem AtRest.cancel (h : c.AtRest) (client : String) : c.cancel client = c := by
  obtain ⟨running, started, ended, waiting⟩ := c
  obtain rfl : waiting = [] := h.waiting
  rfl

end Build.Coordinator

namespace Service

variable {settings : Settings} {start : Service} {moves : List Move} {g : Gateway}
  {origin : FileSystem} {w : World} {name : String} {r : Request} {p : Pursuit}
  {jobs : List Job}

/-- A client that is alone looks several times. -/
theorem run_looks {progress : Progress} (n : Nat)
    (hRun : Run (Step settings) start moves ⟨g, origin, w, [(name, .asking r progress)], jobs⟩) :
    ∃ later, Run (Step settings) start later
      ⟨g, origin, w, [(name, .asking r (g.looks r w n progress))], jobs⟩ := by
  induction n generalizing progress moves with
  | zero => exact ⟨moves, hRun⟩
  | succ n ih =>
      have hLook := hRun.step (Step.look List.mem_cons_self)
      simp only [setClient, List.map_cons, List.map_nil, if_true] at hLook
      exact ih hLook

/-- The first job goes on for several steps, of any kind that allows them. -/
theorem run_advances {R : Service → Move → Service → Prop} {clients : List (String × Pursuit)}
    {id : JobId} {b : Building} {stage : Stage} {rest : List Job} (n : Nat)
    (hApart : ∀ j ∈ rest, j.building.key ≠ b.key)
    (hAllowed : ∀ k < n, ∀ now there, g.advances b k stage w = (now, there) →
      (∀ outcome, now ≠ .ended outcome) →
      R ⟨g, origin, there, clients, ⟨id, b, now⟩ :: rest⟩
        (workMove ⟨g, origin, there, clients, ⟨id, b, now⟩ :: rest⟩ ⟨id, b, now⟩)
        (Service.advance ⟨g, origin, there, clients, ⟨id, b, now⟩ :: rest⟩ ⟨id, b, now⟩))
    (hRun : Run R start moves ⟨g, origin, w, clients, ⟨id, b, stage⟩ :: rest⟩) :
    ∃ later, Run R start later ⟨g, origin, (g.advances b n stage w).2, clients,
      ⟨id, b, (g.advances b n stage w).1⟩ :: rest⟩ := by
  induction n generalizing stage w moves with
  | zero => exact ⟨moves, hRun⟩
  | succ n ih =>
      have hNext := fun k hLess => hAllowed (k + 1) (Nat.succ_lt_succ hLess)
      by_cases hEnded : ∃ outcome, stage = .ended outcome
      · obtain ⟨outcome, rfl⟩ := hEnded
        exact ih hNext hRun
      · have hOthers : (rest.map fun j => if j.building.key = b.key then
            { j with stage := (g.advance b w stage).1 } else j) = rest := by
          rw [List.map_congr_left fun j hJob => if_neg (hApart j hJob), List.map_id']
        have hWork := hRun.step (hAllowed 0 (Nat.succ_pos n) stage w rfl
          fun outcome hStage => hEnded ⟨outcome, hStage⟩)
        simp only [Service.advance, next, List.map_cons, if_true, hOthers] at hWork
        exact ih hNext hWork

/-- The client joins a build, which runs to its end while nobody else comes. -/
theorem run_work {b : Building} (hRest : w.coordinator.AtRest) (hBuilding : p.building? = some b)
    (hRun : Run (Step settings) start moves ⟨g, origin, w, [(name, p)], []⟩) :
    ∃ later, Run (Step settings) start later
      ⟨g, origin, (g.work (w.join name b) b).2, [(name, p)], []⟩ := by
  have hJoin := hRun.step (Step.join List.mem_cons_self hBuilding (by simp [hRest.waiting]))
  simp only [join, hRest.isBuilding, List.nil_append] at hJoin
  obtain ⟨worked, hWorked⟩ :=
    run_advances Gateway.longestJob (by simp)
      (fun _ _ _ _ _ hGoing => .work List.mem_cons_self hGoing) hJoin
  obtain ⟨outcome, hEnded⟩ := Gateway.advances_ends g b (w.join name b)
  have hPublish := hWorked.step (Step.publish List.mem_cons_self hEnded)
  have hNone (job : Job) : [job].filter (·.building.key ≠ job.building.key) = [] := by simp
  rw [publish, hNone] at hPublish
  exact ⟨_, hPublish⟩

theorem work_coordinator (hRest : w.coordinator.AtRest) (b : Building) :
    (g.work (w.join name b) b).2.coordinator =
      { w.coordinator with
        started := w.coordinator.started + 1
        ended := (w.coordinator.started, .returned (g.work (w.join name b) b).1) ::
          w.coordinator.ended
        waiting := [⟨name, w.coordinator.started⟩] } := by
  rw [← hRest.finish name b.key]
  show (g.advances b Gateway.longestJob (Stage.first b) (w.join name b)).2.coordinator.finish _ _ = _
  rw [Gateway.advances_coordinator]
  rfl

theorem dropClient_only :
    dropClient ⟨g, origin, w, [(name, p)], jobs⟩ name =
      ⟨g, origin, { w with coordinator := w.coordinator.cancel name }, [], jobs⟩ := by
  simp [dropClient]

/-- A gateway without clients and jobs that handles a request runs until it is without clients and jobs
again, and the client has left with the reply. -/
theorem handle_run (hRest : w.coordinator.AtRest)
    (hRun : Run (Step settings) start moves ⟨g, origin, w, [], []⟩) (r : Request) :
    ∃ later, Run (Step settings) start
      (.answer Gateway.onlyClient (.replied r (g.handle w r).1) :: later)
      ⟨g, origin, (g.handle w r).2, [], []⟩ := by
  have hArrive : Run (Step settings) start (.arrive Gateway.onlyClient (.request r) :: moves)
      ⟨g, origin, w, [(Gateway.onlyClient, .asking r (g.start r))], []⟩ :=
    hRun.step (.arrive (by simp) trivial)
  obtain ⟨looked, hLooked⟩ := run_looks Gateway.longestLook hArrive
  rcases Gateway.looks_settles g r w with ⟨reply, hAnswered⟩ | ⟨b, hBuilding⟩
  · have hHandle : g.handle w r = (reply.fit r.method, w) := by rw [Gateway.handle, hAnswered]
    rw [hAnswered] at hLooked
    have hAnswer := hLooked.step (Step.answer List.mem_cons_self rfl)
    rw [dropClient_only, hRest.cancel] at hAnswer
    rw [hHandle]
    exact ⟨looked, hAnswer⟩
  · have hHandle : g.handle w r =
        ((g.replyOf b (g.work (w.join Gateway.onlyClient b) b).1).fit r.method,
          (g.work (w.join Gateway.onlyClient b) b).2.wake.2) := by rw [Gateway.handle, hBuilding]
    rw [hBuilding] at hLooked
    obtain ⟨worked, hWorked⟩ := run_work hRest rfl hLooked
    have hBooks : (g.work (w.join Gateway.onlyClient b) b).2.coordinator = _ :=
      work_coordinator hRest b
    have hDue : (⟨Gateway.onlyClient, w.coordinator.started,
        (g.work (w.join Gateway.onlyClient b) b).1⟩ : Delivery) ∈
          (g.work (w.join Gateway.onlyClient b) b).2.coordinator.due := by
      rw [hBooks]
      simp [Coordinator.due, Ending.outcome]
    have hReceive := hWorked.step (Step.receive hDue List.mem_cons_self rfl)
    have hWake : (g.work (w.join Gateway.onlyClient b) b).2.coordinator.cancel Gateway.onlyClient =
        (g.work (w.join Gateway.onlyClient b) b).2.coordinator.wake.2 := by
      rw [hBooks]
      simp [Coordinator.cancel, Coordinator.wake]
    rw [dropClient_only, hWake] at hReceive
    rw [hHandle]
    exact ⟨worked, hReceive⟩

/-- After a request was handled nobody waits and no job runs. -/
theorem handle_rests (hRest : w.coordinator.AtRest) (r : Request) :
    (g.handle w r).2.coordinator.AtRest := by
  rcases Gateway.looks_settles g r w with ⟨reply, hAnswered⟩ | ⟨b, hBuilding⟩
  · rw [Gateway.handle, hAnswered]
    exact hRest
  · rw [Gateway.handle, hBuilding]
    show (g.work (w.join Gateway.onlyClient b) b).2.coordinator.wake.2.AtRest
    rw [work_coordinator hRest]
    exact ⟨hRest.running, by simp [Coordinator.wake]⟩

/-- Handling requests one after another from the start of a gateway is a run. -/
theorem handles_run (g : Gateway) (fs : FileSystem) (requests : List Request) :
    ∃ later, Run (Step settings) (fresh g fs) later
      ⟨g, fs, requests.foldl (fun w r => (g.handle w r).2) (g.newWorld fs), [], []⟩ := by
  suffices hFrom : ∀ (w : World) (moves : List Move), w.coordinator.AtRest →
      Run (Step settings) (fresh g fs) moves ⟨g, fs, w, [], []⟩ →
        ∃ later, Run (Step settings) (fresh g fs) later
          ⟨g, fs, requests.foldl (fun w r => (g.handle w r).2) w, [], []⟩ from
    hFrom (g.newWorld fs) [] ⟨rfl, rfl⟩ .refl
  induction requests with
  | nil => exact fun w moves _ hRun => ⟨moves, hRun⟩
  | cons r rest ih =>
      intro w moves hRest hRun
      obtain ⟨later, hHandled⟩ := handle_run hRest hRun r
      exact ih _ _ (handle_rests hRest r) hHandled

end Service

end ModuleGateway
