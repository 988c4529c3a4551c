import ModuleGateway.Proofs.Gateway.Misses
import ModuleGateway.Proofs.Gateway.Steady

/-!
Prewarming counts what it delivers. However its tasks come between each other and between requests, each
ends ready exactly if, once all have ended, a global stands for its entry or the store has its module, and
whoever asks for such a module from then on is given what is stored.
-/

namespace ModuleGateway

open Build

namespace Gateway

variable {g : Gateway} {before after : FileSystem} {w : World} {r : Request} {specifier : String}
  {content : ByteArray} {ready : Bool} {p : Pursuit}

/-! ### The way of a task -/

/-- Whether an entry of the settings is ready: a global stands for it, or the store has its module. -/
def isReady (g : Gateway) (fs : FileSystem) (specifier : String) : Bool :=
  (g.sources.global? specifier).isSome || g.store.contains fs specifier

/-- What a task for a specifier may end with: its answer will not become wrong. -/
def Verdict (g : Gateway) (fs : FileSystem) (specifier : String) (ready : Bool) : Prop :=
  ((g.sources.global? specifier).isSome = true ∧ ready = true) ∨
    (g.sources.global? specifier = none ∧ g.Decided fs specifier ready)

/-- How far a task for a specifier can have come. It looks for the module only if there was no entry, which
can have come since then only if the module is there and can be built. -/
def OnTheWay (g : Gateway) (fs : FileSystem) (specifier : String) : Pursuit → Prop
  | .warming (.checking s) => s = specifier
  | .warming (.locating s) =>
    s = specifier ∧ g.sources.global? specifier = none ∧
      (g.store.contains fs specifier = true → g.Buildable fs specifier)
  | .warming (.building b) =>
    g.sources.global? specifier = none ∧ ∃ m, b = .vendor specifier m
  | .warming (.ended ready) => g.Verdict fs specifier ready
  | .asking .. => False

theorem Verdict.isReady_eq (h : g.Verdict before specifier ready) :
    g.isReady before specifier = ready := by
  rcases h with ⟨hGlobal, rfl⟩ | ⟨hNoGlobal, hDecided⟩
  · rw [Gateway.isReady, hGlobal, Bool.true_or]
  · rw [Gateway.isReady, hNoGlobal, hDecided.entry]
    rfl

theorem Onward.verdict (h : g.Onward before after specifier)
    (hVerdict : g.Verdict before specifier ready) : g.Verdict after specifier ready :=
  hVerdict.imp_right fun ⟨hNoGlobal, hDecided⟩ => ⟨hNoGlobal, h.decided hDecided⟩

theorem Onward.onTheWay (h : g.Onward before after specifier)
    (hWay : g.OnTheWay before specifier p) : g.OnTheWay after specifier p := by
  cases p with
  | asking r progress => exact hWay
  | warming t =>
      cases t with
      | checking s => exact hWay
      | building b => exact hWay
      | ended ready => exact h.verdict hWay
      | locating s =>
          obtain ⟨hSame, hNoGlobal, hCame⟩ := hWay
          refine ⟨hSame, hNoGlobal, fun hThere => h.buildable_iff.mpr ?_⟩
          exact (h.built hThere).elim hCame id

/-- A look takes a task further on its way. -/
theorem onTheWay_look (h : g.OnTheWay w.fs specifier p) :
    g.OnTheWay w.fs specifier (p.look g w) := by
  cases p with
  | asking r progress => exact h
  | warming t =>
      show g.OnTheWay w.fs specifier (.warming (g.glance w t))
      have hGlance := g.glance_spec w t
      generalize g.glance w t = next at hGlance ⊢
      cases hGlance with
      | building | ended => exact h
      | @ready s hReady =>
          obtain rfl := h
          rcases hGlobal : g.sources.global? s with _ | expression
          · rw [hGlobal, Option.isSome_none] at hReady
            exact .inr ⟨hGlobal, hReady.resolve_left Bool.false_ne_true, fun hNot => by cases hNot⟩
          · exact .inl ⟨by rw [hGlobal]; rfl, rfl⟩
      | wanted hNoGlobal hMissing =>
          obtain rfl := h
          exact ⟨rfl, by simpa using hNoGlobal, fun hThere => absurd hThere (Bool.eq_false_iff.mp hMissing)⟩
      | @located s m hLocated =>
          obtain ⟨rfl, hNoGlobal, hCame⟩ := h
          exact ⟨hNoGlobal, m, rfl⟩
      | @unlocated s hNowhere =>
          obtain ⟨rfl, hNoGlobal, hCame⟩ := h
          have hNever : ¬ g.Buildable w.fs s := by
            rintro ⟨m, hPlace, -⟩
            cases hNowhere.symm.trans hPlace
          refine .inr ⟨hNoGlobal, ?_, fun _ => hNever⟩
          rw [Bool.eq_false_iff]
          exact fun hThere => hNever (hCame hThere)

/-! ### What is stored is given out -/

/-- The response with the stored module of a specifier. -/
def storedResponse (method : Method) (content : ByteArray) : Response where
  status := 200
  contentType := some AssetKind.script.contentType
  cacheControl := vendorCacheControl
  body := if method = .head then ByteArray.empty else content

theorem fit_vendorResponse (method : Method) (content : ByteArray) :
    (vendorResponse AssetKind.script.contentType content).fit method =
      .respond (storedResponse method content) := by
  cases method <;> rfl

theorem look_stored (hRead : g.store.read? w.fs specifier = some content) :
    g.look r w (.recalling specifier) =
      .answered (vendorResponse AssetKind.script.contentType content) := by
  simp only [look, hRead]

/-- A request for a stored module is answered with it, and nothing is changed. -/
theorem handle_stored (hSeeks : g.Seeks r specifier)
    (hRead : g.store.read? w.fs specifier = some content) :
    g.handle w r = (.respond (storedResponse r.method content), w) := by
  have hLooks : g.looks r w longestLook (g.start r) =
      .answered (vendorResponse AssetKind.script.contentType content) := by
    rw [start_of_seeks hSeeks, longestLook, looks, look_stored hRead, looks_answered]
  rw [handle_of_answered g hLooks, fit_vendorResponse]

end Gateway

namespace Service

variable {settings : Settings} {g : Gateway} {specifier name : String} {content : ByteArray}
  {moves later : List Move} {move : Move} {s t after : Service} {p : Pursuit} {r : Request}

/-! ### Tasks -/

/-- Whoever leaves with an answer has settled, or receives the outcome that it waited for. -/
theorem Step.answered {result : Result} (hStep : Step settings s move after)
    (hMove : move = .answer name result) :
    ∃ p, (name, p) ∈ s.clients ∧ (p.settled? = some result ∨
      ∃ waiter ∈ s.world.coordinator.waiting, ∃ ending, waiter.client = name ∧
        s.world.coordinator.ended.lookup waiter.job = some ending ∧
        p.receive? s.gateway ending.outcome = some result) := by
  cases hStep with
  | answer hClient hSettled =>
      cases hMove
      exact ⟨_, hClient, .inl hSettled⟩
  | receive hDue hClient hReceived =>
      cases hMove
      obtain ⟨waiter, hWaiter, ending, hEnded, rfl⟩ := Coordinator.ending_of_due hDue
      exact ⟨_, hClient, .inr ⟨waiter, hWaiter, ending, rfl, hEnded, hReceived⟩⟩
  | _ => cases hMove

/-- The tasks under a name are for one specifier, are on their way, and have been right. -/
structure Tended (g : Gateway) (name specifier : String) (moves : List Move) (s : Service) :
    Prop where
  clients : ∀ p, (name, p) ∈ s.clients → g.OnTheWay s.world.fs specifier p
  told : ∀ result, .answer name result ∈ moves →
    ∃ ready, result = .warmed ready ∧ g.Verdict s.world.fs specifier ready

theorem Tended.answer {result : Result} (hStep : Step settings s (.answer name result) after)
    (hSound : Sound g specifier s) (h : Tended g name specifier moves s) :
    ∃ ready, result = .warmed ready ∧ g.Verdict s.world.fs specifier ready := by
  obtain ⟨p, hClient, hResult⟩ := hStep.answered rfl
  have hWay := h.clients p hClient
  cases p with
  | asking r progress => exact hWay.elim
  | warming t =>
      rcases hResult with hSettled | ⟨waiter, hWaiter, ending, rfl, hEnded, hReceived⟩
      · cases t with
        | ended ready =>
            cases hSettled
            exact ⟨ready, rfl, hWay⟩
        | _ => cases hSettled
      · cases t with
        | building b =>
            cases hReceived
            obtain ⟨hNoGlobal, m, rfl⟩ := hWay
            have hDecided := hSound.results waiter hWaiter _ _ hClient rfl ending hEnded m rfl
            exact ⟨_, rfl, .inr ⟨hNoGlobal, hDecided⟩⟩
        | _ => cases hReceived

theorem Tended.step (hStep : Steady settings s move after) (hWarmable : specifier ∈ g.warmable)
    (hOwn : ∀ errand, move = .arrive name errand → errand = .prewarm specifier)
    (hSound : Sound g specifier s) (h : Tended g name specifier moves s) :
    Tended g name specifier (move :: moves) after where
  clients := by
    have hOnward := hStep.onward hSound hWarmable
    by_cases hArrives : ∃ errand, move = .arrive name errand
    · obtain ⟨errand, rfl⟩ := hArrives
      obtain rfl := hOwn errand rfl
      cases hStep.step with
      | arrive hNew hOffered =>
          intro p hClient
          rcases List.mem_append.mp hClient with hOld | hLast
          · exact absurd rfl (hNew _ hOld)
          · cases List.mem_singleton.mp hLast
            rfl
    · have hLook (p : Pursuit) (hWay : g.OnTheWay s.world.fs specifier p) :
          g.OnTheWay s.world.fs specifier (p.look s.gateway s.world) := by
        rw [hSound.gateway]
        exact Gateway.onTheWay_look hWay
      have hKept := hStep.step.client_kept (P := fun _ p => g.OnTheWay s.world.fs specifier p)
        (fun errand hMove => hArrives ⟨errand, hMove⟩) hLook h.clients
      exact fun p hClient => hOnward.onTheWay (hKept p hClient)
  told := fun result hMem => by
    have hBefore : ∃ ready, result = .warmed ready ∧
        g.Verdict s.world.fs specifier ready := by
      rcases List.mem_cons.mp hMem with rfl | hOld
      · exact h.answer hStep.step hSound
      · exact h.told result hOld
    obtain ⟨ready, hResult, hVerdict⟩ := hBefore
    exact ⟨ready, hResult, (hStep.onward hSound hWarmable).verdict hVerdict⟩

/-- The answers of the tasks of a run are right at its end. -/
theorem Run.tended {fs : FileSystem} (hRun : Run (Steady settings) (fresh g fs) moves s)
    (hLegible : g.store.Legible fs) (hWarmable : specifier ∈ g.warmable)
    (hOwn : ∀ errand, .arrive name errand ∈ moves → errand = .prewarm specifier) :
    Tended g name specifier moves s := by
  induction hRun with
  | refl => exact ⟨fun p hClient => (by cases hClient), fun result hMem => (by cases hMem)⟩
  | step run hStep ih =>
      refine (ih fun errand hMem => hOwn errand (List.mem_cons_of_mem _ hMem)).step hStep hWarmable
        (fun errand hMove => hOwn errand (hMove ▸ List.mem_cons_self)) (run.sound hLegible hWarmable).2

/-- What waiting for tasks counts: those that ended ready. -/
def readyTasks (tasks : List (String × String)) (moves : List Move) : Nat :=
  tasks.countP fun task => .answer task.1 (.warmed true) ∈ moves

/-- When all tasks have answered, as many have ended ready as there are entries that are ready now. -/
theorem readyTasks_eq {fs : FileSystem} {tasks : List (String × String)}
    (hRun : Run (Steady settings) (fresh g fs) moves s) (hLegible : g.store.Legible fs)
    (hTasks : tasks.map Prod.snd = g.warmable)
    (hOwn : ∀ task ∈ tasks, ∀ errand, .arrive task.1 errand ∈ moves → errand = .prewarm task.2)
    (hDone : ∀ task ∈ tasks, ∃ result, .answer task.1 result ∈ moves) :
    readyTasks tasks moves = g.warmable.countP (g.isReady s.world.fs) := by
  rw [readyTasks, ← hTasks, List.countP_map]
  refine List.countP_congr fun task hTask => ?_
  have hWarmable : task.2 ∈ g.warmable := hTasks ▸ List.mem_map_of_mem hTask
  have hTended := hRun.tended hLegible hWarmable (hOwn task hTask)
  obtain ⟨result, hMem⟩ := hDone task hTask
  obtain ⟨ready, rfl, hVerdict⟩ := hTended.told result hMem
  rw [decide_eq_true_eq]
  show _ ↔ g.isReady s.world.fs task.2 = true
  constructor
  · intro hTrue
    obtain ⟨_, hSame, hNow⟩ := hTended.told _ hTrue
    cases hSame
    exact hNow.isReady_eq
  · intro hNow
    obtain rfl : ready = true := hVerdict.isReady_eq.symm.trans hNow
    exact hMem

/-! ### Requests from then on -/

/-- What is stored stays, and its module is not compiled again. -/
theorem Run.stays (hRun : Run (Steady settings) t later s) (hBooked : Booked t)
    (hSound : Sound g specifier t) (hWarmable : specifier ∈ g.warmable)
    (hRead : g.store.read? t.world.fs specifier = some content) :
    Booked s ∧ Sound g specifier s ∧ g.store.read? s.world.fs specifier = some content ∧
      ∀ m source next resolved,
        .work (.vendor specifier m) (.compiling source) next resolved ∉ later := by
  induction hRun with
  | refl => exact ⟨hBooked, hSound, hRead, fun m source next resolved hMem => (by cases hMem)⟩
  | step run hStep ih =>
      obtain ⟨hBooks, hNow, hStored, hNever⟩ := ih
      refine ⟨hStep.step.booked hBooks, hStep.sound hBooks hWarmable hNow,
        (hStep.onward hNow hWarmable).keeps content hStored, fun m source next resolved hMem => ?_⟩
      rcases List.mem_cons.mp hMem with rfl | hOld
      · -- The job that compiles knows that there is no entry.
        obtain ⟨job, hJob, hBuilding, hStage⟩ := hStep.step.job_of_work
        obtain ⟨-, hProducing⟩ := hNow.jobs job hJob m hBuilding
        rw [hStage] at hProducing
        cases hProducing.1.symm.trans (Store.contains_of_read? hStored)
      · exact hNever m source next resolved hOld

theorem Step.joined {b : Building} (hStep : Step settings s (.join name b) after) :
    ∃ p, (name, p) ∈ s.clients ∧ p.building? = some b := by
  generalize hMove : Move.join name b = move at hStep
  cases hStep with
  | join hClient hBuilding =>
      cases hMove
      exact ⟨_, hClient, hBuilding⟩
  | _ => cases hMove

/-- The requests under a name are for a stored module: they need no build, and are answered with it. -/
structure Fetching (name : String) (r : Request) (specifier : String) (content : ByteArray)
    (later : List Move) (s : Service) : Prop where
  clients : ∀ p, (name, p) ∈ s.clients → p = .asking r (.recalling specifier) ∨
    p = .asking r (.answered (Gateway.vendorResponse AssetKind.script.contentType content))
  joins : ∀ b, .join name b ∉ later
  replies : ∀ result, .answer name result ∈ later →
    result = .replied r (.respond (Gateway.storedResponse r.method content))

theorem Fetching.step (hStep : Step settings s move after) (hMove : move ≠ .restart)
    (hGateway : s.gateway = g) (hSeeks : g.Seeks r specifier)
    (hRead : g.store.read? s.world.fs specifier = some content)
    (hOwn : ∀ errand, move = .arrive name errand → errand = .request r)
    (h : Fetching name r specifier content later s) :
    Fetching name r specifier content (move :: later) after where
  clients := by
    by_cases hArrives : ∃ errand, move = .arrive name errand
    · obtain ⟨errand, rfl⟩ := hArrives
      obtain rfl := hOwn errand rfl
      cases hStep with
      | arrive hNew hOffered =>
          intro p hClient
          rcases List.mem_append.mp hClient with hOld | hLast
          · exact absurd rfl (hNew _ hOld)
          · cases List.mem_singleton.mp hLast
            rw [hGateway, Errand.begin, Gateway.start_of_seeks hSeeks]
            exact .inl rfl
    · refine hStep.client_kept (P := fun _ p => p = .asking r (.recalling specifier) ∨
        p = .asking r (.answered (Gateway.vendorResponse AssetKind.script.contentType content)))
        (fun errand hMove => hArrives ⟨errand, hMove⟩) ?_ h.clients
      rintro p (rfl | rfl)
      · rw [hGateway, Pursuit.look, Gateway.look_stored hRead]
        exact .inr rfl
      · exact .inr rfl
  joins := fun b hMem => by
    rcases List.mem_cons.mp hMem with rfl | hOld
    · obtain ⟨p, hClient, hBuilding⟩ := hStep.joined
      rcases h.clients p hClient with rfl | rfl <;> cases hBuilding
    · exact h.joins b hOld
  replies := fun result hMem => by
    rcases List.mem_cons.mp hMem with rfl | hOld
    · obtain ⟨p, hClient, hSettled | ⟨waiter, -, ending, -, -, hReceived⟩⟩ := hStep.answered rfl
      · rcases h.clients p hClient with rfl | rfl
        · cases hSettled
        · cases hSettled
          rw [Gateway.fit_vendorResponse]
      · rcases h.clients p hClient with rfl | rfl <;> cases hReceived
    · exact h.replies result hOld

theorem Run.fetching (hRun : Run (Steady settings) t later s) (hBooked : Booked t)
    (hSound : Sound g specifier t) (hWarmable : specifier ∈ g.warmable)
    (hRead : g.store.read? t.world.fs specifier = some content) (hSeeks : g.Seeks r specifier)
    (hNew : ∀ c ∈ t.clients, c.1 ≠ name)
    (hOwn : ∀ errand, .arrive name errand ∈ later → errand = .request r) :
    Fetching name r specifier content later s := by
  induction hRun with
  | refl =>
      exact ⟨fun p hClient => absurd rfl (hNew _ hClient), fun b hMem => (by cases hMem),
        fun result hMem => (by cases hMem)⟩
  | step run hStep ih =>
      obtain ⟨-, hNow, hStored, -⟩ := run.stays hBooked hSound hWarmable hRead
      exact (ih fun errand hMem => hOwn errand (List.mem_cons_of_mem _ hMem)).step hStep.step
        hStep.lasts hNow.gateway hSeeks hStored
        fun errand hMove => hOwn errand (hMove ▸ List.mem_cons_self)

end Service

end ModuleGateway
