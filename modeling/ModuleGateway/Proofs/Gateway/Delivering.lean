import ModuleGateway.Proofs.Gateway.BuiltOnce
import ModuleGateway.Proofs.Gateway.Dispatch
import ModuleGateway.Proofs.Gateway.Finishing
import ModuleGateway.Proofs.Gateway.Prewarmed
import ModuleGateway.Proofs.Gateway.Waiting
import Mathlib.Data.List.Induction

/-!
Waiting for prewarming is one of the ways in which its tasks can come between each other: those that need a
build arrive and join first, then the jobs run one after the other. So it counts what is ready at the end.
-/

namespace ModuleGateway

open Build

namespace Gateway

variable {g : Gateway} {fs : FileSystem} {w : World} {specifier : String} {b : Building}

/-- Whether the store takes what a job writes next. -/
def takes (g : Gateway) (fs : FileSystem) : Building → Stage → Bool
  | .vendor specifier _, .persisting content => (g.store.write fs specifier content).toOption.isSome
  | _, _ => true

/-- A step of a job may be taken in a steady run: what it writes is stored, and no package is changed. -/
structure Smooth (g : Gateway) (b : Building) (w : World) (stage : Stage) : Prop where
  writes : g.takes w.fs b stage = true
  still : ∀ specifier ∈ g.warmable, g.LiesStill w.fs (g.advance b w stage).2.fs specifier

instance (stage : Stage) : Decidable (g.Smooth b w stage) :=
  decidable_of_iff
    (g.takes w.fs b stage = true ∧
      ∀ specifier ∈ g.warmable, g.LiesStill w.fs (g.advance b w stage).2.fs specifier)
    ⟨fun ⟨hWrites, hStill⟩ => ⟨hWrites, hStill⟩, fun h => ⟨h.writes, h.still⟩⟩

/-- All steps of a job that runs to its end may be taken in a steady run. -/
def RunsSmoothly (g : Gateway) (w : World) (b : Building) : Prop :=
  ∀ k < longestJob, g.Smooth b (g.advances b k (Stage.first b) w).2
    (g.advances b k (Stage.first b) w).1

/-- Jobs that run one after the other, all smoothly. -/
def RunSmoothly (g : Gateway) : World → List Building → Prop
  | _, [] => True
  | w, b :: rest => g.RunsSmoothly w b ∧ g.RunSmoothly (g.work w b).2 rest

instance : Decidable (g.RunsSmoothly w b) :=
  inferInstanceAs (Decidable (∀ k < longestJob, _))

instance decidableRunSmoothly (g : Gateway) :
    (w : World) → (jobs : List Building) → Decidable (g.RunSmoothly w jobs)
  | _, [] => .isTrue trivial
  | w, b :: rest =>
    have := decidableRunSmoothly g (g.work w b).2 rest
    inferInstanceAs (Decidable (g.RunsSmoothly w b ∧ g.RunSmoothly (g.work w b).2 rest))

/-- What a task has seen of an entry when it has looked twice. -/
def sight (g : Gateway) (w : World) (specifier : String) : Warming :=
  g.glance w (g.glance w (.checking specifier))

theorem onTheWay_sight (g : Gateway) (w : World) (specifier : String) :
    g.OnTheWay w.fs specifier (.warming (g.sight w specifier)) :=
  onTheWay_look (onTheWay_look (p := .warming (.checking specifier)) rfl)

/-- After two looks a task has ended, or needs the build of the module. -/
theorem sight_cases (g : Gateway) (w : World) (specifier : String) :
    (∃ ready, g.sight w specifier = .ended ready) ∨
      ∃ m, g.sight w specifier = .building (.vendor specifier m) := by
  cases hReady : (g.sources.global? specifier).isSome || g.store.contains w.fs specifier with
  | true => exact .inl ⟨true, by simp [sight, glance, hReady]⟩
  | false =>
      cases hPlace : g.sources.locate? w.fs specifier with
      | some m => exact .inr ⟨m, by simp [sight, glance, hReady, hPlace]⟩
      | none => exact .inl ⟨false, by simp [sight, glance, hReady, hPlace]⟩

theorem building_of_building? (h : (g.sight w specifier).building? = some b) :
    g.sight w specifier = .building b := by
  rcases g.sight_cases w specifier with ⟨ready, hEnded⟩ | ⟨m, hBuilding⟩
  · rw [hEnded] at h
    cases h
  · rw [hBuilding] at h ⊢
    cases h
    rfl

/-- Whether the module that a build is for is ready. -/
def readies (g : Gateway) (fs : FileSystem) : Building → Bool
  | .vendor specifier _ => g.isReady fs specifier
  | .source .. => false

/-- Entries are ready by what their tasks saw, or by what these were told. -/
theorem countP_isReady {specifiers : List String}
    (hSeen : ∀ specifier ∈ specifiers, ∀ ready, g.sight w specifier = .ended ready →
      g.isReady fs specifier = ready) :
    specifiers.countP (g.isReady fs) =
      (specifiers.map (g.sight w)).countP (· = .ended true) +
        ((specifiers.map (g.sight w)).filterMap Warming.building?).countP (g.readies fs) := by
  induction specifiers with
  | nil => rfl
  | cons specifier rest ih =>
      rw [List.countP_cons, ih fun other hMem => hSeen other (List.mem_cons_of_mem _ hMem),
        List.map_cons, List.countP_cons, List.filterMap_cons]
      rcases g.sight_cases w specifier with ⟨ready, hEnded⟩ | ⟨m, hBuilding⟩
      · rw [hSeen specifier List.mem_cons_self ready hEnded, hEnded]
        cases ready with
        | true => simp [Warming.building?, Nat.add_right_comm]
        | false => simp [Warming.building?]
      · have hReadies : g.readies fs (.vendor specifier m) = g.isReady fs specifier := rfl
        rw [hBuilding]
        simp [Warming.building?, List.countP_cons, hReadies, Nat.add_assoc]

end Gateway

namespace Service

variable {settings : Settings} {g : Gateway} {fs : FileSystem} {w : World} {name specifier : String}
  {moves : List Move} {move : Move} {s t after : Service} {p q : Pursuit} {b : Building}

theorem Steady.of_smooth {job : Job} (hJob : job ∈ s.jobs)
    (hGoing : ∀ outcome, job.stage ≠ .ended outcome)
    (hSmooth : s.gateway.Smooth job.building s.world job.stage) :
    Steady settings s (workMove s job) (s.advance job) where
  step := .work hJob hGoing
  change := fun hMove => by cases hMove
  restart := fun hMove => by cases hMove
  lasts := fun hMove => by cases hMove
  writes := fun specifier m content _ _ hMove => by
    injection hMove with hBuilding hStage
    exact write_of_storable hBuilding hStage hSmooth.writes
  still := hSmooth.still

/-! ### The tasks arrive -/

/-- The tasks that need builds, named by their places. -/
def seated (bs : List Building) : List (String × Pursuit) :=
  bs.zipIdx.map fun (b, place) => (toString place, .warming (.building b))

theorem seated_concat (bs : List Building) (b : Building) :
    seated (bs ++ [b]) = seated bs ++ [(toString bs.length, .warming (.building b))] := by
  simp [seated, List.zipIdx_append]

theorem place_of_seated {bs : List Building} {c : String × Pursuit} (h : c ∈ seated bs) :
    ∃ i, ∃ hPlace : i < bs.length, c = (toString i, .warming (.building bs[i])) := by
  obtain ⟨⟨b, i⟩, hMem, rfl⟩ := List.mem_map.mp h
  obtain ⟨hPlace, hSame⟩ := List.getElem?_eq_some_iff.mp (List.mem_zipIdx_iff_getElem?.mp hMem)
  exact ⟨i, hPlace, by rw [hSame]⟩

/-- The last client comes further. -/
theorem setClient_concat {front : List (String × Pursuit)} {origin : FileSystem} {jobs : List Job}
    (hNew : ∀ c ∈ front, c.1 ≠ name) :
    setClient ⟨g, origin, w, front ++ [(name, p)], jobs⟩ name q =
      ⟨g, origin, w, front ++ [(name, q)], jobs⟩ := by
  have hFront : (front.map fun c => if c.1 = name then (name, q) else c) = front := by
    rw [List.map_congr_left fun c hMem => if_neg (hNew c hMem), List.map_id']
  simp [setClient, hFront]

theorem run_arrivals (settings : Settings) (g : Gateway) (fs : FileSystem) (bs : List Building)
    (hWanted : ∀ b ∈ bs, ∃ specifier ∈ g.warmable,
      g.sight (g.newWorld fs) specifier = .building b) :
    ∃ moves, Run (Steady settings) (fresh g fs) moves ⟨g, fs, g.newWorld fs, seated bs, []⟩ := by
  induction bs using List.reverseRecOn with
  | nil => exact ⟨[], .refl⟩
  | append_singleton bs b ih =>
      obtain ⟨moves, hRun⟩ := ih fun other hMem => hWanted other (List.mem_append_left _ hMem)
      obtain ⟨specifier, hWarmable, hSight⟩ := hWanted b (List.mem_append_right _ List.mem_cons_self)
      have hNew : ∀ c ∈ seated bs, c.1 ≠ toString bs.length := by
        intro c hMem hName
        obtain ⟨i, hPlace, rfl⟩ := place_of_seated hMem
        exact Nat.ne_of_lt hPlace (Gateway.toString_injective hName)
      have hOffered : (Errand.prewarm specifier).Offered g := hWarmable
      have hArrive := hRun.step (.of_calm rfl (.arrive hNew hOffered))
      have hFirst := hArrive.step (.of_calm rfl (.look (List.mem_append_right _ List.mem_cons_self)))
      simp only [setClient_concat hNew] at hFirst
      have hSecond := hFirst.step (.of_calm rfl (.look (List.mem_append_right _ List.mem_cons_self)))
      simp only [setClient_concat hNew] at hSecond
      have hTwice : Pursuit.look g (g.newWorld fs) (Pursuit.look g (g.newWorld fs)
          ((Errand.prewarm specifier).begin g)) = .warming (g.sight (g.newWorld fs) specifier) := rfl
      rw [hTwice, hSight, ← seated_concat] at hSecond
      exact ⟨_, hSecond⟩

/-! ### They join the jobs -/

/-- The jobs that the tasks of some builds have started, and the world, when these have joined in turn. -/
def joinedTo (w : World) (front : List Building) : List Building × World :=
  front.zipIdx.foldl Gateway.joinNext ([], w)

theorem joinedTo_concat (w : World) (front : List Building) (b : Building) :
    joinedTo w (front ++ [b]) = Gateway.joinNext (joinedTo w front) (b, front.length) := by
  simp [joinedTo, List.zipIdx_append]

/-- The first places have joined: the jobs that they started are all at their beginning, and they wait in
the order of their places. -/
structure Joined (w : World) (front : List Building) (jobs : List Job) : Prop where
  buildings : jobs.map Job.building = (joinedTo w front).1
  first : ∀ j ∈ jobs, j.stage = Stage.first j.building
  waiting : (joinedTo w front).2.coordinator.waiting.map Waiter.client =
    (List.range front.length).map toString

theorem Joined.concat {front : List Building} {jobs : List Job} (h : Joined w front jobs)
    (b : Building) :
    Joined w (front ++ [b])
      (if (joinedTo w front).2.coordinator.isBuilding b.key then jobs
        else jobs ++ [⟨(joinedTo w front).2.coordinator.started, b, Stage.first b⟩]) where
  buildings := by
    rw [joinedTo_concat]
    simp only [Gateway.joinNext]
    split
    · exact h.buildings
    · rw [List.map_append, h.buildings]
      rfl
  first := fun j hJob => by
    split at hJob
    · exact h.first j hJob
    · rcases List.mem_append.mp hJob with hOld | hNew
      · exact h.first j hOld
      · obtain rfl := List.mem_singleton.mp hNew
        rfl
  waiting := by
    rw [joinedTo_concat, List.length_append, List.length_singleton, List.range_succ, List.map_append,
      ← h.waiting]
    exact Coordinator.waiting_request _ _ _

theorem run_joins {bs back front : List Building} (hSplit : bs = front ++ back)
    (hRun : Run (Steady settings) (fresh g fs) moves ⟨g, fs, w, seated bs, []⟩)
    (hIdle : w.coordinator.waiting = []) :
    ∃ later jobs, Run (Steady settings) (fresh g fs) later
        ⟨g, fs, (joinedTo w front).2, seated bs, jobs⟩ ∧ Joined w front jobs := by
  induction front using List.reverseRecOn generalizing back with
  | nil =>
      have hNone : Joined w [] [] := ⟨rfl, fun j hJob => (by cases hJob), by simp [joinedTo, hIdle]⟩
      exact ⟨moves, [], hRun, hNone⟩
  | append_singleton front b ih =>
      rw [List.append_assoc] at hSplit
      obtain ⟨earlier, jobs, hJoins, hJoined⟩ := ih hSplit
      have hClient : (toString front.length, Pursuit.warming (.building b)) ∈ seated bs := by
        refine List.mem_map.mpr ⟨(b, front.length), List.mem_zipIdx_iff_getElem?.mpr ?_, rfl⟩
        simp [hSplit]
      have hFree : ∀ waiter ∈ (joinedTo w front).2.coordinator.waiting,
          waiter.client ≠ toString front.length := by
        intro waiter hWaiter hName
        have hMem := List.mem_map_of_mem hWaiter (f := Waiter.client)
        rw [hJoined.waiting, List.mem_map] at hMem
        obtain ⟨place, hPlace, hSame⟩ := hMem
        exact Nat.ne_of_lt (List.mem_range.mp hPlace) (Gateway.toString_injective (hSame.trans hName))
      have hJoin := hJoins.step (.of_calm rfl (.join hClient rfl hFree))
      refine ⟨.join (toString front.length) b :: earlier, _, ?_, hJoined.concat b⟩
      rw [joinedTo_concat]
      exact hJoin

/-! ### The jobs run one after the other -/

/-- The first job runs to its end and is published. -/
theorem run_through {clients : List (String × Pursuit)} {id : JobId} {rest : List Job}
    (hApart : ∀ j ∈ rest, j.building.key ≠ b.key) (hSmooth : g.RunsSmoothly w b)
    (hRun : Run (Steady settings) (fresh g fs) moves
      ⟨g, fs, w, clients, ⟨id, b, Stage.first b⟩ :: rest⟩) :
    ∃ later, Run (Steady settings) (fresh g fs) later ⟨g, fs, (g.work w b).2, clients, rest⟩ := by
  obtain ⟨worked, hWorked⟩ := run_advances Gateway.longestJob hApart (fun k hLess now there hState hGoing => by
      have hStep := hSmooth k hLess
      rw [hState] at hStep
      exact .of_smooth List.mem_cons_self hGoing hStep) hRun
  obtain ⟨outcome, hEnded⟩ := Gateway.advances_ends g b w
  have hPublish := hWorked.step (.of_calm rfl (.publish List.mem_cons_self hEnded))
  have hLeft : (⟨id, b, (g.advances b Gateway.longestJob (Stage.first b) w).1⟩ :: rest).filter
      (·.building.key ≠ b.key) = rest := by
    rw [List.filter_cons_of_neg (by simp)]
    exact List.filter_eq_self.mpr fun j hJob => by simpa using hApart j hJob
  rw [publish, hLeft] at hPublish
  exact ⟨_, hPublish⟩

/-- All jobs run to their ends, one after the other. -/
theorem run_works {clients : List (String × Pursuit)} {jobs : List Job}
    (hFirst : ∀ j ∈ jobs, j.stage = Stage.first j.building)
    (hSmooth : g.RunSmoothly w (jobs.map Job.building))
    (hRun : Run (Steady settings) (fresh g fs) moves ⟨g, fs, w, clients, jobs⟩) :
    ∃ later, Run (Steady settings) (fresh g fs) later
      ⟨g, fs, (jobs.map Job.building).foldl (fun w b => (g.work w b).2) w, clients, []⟩ := by
  induction jobs generalizing w moves with
  | nil => exact ⟨moves, hRun⟩
  | cons job rest ih =>
      obtain ⟨hThis, hRest⟩ := hSmooth
      obtain ⟨id, b, stage⟩ := job
      obtain rfl : stage = Stage.first b := hFirst _ List.mem_cons_self
      have hBooked : Booked _ := hRun.invariant (booked_fresh g fs) fun h hStep => hStep.step.booked h
      have hApart : ∀ j ∈ rest, j.building.key ≠ b.key := by
        intro j hJob hKey
        exact (List.nodup_cons.mp hBooked.keys).1 (List.mem_map.mpr ⟨j, hJob, hKey⟩)
      obtain ⟨worked, hWorked⟩ := run_through hApart hThis hRun
      exact ih (fun j hJob => hFirst j (List.mem_cons_of_mem _ hJob)) hRest hWorked

/-- The world in which waiting counts is reached by steady steps, when its jobs run smoothly. The tasks that
needed builds wait in the order of their places. -/
theorem run_worked (settings : Settings) (hServed : ∀ specifier ∈ w.warming, specifier ∈ g.warmable)
    (hStart : { w with warming := [] } = g.newWorld fs)
    (hSmooth : g.RunSmoothly (g.joined w).2 (g.joined w).1) :
    ∃ moves, Run (Steady settings) (fresh g fs) moves
        ⟨g, fs, g.worked w, seated ((g.tasks w).filterMap Warming.building?), []⟩ ∧
      (g.worked w).coordinator.waiting.map Waiter.client =
        (List.range ((g.tasks w).filterMap Warming.building?).length).map toString := by
  have hWanted : ∀ b ∈ (g.tasks w).filterMap Warming.building?, ∃ specifier ∈ g.warmable,
      g.sight (g.newWorld fs) specifier = .building b := by
    intro b hMem
    obtain ⟨task, hTask, hBuilding⟩ := List.mem_filterMap.mp hMem
    obtain ⟨specifier, hWarming, rfl⟩ := List.mem_map.mp hTask
    refine ⟨specifier, hServed specifier hWarming, ?_⟩
    rw [← hStart]
    exact Gateway.building_of_building? hBuilding
  obtain ⟨arrived, hArrived⟩ := run_arrivals settings g fs _ hWanted
  rw [← hStart] at hArrived
  have hIdle : w.coordinator.waiting = [] := congrArg (·.coordinator.waiting) hStart
  obtain ⟨joins, jobs, hJoins, hJoined⟩ := run_joins (List.append_nil _).symm hArrived hIdle
  have hJobs : jobs.map Job.building = (g.joined w).1 := hJoined.buildings
  rw [← hJobs] at hSmooth
  obtain ⟨moves, hRun⟩ := run_works hJoined.first hSmooth hJoins
  rw [hJobs] at hRun
  refine ⟨moves, hRun, ?_⟩
  rw [Gateway.worked, Gateway.waiting_works]
  exact hJoined.waiting

/-! ### What is counted -/

/-- When no job runs, whoever waits for a module is told whether there is an entry for it. -/
theorem told_of_waiter {waiter : Waiter} {m : Package.Located} (hBooked : Booked s)
    (hSound : Sound g specifier s) (hJobs : s.jobs = [])
    (hWaiter : waiter ∈ s.world.coordinator.waiting) (hClient : (waiter.client, p) ∈ s.clients)
    (hBuilding : p.building? = some (.vendor specifier m)) :
    ∃ ending, s.world.coordinator.ended.lookup waiter.job = some ending ∧
      g.Decided s.world.fs specifier ending.outcome.isSuccess := by
  obtain ⟨q, b, hThere, hNeeds, hState⟩ := hBooked.waiters waiter hWaiter
  rcases hState with ⟨j, hRuns, -⟩ | hEnded
  · rw [hJobs] at hRuns
    cases hRuns
  · obtain ⟨ending, hEnding⟩ := Option.isSome_iff_exists.mp hEnded
    exact ⟨ending, hEnding, hSound.results waiter hWaiter p _ hClient hBuilding ending hEnding m rfl⟩

/-- The results that are due are as many successes as there are modules that are ready. -/
theorem countP_due {bs : List Building} (hBooked : Booked s) (hJobs : s.jobs = [])
    (hClients : s.clients = seated bs)
    (hWaiting : s.world.coordinator.waiting.map Waiter.client = (List.range bs.length).map toString)
    (hVendor : ∀ b ∈ bs, ∃ specifier m, b = .vendor specifier m ∧ Sound g specifier s ∧
      g.sources.global? specifier = none) :
    s.world.coordinator.due.countP (·.outcome.isSuccess) = bs.countP (g.readies s.world.fs) := by
  have hLength : s.world.coordinator.waiting.length = bs.length := by
    simpa using congrArg List.length hWaiting
  rw [Coordinator.due, List.countP_filterMap]
  have hSame : s.world.coordinator.waiting.map (fun waiter =>
      (((s.world.coordinator.ended.lookup waiter.job).map fun e =>
        (⟨waiter.client, waiter.job, e.outcome⟩ : Delivery)).map
          (·.outcome.isSuccess)).getD false) = bs.map (g.readies s.world.fs) := by
    refine List.ext_getElem (by simp [hLength]) fun i hWaits hPlace => ?_
    rw [List.length_map] at hWaits hPlace
    rw [List.getElem_map, List.getElem_map]
    have hName : s.world.coordinator.waiting[i].client = toString i := by
      have hHere := List.getElem_of_eq hWaiting (by simpa using hWaits)
      simpa using hHere
    obtain ⟨specifier, m, hBuilding, hSound, hNoGlobal⟩ := hVendor bs[i] (List.getElem_mem hPlace)
    have hClient : (s.world.coordinator.waiting[i].client, Pursuit.warming (.building bs[i])) ∈
        s.clients := by
      rw [hName, hClients]
      exact List.mem_map.mpr ⟨(bs[i], i), by simp [List.mem_zipIdx_iff_getElem?], rfl⟩
    obtain ⟨ending, hEnding, hDecided⟩ := told_of_waiter hBooked hSound hJobs
      (List.getElem_mem hWaits) hClient (congrArg some hBuilding)
    rw [hEnding, hBuilding]
    show ending.outcome.isSuccess = g.isReady s.world.fs specifier
    rw [Gateway.isReady, hNoGlobal, hDecided.entry]
    rfl
  have hCount := congrArg (List.countP id) hSame
  rw [List.countP_map, List.countP_map] at hCount
  exact hCount

theorem Run.verdict {ready : Bool} (hRun : Run (Steady settings) (fresh g fs) moves s)
    (hLegible : g.store.Legible fs) (hWarmable : specifier ∈ g.warmable)
    (hVerdict : g.Verdict fs specifier ready) : g.Verdict s.world.fs specifier ready := by
  induction hRun with
  | refl => exact hVerdict
  | step run hStep ih => exact (hStep.onward (run.sound hLegible hWarmable).2 hWarmable).verdict ih

/-- Prewarming that runs by itself is counted right: waiting returns the number of the entries that are
ready when it returns. -/
theorem wait_eq_countP (hLegible : g.store.Legible fs) {w : World}
    (hBegun : (g.prewarm (g.newWorld fs)).2 = w)
    (hSmooth : g.RunSmoothly (g.joined w).2 (g.joined w).1) :
    (g.wait w).1 = g.warmable.countP (g.isReady (g.wait w).2.fs) := by
  have hWarming : w.warming = g.warmable := by rw [← hBegun]; rfl
  have hStart : { w with warming := [] } = g.newWorld fs := by rw [← hBegun]; rfl
  have hFiles : w.fs = fs := congrArg World.fs hStart
  obtain ⟨moves, hRun, hWaiting⟩ := run_worked g.settings (fun x hMem => hWarming ▸ hMem) hStart hSmooth
  have hBooked : Booked _ := hRun.invariant (booked_fresh g fs) fun h hStep => hStep.step.booked h
  have hDue := countP_due hBooked rfl rfl hWaiting fun b hMem => by
    obtain ⟨task, hTask, hBuilding⟩ := List.mem_filterMap.mp hMem
    obtain ⟨specifier, hMember, rfl⟩ := List.mem_map.mp hTask
    have hSight := Gateway.building_of_building? hBuilding
    have hWay := g.onTheWay_sight w specifier
    rw [hSight] at hWay
    obtain ⟨hNoGlobal, m, rfl⟩ := hWay
    exact ⟨specifier, m, rfl, (hRun.sound hLegible (hWarming ▸ hMember)).2, hNoGlobal⟩
  have hSeen : ∀ specifier ∈ g.warmable, ∀ ready, g.sight w specifier = .ended ready →
      g.isReady (g.worked w).fs specifier = ready := by
    intro specifier hWarmable ready hEnded
    have hWay := g.onTheWay_sight w specifier
    rw [hEnded, hFiles] at hWay
    exact (hRun.verdict hLegible hWarmable hWay).isReady_eq
  rw [Gateway.wait_eq]
  show (g.tasks w).countP _ + _ = g.warmable.countP (g.isReady (g.worked w).fs)
  rw [Gateway.countP_isReady hSeen, hDue, Gateway.tasks, hWarming]
  rfl

/-! ### Prewarming counts what it delivers -/

/-- The tasks with which a service prewarms at its start: one for each entry, each under a name under which
nobody else comes. All of them have ended. -/
structure Awaited (g : Gateway) (fs : FileSystem) (tasks : List (String × String)) (moves : List Move) :
    Prop where
  entries : tasks.map Prod.snd = (g.prewarm (g.newWorld fs)).2.warming
  own : ∀ task ∈ tasks, ∀ errand, .arrive task.1 errand ∈ moves → errand = .prewarm task.2
  ended : ∀ task ∈ tasks, ∃ result, .answer task.1 result ∈ moves

/-- Between two states the module of a specifier is not compiled, and requests for it are given this
content: those that are answered with nothing between, and those whose clients have come since then. -/
structure GivenOut (g : Gateway) (specifier : String) (content : ByteArray) (s : Service)
    (later : List Move) (t : Service) : Prop where
  uncompiled : ∀ m source next resolved,
    .work (.vendor specifier m) (.compiling source) next resolved ∉ later
  handled : ∀ r, g.dispatch r = some (.vendor specifier) →
    g.handle t.world r = (.respond (Gateway.storedResponse r.method content), t.world)
  served : ∀ r, g.dispatch r = some (.vendor specifier) → ∀ name, (∀ c ∈ s.clients, c.1 ≠ name) →
    (∀ errand, .arrive name errand ∈ later → errand = .request r) →
      (∀ b, .join name b ∉ later) ∧
        ∀ result, .answer name result ∈ later →
          result = .replied r (.respond (Gateway.storedResponse r.method content))

theorem seeks_of_dispatch {r : Request} (hWarmable : specifier ∈ g.warmable)
    (hNoGlobal : g.sources.global? specifier = none)
    (hDispatch : g.dispatch r = some (.vendor specifier)) : g.Seeks r specifier := by
  simp only [Gateway.dispatch, Option.ite_none_left_eq_some] at hDispatch
  exact ⟨hDispatch.1, hDispatch.2, (List.mem_filter.mp hWarmable).2, hNoGlobal⟩

/-- What is ready, and no global stands for, is given out from then on. -/
theorem Run.givenOut (hRun : Run (Steady settings) (fresh g fs) moves s) (hLegible : g.store.Legible fs)
    (hWarmable : specifier ∈ g.warmable) (hReady : g.isReady s.world.fs specifier = true)
    (hNoGlobal : g.sources.global? specifier = none) :
    ∃ content, g.store.read? s.world.fs specifier = some content ∧
      ∀ later t, Run (Steady settings) s later t → GivenOut g specifier content s later t := by
  obtain ⟨hBooked, hSound⟩ := hRun.sound hLegible hWarmable
  rw [Gateway.isReady, hNoGlobal, Option.isSome_none, Bool.false_or] at hReady
  obtain ⟨content, hRead⟩ := hSound.legible.read? hReady
  refine ⟨content, hRead, fun later t hLater => ?_⟩
  obtain ⟨-, -, hStored, hNever⟩ := hLater.stays hBooked hSound hWarmable hRead
  refine ⟨hNever, fun r hDispatch => ?_, fun r hDispatch name hNew hOwn => ?_⟩
  · exact Gateway.handle_stored (seeks_of_dispatch hWarmable hNoGlobal hDispatch) hStored
  · have hFetching := hLater.fetching hBooked hSound hWarmable hRead
      (seeks_of_dispatch hWarmable hNoGlobal hDispatch) hNew hOwn
    exact ⟨hFetching.joins, hFetching.replies⟩

/-- Prewarming begins as many tasks as there are entries that name vendor modules. However these come between
each other and between requests, and whatever the compiler makes of each file: if the store can be read and
written and the packages stay as they are, then once all tasks have ended, as many of them are ready as there
are entries for which a global stands or the store has the module, each as often as it is listed. Such a
module is not compiled again, and whoever asks for it from then on is given what is stored. All who wait can
always be answered. Waiting, where the tasks look first and the jobs run one after the other, counts the
same. -/
theorem prewarming_counts_what_it_delivers (settings : Settings) (hLegible : g.store.Legible fs) :
    (∀ w, (g.prewarm w).1 = g.settings.prewarm.countP Specifier.isServable) ∧
    (∀ moves s, Run (Steady settings) (fresh g fs) moves s →
      (∀ tasks, Awaited g fs tasks moves →
        readyTasks tasks moves = g.warmable.countP (g.isReady s.world.fs)) ∧
      ∀ specifier ∈ g.warmable, g.isReady s.world.fs specifier = true →
        g.sources.global? specifier = none →
          ∃ content, g.store.read? s.world.fs specifier = some content ∧
            ∀ later t, Run (Steady settings) s later t → GivenOut g specifier content s later t) ∧
    (∀ moves s, Run (Step settings) (fresh g fs) moves s →
      ∃ later t, Run (Step settings) s later t ∧ (∀ move ∈ later, move.goesOn = true) ∧
        ∀ c ∈ s.clients, ∃ result, .answer c.1 result ∈ later) ∧
    ∀ w, (g.prewarm (g.newWorld fs)).2 = w → g.RunSmoothly (g.joined w).2 (g.joined w).1 →
      (g.wait w).1 = g.warmable.countP (g.isReady (g.wait w).2.fs) := by
  refine ⟨fun w => List.countP_eq_length_filter.symm, fun moves s hRun => ⟨fun tasks hAwaited => ?_, ?_⟩,
    fun moves s hRun => ?_, fun w hBegun hSmooth => wait_eq_countP hLegible hBegun hSmooth⟩
  · exact readyTasks_eq hRun hLegible hAwaited.entries hAwaited.own hAwaited.ended
  · intro specifier hWarmable hReady hNoGlobal
    exact hRun.givenOut hLegible hWarmable hReady hNoGlobal
  · have hBooked : Booked s := hRun.invariant (booked_fresh g fs) fun h hStep => hStep.booked h
    obtain ⟨later, t, hLater, hNone, hGoes⟩ := can_finish settings hBooked
    refine ⟨later, t, hLater, hGoes, fun c hClient => ?_⟩
    rcases hLater.answered_or_there hGoes ⟨c.2, hClient⟩ with ⟨p, hThere⟩ | hAnswered
    · rw [hNone] at hThere
      cases hThere
    · exact hAnswered

/-- The gateway of the project with one package, where that is to be prewarmed twice, and besides it a global,
a package that is not installed, and something that names no module. -/
def crowdedGateway : Gateway :=
  { pairGateway with
    settings := { prewarm := ["a", "react", "../a", "gone", "a"], globals := [("react", "React")] } }

def crowdedTasks : List (String × String) :=
  [("one", "a"), ("two", "react"), ("three", "gone"), ("four", "a")]

def crowdedRequest : Request where
  target := "/modules/vendor/a"

/-- A client comes between the tasks and joins the job of the first one. The last task starts another job,
which finds what that job wrote. -/
def crowdedSchedule : List Choice :=
  [.arrive "one" (.prewarm "a"), .arrive "two" (.prewarm "react"), .arrive "three" (.prewarm "gone"),
    .arrive "four" (.prewarm "a"), .look "one", .look "four", .look "two",
    .arrive "early" (.request crowdedRequest), .look "early", .look "three", .look "one", .join "one",
    .look "early", .look "early", .work 0, .work 0, .join "early", .look "four", .look "three", .work 0,
    .work 0, .answer "three", .publish 0, .join "four", .receive "one", .work 0, .answer "two", .publish 0,
    .receive "four", .receive "early"]

def crowdedRun : List Move × Service :=
  performs crowdedGateway.settings crowdedSchedule [] (fresh crowdedGateway pairFiles)

/-- A client comes after the tasks have ended. -/
def lateSchedule : List Choice :=
  [.arrive "late" (.request crowdedRequest), .look "late", .answer "late"]

def lateRun : List Move × Service :=
  performs crowdedGateway.settings lateSchedule [] crowdedRun.2

/-- Three of four tasks end ready, and the client that comes later is given what the first job wrote. -/
theorem prewarming_counts_what_it_delivers_crowded :
    let begun := crowdedGateway.prewarm (crowdedGateway.newWorld pairFiles)
    begun.1 = 4 ∧ readyTasks crowdedTasks crowdedRun.1 = 3 ∧ (crowdedGateway.wait begun.2).1 = 3 ∧
      ∃ content, crowdedGateway.store.read? crowdedRun.2.world.fs "a" = some content ∧
        (∀ b, .join "late" b ∉ lateRun.1) ∧
        .answer "late" (.replied crowdedRequest
          (.respond (Gateway.storedResponse .get content))) ∈ lateRun.1 := by
  intro begun
  have hLegible : crowdedGateway.store.Legible pairFiles :=
    Store.legible_of_empty (List.isEmpty_iff.mp (by decide +kernel))
  obtain ⟨hBegins, hRuns, -, hWaits⟩ :=
    prewarming_counts_what_it_delivers crowdedGateway.settings hLegible
  obtain ⟨hStill, hThree, hReady, hArrivals, hEnded, hLateStill, hNew, hLateArrivals, hLateAnswer⟩ :
      keepsStill crowdedGateway.settings crowdedSchedule (fresh crowdedGateway pairFiles) = true ∧
        crowdedGateway.warmable.countP (crowdedGateway.isReady crowdedRun.2.world.fs) = 3 ∧
        crowdedGateway.isReady crowdedRun.2.world.fs "a" = true ∧
        (∀ c ∈ crowdedRun.1.filterMap Move.arrival?, ∀ task ∈ crowdedTasks,
          c.1 = task.1 → c.2 = .prewarm task.2) ∧
        (∀ task ∈ crowdedTasks, ∃ ready, .answer task.1 (.warmed ready) ∈ crowdedRun.1) ∧
        keepsStill crowdedGateway.settings lateSchedule crowdedRun.2 = true ∧
        (∀ c ∈ crowdedRun.2.clients, c.1 ≠ "late") ∧
        (∀ c ∈ lateRun.1.filterMap Move.arrival?, c.2 = .request crowdedRequest) ∧
        .answer "late" (.replied crowdedRequest
          (.respond (Gateway.storedResponse .get "export default 1;\n".toUTF8))) ∈ lateRun.1 := by
    decide +kernel
  have hRun : Run (Steady crowdedGateway.settings) (fresh crowdedGateway pairFiles)
      crowdedRun.1 crowdedRun.2 := run_performs_steady _ hStill .refl
  have hLate : Run (Steady crowdedGateway.settings) crowdedRun.2 lateRun.1 lateRun.2 :=
    run_performs_steady _ hLateStill .refl
  have hAwaited : Awaited crowdedGateway pairFiles crowdedTasks crowdedRun.1 := by
    refine ⟨by decide +kernel, fun task hTask errand hMem => ?_, fun task hTask => ?_⟩
    · exact hArrivals (task.1, errand) (List.mem_filterMap.mpr ⟨_, hMem, rfl⟩) task hTask rfl
    · obtain ⟨ready, hMem⟩ := hEnded task hTask
      exact ⟨_, hMem⟩
  obtain ⟨hSmooth, hReadyThen⟩ :
      crowdedGateway.RunSmoothly (crowdedGateway.joined begun.2).2 (crowdedGateway.joined begun.2).1 ∧
        crowdedGateway.warmable.countP (crowdedGateway.isReady (crowdedGateway.wait begun.2).2.fs) = 3 := by
    decide +kernel
  obtain ⟨hCounts, hGives⟩ := hRuns _ _ hRun
  obtain ⟨content, hRead, hGiven⟩ := hGives "a" (by decide +kernel) hReady (by decide +kernel)
  obtain ⟨hNeverJoins, hAnswers⟩ := (hGiven _ _ hLate).served crowdedRequest (by decide +kernel) "late" hNew
    fun errand hMem => hLateArrivals ("late", errand) (List.mem_filterMap.mpr ⟨_, hMem, rfl⟩)
  refine ⟨(hBegins _).trans (by decide +kernel), (hCounts _ hAwaited).trans hThree,
    (hWaits _ rfl hSmooth).trans hReadyThen, content, hRead, hNeverJoins, ?_⟩
  exact hAnswers _ hLateAnswer ▸ hLateAnswer

end Service

end ModuleGateway
