import ModuleGateway.Proofs.FileSystem.Tree
import ModuleGateway.Proofs.Gateway.Service
import Mathlib.Data.List.Nodup

/-!
The coordinator and the service agree: the jobs that run are those the coordinator knows, one for each
key, and whoever waits has a job that runs or a result that can be fetched.
-/

namespace ModuleGateway.Service

open Build

/-- The books of a service are in order. -/
structure Booked (s : Service) : Prop where
  /-- The coordinator knows the jobs. -/
  running : s.world.coordinator.running = s.jobs.map fun j => ⟨j.building.key, j.id⟩
  /-- A key has one job. -/
  keys : (s.jobs.map fun j => j.building.key).Nodup
  ids : (s.jobs.map Job.id).Nodup
  started : ∀ j ∈ s.jobs, j.id < s.world.coordinator.started
  /-- A job that ended is no longer running, and its number is not given again. -/
  ended : ∀ e ∈ s.world.coordinator.ended,
    e.1 < s.world.coordinator.started ∧ ∀ j ∈ s.jobs, j.id ≠ e.1
  names : (s.clients.map Prod.fst).Nodup
  waiters : ∀ waiter ∈ s.world.coordinator.waiting, ∃ p b, (waiter.client, p) ∈ s.clients ∧
    p.building? = some b ∧ ((∃ j ∈ s.jobs, j.id = waiter.job ∧ j.building.key = b.key) ∨
      (s.world.coordinator.ended.lookup waiter.job).isSome)

/-- The key of a vendor build tells its specifier. -/
theorem building_of_key {b : Building} {specifier : String} {m : Package.Located}
    (h : b.key = (Building.vendor specifier m).key) : ∃ module, b = .vendor specifier module := by
  cases b with
  | vendor other module =>
      have hChars := congrArg String.toList h
      rw [Building.key, Building.key, String.toList_append, String.toList_append] at hChars
      obtain rfl := String.toList_inj.mp (List.append_cancel_left hChars)
      exact ⟨module, rfl⟩
  | source file validator kind =>
      have hHead := congrArg (fun key => key.toList.head?) h
      simp [Building.key, String.toList_append] at hHead

variable {s : Service} {name : String} {p : Pursuit} {b : Building} {job : Job}

/-! ### What single steps leave alone -/

@[simp] theorem advance_coordinator (g : Gateway) (b : Building) (w : World) (stage : Stage) :
    (g.advance b w stage).2.coordinator = w.coordinator := by
  have hAdvance := g.advance_spec b w stage
  generalize (g.advance b w stage).1 = next, (g.advance b w stage).2 = after at hAdvance ⊢
  cases hAdvance <;> rfl

/-- A client that needs a build keeps it until it has its outcome. -/
theorem look_of_building (g : Gateway) (w : World) (h : p.building? = some b) : p.look g w = p := by
  obtain ⟨r, rfl⟩ | rfl := Pursuit.building_cases h
  · rfl
  · rfl

/-- The gateway stays as long as it is not started again. -/
theorem Step.gateway_eq {settings : Settings} {move : Move} {after : Service}
    (hStep : Step settings s move after) (hMove : move ≠ .restart) : after.gateway = s.gateway := by
  cases hStep with
  | restart => exact absurd rfl hMove
  | _ => rfl

/-- A name stands for one client. -/
theorem client_unique {other : Pursuit} (hNames : (s.clients.map Prod.fst).Nodup)
    (hClient : (name, p) ∈ s.clients) (hOther : (name, other) ∈ s.clients) : p = other := by
  have hSame := List.inj_on_of_nodup_map hNames hClient hOther rfl
  exact congrArg Prod.snd hSame

theorem job_unique {other : Job} (hKeys : (s.jobs.map fun j => j.building.key).Nodup)
    (hJob : job ∈ s.jobs) (hOther : other ∈ s.jobs)
    (hKey : job.building.key = other.building.key) : job = other :=
  List.inj_on_of_nodup_map hKeys hJob hOther hKey

theorem jobFor?_eq_some (hBooked : Booked s) {id : JobId} {key : String} :
    s.world.coordinator.jobFor? key = some id ↔
      ∃ j ∈ s.jobs, j.building.key = key ∧ j.id = id := by
  have hFind : s.world.coordinator.jobFor? key =
      (s.jobs.find? fun j => j.building.key = key).map Job.id := by
    rw [Coordinator.jobFor?, hBooked.running, List.find?_map, Option.map_map]
    rfl
  rw [hFind, Option.map_eq_some_iff]
  constructor
  · rintro ⟨j, hFound, rfl⟩
    exact ⟨j, List.mem_of_find?_eq_some hFound, by simpa using List.find?_some hFound, rfl⟩
  · rintro ⟨j, hJob, rfl, rfl⟩
    cases hFound : s.jobs.find? fun other => other.building.key = j.building.key with
    | none =>
        have hNone := List.find?_eq_none.mp hFound j hJob
        simp at hNone
    | some other =>
        have hOther := List.mem_of_find?_eq_some hFound
        have hKey : other.building.key = j.building.key := by simpa using List.find?_some hFound
        exact ⟨other, rfl, congrArg Job.id (job_unique hBooked.keys hOther hJob hKey)⟩

theorem isBuilding_eq_false (hBooked : Booked s) {key : String} :
    s.world.coordinator.isBuilding key = false ↔ ∀ j ∈ s.jobs, j.building.key ≠ key := by
  rw [Coordinator.isBuilding, Option.isSome_eq_false_iff, Option.isNone_iff_eq_none]
  constructor
  · intro hFree j hJob hKey
    have hSome := (jobFor?_eq_some hBooked).mpr ⟨j, hJob, hKey, rfl⟩
    rw [hFree] at hSome
    cases hSome
  · intro hNone
    cases hFound : s.world.coordinator.jobFor? key with
    | none => rfl
    | some id =>
        obtain ⟨j, hJob, hKey, -⟩ := (jobFor?_eq_some hBooked).mp hFound
        exact absurd hKey (hNone j hJob)

/-- A job that runs has no result. -/
theorem lookup_ended_of_job (hBooked : Booked s) (hJob : job ∈ s.jobs) :
    s.world.coordinator.ended.lookup job.id = none := by
  refine List.lookup_eq_none_iff.mpr fun e hEnded => ?_
  simpa using (hBooked.ended e hEnded).2 job hJob

/-- Nor has a job that has not been started. -/
theorem lookup_ended_started (hBooked : Booked s) :
    s.world.coordinator.ended.lookup s.world.coordinator.started = none := by
  refine List.lookup_eq_none_iff.mpr fun e hEnded => ?_
  simpa using (Nat.ne_of_lt (hBooked.ended e hEnded).1).symm

/-! ### Every step keeps the books -/

theorem booked_fresh (g : Gateway) (fs : FileSystem) : Booked (fresh g fs) where
  running := rfl
  keys := List.nodup_nil
  ids := List.nodup_nil
  started := fun j h => by cases h
  ended := fun e h => by cases h
  names := List.nodup_nil
  waiters := fun waiter h => by cases h

theorem Booked.arrive (hBooked : Booked s) (hNew : ∀ c ∈ s.clients, c.1 ≠ name) :
    Booked { s with clients := s.clients ++ [(name, p)] } where
  running := hBooked.running
  keys := hBooked.keys
  ids := hBooked.ids
  started := hBooked.started
  ended := hBooked.ended
  names := by
    rw [List.map_append, List.map_singleton, List.nodup_append]
    refine ⟨hBooked.names, List.nodup_singleton _, fun other hOther _ hName => ?_⟩
    obtain ⟨c, hClient, rfl⟩ := List.mem_map.mp hOther
    rw [List.mem_singleton.mp hName]
    exact hNew c hClient
  waiters := fun waiter hWaiter => by
    obtain ⟨q, b, hClient, hRest⟩ := hBooked.waiters waiter hWaiter
    exact ⟨q, b, List.mem_append_left _ hClient, hRest⟩

theorem mem_setClient {c : String × Pursuit} (h : c ∈ (s.setClient name p).clients) :
    c = (name, p) ∨ c ∈ s.clients := by
  obtain ⟨old, hOld, rfl⟩ := List.mem_map.mp h
  split
  · exact .inl rfl
  · exact .inr hOld

theorem Booked.look (hBooked : Booked s) (hClient : (name, p) ∈ s.clients) :
    Booked (s.setClient name (p.look s.gateway s.world)) where
  running := hBooked.running
  keys := hBooked.keys
  ids := hBooked.ids
  started := hBooked.started
  ended := hBooked.ended
  names := by
    have hSame : (s.setClient name (p.look s.gateway s.world)).clients.map Prod.fst =
        s.clients.map Prod.fst := by
      rw [setClient, List.map_map]
      refine List.map_congr_left fun c _ => ?_
      dsimp only [Function.comp_apply]
      split
      · rename_i hName
        exact hName.symm
      · rfl
    rw [hSame]
    exact hBooked.names
  waiters := fun waiter hWaiter => by
    obtain ⟨q, b, hWaits, hBuilding, hRest⟩ := hBooked.waiters waiter hWaiter
    refine ⟨q, b, List.mem_map.mpr ⟨(waiter.client, q), hWaits, ?_⟩, hBuilding, hRest⟩
    dsimp only
    split
    · rename_i hName
      -- A client that waits stands still.
      subst hName
      rw [client_unique hBooked.names hClient hWaits, look_of_building _ _ hBuilding]
    · rfl

theorem Booked.dropClient (hBooked : Booked s) (name : String) : Booked (s.dropClient name) where
  running := hBooked.running
  keys := hBooked.keys
  ids := hBooked.ids
  started := hBooked.started
  ended := hBooked.ended
  names := hBooked.names.sublist (List.filter_sublist.map Prod.fst)
  waiters := fun waiter hWaiter => by
    obtain ⟨hWaits, hName⟩ := List.mem_filter.mp hWaiter
    obtain ⟨q, b, hClient, hRest⟩ := hBooked.waiters waiter hWaits
    exact ⟨q, b, List.mem_filter.mpr ⟨hClient, hName⟩, hRest⟩

/-- The move of a job's step. -/
def workMove (s : Service) (job : Job) : Move :=
  .work job.building job.stage (s.next job).1
    (s.gateway.resolves s.world.fs job.building job.stage)

theorem next_spec (s : Service) (job : Job) :
    s.gateway.Advance job.building s.world job.stage (s.next job).1 (s.next job).2 :=
  s.gateway.advance_spec job.building s.world job.stage

/-- Only a job that persists its output changes files. -/
theorem next_fs (h : ∀ content, job.stage ≠ .persisting content) :
    (s.next job).2.fs = s.world.fs := by
  have hNext := s.next_spec job
  generalize job.stage = stage, (s.next job).1 = next, (s.next job).2 = after at h hNext ⊢
  cases hNext with
  | persisted => exact absurd rfl (h _)
  | stored | missing | read | unreadable | compiled | ended => rfl

theorem mem_advance {j : Job} (h : j ∈ (s.advance job).jobs) :
    (j ∈ s.jobs ∧ j.building.key ≠ job.building.key) ∨
      ∃ old ∈ s.jobs, old.building.key = job.building.key ∧
        j = { old with stage := (s.next job).1 } := by
  obtain ⟨old, hOld, rfl⟩ := List.mem_map.mp h
  split
  · rename_i hKey
    exact .inr ⟨old, hOld, hKey, rfl⟩
  · rename_i hKey
    exact .inl ⟨hOld, hKey⟩

theorem mem_advance_of_ne {j : Job} (hJob : j ∈ s.jobs)
    (hKey : j.building.key ≠ job.building.key) : j ∈ (s.advance job).jobs :=
  List.mem_map.mpr ⟨j, hJob, if_neg hKey⟩

/-- A step of a job moves no other job and starts none. -/
theorem map_advance {α : Type} (f : Building → JobId → α) (job : Job) :
    ((s.advance job).jobs.map fun j => f j.building j.id) =
      s.jobs.map fun j => f j.building j.id := by
  rw [advance, List.map_map]
  refine List.map_congr_left fun j _ => ?_
  dsimp only [Function.comp_apply]
  split <;> rfl

theorem Booked.advance (hBooked : Booked s) (job : Job) : Booked (s.advance job) := by
  have hCoordinator : (s.advance job).world.coordinator = s.world.coordinator :=
    advance_coordinator _ _ _ _
  have hKept {j : Job} (hJob : j ∈ (s.advance job).jobs) :
      ∃ old ∈ s.jobs, old.id = j.id ∧ old.building = j.building := by
    rcases mem_advance hJob with ⟨hOld, -⟩ | ⟨old, hOld, -, rfl⟩
    · exact ⟨j, hOld, rfl, rfl⟩
    · exact ⟨old, hOld, rfl, rfl⟩
  constructor
  · rw [hCoordinator, map_advance fun b id => (⟨b.key, id⟩ : Running)]
    exact hBooked.running
  · rw [map_advance fun b _ => b.key]
    exact hBooked.keys
  · rw [show (s.advance job).jobs.map Job.id = s.jobs.map Job.id from map_advance (fun _ id => id) job]
    exact hBooked.ids
  · intro j hJob
    obtain ⟨old, hOld, hId, -⟩ := hKept hJob
    rw [hCoordinator, ← hId]
    exact hBooked.started old hOld
  · intro e hEnded
    rw [hCoordinator] at hEnded ⊢
    obtain ⟨hStarted, hGone⟩ := hBooked.ended e hEnded
    refine ⟨hStarted, fun j hJob => ?_⟩
    obtain ⟨old, hOld, hId, -⟩ := hKept hJob
    rw [← hId]
    exact hGone old hOld
  · exact hBooked.names
  · intro waiter hWaiter
    rw [hCoordinator] at hWaiter ⊢
    obtain ⟨q, b, hClient, hBuilding, hState⟩ := hBooked.waiters waiter hWaiter
    refine ⟨q, b, hClient, hBuilding, hState.imp_left fun ⟨j, hJob, hId, hKey⟩ => ?_⟩
    have hMem := List.mem_map_of_mem hJob (f := fun j => (j.building.key, j.id))
    rw [← map_advance (fun b id => (b.key, id)) job] at hMem
    obtain ⟨now, hNow, hSame⟩ := List.mem_map.mp hMem
    obtain ⟨hNowKey, hNowId⟩ := Prod.mk.inj hSame
    exact ⟨now, hNow, hNowId.trans hId, hNowKey.trans hKey⟩

/-- Joining a job that runs adds a client that waits for it. -/
theorem join_of_taken {id : JobId} (h : s.world.coordinator.jobFor? b.key = some id) :
    s.join name b = { s with world := { s.world with coordinator := { s.world.coordinator with
      waiting := s.world.coordinator.waiting ++ [⟨name, id⟩] } } } := by
  have hTaken : s.world.coordinator.isBuilding b.key = true := by rw [Coordinator.isBuilding, h]; rfl
  rw [join, World.join, Coordinator.request_of_taken h, if_pos hTaken]

/-- Joining where no job runs starts one. -/
theorem join_of_free (h : s.world.coordinator.jobFor? b.key = none) :
    s.join name b = { s with
      world := { s.world with coordinator := { s.world.coordinator with
        running := s.world.coordinator.running ++ [⟨b.key, s.world.coordinator.started⟩]
        started := s.world.coordinator.started + 1
        waiting := s.world.coordinator.waiting ++ [⟨name, s.world.coordinator.started⟩] } }
      jobs := s.jobs ++ [⟨s.world.coordinator.started, b, Stage.first b⟩] } := by
  have hFree : ¬ s.world.coordinator.isBuilding b.key = true := by
    rw [Coordinator.isBuilding, h]
    simp
  rw [join, World.join, Coordinator.request_of_free h, if_neg hFree]

theorem Booked.join (hBooked : Booked s) (hClient : (name, p) ∈ s.clients)
    (hBuilding : p.building? = some b) : Booked (s.join name b) := by
  cases hJob : s.world.coordinator.jobFor? b.key with
  | some id =>
      rw [join_of_taken hJob]
      refine ⟨hBooked.running, hBooked.keys, hBooked.ids, hBooked.started, hBooked.ended,
        hBooked.names, fun waiter hWaiter => ?_⟩
      rcases List.mem_append.mp hWaiter with hOld | hNew
      · exact hBooked.waiters waiter hOld
      · obtain rfl := List.mem_singleton.mp hNew
        obtain ⟨j, hRuns, hKey, hId⟩ := (jobFor?_eq_some hBooked).mp hJob
        exact ⟨p, b, hClient, hBuilding, .inl ⟨j, hRuns, hId, hKey⟩⟩
  | none =>
      have hFree : ∀ j ∈ s.jobs, j.building.key ≠ b.key := by
        refine (isBuilding_eq_false hBooked).mp ?_
        rw [Coordinator.isBuilding, hJob]
        rfl
      rw [join_of_free hJob]
      constructor
      · rw [hBooked.running, List.map_append]
        rfl
      · rw [List.map_append, List.map_singleton, List.nodup_append]
        refine ⟨hBooked.keys, List.nodup_singleton _, fun key hKey other hOther => ?_⟩
        obtain ⟨j, hRuns, rfl⟩ := List.mem_map.mp hKey
        rw [List.mem_singleton.mp hOther]
        exact hFree j hRuns
      · rw [List.map_append, List.map_singleton, List.nodup_append]
        refine ⟨hBooked.ids, List.nodup_singleton _, fun id hId other hOther => ?_⟩
        obtain ⟨j, hRuns, rfl⟩ := List.mem_map.mp hId
        rw [List.mem_singleton.mp hOther]
        exact Nat.ne_of_lt (hBooked.started j hRuns)
      · intro j hRuns
        rcases List.mem_append.mp hRuns with hOld | hNew
        · exact Nat.lt_succ_of_lt (hBooked.started j hOld)
        · rw [List.mem_singleton.mp hNew]
          exact Nat.lt_succ_self _
      · intro e hEnded
        obtain ⟨hStarted, hGone⟩ := hBooked.ended e hEnded
        refine ⟨Nat.lt_succ_of_lt hStarted, fun j hRuns => ?_⟩
        rcases List.mem_append.mp hRuns with hOld | hNew
        · exact hGone j hOld
        · rw [List.mem_singleton.mp hNew]
          exact (Nat.ne_of_lt hStarted).symm
      · exact hBooked.names
      · intro waiter hWaiter
        rcases List.mem_append.mp hWaiter with hOld | hNew
        · obtain ⟨q, other, hWaits, hNeeds, hState⟩ := hBooked.waiters waiter hOld
          refine ⟨q, other, hWaits, hNeeds, hState.imp_left fun ⟨j, hRuns, hRest⟩ => ?_⟩
          exact ⟨j, List.mem_append_left _ hRuns, hRest⟩
        · obtain rfl := List.mem_singleton.mp hNew
          exact ⟨p, b, hClient, hBuilding,
            .inl ⟨_, List.mem_append_right _ (List.mem_singleton_self _), rfl, rfl⟩⟩

/-- Ending a job that runs gives its number a result and frees its key. -/
theorem finish_of_job (hBooked : Booked s) (hJob : job ∈ s.jobs) (ending : Ending) :
    s.world.coordinator.finish job.building.key ending =
      { s.world.coordinator with
        running := s.world.coordinator.running.filter (·.key ≠ job.building.key)
        ended := (job.id, ending) :: s.world.coordinator.ended } := by
  exact Coordinator.finish_of_taken ((jobFor?_eq_some hBooked).mpr ⟨job, hJob, rfl, rfl⟩)

theorem Booked.publish (hBooked : Booked s) (hJob : job ∈ s.jobs) : Booked (s.publish job) := by
  rw [Service.publish, finish_of_job hBooked hJob]
  constructor
  · rw [hBooked.running, List.filter_map]
    rfl
  · exact hBooked.keys.sublist (List.filter_sublist.map _)
  · exact hBooked.ids.sublist (List.filter_sublist.map _)
  · exact fun j hRuns => hBooked.started j (List.mem_filter.mp hRuns).1
  · intro e hEnded
    rcases List.mem_cons.mp hEnded with rfl | hOld
    · refine ⟨hBooked.started job hJob, fun j hRuns hId => ?_⟩
      obtain ⟨hOld, hKey⟩ := List.mem_filter.mp hRuns
      have hSame : j = job := List.inj_on_of_nodup_map hBooked.ids hOld hJob hId
      simp [hSame] at hKey
    · obtain ⟨hStarted, hGone⟩ := hBooked.ended e hOld
      exact ⟨hStarted, fun j hRuns => hGone j (List.mem_filter.mp hRuns).1⟩
  · exact hBooked.names
  · intro waiter hWaiter
    obtain ⟨q, b, hWaits, hNeeds, hState⟩ := hBooked.waiters waiter hWaiter
    refine ⟨q, b, hWaits, hNeeds, ?_⟩
    by_cases hId : waiter.job = job.id
    · exact .inr (by simp [hId])
    · rcases hState with ⟨j, hRuns, hSame, hKey⟩ | hEnded
      · refine .inl ⟨j, List.mem_filter.mpr ⟨hRuns, ?_⟩, hSame, hKey⟩
        have hOther : j.building.key ≠ job.building.key := fun hKeys =>
          hId (hSame ▸ congrArg Job.id (job_unique hBooked.keys hRuns hJob hKeys))
        simpa using hOther
      · exact .inr (by rw [List.lookup_cons, beq_false_of_ne hId]; exact hEnded)

theorem Step.booked {settings : Settings} {move : Move} {after : Service}
    (hStep : Step settings s move after) (hBooked : Booked s) : Booked after := by
  cases hStep with
  | arrive hNew => exact hBooked.arrive hNew
  | look hClient => exact hBooked.look hClient
  | join hClient hBuilding => exact hBooked.join hClient hBuilding
  | work => exact hBooked.advance _
  | publish hJob => exact hBooked.publish hJob
  | answer => exact hBooked.dropClient _
  | receive => exact hBooked.dropClient _
  | leave => exact hBooked.dropClient _
  | change =>
      exact ⟨hBooked.running, hBooked.keys, hBooked.ids, hBooked.started, hBooked.ended,
        hBooked.names, hBooked.waiters⟩
  | restart => exact booked_fresh _ _

/-- Only a job that runs goes on. -/
theorem Step.job_of_work {settings : Settings} {after : Service} {stage next : Stage}
    {resolved : List String}
    (hStep : Step settings s (.work b stage next resolved) after) :
    ∃ job ∈ s.jobs, job.building = b ∧ job.stage = stage := by
  generalize hMove : Move.work b stage next resolved = move at hStep
  cases hStep with
  | work hJob hGoing =>
      cases hMove
      exact ⟨_, hJob, rfl, rfl⟩
  | _ => cases hMove

/-! ### What clients wait for -/

/-- Whoever waits for a job that has ended receives an outcome that is right for the build it needs. -/
def ResultsRight (right : Building → Outcome → Prop) (s : Service) : Prop :=
  ∀ waiter ∈ s.world.coordinator.waiting, ∀ p b, (waiter.client, p) ∈ s.clients →
    p.building? = some b → ∀ ending, s.world.coordinator.ended.lookup waiter.job = some ending →
      right b ending.outcome

theorem ResultsRight.mono {right now : Building → Outcome → Prop}
    (hMono : ∀ b outcome, right b outcome → now b outcome) (h : ResultsRight right s) :
    ResultsRight now s :=
  fun waiter hWaiter p b hClient hBuilding ending hEnded =>
    hMono b _ (h waiter hWaiter p b hClient hBuilding ending hEnded)

theorem ResultsRight.dropClient {right : Building → Outcome → Prop} (h : ResultsRight right s)
    (name : String) : ResultsRight right (s.dropClient name) :=
  fun waiter hWaiter p b hClient =>
    h waiter (List.mem_filter.mp hWaiter).1 p b (List.mem_filter.mp hClient).1

theorem ResultsRight.join {right : Building → Outcome → Prop} (hBooked : Booked s)
    (h : ResultsRight right s) : ResultsRight right (s.join name b) := by
  intro waiter hWaiter p needed hClient hBuilding ending hEnded
  -- A job that a client has just joined has not ended.
  cases hFound : s.world.coordinator.jobFor? b.key with
  | some id =>
      rw [join_of_taken hFound] at hWaiter hClient hEnded
      rcases List.mem_append.mp hWaiter with hOld | hNew
      · exact h waiter hOld p needed hClient hBuilding ending hEnded
      · obtain rfl := List.mem_singleton.mp hNew
        obtain ⟨j, hJob, -, rfl⟩ := (jobFor?_eq_some hBooked).mp hFound
        exact absurd ((lookup_ended_of_job hBooked hJob).symm.trans hEnded) (by simp)
  | none =>
      rw [join_of_free hFound] at hWaiter hClient hEnded
      rcases List.mem_append.mp hWaiter with hOld | hNew
      · exact h waiter hOld p needed hClient hBuilding ending hEnded
      · obtain rfl := List.mem_singleton.mp hNew
        exact absurd ((lookup_ended_started hBooked).symm.trans hEnded) (by simp)

theorem ResultsRight.publish {right : Building → Outcome → Prop} {outcome : Outcome}
    (hBooked : Booked s) (hJob : job ∈ s.jobs) (hEnded : job.stage = .ended outcome)
    (hRight : ∀ b, b.key = job.building.key → right b outcome) (h : ResultsRight right s) :
    ResultsRight right (s.publish job) := by
  rw [Service.publish, finish_of_job hBooked hJob, hEnded]
  intro waiter hWaiter p b hClient hBuilding ending hFound
  by_cases hId : waiter.job = job.id
  · simp only [hId, List.lookup_cons_self, Option.some.injEq] at hFound
    subst hFound
    obtain ⟨q, needed, hThere, hNeeds, hState⟩ := hBooked.waiters waiter hWaiter
    obtain rfl := client_unique hBooked.names hClient hThere
    obtain rfl := Option.some.inj (hBuilding.symm.trans hNeeds)
    rcases hState with ⟨j, hRuns, hSame, hKey⟩ | hGone
    · obtain rfl := List.inj_on_of_nodup_map hBooked.ids hRuns hJob (hSame.trans hId)
      exact hRight b hKey.symm
    · rw [hId, lookup_ended_of_job hBooked hJob] at hGone
      cases hGone
  · rw [List.lookup_cons, beq_false_of_ne hId] at hFound
    exact h waiter hWaiter p b hClient hBuilding ending hFound

/-- A step keeps the results of those who wait, if what a job ends with is right for every build with its
key. -/
theorem Step.resultsRight {settings : Settings} {move : Move} {after : Service}
    {right : Building → Outcome → Prop} (hStep : Step settings s move after) (hBooked : Booked s)
    (hRight : ∀ job ∈ s.jobs, ∀ outcome b, job.stage = .ended outcome →
      b.key = job.building.key → right b outcome)
    (h : ResultsRight right s) : ResultsRight right after := by
  cases hStep with
  | @arrive newcomer errand hNew hOffered =>
      intro waiter hWaiter p b hClient
      rcases List.mem_append.mp hClient with hOld | hLast
      · exact h waiter hWaiter p b hOld
      · -- A client that waits was there before.
        obtain ⟨q, needed, hThere, -⟩ := hBooked.waiters waiter hWaiter
        have hName : waiter.client = newcomer := congrArg Prod.fst (List.mem_singleton.mp hLast)
        exact absurd hName (hNew _ hThere)
  | @look looker p hClient =>
      intro waiter hWaiter q b hMem hBuilding
      rcases mem_setClient hMem with hMoved | hOld
      · obtain ⟨hName, rfl⟩ := Prod.mk.inj hMoved
        obtain ⟨standing, needed, hThere, hNeeds, -⟩ := hBooked.waiters waiter hWaiter
        rw [hName] at hThere
        obtain rfl := client_unique hBooked.names hClient hThere
        rw [look_of_building _ _ hNeeds] at hBuilding
        exact h waiter hWaiter p b (hName ▸ hClient) hBuilding
      · exact h waiter hWaiter q b hOld hBuilding
  | join => exact h.join hBooked
  | @work job hJob hGoing =>
      have hCoordinator : (s.advance job).world.coordinator = s.world.coordinator :=
        advance_coordinator _ _ _ _
      unfold ResultsRight
      rw [hCoordinator]
      exact h
  | publish hJob hEnded => exact h.publish hBooked hJob hEnded fun b => hRight _ hJob _ b hEnded
  | answer => exact h.dropClient _
  | receive => exact h.dropClient _
  | leave => exact h.dropClient _
  | change => exact h
  | restart => exact fun waiter hWaiter => by cases hWaiter

/-! ### Where clients and jobs come from -/

variable {settings : Settings} {move : Move} {after : Service}

/-- Clients arrive, and get further by their own looks only. -/
theorem Step.client_of_mem (hStep : Step settings s move after) {c : String × Pursuit}
    (hClient : c ∈ after.clients) :
    c ∈ s.clients ∨
    (∃ name errand, move = .arrive name errand ∧ errand.Offered s.gateway ∧
      c = (name, errand.begin s.gateway)) ∨
    ∃ name p, move = .look name ∧ (name, p) ∈ s.clients ∧ c = (name, p.look s.gateway s.world) := by
  cases hStep with
  | @arrive name errand _ hOffered =>
      rcases List.mem_append.mp hClient with hOld | hLast
      · exact .inl hOld
      · exact .inr (.inl ⟨name, errand, rfl, hOffered, List.mem_singleton.mp hLast⟩)
  | @look name p hThere =>
      rcases mem_setClient hClient with hMoved | hOld
      · exact .inr (.inr ⟨name, p, rfl, hThere, hMoved⟩)
      · exact .inl hOld
  | answer | receive | leave => exact .inl (List.mem_filter.mp hClient).1
  | restart => cases hClient
  | join | work | publish | change => exact .inl hClient

/-- A client that asks for something has asked for it before, or comes with it. -/
theorem Step.asking_of_mem (hStep : Step settings s move after) {r : Request} {progress : Progress}
    (hClient : (name, .asking r progress) ∈ after.clients) :
    (∃ old, (name, .asking r old) ∈ s.clients) ∨ move = .arrive name (.request r) := by
  rcases hStep.client_of_mem hClient with
    hOld | ⟨newcomer, errand, rfl, -, hBegun⟩ | ⟨looker, p, -, hThere, hLooked⟩
  · exact .inl ⟨progress, hOld⟩
  · cases errand with
    | prewarm specifier => cases hBegun
    | request asked =>
        cases hBegun
        exact .inr rfl
  · cases p with
    | warming t => cases hLooked
    | asking asked before =>
        cases hLooked
        exact .inl ⟨before, hThere⟩

/-- Jobs start for clients, and go on by their own steps only. -/
theorem Step.job_of_mem (hStep : Step settings s move after) (hBooked : Booked s) (hJob : job ∈ after.jobs) :
    (job ∈ s.jobs ∧ ∀ other, move = workMove s other → other.building.key ≠ job.building.key) ∨
    (∃ c ∈ s.clients, c.2.building? = some job.building ∧ job.stage = Stage.first job.building) ∨
    ∃ old ∈ s.jobs, (∀ outcome, old.stage ≠ .ended outcome) ∧ move = workMove s old ∧
      after = s.advance old ∧ job = { old with stage := (s.next old).1 } := by
  cases hStep with
  | @join name p b hClient hBuilding =>
      simp only [Service.join] at hJob
      split at hJob
      · exact .inl ⟨hJob, fun other hWork => by cases hWork⟩
      · rcases List.mem_append.mp hJob with hOld | hNew
        · exact .inl ⟨hOld, fun other hWork => by cases hWork⟩
        · obtain rfl := List.mem_singleton.mp hNew
          exact .inr (.inl ⟨_, hClient, hBuilding, rfl⟩)
  | @work moved hMoved hGoing =>
      rcases mem_advance hJob with ⟨hOld, hKey⟩ | ⟨old, hOld, hKey, rfl⟩
      · refine .inl ⟨hOld, fun other hWork => ?_⟩
        have hSame : moved.building = other.building := by
          injection hWork
        exact hSame ▸ hKey.symm
      · obtain rfl := job_unique hBooked.keys hOld hMoved hKey
        exact .inr (.inr ⟨old, hOld, hGoing, rfl, rfl, rfl⟩)
  | publish => exact .inl ⟨(List.mem_filter.mp hJob).1, fun other hWork => by cases hWork⟩
  | restart => cases hJob
  | arrive | look | answer | receive | leave | change => exact .inl ⟨hJob, fun other hWork => by cases hWork⟩

end ModuleGateway.Service
