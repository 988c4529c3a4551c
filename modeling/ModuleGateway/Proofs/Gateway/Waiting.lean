import ModuleGateway.Proofs.Build.Delivery
import ModuleGateway.Proofs.Gateway.Sequential

/-!
Waiting for the prewarming that has begun: the tasks look, those that need a build join the jobs, the
jobs run to their ends, and their results are counted. Every task is counted once, by what it saw or by
what it received, and jobs that were there before have no part in it.
-/

namespace ModuleGateway

open Build

namespace Gateway

variable {g : Gateway} {w : World}

/-- Different places name different tasks. -/
theorem toString_injective {i j : Nat} (h : toString i = toString j) : i = j := by
  have hDigits := congrArg (fun text : String => Nat.ofDigitChars 10 text.toList 0) h
  simpa [Nat.toList_repr, Nat.ofDigitChars_toDigits] using hDigits

/-! ### The parts of waiting -/

/-- The tasks that have begun, after all have looked. -/
def tasks (g : Gateway) (w : World) : List Warming :=
  w.warming.map fun specifier => g.glance w (g.glance w (.checking specifier))

/-- The task at a place joins the job for its build. With it stand the jobs that tasks have started. -/
def joinNext (state : List Building × World) (task : Building × Nat) : List Building × World :=
  (if state.2.coordinator.isBuilding task.1.key then state.1 else state.1 ++ [task.1],
    state.2.join (toString task.2) task.1)

/-- The jobs of the tasks that need a build, and the world in which they all have joined. -/
def joined (g : Gateway) (w : World) : List Building × World :=
  ((g.tasks w).filterMap Warming.building?).zipIdx.foldl joinNext ([], { w with warming := [] })

/-- The world after the jobs ran. -/
def worked (g : Gateway) (w : World) : World :=
  (g.joined w).1.foldl (fun w b => (g.work w b).2) (g.joined w).2

theorem wait_eq (g : Gateway) (w : World) :
    g.wait w =
      ((g.tasks w).countP (· = .ended true) +
          (g.worked w).coordinator.due.countP (·.outcome.isSuccess),
        (g.worked w).wake.2) :=
  rfl

/-! ### Every task is counted once -/

theorem waiting_work (g : Gateway) (w : World) (b : Building) :
    (g.work w b).2.coordinator.waiting = w.coordinator.waiting := by
  show ((g.advances b longestJob (Stage.first b) w).2.coordinator.finish _ _).waiting = _
  rw [Coordinator.waiting_finish, advances_coordinator]

/-- Every task that joins is one more client that waits. -/
theorem waiting_joins (places : List (Building × Nat)) (state : List Building × World) :
    (places.foldl joinNext state).2.coordinator.waiting.length =
      state.2.coordinator.waiting.length + places.length := by
  induction places generalizing state with
  | nil => rfl
  | cons place rest ih =>
      have hOne : (joinNext state place).2.coordinator.waiting.length =
          state.2.coordinator.waiting.length + 1 := by
        have hLast := congrArg List.length
          (Coordinator.waiting_request state.2.coordinator (toString place.2) place.1.key)
        rwa [List.length_map, List.length_append, List.length_map] at hLast
      rw [List.foldl_cons, ih, hOne, List.length_cons]
      omega

theorem waiting_works (g : Gateway) (jobs : List Building) (w : World) :
    (jobs.foldl (fun w b => (g.work w b).2) w).coordinator.waiting = w.coordinator.waiting := by
  induction jobs generalizing w with
  | nil => rfl
  | cons b rest ih => rw [List.foldl_cons, ih, waiting_work]

theorem waiting_worked (hIdle : w.coordinator.waiting = []) :
    (g.worked w).coordinator.waiting.length =
      ((g.tasks w).filterMap Warming.building?).length := by
  rw [worked, waiting_works, joined, waiting_joins, List.length_zipIdx]
  simp [hIdle]

/-- A task is ready by what it saw, or needs a build, but not both. -/
theorem ready_add_building_le (tasks : List Warming) :
    tasks.countP (· = .ended true) + (tasks.filterMap Warming.building?).length ≤ tasks.length := by
  induction tasks with
  | nil => exact Nat.le_refl _
  | cons task rest ih =>
      rw [List.countP_cons, List.filterMap_cons, List.length_cons]
      cases task with
      | ended isReady => cases isReady <;> simp [Warming.building?] <;> omega
      | building b => simp [Warming.building?]; omega
      | checking specifier => simp [Warming.building?]; omega
      | locating specifier => simp [Warming.building?]; omega

/-- No more entries are ready than have begun. -/
theorem wait_le (hIdle : w.coordinator.waiting = []) : (g.wait w).1 ≤ w.warming.length := by
  have hDue : (g.worked w).coordinator.due.countP (·.outcome.isSuccess) ≤
      ((g.tasks w).filterMap Warming.building?).length :=
    calc (g.worked w).coordinator.due.countP (·.outcome.isSuccess)
        ≤ (g.worked w).coordinator.due.length := List.countP_le_length
      _ ≤ (g.worked w).coordinator.waiting.length := List.length_filterMap_le _ _
      _ = ((g.tasks w).filterMap Warming.building?).length := waiting_worked hIdle
  have hTasks := ready_add_building_le (g.tasks w)
  have hLength : (g.tasks w).length = w.warming.length := List.length_map _
  rw [wait_eq]
  show _ + _ ≤ _
  omega

end Gateway

end ModuleGateway
