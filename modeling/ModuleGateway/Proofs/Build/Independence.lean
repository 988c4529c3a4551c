import ModuleGateway.Proofs.Build.Delivery

/-!
Two histories side by side. Taking away every turn in which a client goes away leaves the jobs and what
the other clients receive as they were. Taking away every turn that has to do neither with a key nor
with a client that asks for it leaves all that happens to this key as it was, with one difference: jobs
are numbered over all keys, so the jobs of the key have other numbers. They are told apart here by their
place among the jobs for the key.
-/

namespace ModuleGateway.Build

def Turn.isCancel : Turn → Bool
  | .event (.cancel _) => true
  | _ => false

/-- Whether a turn is about a key, or about a client that asks for the key in the list. -/
def Turn.concerns (key : String) (turns : List Turn) : Turn → Bool
  | .event (.build _ asked) => asked = key
  | .event (.finish ended _) => ended = key
  | .event (.cancel client) => .event (.build client key) ∈ turns
  | .wake client => .event (.build client key) ∈ turns

def Launch.withJob (l : Launch) (job : JobId) : Launch :=
  { l with job := job }

def Waiter.withJob (w : Waiter) (job : JobId) : Waiter :=
  { w with job := job }

def Delivery.withJob (d : Delivery) (job : JobId) : Delivery :=
  { d with job := job }

/-- What is about jobs of a list, with a job numbered by its place in the list. -/
def renumber {α : Type} (jobs : List JobId) (job : α → JobId) (put : α → JobId → α)
    (xs : List α) : List α :=
  (xs.filter fun x => job x ∈ jobs).map fun x => put x (jobs.idxOf (job x))

section Renumber

variable {α : Type} {jobs : List JobId} {job : α → JobId} {put : α → JobId → α} {xs : List α}

theorem renumber_append (ys : List α) :
    renumber jobs job put (xs ++ ys) = renumber jobs job put xs ++ renumber jobs job put ys := by
  simp [renumber]

theorem renumber_cons_of_mem {x : α} (hMem : job x ∈ jobs) :
    renumber jobs job put (x :: xs) =
      put x (jobs.idxOf (job x)) :: renumber jobs job put xs := by
  simp [renumber, hMem]

theorem renumber_cons_of_notMem {x : α} (hOut : job x ∉ jobs) :
    renumber jobs job put (x :: xs) = renumber jobs job put xs := by
  simp [renumber, hOut]

/-- A job that nothing is about yet leaves the others their places. -/
theorem renumber_grown {fresh : JobId} (hFresh : ∀ x ∈ xs, job x ≠ fresh) :
    renumber (jobs ++ [fresh]) job put xs = renumber jobs job put xs := by
  have hKept : (xs.filter fun x => job x ∈ jobs ++ [fresh]) = xs.filter fun x => job x ∈ jobs :=
    List.filter_congr fun x hMem => by simp [hFresh x hMem]
  rw [renumber, hKept]
  refine List.map_congr_left fun x hMem => ?_
  have hJob : job x ∈ jobs := by simpa using (List.mem_filter.mp hMem).2
  rw [List.idxOf_append_of_mem hJob]

theorem renumber_filter {p q : α → Bool}
    (hSame : ∀ x, job x ∈ jobs → q (put x (jobs.idxOf (job x))) = p x) :
    renumber jobs job put (xs.filter p) = (renumber jobs job put xs).filter q := by
  rw [renumber, renumber, List.filter_map, List.filter_comm]
  refine congrArg _ (List.filter_congr fun x hMem => ?_)
  have hJob : job x ∈ jobs := by simpa using (List.mem_filter.mp hMem).2
  exact (hSame x hJob).symm

theorem lookup_renumber {asked : JobId} (hMem : asked ∈ jobs) (ended : List (JobId × Ending)) :
    (renumber jobs Prod.fst (fun e place => (place, e.2)) ended).lookup (jobs.idxOf asked) =
      ended.lookup asked := by
  induction ended with
  | nil => rfl
  | cons e ended ih =>
      obtain ⟨ended, ending⟩ := e
      by_cases hJob : ended ∈ jobs
      · rw [renumber_cons_of_mem hJob, List.lookup_cons, List.lookup_cons, ih]
        by_cases hSame : asked = ended
        · simp [hSame]
        · have hApart : jobs.idxOf asked ≠ jobs.idxOf ended :=
            fun hPlaces => hSame ((List.idxOf_inj hMem).mp hPlaces)
          simp [beq_false_of_ne hSame, beq_false_of_ne hApart]
      · have hApart : asked ≠ ended := fun hSame => hJob (hSame ▸ hMem)
        rw [renumber_cons_of_notMem hJob, List.lookup_cons, ih]
        simp [beq_false_of_ne hApart]

end Renumber

namespace History

/-! ### Clients that go away -/

/-- The same jobs, and for some of the clients the same results. -/
structure Alike (who : String → Bool) (h calm : History) : Prop where
  launched : h.launched = calm.launched
  ended : h.ended = calm.ended
  waiting : h.coordinator.waiting.filter (who ·.client) =
    calm.coordinator.waiting.filter (who ·.client)
  results : h.results.filter (who ·.client) = calm.results.filter (who ·.client)

variable {h calm : History} {who : String → Bool} {client key : String} {job : JobId}

theorem Alike.unfinished?_eq (hAlike : Alike who h calm) :
    h.unfinished? key = calm.unfinished? key := by
  simp only [unfinished?, unfinished, hAlike.launched, hAlike.ended]

theorem Alike.build (hAlike : Alike who h calm) (hFaithful : h.Faithful) (hCalm : calm.Faithful) :
    Alike who (h.step (.build client key)) (calm.step (.build client key)) := by
  have hJoin (w : Waiter) : (h.coordinator.waiting ++ [w]).filter (who ·.client) =
      (calm.coordinator.waiting ++ [w]).filter (who ·.client) := by
    rw [List.filter_append, List.filter_append, hAlike.waiting]
  cases hFound : calm.unfinished? key with
  | some job =>
      rw [hFaithful.step_joining (hAlike.unfinished?_eq.trans hFound), hCalm.step_joining hFound]
      exact ⟨hAlike.launched, hAlike.ended, hJoin _, hAlike.results⟩
  | none =>
      rw [hFaithful.step_creating (hAlike.unfinished?_eq.trans hFound),
        hCalm.step_creating hFound, hAlike.launched]
      exact ⟨rfl, hAlike.ended, hJoin _, hAlike.results⟩

theorem Alike.finish (hAlike : Alike who h calm) (hFaithful : h.Faithful) (hCalm : calm.Faithful)
    (ending : Ending) :
    Alike who (h.step (.finish key ending)) (calm.step (.finish key ending)) := by
  cases hFound : calm.unfinished? key with
  | none =>
      rw [hFaithful.step_idle (hAlike.unfinished?_eq.trans hFound), hCalm.step_idle hFound]
      exact hAlike
  | some job =>
      rw [hFaithful.step_ending (hAlike.unfinished?_eq.trans hFound), hCalm.step_ending hFound,
        hAlike.ended]
      exact ⟨hAlike.launched, rfl, hAlike.waiting, hAlike.results⟩

theorem Alike.due (hAlike : Alike who h calm) (hFaithful : h.Faithful) (hCalm : calm.Faithful) :
    h.coordinator.due.filter (who ·.client) = calm.coordinator.due.filter (who ·.client) := by
  rw [← Coordinator.due_filter _ who fun _ _ => rfl, ← Coordinator.due_filter _ who fun _ _ => rfl,
    Coordinator.due, Coordinator.due, hAlike.waiting, hFaithful.ended.1, hCalm.ended.1, hAlike.ended]

theorem Alike.wake (hAlike : Alike who h calm) (hFaithful : h.Faithful) (hCalm : calm.Faithful) :
    Alike who (h.turn (.wake client)) (calm.turn (.wake client)) where
  launched := hAlike.launched
  ended := hAlike.ended
  waiting := by
    simp only [turn, Coordinator.rouse]
    rw [List.filter_comm, hAlike.waiting, List.filter_comm, hFaithful.ended.1, hCalm.ended.1,
      hAlike.ended]
  results := by
    simp only [turn, Coordinator.rouse, List.filter_append]
    rw [hAlike.results, List.filter_comm, hAlike.due hFaithful hCalm, List.filter_comm]

/-- A client outside of the set goes away. -/
theorem Alike.cancel (hAlike : Alike who h calm) (hOut : who client = false) :
    Alike who (h.step (.cancel client)) calm where
  launched := hAlike.launched
  ended := hAlike.ended
  waiting := by
    rw [← hAlike.waiting]
    simp only [step, Coordinator.step, Coordinator.cancel, List.filter_filter]
    refine List.filter_congr fun w _ => ?_
    by_cases hClient : w.client = client
    · simp [hClient, hOut]
    · simp [hClient]
  results := hAlike.results

theorem alike_calm (turns : List Turn)
    (hStay : ∀ client, who client = true → .event (.cancel client) ∉ turns) :
    Alike who (play turns) (play (turns.filter (!·.isCancel))) := by
  induction turns using List.reverseRecOn with
  | nil => exact ⟨rfl, rfl, rfl, rfl⟩
  | append_singleton turns t ih =>
      have hAlike := ih fun client hWho hGone => hStay client hWho (List.mem_append_left _ hGone)
      have hFaithful : (play turns).Faithful := play_faithful _
      have hCalm : (play (turns.filter (!·.isCancel))).Faithful := play_faithful _
      rw [List.filter_append, play_concat]
      cases t with
      | wake client =>
          show Alike who _ (play (_ ++ [.wake client]))
          rw [play_concat]
          exact hAlike.wake hFaithful hCalm
      | event e =>
          cases e with
          | build client key =>
              show Alike who _ (play (_ ++ [.event (.build client key)]))
              rw [play_concat]
              exact hAlike.build hFaithful hCalm
          | finish key ending =>
              show Alike who _ (play (_ ++ [.event (.finish key ending)]))
              rw [play_concat]
              exact hAlike.finish hFaithful hCalm ending
          | cancel client =>
              show Alike who _ (play (_ ++ []))
              rw [List.append_nil]
              refine hAlike.cancel (Bool.eq_false_iff.mpr fun hWho => hStay client hWho ?_)
              exact List.mem_append_right _ (List.mem_singleton_self _)

/-! ### Other keys -/

/-- The jobs that were started for a key, the earliest first. -/
def jobs (h : History) (key : String) : List JobId :=
  (h.launched.filter (·.key = key)).map Launch.job

/-- The clients whose producers were started for a key, the earliest first. -/
def producers (h : History) (key : String) : List String :=
  (h.launched.filter (·.key = key)).map Launch.client

/-- The results of the jobs for a key. Here such a job is known by its place among them. -/
def answers (h : History) (key : String) : List Delivery :=
  renumber (h.jobs key) Delivery.job Delivery.withJob h.results

/-- A history in which happens just what happens to a key in another one. -/
structure Alone (key : String) (h alone : History) : Prop where
  launched : alone.launched = (h.launched.filter (·.key = key)).map fun l =>
    l.withJob ((h.jobs key).idxOf l.job)
  ended : alone.ended = renumber (h.jobs key) Prod.fst (fun e place => (place, e.2)) h.ended
  waiting : alone.coordinator.waiting =
    renumber (h.jobs key) Waiter.job Waiter.withJob h.coordinator.waiting
  results : alone.results = h.answers key

theorem mem_jobs : job ∈ h.jobs key ↔ ∃ l ∈ h.launched, l.key = key ∧ l.job = job := by
  simp [jobs, and_assoc]

theorem mem_jobs_of_unfinished? (hJob : h.unfinished? key = some job) : job ∈ h.jobs key := by
  obtain ⟨l, hOpen, hKey, hSame⟩ := mem_of_unfinished? hJob
  exact mem_jobs.mpr ⟨l, (mem_unfinished.mp hOpen).1, hKey, hSame⟩

/-- The jobs for another key are other jobs. -/
theorem Faithful.notMem_jobs (hFaithful : h.Faithful) {other : String}
    (hJob : h.unfinished? other = some job) (hOther : other ≠ key) : job ∉ h.jobs key := by
  intro hMem
  obtain ⟨first, hFirst, hKey, hSame⟩ := mem_jobs.mp hMem
  obtain ⟨second, hSecond, hKey', hSame'⟩ := mem_of_unfinished? hJob
  have hEqual : first = second :=
    List.inj_on_of_nodup_map hFaithful.jobs_nodup hFirst (mem_unfinished.mp hSecond).1
      (hSame.trans hSame'.symm)
  exact hOther (by rw [← hKey', ← hEqual, hKey])

theorem Faithful.fresh_notMem_jobs (hFaithful : h.Faithful) : h.launched.length ∉ h.jobs key := by
  intro hMem
  obtain ⟨l, hLaunched, -, hJob⟩ := mem_jobs.mp hMem
  exact Nat.ne_of_lt (hFaithful.job_lt hLaunched) hJob

/-- Who waits for a job or has its result has called for it. -/
theorem Accounted.exists_call (hAccounted : h.Accounted) {w : Waiter}
    (hMem : w ∈ h.coordinator.waiting ∨ w ∈ h.results.map Delivery.waiter) :
    ∃ call ∈ h.calls, call.waiter = w := by
  have hCall : w ∈ h.calls.map Call.waiter := by
    refine hAccounted.calls.mem_iff.mpr (List.mem_append_left _ (List.mem_append.mpr ?_))
    exact hMem.symm
  exact List.mem_map.mp hCall

theorem Accounted.waiting_ne (hAccounted : h.Accounted) (hFaithful : h.Faithful) {w : Waiter}
    (hWaits : w ∈ h.coordinator.waiting) : w.job ≠ h.launched.length := by
  obtain ⟨call, hCalled, rfl⟩ := hAccounted.exists_call (.inl hWaits)
  obtain ⟨l, hLaunched, -, hJob⟩ := hAccounted.jobs call hCalled
  have hLess := hFaithful.job_lt hLaunched
  rw [hJob] at hLess
  exact Nat.ne_of_lt hLess

theorem Accounted.results_ne (hAccounted : h.Accounted) (hFaithful : h.Faithful) {d : Delivery}
    (hResult : d ∈ h.results) : d.job ≠ h.launched.length := by
  intro hFresh
  obtain ⟨ending, hEnded, -⟩ := hAccounted.results d hResult
  rw [hFresh, hFaithful.lookup_started] at hEnded
  cases hEnded

variable {alone : History}

theorem Alone.unfinished_eq (hAlone : Alone key h alone) :
    alone.unfinished = (h.unfinished.filter (·.key = key)).map fun l =>
      l.withJob ((h.jobs key).idxOf l.job) := by
  rw [unfinished, unfinished, hAlone.launched, hAlone.ended, List.filter_map]
  refine congrArg _ ((List.filter_congr fun l hMem => ?_).trans (List.filter_comm _ _ _))
  have hJob : l.job ∈ h.jobs key := List.mem_map_of_mem hMem
  exact congrArg Option.isNone (lookup_renumber hJob h.ended)

theorem Alone.unfinished?_eq (hAlone : Alone key h alone) :
    alone.unfinished? key = (h.unfinished? key).map fun job => (h.jobs key).idxOf job := by
  have hHead (hs : List Launch) : hs.find? (·.key = key) = (hs.filter (·.key = key)).head? := by
    rw [List.head?_filter]
  rw [unfinished?, unfinished?, hHead, hHead, hAlone.unfinished_eq, List.filter_map]
  have hAll : ((h.unfinished.filter (·.key = key)).filter
      ((fun l : Launch => decide (l.key = key)) ∘ fun l : Launch =>
        l.withJob ((h.jobs key).idxOf l.job))) = h.unfinished.filter (·.key = key) := by
    rw [List.filter_filter]
    exact List.filter_congr fun l _ => Bool.and_self _
  rw [hAll, List.head?_map, Option.map_map, Option.map_map]
  rfl

theorem Alone.launched_length (hAlone : Alone key h alone) :
    alone.launched.length = (h.jobs key).length := by
  rw [hAlone.launched, jobs, List.length_map, List.length_map]

/-! #### Turns about the key -/

theorem Alone.build (hAlone : Alone key h alone) (hFaithful : h.Faithful) (hAccounted : h.Accounted)
    (hOther : alone.Faithful) :
    Alone key (h.step (.build client key)) (alone.step (.build client key)) := by
  cases hFound : h.unfinished? key with
  | some job =>
      have hTaken : alone.unfinished? key = some ((h.jobs key).idxOf job) := by
        rw [hAlone.unfinished?_eq, hFound]
        rfl
      have hJob : job ∈ h.jobs key := mem_jobs_of_unfinished? hFound
      rw [hFaithful.step_joining hFound, hOther.step_joining hTaken]
      refine ⟨hAlone.launched, hAlone.ended, ?_, hAlone.results⟩
      show alone.coordinator.waiting ++ _ = renumber (h.jobs key) _ _ (_ ++ _)
      rw [renumber_append, renumber_cons_of_mem hJob, hAlone.waiting]
      rfl
  | none =>
      have hFree : alone.unfinished? key = none := by
        rw [hAlone.unfinished?_eq, hFound]
        rfl
      have hFresh : h.launched.length ∉ h.jobs key := hFaithful.fresh_notMem_jobs
      have hPlace : (h.jobs key ++ [h.launched.length]).idxOf h.launched.length =
          (h.jobs key).length := by
        rw [List.idxOf_append_of_notMem hFresh]
        simp
      have hJobs : (h.step (.build client key)).jobs key = h.jobs key ++ [h.launched.length] := by
        rw [hFaithful.step_creating hFound]
        simp [jobs]
      have hEnds : ∀ e ∈ h.ended, e.1 ≠ h.launched.length :=
        fun e hEnded => Nat.ne_of_lt (hFaithful.ended.2 e hEnded)
      constructor
      · rw [hJobs, hFaithful.step_creating hFound, hOther.step_creating hFree,
          hAlone.launched_length, hAlone.launched, List.filter_append, List.map_append]
        refine congrArg₂ _ (List.map_congr_left fun l hMem => ?_) ?_
        · have hJob : l.job ∈ h.jobs key := List.mem_map_of_mem hMem
          rw [List.idxOf_append_of_mem hJob]
        · simp [hPlace, Launch.withJob]
      · rw [hJobs, hFaithful.step_creating hFound, hOther.step_creating hFree,
          renumber_grown hEnds]
        exact hAlone.ended
      · rw [hJobs, hFaithful.step_creating hFound, hOther.step_creating hFree, renumber_append,
          renumber_grown fun w hWaits => hAccounted.waiting_ne hFaithful hWaits,
          renumber_cons_of_mem (by simp), hPlace, hAlone.waiting, hAlone.launched_length]
        rfl
      · rw [answers, hJobs, hFaithful.step_creating hFound, hOther.step_creating hFree,
          renumber_grown fun d hResult => hAccounted.results_ne hFaithful hResult]
        exact hAlone.results

theorem Alone.finish (hAlone : Alone key h alone) (hFaithful : h.Faithful)
    (hOther : alone.Faithful) (ending : Ending) :
    Alone key (h.step (.finish key ending)) (alone.step (.finish key ending)) := by
  have hTaken := hAlone.unfinished?_eq
  cases hFound : h.unfinished? key with
  | none =>
      rw [hFound] at hTaken
      rw [hFaithful.step_idle hFound, hOther.step_idle hTaken]
      exact hAlone
  | some job =>
      have hJob : job ∈ h.jobs key := mem_jobs_of_unfinished? hFound
      rw [hFound] at hTaken
      rw [hFaithful.step_ending hFound, hOther.step_ending hTaken]
      refine ⟨hAlone.launched, ?_, hAlone.waiting, hAlone.results⟩
      show _ :: alone.ended = renumber (h.jobs key) _ _ (_ :: h.ended)
      rw [renumber_cons_of_mem hJob, hAlone.ended]

/-- What is due for the jobs of a key is due without the other jobs. -/
theorem Alone.due (hAlone : Alone key h alone) (hFaithful : h.Faithful) (hOther : alone.Faithful) :
    alone.coordinator.due =
      renumber (h.jobs key) Delivery.job Delivery.withJob
        h.coordinator.due := by
  rw [Coordinator.due, Coordinator.due, hOther.ended.1, hFaithful.ended.1, hAlone.waiting,
    hAlone.ended]
  induction h.coordinator.waiting with
  | nil => rfl
  | cons w others ih =>
      by_cases hJob : w.job ∈ h.jobs key
      · rw [renumber_cons_of_mem hJob, List.filterMap_cons, List.filterMap_cons, ih,
          show (w.withJob ((h.jobs key).idxOf w.job)).job = (h.jobs key).idxOf w.job from rfl,
          lookup_renumber hJob]
        cases h.ended.lookup w.job with
        | none => rfl
        | some ending =>
            have hDue : Delivery.job ⟨w.client, w.job, ending.outcome⟩ ∈ h.jobs key := hJob
            show (_ : Delivery) :: _ = renumber (h.jobs key) Delivery.job Delivery.withJob (_ :: _)
            rw [renumber_cons_of_mem hDue]
            rfl
      · rw [renumber_cons_of_notMem hJob, List.filterMap_cons, ih]
        cases h.ended.lookup w.job with
        | none => rfl
        | some ending =>
            have hNotDue : Delivery.job ⟨w.client, w.job, ending.outcome⟩ ∉ h.jobs key := hJob
            exact (renumber_cons_of_notMem hNotDue).symm

theorem Alone.wake (hAlone : Alone key h alone) (hFaithful : h.Faithful) (hOther : alone.Faithful) :
    Alone key (h.turn (.wake client)) (alone.turn (.wake client)) where
  launched := hAlone.launched
  ended := hAlone.ended
  waiting := by
    show alone.coordinator.waiting.filter _ =
      renumber (h.jobs key) Waiter.job Waiter.withJob (h.coordinator.waiting.filter _)
    rw [hAlone.waiting, hFaithful.ended.1, hOther.ended.1, hAlone.ended]
    refine (renumber_filter fun w hJob => ?_).symm
    show (_ || (List.lookup ((h.jobs key).idxOf w.job) _).isNone) = _
    rw [lookup_renumber hJob]
    rfl
  results := by
    show alone.results ++ alone.coordinator.due.filter _ =
      renumber (h.jobs key) Delivery.job Delivery.withJob (h.results ++ h.coordinator.due.filter _)
    rw [renumber_append, hAlone.results, hAlone.due hFaithful hOther]
    exact congrArg _ (renumber_filter fun d hJob => rfl).symm

theorem Alone.cancel (hAlone : Alone key h alone) :
    Alone key (h.step (.cancel client)) (alone.step (.cancel client)) where
  launched := hAlone.launched
  ended := hAlone.ended
  waiting := by
    show alone.coordinator.waiting.filter _ =
      renumber (h.jobs key) Waiter.job Waiter.withJob (h.coordinator.waiting.filter _)
    rw [hAlone.waiting]
    exact (renumber_filter fun w hJob => rfl).symm
  results := hAlone.results

/-! #### Turns about other keys and other clients -/

theorem Alone.build_other (hAlone : Alone key h alone) (hFaithful : h.Faithful) {other : String}
    (hKey : other ≠ key) : Alone key (h.step (.build client other)) alone := by
  have hWaiting {job : JobId} (hJob : job ∉ h.jobs key) :
      alone.coordinator.waiting =
        renumber (h.jobs key) Waiter.job Waiter.withJob
          (h.coordinator.waiting ++ [⟨client, job⟩]) := by
    rw [renumber_append, renumber_cons_of_notMem hJob, hAlone.waiting]
    exact (List.append_nil _).symm
  cases hFound : h.unfinished? other with
  | some job =>
      rw [hFaithful.step_joining hFound]
      exact ⟨hAlone.launched, hAlone.ended, hWaiting (hFaithful.notMem_jobs hFound hKey),
        hAlone.results⟩
  | none =>
      have hLaunched : (h.launched ++ [(⟨client, other, h.launched.length⟩ : Launch)]).filter
          (·.key = key) = h.launched.filter (·.key = key) := by
        simp [hKey]
      have hJobs : (h.step (.build client other)).jobs key = h.jobs key := by
        rw [hFaithful.step_creating hFound, jobs, hLaunched, jobs]
      constructor
      · rw [hJobs, hFaithful.step_creating hFound, hLaunched]
        exact hAlone.launched
      · rw [hJobs, hFaithful.step_creating hFound]
        exact hAlone.ended
      · rw [hJobs, hFaithful.step_creating hFound]
        exact hWaiting hFaithful.fresh_notMem_jobs
      · rw [answers, hJobs, hFaithful.step_creating hFound]
        exact hAlone.results

theorem Alone.finish_other (hAlone : Alone key h alone) (hFaithful : h.Faithful) {other : String}
    (hKey : other ≠ key) (ending : Ending) : Alone key (h.step (.finish other ending)) alone := by
  cases hFound : h.unfinished? other with
  | none =>
      rw [hFaithful.step_idle hFound]
      exact hAlone
  | some job =>
      have hJob : job ∉ h.jobs key := hFaithful.notMem_jobs hFound hKey
      rw [hFaithful.step_ending hFound]
      refine ⟨hAlone.launched, ?_, hAlone.waiting, hAlone.results⟩
      show alone.ended = renumber (h.jobs key) _ _ (_ :: h.ended)
      rw [renumber_cons_of_notMem hJob, hAlone.ended]

/-- It makes no difference whether a client that waits for nothing wakes up or goes away. -/
theorem turn_stranger (hStranger : ∀ w ∈ h.coordinator.waiting, w.client ≠ client) :
    h.turn (.event (.cancel client)) = h ∧ h.turn (.wake client) = h := by
  have hGone : h.coordinator.waiting.filter (·.client = client) = [] :=
    List.filter_eq_nil_iff.mpr fun w hWaits => by simpa using hStranger w hWaits
  have hKept : h.coordinator.waiting.filter (·.client ≠ client) = h.coordinator.waiting :=
    List.filter_eq_self.mpr fun w hWaits => by simpa using hStranger w hWaits
  have hDue : h.coordinator.due.filter (·.client = client) = [] := by
    rw [← h.coordinator.due_filter (· = client) fun _ _ => rfl, hGone]
    rfl
  have hLeft : (h.coordinator.waiting.filter fun w =>
      w.client ≠ client || (h.coordinator.ended.lookup w.job).isNone) = h.coordinator.waiting :=
    List.filter_eq_self.mpr fun w hWaits => by simp [hStranger w hWaits]
  constructor
  · simp only [turn, step, Coordinator.step, Coordinator.cancel, hGone, hKept, List.append_nil]
  · simp only [turn, Coordinator.rouse, hDue, hLeft, List.append_nil]

/-- Calls are made by those turns. -/
theorem mem_calls {turns : List Turn} {call : Call} (hCall : call ∈ (play turns).calls) :
    .event (.build call.client call.key) ∈ turns := by
  induction turns using List.reverseRecOn with
  | nil => cases hCall
  | append_singleton turns t ih =>
      rw [play_concat] at hCall
      cases t with
      | wake client => exact List.mem_append_left _ (ih hCall)
      | event e =>
          cases e with
          | cancel client => exact List.mem_append_left _ (ih hCall)
          | finish key ending => exact List.mem_append_left _ (ih hCall)
          | build client key =>
              rcases List.mem_append.mp hCall with hOld | hNew
              · exact List.mem_append_left _ (ih hOld)
              · obtain rfl := List.mem_singleton.mp hNew
                exact List.mem_append_right _ (List.mem_singleton_self _)

/-- What happens to a key happens when only the turns that concern it are taken. -/
theorem alone_play (key : String) (all turns : List Turn) (hAll : turns ⊆ all) :
    Alone key (play turns) (play (turns.filter (Turn.concerns key all))) := by
  induction turns using List.reverseRecOn with
  | nil => exact ⟨rfl, rfl, rfl, rfl⟩
  | append_singleton turns t ih =>
      have hAlone := ih fun s hMem => hAll (List.mem_append_left _ hMem)
      have hFaithful : (play turns).Faithful := play_faithful _
      have hAccounted : (play turns).Accounted := play_accounted _
      have hOther := play_faithful (turns.filter (Turn.concerns key all))
      have hStranger {client : String} (hNever : .event (.build client key) ∉ all) :
          ∀ w ∈ (play (turns.filter (Turn.concerns key all))).coordinator.waiting,
            w.client ≠ client := by
        intro w hWaits hClient
        obtain ⟨call, hCalled, rfl⟩ := (play_accounted _).exists_call (.inl hWaits)
        obtain ⟨hMem, hKey⟩ := List.mem_filter.mp (mem_calls hCalled)
        have hKey : call.key = key := by simpa [Turn.concerns] using hKey
        refine hNever (hAll (List.mem_append_left _ ?_))
        rw [← hKey, ← hClient]
        exact hMem
      rw [List.filter_append, play_concat]
      cases hConcerns : Turn.concerns key all t with
      | true =>
          have hKept : [t].filter (Turn.concerns key all) = [t] := by simp [hConcerns]
          rw [hKept, play_concat]
          cases t with
          | wake client => exact hAlone.wake hFaithful hOther
          | event e =>
              cases e with
              | cancel client => exact hAlone.cancel
              | build client asked =>
                  obtain rfl : asked = key := by simpa [Turn.concerns] using hConcerns
                  exact hAlone.build hFaithful hAccounted hOther
              | finish asked ending =>
                  obtain rfl : asked = key := by simpa [Turn.concerns] using hConcerns
                  exact hAlone.finish hFaithful hOther ending
      | false =>
          have hDropped : [t].filter (Turn.concerns key all) = [] := by simp [hConcerns]
          rw [hDropped, List.append_nil]
          cases t with
          | wake client =>
              have hNever : .event (.build client key) ∉ all := by
                simpa [Turn.concerns] using hConcerns
              rw [← (turn_stranger (hStranger hNever)).2]
              exact hAlone.wake hFaithful hOther
          | event e =>
              cases e with
              | cancel client =>
                  have hNever : .event (.build client key) ∉ all := by
                    simpa [Turn.concerns] using hConcerns
                  rw [← (turn_stranger (hStranger hNever)).1]
                  exact hAlone.cancel
              | build client asked =>
                  exact hAlone.build_other hFaithful (by simpa [Turn.concerns] using hConcerns)
              | finish asked ending =>
                  exact hAlone.finish_other hFaithful (by simpa [Turn.concerns] using hConcerns)
                    ending

theorem filter_concerns {all turns : List Turn} {keeps : Turn → Bool}
    (hKeeps : ∀ t ∈ turns, t.concerns key all = true → keeps t = true) :
    (turns.filter keeps).filter (Turn.concerns key all) =
      turns.filter (Turn.concerns key all) := by
  rw [List.filter_filter]
  refine List.filter_congr fun t hMem => ?_
  cases hConcerns : Turn.concerns key all t with
  | false => rfl
  | true => simp [hKeeps t hMem hConcerns]

theorem Alone.isBuilding_eq (hAlone : Alone key h alone) (hFaithful : h.Faithful)
    (hOther : alone.Faithful) :
    alone.coordinator.isBuilding key = h.coordinator.isBuilding key := by
  rw [Coordinator.isBuilding, Coordinator.isBuilding, hOther.jobFor?_eq, hFaithful.jobFor?_eq,
    hAlone.unfinished?_eq, Option.isSome_map]

theorem Alone.producers_eq (hAlone : Alone key h alone) :
    alone.launched.map Launch.client = h.producers key := by
  rw [hAlone.launched, producers, List.map_map]
  rfl

/-- Who asks for one key only has no results but those of its jobs. -/
theorem outcomes_eq (hAccounted : h.Accounted)
    (hOnly : ∀ call ∈ h.calls, call.client = client → call.key = key) :
    (h.results.filter (·.client = client)).map Delivery.outcome =
      ((h.answers key).filter (·.client = client)).map Delivery.outcome := by
  have hJobs : ∀ d ∈ h.results.filter (·.client = client), d.job ∈ h.jobs key := by
    intro d hMem
    obtain ⟨hResult, hClient⟩ := List.mem_filter.mp hMem
    obtain ⟨call, hCalled, hWaiter⟩ :=
      hAccounted.exists_call (.inr (List.mem_map_of_mem hResult))
    obtain ⟨l, hLaunched, hKey, hJob⟩ := hAccounted.jobs call hCalled
    obtain ⟨hCaller, hSame⟩ : call.client = d.client ∧ call.job = d.job := by
      simpa [Call.waiter, Delivery.waiter] using hWaiter
    have hAsked : call.key = key := hOnly call hCalled (hCaller.trans (of_decide_eq_true hClient))
    exact mem_jobs.mpr ⟨l, hLaunched, hKey.trans hAsked, hJob.trans hSame⟩
  have hAnswers : (h.answers key).filter (·.client = client) =
      renumber (h.jobs key) Delivery.job Delivery.withJob
        (h.results.filter (·.client = client)) :=
    (renumber_filter fun d hJob => rfl).symm
  have hAll : ((h.results.filter (·.client = client)).filter fun d => d.job ∈ h.jobs key) =
      h.results.filter (·.client = client) :=
    List.filter_eq_self.mpr fun d hMem => decide_eq_true (hJobs d hMem)
  rw [hAnswers, renumber, hAll, List.map_map]
  rfl

/-- Taking away the turns in which clients go away changes, at no time, the jobs or the producers that
were started, nor the results of a client that never goes away. Taking away turns that concern neither
a key nor a client that asks for it changes, at no time, whether a job for the key runs, whose producers
were started for it, or the results of its jobs; so for a client that asks for no other key it changes
no result. -/
theorem no_interference (turns : List Turn) (n : Nat) :
    let full := play (turns.take n)
    let calm := play ((turns.take n).filter (!·.isCancel))
    full.coordinator.running = calm.coordinator.running ∧
    full.launched = calm.launched ∧
    (∀ client, .event (.cancel client) ∉ turns →
      full.results.filter (·.client = client) = calm.results.filter (·.client = client)) ∧
    ∀ key (keeps : Turn → Bool), (∀ t ∈ turns, t.concerns key turns = true → keeps t = true) →
      let alone := play ((turns.take n).filter keeps)
      full.coordinator.isBuilding key = alone.coordinator.isBuilding key ∧
      full.producers key = alone.producers key ∧
      full.answers key = alone.answers key ∧
      ∀ client, (∀ other, .event (.build client other) ∈ turns → other = key) →
        (full.results.filter (·.client = client)).map Delivery.outcome =
          (alone.results.filter (·.client = client)).map Delivery.outcome := by
  intro full calm
  have hFull : full.Faithful := play_faithful _
  have hCalm : calm.Faithful := play_faithful _
  have hAlike {who : String → Bool}
      (hStay : ∀ client, who client = true → .event (.cancel client) ∉ turns) :
      Alike who full calm :=
    alike_calm _ fun client hWho hGone => hStay client hWho (List.mem_of_mem_take hGone)
  have hNobody : Alike (fun _ => false) full calm :=
    hAlike fun client hWho => absurd hWho (by simp)
  refine ⟨?_, hNobody.launched, fun client hStays => ?_, fun key keeps hKeeps => ?_⟩
  · rw [hFull.running, hCalm.running, unfinished, unfinished, hNobody.launched, hNobody.ended]
  · have hSame : Alike (fun other => decide (other = client)) full calm :=
      hAlike fun other hOther => by
        rw [of_decide_eq_true hOther]
        exact hStays
    exact hSame.results
  · intro alone
    have hAlone : alone.Faithful := play_faithful _
    have hTake : turns.take n ⊆ turns := fun t hMem => List.mem_of_mem_take hMem
    have hKept : (turns.take n).filter keeps ⊆ turns :=
      fun t hMem => hTake (List.mem_filter.mp hMem).1
    have hPlayed := alone_play key turns (turns.take n) hTake
    have hReplayed := alone_play key turns ((turns.take n).filter keeps) hKept
    rw [filter_concerns fun t hMem => hKeeps t (hTake hMem)] at hReplayed
    have hAnswers : full.answers key = alone.answers key :=
      hPlayed.results.symm.trans hReplayed.results
    refine ⟨?_, ?_, hAnswers, fun client hAsks => ?_⟩
    · rw [← hPlayed.isBuilding_eq hFull (play_faithful _),
        ← hReplayed.isBuilding_eq hAlone (play_faithful _)]
    · rw [← hPlayed.producers_eq, ← hReplayed.producers_eq]
    · have hAsked {some : List Turn} (hSome : some ⊆ turns) :
          ∀ call ∈ (play some).calls, call.client = client → call.key = key := by
        rintro call hCalled rfl
        exact hAsks call.key (hSome (mem_calls hCalled))
      rw [outcomes_eq (play_accounted _) (hAsked hTake), hAnswers,
        outcomes_eq (play_accounted _) (hAsked hKept)]

/-- The creator of a job goes away, the job for the other key panics, and both keys are asked for
again. -/
theorem no_interference_after_panic :
    let turns : List Turn := [.event (.build "first" "a"), .event (.build "second" "a"),
      .event (.build "third" "b"), .event (.cancel "first"), .event (.finish "b" .panicked),
      .event (.finish "a" (.returned (.failure "no file"))), .event (.build "third" "b"),
      .event (.build "first" "a"), .wake "second", .wake "third", .event (.finish "b" .panicked)]
    (play (turns.filter (!·.isCancel))).results.filter (·.client = "second") =
      [⟨"second", 0, .failure "no file"⟩] ∧
    (play (turns.filter (Turn.concerns "b" turns))).answers "b" =
      [⟨"third", 0, .failure "build task aborted before producing a result"⟩] := by
  intro turns
  obtain ⟨-, -, hStays, hKeys⟩ := no_interference turns turns.length
  obtain ⟨-, -, hAnswers, -⟩ := hKeys "b" (Turn.concerns "b" turns) fun _ _ hConcerns => hConcerns
  refine ⟨(hStays "second" (by decide +kernel)).symm.trans ?_, hAnswers.symm.trans ?_⟩
  · decide +kernel
  · decide +kernel

end History

end ModuleGateway.Build
