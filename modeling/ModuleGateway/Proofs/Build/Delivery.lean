import ModuleGateway.Proofs.Build.History
import Mathlib.Data.List.Count
import Mathlib.Data.List.Perm.Basic

/-!
What clients receive. A client waits for the job that it joined or created, and not for the key. So it
makes no difference that another job for the key may have started before the client wakes up: it
receives the result of its own job, and it receives it once.
-/

namespace ModuleGateway.Build

/-- The client with the job whose result it has. -/
def Delivery.waiter (d : Delivery) : Waiter :=
  ⟨d.client, d.job⟩

/-- The client with the job that it asked for. -/
def Call.waiter (call : Call) : Waiter :=
  ⟨call.client, call.job⟩

namespace Coordinator

/-- The results that are due are for the clients that wait for jobs that have ended. -/
theorem map_due (c : Coordinator) (who : String → Bool) :
    (c.due.filter fun d => who d.client).map Delivery.waiter =
      c.waiting.filter fun w => who w.client && (c.ended.lookup w.job).isSome := by
  rw [due]
  induction c.waiting with
  | nil => rfl
  | cons w rest ih =>
      cases hEnded : c.ended.lookup w.job with
      | none => simpa [hEnded] using ih
      | some ending =>
          cases hWho : who w.client with
          | false => simpa [hEnded, hWho] using ih
          | true => simpa [hEnded, hWho, Delivery.waiter] using ih

theorem map_rouse (c : Coordinator) (client : String) :
    (c.rouse client).1.map Delivery.waiter ++ (c.rouse client).2.waiting |>.Perm c.waiting := by
  have hRest : (c.rouse client).2.waiting =
      c.waiting.filter fun w => !(w.client = client && (c.ended.lookup w.job).isSome) := by
    refine List.filter_congr fun w _ => ?_
    cases c.ended.lookup w.job <;> simp
  rw [rouse, map_due c (· = client), ← rouse, hRest]
  exact List.filter_append_perm _ c.waiting

/-- When some of the clients whose jobs have ended wait no more, what is due to the others stays. -/
theorem due_filter (c : Coordinator) {stays : Waiter → Bool} (who : String → Bool)
    (hEnded : ∀ w, (c.ended.lookup w.job).isSome = true → stays w = who w.client) :
    { c with waiting := c.waiting.filter stays : Coordinator }.due =
      c.due.filter (who ·.client) := by
  rw [due, due]
  induction c.waiting with
  | nil => rfl
  | cons w others ih =>
      cases hFound : c.ended.lookup w.job with
      | none => cases hStays : stays w <;> simpa [hFound, hStays] using ih
      | some ending =>
          have hSame : stays w = who w.client := hEnded w (by simp [hFound])
          cases hWho : who w.client <;> simpa [hFound, hSame, hWho] using ih

/-- Who has woken up is owed nothing more. -/
theorem due_rouse (c : Coordinator) (client : String) :
    (c.rouse client).2.due = c.due.filter (·.client ≠ client) := by
  refine c.due_filter (· ≠ client) fun w hEnded => ?_
  rw [Option.isNone_eq_false_iff.mpr hEnded, Bool.or_false]

/-- Whoever asks for a build waits, behind those who asked before. -/
theorem waiting_request (c : Coordinator) (client key : String) :
    (c.request client key).waiting.map Waiter.client = c.waiting.map Waiter.client ++ [client] := by
  cases hJob : c.jobFor? key with
  | some job => simp [request_of_taken hJob]
  | none => simp [request_of_free hJob]

theorem waiting_finish (c : Coordinator) (key : String) (ending : Ending) :
    (c.finish key ending).waiting = c.waiting := by
  unfold finish
  split <;> rfl

end Coordinator

namespace History

variable {h : History} {client key : String} {job : JobId} {ending : Ending}

/-- A job that has ended keeps its ending. -/
theorem lookup_turn (t : Turn) (hEnded : h.ended.lookup job = some ending) :
    (h.turn t).ended.lookup job = some ending := by
  cases t with
  | wake client => exact hEnded
  | event e =>
      cases e with
      | build client key => exact hEnded
      | cancel client => exact hEnded
      | finish key other =>
          show (((h.unfinished? key).map fun job => (job, other)).toList ++ h.ended).lookup job = _
          cases hFound : h.unfinished? key with
          | none => exact hEnded
          | some last =>
              have hApart : job ≠ last := by
                rintro rfl
                obtain ⟨l, hOpen, -, rfl⟩ := mem_of_unfinished? hFound
                rw [(mem_unfinished.mp hOpen).2] at hEnded
                cases hEnded
              simpa [List.lookup_cons, beq_false_of_ne hApart] using hEnded

/-- Every call is accounted for. -/
structure Accounted (h : History) : Prop where
  /-- A call has its result, or waits for it, or was given up. -/
  calls : (h.calls.map Call.waiter).Perm
    (h.results.map Delivery.waiter ++ h.coordinator.waiting ++ h.givenUp)
  /-- A call is for a job for its key. -/
  jobs : ∀ call ∈ h.calls, ∃ l ∈ h.launched, l.key = call.key ∧ l.job = call.job
  /-- A result is that of its job. -/
  results : ∀ d ∈ h.results, ∃ ending,
    h.ended.lookup d.job = some ending ∧ d.outcome = ending.outcome

theorem accounted_start : Accounted {} where
  calls := List.Perm.nil
  jobs := fun call hCall => by cases hCall
  results := fun d hResult => by cases hResult

theorem Accounted.build (hAccounted : h.Accounted) (hFaithful : h.Faithful) :
    (h.step (.build client key)).Accounted := by
  have hCalls (w : Waiter) : (h.calls.map Call.waiter ++ [w]).Perm
      (h.results.map Delivery.waiter ++ (h.coordinator.waiting ++ [w]) ++ h.givenUp) := by
    refine List.perm_iff_count.mpr fun other => ?_
    have hBefore := hAccounted.calls.count_eq other
    simp only [List.count_append] at hBefore ⊢
    omega
  cases hFound : h.unfinished? key with
  | some job =>
      rw [hFaithful.step_joining hFound]
      refine ⟨?_, fun call hCall => ?_, hAccounted.results⟩
      · rw [List.map_append]
        exact hCalls ⟨client, job⟩
      · rcases List.mem_append.mp hCall with hOld | hNew
        · exact hAccounted.jobs call hOld
        · obtain rfl := List.mem_singleton.mp hNew
          obtain ⟨l, hOpen, hKey, hJob⟩ := mem_of_unfinished? hFound
          exact ⟨l, (mem_unfinished.mp hOpen).1, hKey, hJob⟩
  | none =>
      rw [hFaithful.step_creating hFound]
      refine ⟨?_, fun call hCall => ?_, hAccounted.results⟩
      · rw [List.map_append]
        exact hCalls ⟨client, h.launched.length⟩
      · rcases List.mem_append.mp hCall with hOld | hNew
        · obtain ⟨l, hLaunched, hRest⟩ := hAccounted.jobs call hOld
          exact ⟨l, List.mem_append_left _ hLaunched, hRest⟩
        · obtain rfl := List.mem_singleton.mp hNew
          exact ⟨_, List.mem_append_right _ (List.mem_singleton_self _), rfl, rfl⟩

theorem Accounted.cancel (hAccounted : h.Accounted) : (h.step (.cancel client)).Accounted where
  calls := by
    refine List.perm_iff_count.mpr fun other => ?_
    have hBefore := hAccounted.calls.count_eq other
    have hSplit : (h.coordinator.waiting.filter (·.client = client) ++
        h.coordinator.waiting.filter fun w => !decide (w.client = client)).Perm
          h.coordinator.waiting := List.filter_append_perm _ _
    have hWaiting := hSplit.count_eq other
    simp only [step, Coordinator.step, Coordinator.cancel, List.count_append, ne_eq,
      decide_not] at hBefore hWaiting ⊢
    omega
  jobs := hAccounted.jobs
  results := hAccounted.results

theorem Accounted.wake (hAccounted : h.Accounted) (hFaithful : h.Faithful) :
    (h.turn (.wake client)).Accounted where
  calls := by
    refine List.perm_iff_count.mpr fun other => ?_
    have hBefore := hAccounted.calls.count_eq other
    have hWaiting := (h.coordinator.map_rouse client).count_eq other
    simp only [turn, List.map_append, List.count_append] at hBefore hWaiting ⊢
    omega
  jobs := hAccounted.jobs
  results := fun d hResult => by
    rcases List.mem_append.mp hResult with hOld | hNew
    · exact hAccounted.results d hOld
    · obtain ⟨w, -, ending, hEnded, rfl⟩ :=
        Coordinator.ending_of_due (List.mem_filter.mp hNew).1
      rw [hFaithful.ended.1] at hEnded
      exact ⟨ending, hEnded, rfl⟩

theorem Accounted.turn (hAccounted : h.Accounted) (hFaithful : h.Faithful) (t : Turn) :
    (h.turn t).Accounted := by
  cases t with
  | wake client => exact hAccounted.wake hFaithful
  | event e =>
      cases e with
      | build client key => exact hAccounted.build hFaithful
      | cancel client => exact hAccounted.cancel
      | finish key ending =>
          refine ⟨?_, hAccounted.jobs, fun d hResult => ?_⟩
          · rw [History.turn, step, Coordinator.step, Coordinator.waiting_finish]
            exact hAccounted.calls
          · obtain ⟨before, hEnded, hOutcome⟩ := hAccounted.results d hResult
            exact ⟨before, lookup_turn (.event (.finish key ending)) hEnded, hOutcome⟩

theorem play_accounted (turns : List Turn) : (play turns).Accounted := by
  have hBoth : (play turns).Faithful ∧ (play turns).Accounted :=
    play_invariant (I := fun h => h.Faithful ∧ h.Accounted) ⟨faithful_start, accounted_start⟩
      (fun h t hKept => ⟨hKept.1.turn t, hKept.2.turn hKept.1 t⟩) turns
  exact hBoth.2

/-- Only a client that goes away gives up its calls. -/
theorem mem_givenUp {turns : List Turn} {w : Waiter} (hGone : w ∈ (play turns).givenUp) :
    .event (.cancel w.client) ∈ turns := by
  induction turns using List.reverseRecOn with
  | nil => cases hGone
  | append_singleton turns t ih =>
      rw [play_concat] at hGone
      cases t with
      | wake client => exact List.mem_append_left _ (ih hGone)
      | event e =>
          cases e with
          | build client key => exact List.mem_append_left _ (ih hGone)
          | finish key ending => exact List.mem_append_left _ (ih hGone)
          | cancel client =>
              rcases List.mem_append.mp hGone with hOld | hNew
              · exact List.mem_append_left _ (ih hOld)
              · have hClient : w.client = client := by simpa using (List.mem_filter.mp hNew).2
                rw [hClient]
                exact List.mem_append_right _ (List.mem_singleton_self _)

/-! ### All that can wake up do -/

/-- The history after all clients that wait have woken up, one after another. -/
def rest (h : History) : History :=
  (h.coordinator.waiting.map fun w => Turn.wake w.client).foldl turn h

/-- Clients that wake up one after another take what is due to them, and the others wait on. -/
theorem foldl_wake (clients : List String) (h : History) :
    (clients.map Turn.wake).foldl turn h = { h with
      coordinator := { h.coordinator with
        waiting := h.coordinator.waiting.filter fun w =>
          !clients.contains w.client || (h.coordinator.ended.lookup w.job).isNone }
      results := ((clients.map Turn.wake).foldl turn h).results } ∧
    ((clients.map Turn.wake).foldl turn h).results.Perm
      (h.results ++ h.coordinator.due.filter (clients.contains ·.client)) := by
  induction clients generalizing h with
  | nil => simp
  | cons client clients ih =>
      obtain ⟨hLater, hResults⟩ := ih (h.turn (.wake client))
      refine ⟨?_, hResults.trans ?_⟩
      · have hWaiting : ((h.coordinator.rouse client).2.waiting.filter fun w =>
            !clients.contains w.client || (h.coordinator.ended.lookup w.job).isNone) =
            h.coordinator.waiting.filter fun w => !(client :: clients).contains w.client ||
              (h.coordinator.ended.lookup w.job).isNone := by
          simp only [Coordinator.rouse, List.filter_filter, List.contains_cons]
          refine List.filter_congr fun w _ => ?_
          by_cases hClient : w.client = client <;> cases h.coordinator.ended.lookup w.job <;>
            simp [hClient]
        rw [← hWaiting]
        exact hLater
      · have hDue : (h.turn (.wake client)).coordinator.due =
            h.coordinator.due.filter (·.client ≠ client) := h.coordinator.due_rouse client
        have hSplit := List.filter_append_perm (fun d : Delivery => d.client = client)
          (h.coordinator.due.filter ((client :: clients).contains ·.client))
        rw [hDue]
        show (h.results ++ h.coordinator.due.filter (·.client = client) ++ _).Perm _
        rw [List.append_assoc]
        refine List.Perm.append_left _ (.trans (.of_eq ?_) hSplit)
        simp only [List.filter_filter, List.contains_cons]
        congr 1
        · refine List.filter_congr fun d _ => ?_
          by_cases hClient : d.client = client <;> simp [hClient]
        · refine List.filter_congr fun d _ => ?_
          by_cases hClient : d.client = client <;> simp [hClient]

theorem rest_eq (h : History) :
    h.rest = { h with coordinator := h.coordinator.wake.2, results := h.rest.results } ∧
      h.rest.results.Perm (h.results ++ h.coordinator.wake.1) := by
  have hWakes : h.rest = ((h.coordinator.waiting.map Waiter.client).map Turn.wake).foldl turn h := by
    rw [rest, List.map_map]
    rfl
  have hThere {w : Waiter} (hWaits : w ∈ h.coordinator.waiting) :
      (h.coordinator.waiting.map Waiter.client).contains w.client = true :=
    List.contains_iff_mem.mpr (List.mem_map_of_mem hWaits)
  obtain ⟨hLater, hResults⟩ := foldl_wake (h.coordinator.waiting.map Waiter.client) h
  rw [← hWakes] at hLater hResults
  constructor
  · have hWaiting : (h.coordinator.waiting.filter fun w =>
        !(h.coordinator.waiting.map Waiter.client).contains w.client ||
          (h.coordinator.ended.lookup w.job).isNone) =
        h.coordinator.waiting.filter fun w => (h.coordinator.ended.lookup w.job).isNone := by
      refine List.filter_congr fun w hWaits => ?_
      rw [hThere hWaits]
      rfl
    rw [hWaiting] at hLater
    exact hLater
  · have hAll : h.coordinator.due.filter
        ((h.coordinator.waiting.map Waiter.client).contains ·.client) = h.coordinator.due := by
      refine List.filter_eq_self.mpr fun d hDue => ?_
      obtain ⟨w, hWaits, -, -, rfl⟩ := Coordinator.ending_of_due hDue
      exact hThere hWaits
    rw [hAll] at hResults
    exact hResults

theorem play_rest (turns : List Turn) :
    (play turns).rest =
      play (turns ++ (play turns).coordinator.waiting.map fun w => .wake w.client) := by
  rw [play_append]
  rfl

theorem step_coordinator (h : History) (e : Coordinator.Event) :
    (h.step e).coordinator = h.coordinator.step e := by
  cases e <;> rfl

/-- A coordinator whose clients all wake up after every event goes through one of these histories. -/
theorem run_played (events : List Coordinator.Event) (turns : List Turn) :
    ∃ later, later.filterMap Turn.event? = events ∧
      (play (turns ++ later)).coordinator = ((play turns).coordinator.run events).2 ∧
      (play (turns ++ later)).results.Perm
        ((play turns).results ++ ((play turns).coordinator.run events).1) := by
  induction events generalizing turns with
  | nil => exact ⟨[], rfl, by simp [Coordinator.run], by simp [Coordinator.run]⟩
  | cons e events ih =>
      let woken := (play (turns ++ [.event e])).coordinator.waiting.map fun w => Turn.wake w.client
      obtain ⟨later, hEvents, hCoordinator, hResults⟩ := ih (turns ++ .event e :: woken)
      have hPlay : play (turns ++ .event e :: woken) = ((play turns).step e).rest := by
        have hEvent : play (turns ++ [.event e]) = (play turns).step e := play_concat _ _
        rw [← hEvent, play_rest, List.append_assoc]
        rfl
      obtain ⟨hRested, hDelivered⟩ := ((play turns).step e).rest_eq
      have hResultsStep : ((play turns).step e).results = (play turns).results := by
        cases e <;> rfl
      rw [hPlay] at hCoordinator hResults
      rw [hRested, step_coordinator] at hCoordinator
      rw [show ((play turns).step e).rest.coordinator = ((play turns).coordinator.step e).wake.2 by
        rw [hRested, step_coordinator]] at hResults
      rw [step_coordinator, hResultsStep] at hDelivered
      refine ⟨.event e :: woken ++ later, ?_, ?_, ?_⟩
      · have hNone : woken.filterMap Turn.event? = [] := by
          simp [woken, List.filterMap_map, Turn.event?]
        simp [hEvents, hNone, Turn.event?]
      · rw [← List.append_assoc, hCoordinator]
        rfl
      · rw [← List.append_assoc]
        refine hResults.trans ((hDelivered.append_right _).trans ?_)
        rw [List.append_assoc]
        exact .refl _

/-! ### Results -/

/-- Where a call neither waits nor was given up, its client has one result for it. -/
theorem Accounted.results_eq (hAccounted : h.Accounted) (hEnded : h.ended.lookup job = some ending)
    (hWaiting : ⟨client, job⟩ ∉ h.coordinator.waiting) (hGivenUp : ⟨client, job⟩ ∉ h.givenUp) :
    h.results.filter (fun d => d.waiter = ⟨client, job⟩) =
      List.replicate ((h.calls.map Call.waiter).count ⟨client, job⟩)
        ⟨client, job, ending.outcome⟩ := by
  refine List.eq_replicate_iff.mpr ⟨?_, fun d hMem => ?_⟩
  · -- Of the three places where a call can be, two are empty.
    have hCount := hAccounted.calls.count_eq ⟨client, job⟩
    have hNoneWaits := List.count_eq_zero.mpr hWaiting
    have hNoneGone := List.count_eq_zero.mpr hGivenUp
    have hResults : (h.results.filter fun d => d.waiter = ⟨client, job⟩).length =
        (h.results.map Delivery.waiter).count ⟨client, job⟩ := by
      rw [List.count, List.countP_map, List.countP_eq_length_filter]
      rfl
    simp only [List.count_append] at hCount
    omega
  · obtain ⟨hResult, hWaiter⟩ := List.mem_filter.mp hMem
    obtain ⟨before, hBefore, hOutcome⟩ := hAccounted.results d hResult
    obtain ⟨hClient, hJob⟩ : d.client = client ∧ d.job = job := by
      simpa [Delivery.waiter] using hWaiter
    rw [hJob, hEnded] at hBefore
    calc
      d = ⟨d.client, d.job, d.outcome⟩ := rfl
      _ = ⟨client, job, ending.outcome⟩ := by
        rw [hClient, hJob, hOutcome, Option.some.inj hBefore]

/-- Every call is answered once, or waits, or was given up by its client, whatever happens and in
whatever order. An answer is for the job that the call joined or created, which is a job for its key:
what the producer of this job returned, or that it panicked. So all calls for one job have the same
answer. When all clients have woken up, none of them waits for a job that has ended, and a client that
has given up no call for the job has one result for each of its calls for it. -/
theorem answered_once (turns : List Turn) :
    let h := play turns
    (h.calls.map Call.waiter).Perm
      (h.results.map Delivery.waiter ++ h.coordinator.waiting ++ h.givenUp) ∧
    (∀ w ∈ h.givenUp, .event (.cancel w.client) ∈ turns) ∧
    (∀ call ∈ h.calls, ∃ l ∈ h.launched, l.key = call.key ∧ l.job = call.job) ∧
    (∀ d ∈ h.results, ∃ ending, h.ended.lookup d.job = some ending ∧
      match ending with
      | .returned outcome => d.outcome = outcome
      | .panicked => d.outcome = .failure "build task aborted before producing a result") ∧
    (∀ d ∈ h.results, ∀ other ∈ h.results, d.job = other.job → d.outcome = other.outcome) ∧
    (∀ w ∈ h.rest.coordinator.waiting, h.ended.lookup w.job = none) ∧
    ∀ client job ending, h.ended.lookup job = some ending → ⟨client, job⟩ ∉ h.givenUp →
      h.rest.results.filter (fun d => d.waiter = ⟨client, job⟩) =
        List.replicate ((h.calls.map Call.waiter).count ⟨client, job⟩)
          ⟨client, job, ending.outcome⟩ := by
  intro h
  have hAccounted : h.Accounted := play_accounted turns
  have hFaithful : h.Faithful := play_faithful turns
  obtain ⟨hRest, -⟩ := h.rest_eq
  have hRested : h.rest.Accounted := by
    rw [play_rest]
    exact play_accounted _
  have hNone : ∀ w ∈ h.rest.coordinator.waiting, h.ended.lookup w.job = none := by
    intro w hWaits
    rw [hRest] at hWaits
    have hOpen := (List.mem_filter.mp hWaits).2
    rwa [hFaithful.ended.1, Option.isNone_iff_eq_none] at hOpen
  refine ⟨hAccounted.calls, fun w hGone => mem_givenUp hGone, hAccounted.jobs, ?_, ?_, hNone, ?_⟩
  · intro d hResult
    obtain ⟨ending, hEnded, hOutcome⟩ := hAccounted.results d hResult
    refine ⟨ending, hEnded, ?_⟩
    cases ending <;> exact hOutcome
  · intro d hResult other hOther hJob
    obtain ⟨ending, hEnded, hOutcome⟩ := hAccounted.results d hResult
    obtain ⟨ending', hEnded', hOutcome'⟩ := hAccounted.results other hOther
    rw [hJob, hEnded'] at hEnded
    rw [hOutcome, hOutcome', Option.some.inj hEnded]
  · intro client job ending hEnded hKept
    have hSame : h.rest.calls = h.calls ∧ h.rest.ended = h.ended ∧ h.rest.givenUp = h.givenUp := by
      rw [hRest]
      exact ⟨rfl, rfl, rfl⟩
    obtain ⟨hCalls, hEndings, hGivenUp⟩ := hSame
    rw [← hCalls]
    refine hRested.results_eq (by rwa [hEndings]) (fun hWaits => ?_) (by rwa [hGivenUp])
    rw [hNone _ hWaits] at hEnded
    cases hEnded

/-- The first client wakes up only after the next job for its key has started, and the second client
after that job has panicked. Each has the result of its own job. -/
theorem answered_once_late :
    let turns : List Turn := [.event (.build "first" "a"),
      .event (.finish "a" (.returned (.failure "no file"))), .event (.build "second" "a"),
      .event (.build "third" "a"), .wake "first", .event (.cancel "third"),
      .event (.finish "a" .panicked)]
    let h := play turns
    h.results = [⟨"first", 0, .failure "no file"⟩] ∧
      h.rest.results.filter (fun d => d.waiter = ⟨"second", 1⟩) =
        [⟨"second", 1, .failure "build task aborted before producing a result"⟩] := by
  intro turns h
  obtain ⟨-, -, -, -, -, -, hAnswered⟩ := answered_once turns
  have hSecond := hAnswered "second" 1 .panicked (by decide +kernel) (by decide +kernel)
  refine ⟨by decide +kernel, hSecond.trans ?_⟩
  decide +kernel

end History

end ModuleGateway.Build
