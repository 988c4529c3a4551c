import ModuleGateway.Build.Coordinator
import Mathlib.Data.List.Induction
import Mathlib.Data.List.Nodup

/-!
What happens around a coordinator. Clients ask for keys and go away, producers return or panic, and a
client whose job has ended wakes up at some later time; all of this in any order. A history is a
coordinator with what an observer has written down. The observer knows which producers were started and
how they ended, and works out from these alone which jobs have not ended; it never looks into the map
of the coordinator for that.
-/

namespace ModuleGateway.Build

/-- What can happen next. -/
inductive Turn where
  | event (e : Coordinator.Event)
  /-- A client wakes up and takes the results that are ready for it. -/
  | wake (client : String)
  deriving DecidableEq

def Turn.event? : Turn → Option Coordinator.Event
  | .event e => some e
  | .wake _ => none

/-- Whether a client asks for the key. -/
def Turn.asksFor (key : String) : Turn → Bool
  | .event (.build _ asked) => asked = key
  | _ => false

/-- The producer that came with a client's call was started. -/
structure Launch where
  client : String
  key : String
  job : JobId
  deriving DecidableEq, Repr

/-- A client asked for a key. -/
structure Call where
  client : String
  key : String
  /-- Whether the call came while a job for the key had not ended. -/
  isJoining : Bool
  /-- The job that the call joined, or else the one that it created. -/
  job : JobId
  deriving DecidableEq, Repr

/-- A coordinator with all that has happened around it, the earliest first. -/
structure History where
  coordinator : Coordinator := {}
  calls : List Call := []
  launched : List Launch := []
  /-- The jobs whose producers have ended, the latest first. -/
  ended : List (JobId × Ending) := []
  results : List Delivery := []
  /-- The calls whose clients went away before they had a result. -/
  givenUp : List Waiter := []
  deriving DecidableEq

namespace Coordinator

/-- A client wakes up: it takes the results that are ready for it and waits for the others. -/
def rouse (c : Coordinator) (client : String) : List Delivery × Coordinator :=
  (c.due.filter (·.client = client),
    { c with waiting := c.waiting.filter fun w =>
        w.client ≠ client || (c.ended.lookup w.job).isNone })

end Coordinator

namespace History

/-- The jobs whose producers were started and have neither returned nor panicked. -/
def unfinished (h : History) : List Launch :=
  h.launched.filter fun l => (h.ended.lookup l.job).isNone

def unfinished? (h : History) (key : String) : Option JobId :=
  (h.unfinished.find? (·.key = key)).map Launch.job

/-- The history after one more event. That a producer is started is seen from the number of jobs that
the coordinator has started. -/
def step (h : History) (e : Coordinator.Event) : History :=
  let after := h.coordinator.step e
  match e with
  | .build client key =>
    { h with
      coordinator := after
      calls := h.calls ++ [⟨client, key, (h.unfinished? key).isSome,
        (h.unfinished? key).getD h.launched.length⟩]
      launched := h.launched ++
        if h.coordinator.started < after.started then [⟨client, key, h.coordinator.started⟩]
        else [] }
  | .finish key ending =>
    { h with
      coordinator := after
      ended := ((h.unfinished? key).map fun job => (job, ending)).toList ++ h.ended }
  | .cancel client =>
    { h with
      coordinator := after
      givenUp := h.givenUp ++ h.coordinator.waiting.filter (·.client = client) }

def turn (h : History) : Turn → History
  | .event e => h.step e
  | .wake client =>
    { h with
      coordinator := (h.coordinator.rouse client).2
      results := h.results ++ (h.coordinator.rouse client).1 }

/-- What has happened after a list of turns, with a coordinator that is new at first. -/
def play (turns : List Turn) : History :=
  turns.foldl turn {}

theorem play_append (earlier later : List Turn) :
    play (earlier ++ later) = later.foldl turn (play earlier) :=
  List.foldl_append

theorem play_concat (turns : List Turn) (t : Turn) : play (turns ++ [t]) = (play turns).turn t :=
  play_append turns [t]

/-- What holds at the start and after every turn holds of every history. -/
theorem play_invariant {I : History → Prop} (hStart : I {})
    (hKept : ∀ h t, I h → I (h.turn t)) (turns : List Turn) : I (play turns) := by
  induction turns using List.reverseRecOn with
  | nil => exact hStart
  | append_singleton turns t ih =>
      rw [play_concat]
      exact hKept _ t ih

/-! ### The coordinator knows what happened -/

/-- The map of the coordinator holds the jobs that have not ended. -/
structure Faithful (h : History) : Prop where
  started : h.coordinator.started = h.launched.length
  /-- Jobs are numbered in the order in which they are started. -/
  numbers : h.launched.map Launch.job = List.range h.launched.length
  running : h.coordinator.running = h.unfinished.map fun l => ⟨l.key, l.job⟩
  /-- Whatever ended was started. -/
  ended : h.coordinator.ended = h.ended ∧ ∀ e ∈ h.ended, e.1 < h.launched.length
  /-- A key has one job that has not ended. -/
  keys : (h.unfinished.map Launch.key).Nodup
  /-- The producers that were started came with the calls that found no such job. -/
  producers : h.launched =
    (h.calls.filter fun call => !call.isJoining).map fun call => ⟨call.client, call.key, call.job⟩

variable {h : History} {client key : String} {job : JobId} {ending : Ending}

theorem Faithful.jobFor?_eq (hFaithful : h.Faithful) (key : String) :
    h.coordinator.jobFor? key = h.unfinished? key := by
  rw [Coordinator.jobFor?, hFaithful.running, List.find?_map, Option.map_map]
  rfl

theorem Faithful.jobs_nodup (hFaithful : h.Faithful) : (h.launched.map Launch.job).Nodup := by
  rw [hFaithful.numbers]
  exact List.nodup_range

theorem mem_unfinished {l : Launch} :
    l ∈ h.unfinished ↔ l ∈ h.launched ∧ h.ended.lookup l.job = none := by
  rw [unfinished, List.mem_filter, Option.isNone_iff_eq_none]

theorem mem_of_unfinished? (hJob : h.unfinished? key = some job) :
    ∃ l ∈ h.unfinished, l.key = key ∧ l.job = job := by
  obtain ⟨l, hFound, rfl⟩ := Option.map_eq_some_iff.mp hJob
  exact ⟨l, List.mem_of_find?_eq_some hFound, by simpa using List.find?_some hFound, rfl⟩

theorem unfinished?_eq_none : h.unfinished? key = none ↔ ∀ l ∈ h.unfinished, l.key ≠ key := by
  rw [unfinished?, Option.map_eq_none_iff, List.find?_eq_none]
  simp

theorem Faithful.unfinished?_eq_some (hFaithful : h.Faithful) :
    h.unfinished? key = some job ↔ ∃ l ∈ h.unfinished, l.key = key ∧ l.job = job := by
  refine ⟨mem_of_unfinished?, ?_⟩
  rintro ⟨l, hOpen, rfl, rfl⟩
  cases hFound : h.unfinished? l.key with
  | none => exact absurd rfl (unfinished?_eq_none.mp hFound l hOpen)
  | some other =>
      obtain ⟨first, hFirst, hKey, rfl⟩ := mem_of_unfinished? hFound
      rw [List.inj_on_of_nodup_map hFaithful.keys hFirst hOpen hKey]

theorem Faithful.job_lt (hFaithful : h.Faithful) {l : Launch} (hLaunched : l ∈ h.launched) :
    l.job < h.launched.length := by
  have hJob : l.job ∈ h.launched.map Launch.job := List.mem_map_of_mem hLaunched
  rw [hFaithful.numbers] at hJob
  exact List.mem_range.mp hJob

/-- A job that is still to be started has not ended. -/
theorem Faithful.lookup_started (hFaithful : h.Faithful) :
    h.ended.lookup h.launched.length = none := by
  refine List.lookup_eq_none_iff.mpr fun e hEnded => ?_
  have hLess := hFaithful.ended.2 e hEnded
  simpa using (Nat.ne_of_lt hLess).symm

/-! ### Every turn keeps it so -/

theorem faithful_start : Faithful {} where
  started := rfl
  numbers := rfl
  running := rfl
  ended := ⟨rfl, fun e hEnded => by cases hEnded⟩
  keys := List.nodup_nil
  producers := rfl

/-- A call that finds a job joins it, and nothing is started. -/
theorem Faithful.step_joining (hFaithful : h.Faithful) (hJob : h.unfinished? key = some job) :
    h.step (.build client key) =
      { h with
        coordinator := { h.coordinator with
          waiting := h.coordinator.waiting ++ [⟨client, job⟩] }
        calls := h.calls ++ [⟨client, key, true, job⟩] } := by
  have hTaken : h.coordinator.jobFor? key = some job := (hFaithful.jobFor?_eq key).trans hJob
  simp [step, Coordinator.step, Coordinator.request_of_taken hTaken, hJob]

/-- A call that finds no job starts its producer. -/
theorem Faithful.step_creating (hFaithful : h.Faithful) (hNone : h.unfinished? key = none) :
    h.step (.build client key) =
      { h with
        coordinator := { h.coordinator with
          running := h.coordinator.running ++ [⟨key, h.launched.length⟩]
          started := h.launched.length + 1
          waiting := h.coordinator.waiting ++ [⟨client, h.launched.length⟩] }
        calls := h.calls ++ [⟨client, key, false, h.launched.length⟩]
        launched := h.launched ++ [⟨client, key, h.launched.length⟩] } := by
  have hFree : h.coordinator.jobFor? key = none := (hFaithful.jobFor?_eq key).trans hNone
  simp [step, Coordinator.step, Coordinator.request_of_free hFree, hNone, hFaithful.started]

/-- The producer of a job ends. -/
theorem Faithful.step_ending (hFaithful : h.Faithful) (hJob : h.unfinished? key = some job) :
    h.step (.finish key ending) =
      { h with
        coordinator := { h.coordinator with
          running := h.coordinator.running.filter (·.key ≠ key)
          ended := (job, ending) :: h.ended }
        ended := (job, ending) :: h.ended } := by
  have hTaken : h.coordinator.jobFor? key = some job := (hFaithful.jobFor?_eq key).trans hJob
  simp [step, Coordinator.step, Coordinator.finish_of_taken hTaken, hJob, hFaithful.ended.1]

/-- Where no producer runs, none ends. -/
theorem Faithful.step_idle (hFaithful : h.Faithful) (hNone : h.unfinished? key = none) :
    h.step (.finish key ending) = h := by
  have hFree : h.coordinator.jobFor? key = none := (hFaithful.jobFor?_eq key).trans hNone
  simp [step, Coordinator.step, Coordinator.finish_of_free hFree, hNone]

theorem Faithful.build (hFaithful : h.Faithful) : (h.step (.build client key)).Faithful := by
  cases hFound : h.unfinished? key with
  | some job =>
      rw [hFaithful.step_joining hFound]
      refine ⟨hFaithful.started, hFaithful.numbers, hFaithful.running, hFaithful.ended,
        hFaithful.keys, ?_⟩
      rw [List.filter_append]
      simpa using hFaithful.producers
  | none =>
      rw [hFaithful.step_creating hFound]
      have hUnfinished : (h.launched ++ [(⟨client, key, h.launched.length⟩ : Launch)]).filter
          (fun l => (h.ended.lookup l.job).isNone) =
            h.unfinished ++ [⟨client, key, h.launched.length⟩] := by
        rw [List.filter_append]
        simp [unfinished, hFaithful.lookup_started]
      constructor
      · simp
      · simp [List.range_succ, hFaithful.numbers]
      · show h.coordinator.running ++ _ = _
        rw [unfinished, hUnfinished, hFaithful.running, List.map_append]
        rfl
      · refine ⟨hFaithful.ended.1, fun e hEnded => ?_⟩
        rw [List.length_append]
        exact Nat.lt_add_right _ (hFaithful.ended.2 e hEnded)
      · rw [unfinished, hUnfinished, List.map_append, List.nodup_append]
        refine ⟨hFaithful.keys, List.nodup_singleton _, fun other hOther added hAdded => ?_⟩
        obtain ⟨l, hOpen, rfl⟩ := List.mem_map.mp hOther
        obtain rfl := List.mem_singleton.mp hAdded
        exact unfinished?_eq_none.mp hFound l hOpen
      · rw [List.filter_append, List.map_append, ← hFaithful.producers]
        rfl

/-- A job that ends is taken off the list, and no other. -/
theorem Faithful.filter_ended (hFaithful : h.Faithful) (hJob : h.unfinished? key = some job)
    (ending : Ending) :
    h.launched.filter (fun l => (((job, ending) :: h.ended).lookup l.job).isNone) =
      h.unfinished.filter (·.key ≠ key) := by
  obtain ⟨last, hLast, rfl, rfl⟩ := mem_of_unfinished? hJob
  rw [unfinished, List.filter_filter]
  refine List.filter_congr fun l hLaunched => ?_
  rw [List.lookup_cons]
  by_cases hSame : l.job = last.job
  · have hEqual : l = last :=
      List.inj_on_of_nodup_map hFaithful.jobs_nodup hLaunched (mem_unfinished.mp hLast).1 hSame
    simp [hEqual]
  · cases hOpen : h.ended.lookup l.job with
    | some e => simp [beq_false_of_ne hSame]
    | none =>
        -- Another job that has not ended has another key.
        have hKey : l.key ≠ last.key := by
          intro hKeys
          have hMem := mem_unfinished.mpr ⟨hLaunched, hOpen⟩
          exact hSame (congrArg Launch.job (List.inj_on_of_nodup_map hFaithful.keys hMem hLast hKeys))
        simp [beq_false_of_ne hSame, hKey]

theorem Faithful.finish (hFaithful : h.Faithful) : (h.step (.finish key ending)).Faithful := by
  cases hFound : h.unfinished? key with
  | none =>
      rw [hFaithful.step_idle hFound]
      exact hFaithful
  | some job =>
      rw [hFaithful.step_ending hFound]
      have hLeft := hFaithful.filter_ended hFound ending
      refine ⟨hFaithful.started, hFaithful.numbers, ?_, ⟨rfl, fun e hEnded => ?_⟩, ?_,
        hFaithful.producers⟩
      · rw [unfinished, hLeft, hFaithful.running, List.filter_map]
        rfl
      · rcases List.mem_cons.mp hEnded with rfl | hOld
        · obtain ⟨l, hOpen, -, rfl⟩ := mem_of_unfinished? hFound
          exact hFaithful.job_lt (mem_unfinished.mp hOpen).1
        · exact hFaithful.ended.2 e hOld
      · rw [unfinished, hLeft]
        exact hFaithful.keys.sublist (List.filter_sublist.map _)

theorem Faithful.turn (hFaithful : h.Faithful) (t : Turn) : (h.turn t).Faithful := by
  have hStill {later : History} (hLaunched : later.launched = h.launched)
      (hEnded : later.ended = h.ended) (hCalls : later.calls = h.calls)
      (hMap : later.coordinator.running = h.coordinator.running ∧
        later.coordinator.started = h.coordinator.started ∧
        later.coordinator.ended = h.coordinator.ended) : later.Faithful := by
    obtain ⟨hRunning, hStarted, hEndings⟩ := hMap
    constructor
    · rw [hStarted, hLaunched, hFaithful.started]
    · rw [hLaunched, hFaithful.numbers]
    · rw [hRunning, hFaithful.running, unfinished, unfinished, hLaunched, hEnded]
    · rw [hEndings, hEnded, hLaunched]
      exact hFaithful.ended
    · rw [unfinished, hLaunched, hEnded]
      exact hFaithful.keys
    · rw [hLaunched, hCalls, ← hFaithful.producers]
  cases t with
  | wake client => exact hStill rfl rfl rfl ⟨rfl, rfl, rfl⟩
  | event e =>
      cases e with
      | build client key => exact hFaithful.build
      | finish key ending => exact hFaithful.finish
      | cancel client => exact hStill rfl rfl rfl ⟨rfl, rfl, rfl⟩

theorem play_faithful (turns : List Turn) : (play turns).Faithful :=
  play_invariant faithful_start (fun _ t hFaithful => hFaithful.turn t) turns

/-! ### A key that is free -/

/-- Ending a job frees its key. -/
theorem Faithful.free_of_finish (hFaithful : h.Faithful) :
    (h.step (.finish key ending)).unfinished? key = none := by
  cases hFound : h.unfinished? key with
  | none =>
      rw [hFaithful.step_idle hFound]
      exact hFound
  | some job =>
      rw [hFaithful.step_ending hFound, unfinished?_eq_none, unfinished,
        hFaithful.filter_ended hFound ending]
      intro l hOpen
      simpa using (List.mem_filter.mp hOpen).2

/-- Only a call for the key takes it again. -/
theorem Faithful.free_turn (hFaithful : h.Faithful) (hFree : h.unfinished? key = none) {t : Turn}
    (hOther : t.asksFor key = false) : (h.turn t).unfinished? key = none := by
  cases t with
  | wake client => exact hFree
  | event e =>
      cases e with
      | cancel client => exact hFree
      | finish other ending =>
          cases hFound : h.unfinished? other with
          | none =>
              rw [History.turn, hFaithful.step_idle hFound]
              exact hFree
          | some job =>
              rw [History.turn, hFaithful.step_ending hFound, unfinished?_eq_none, unfinished,
                hFaithful.filter_ended hFound ending]
              intro l hOpen
              exact unfinished?_eq_none.mp hFree l (List.mem_filter.mp hOpen).1
      | build client other =>
          have hKey : other ≠ key := by simpa [Turn.asksFor] using hOther
          cases hFound : h.unfinished? other with
          | some job =>
              rw [History.turn, hFaithful.step_joining hFound]
              exact hFree
          | none =>
              rw [History.turn, hFaithful.step_creating hFound, unfinished?_eq_none]
              intro l hOpen
              obtain ⟨hLaunched, hNotEnded⟩ := mem_unfinished.mp hOpen
              rcases List.mem_append.mp hLaunched with hOld | hNew
              · exact unfinished?_eq_none.mp hFree l (mem_unfinished.mpr ⟨hOld, hNotEnded⟩)
              · obtain rfl := List.mem_singleton.mp hNew
                exact hKey

theorem free_play (turns : List Turn) (later : List Turn) (hFree : (play turns).unfinished? key = none)
    (hOther : ∀ t ∈ later, t.asksFor key = false) :
    (play (turns ++ later)).unfinished? key = none := by
  induction later using List.reverseRecOn with
  | nil => simpa using hFree
  | append_singleton later t ih =>
      rw [← List.append_assoc, play_concat]
      have hBefore := ih fun s hs => hOther s (List.mem_append_left _ hs)
      exact (play_faithful _).free_turn hBefore (hOther t (by simp))

/-- Whatever happens, and in whatever order, the map of the coordinator holds the jobs that have not
ended and nothing else, one for each key, and both of its queries report these. The producers that were
started for a key are as many as the calls for it that found no job. Once a producer has returned or
panicked, its key is free, and the next call for it starts its own producer. -/
theorem map_holds_unfinished (turns : List Turn) :
    let h := play turns
    (∀ key job, h.coordinator.jobFor? key = some job ↔
      ∃ l ∈ h.unfinished, l.key = key ∧ l.job = job) ∧
    h.coordinator.running.map Running.key = h.unfinished.map Launch.key ∧
    (h.unfinished.map Launch.key).Nodup ∧
    h.coordinator.inFlight = h.unfinished.length ∧
    (∀ key, h.coordinator.isBuilding key = true ↔ ∃ l ∈ h.unfinished, l.key = key) ∧
    (∀ key, h.launched.countP (·.key = key) =
      h.calls.countP fun call => call.key = key && !call.isJoining) ∧
    ∀ key ending client between, (∀ t ∈ between, t.asksFor key = false) →
      let freed := play (turns ++ .event (.finish key ending) :: between)
      freed.coordinator.isBuilding key = false ∧
        (freed.step (.build client key)).launched =
          freed.launched ++ [⟨client, key, freed.launched.length⟩] := by
  intro h
  have hFaithful : h.Faithful := play_faithful turns
  refine ⟨fun key job => ?_, ?_, hFaithful.keys, ?_, fun key => ?_, fun key => ?_, ?_⟩
  · rw [hFaithful.jobFor?_eq, hFaithful.unfinished?_eq_some]
  · rw [hFaithful.running, List.map_map]
    rfl
  · rw [Coordinator.inFlight, hFaithful.running, List.length_map]
  · rw [Coordinator.isBuilding, hFaithful.jobFor?_eq, Option.isSome_iff_ne_none, ne_eq,
      unfinished?_eq_none]
    simp
  · rw [hFaithful.producers, List.countP_map, List.countP_filter]
    rfl
  · intro key ending client between hOther freed
    have hEnded : (play (turns ++ [.event (.finish key ending)])).unfinished? key = none := by
      rw [play_concat]
      exact hFaithful.free_of_finish
    have hFreed : freed.Faithful := play_faithful _
    have hFree : freed.unfinished? key = none := by
      have hLater := free_play _ between hEnded hOther
      rwa [List.append_assoc, List.singleton_append] at hLater
    constructor
    · rw [Coordinator.isBuilding, hFreed.jobFor?_eq, hFree]
      rfl
    · rw [hFreed.step_creating hFree]

/-- Two clients share a job whose producer panics, and the next call for the key starts another. -/
theorem map_holds_unfinished_after_panic :
    let turns : List Turn := [.event (.build "first" "a"), .event (.build "second" "a"),
      .event (.build "third" "b"), .event (.cancel "first")]
    let freed := play (turns ++ [.event (.finish "a" .panicked), .wake "second"])
    (play turns).unfinished = [⟨"first", "a", 0⟩, ⟨"third", "b", 1⟩] ∧
      freed.coordinator.isBuilding "a" = false ∧
      (freed.step (.build "second" "a")).launched =
        [⟨"first", "a", 0⟩, ⟨"third", "b", 1⟩, ⟨"second", "a", 2⟩] := by
  intro turns freed
  obtain ⟨-, -, -, -, -, -, hFreed⟩ := map_holds_unfinished turns
  obtain ⟨hFree, hLaunched⟩ := hFreed "a" .panicked "second" [.wake "second"] (by decide)
  refine ⟨by decide +kernel, hFree, hLaunched.trans ?_⟩
  decide +kernel

end History

end ModuleGateway.Build
