import ModuleGateway.Proofs.Trust.Registry
import Mathlib.Data.List.Nodup
import Mathlib.Data.List.Sort

/-!
Callers that register at the same time. Each call looks its name up first and adds it later, if it was
missing, so that several calls may all find the same name missing; only adding decides which of them is
told that the name is new. Whatever the order of their steps, the registry ends up as if the calls had been
made one after another.

A schedule says which call makes its next step. A caller with several calls, each of which waits for the
one before it, is a special case.
-/

namespace ModuleGateway.Trust

open Specifier

/-- How far a call has come. -/
inductive Call.Stage where
  /-- The name of the package is looked up next. -/
  | asking
  /-- The name was missing, and is added next. -/
  | adding (name : String)
  /-- The caller was told whether the name is new. -/
  | told (isNew : Bool)
  deriving DecidableEq, Repr

/-- A call to register a specifier. -/
structure Call where
  specifier : String
  stage : Call.Stage := .asking
  deriving DecidableEq, Repr

namespace Call

/-- The next step of a call, with the registry it leaves. -/
def step (c : Call) (r : Registry) : Call × Registry :=
  match c.stage with
  | .asking =>
    match r.candidate? c.specifier with
    | none => ({ c with stage := .told false }, r)
    | some name => ({ c with stage := .adding name }, r)
  | .adding name => ({ c with stage := .told (r.insert name).1 }, (r.insert name).2)
  | .told _ => (c, r)

/-- The name that a call was told to be new. -/
def won? (c : Call) : Option String :=
  if c.stage = .told true then some (packageName c.specifier) else none

end Call

/-- A registry with the calls that are made. -/
structure Registering where
  registry : Registry
  calls : List Call
  deriving DecidableEq, Repr

namespace Registering

/-- Calls for some specifiers that have not begun. -/
def start (r : Registry) (specifiers : List String) : Registering :=
  ⟨r, specifiers.map fun s => { specifier := s }⟩

/-- The call at a place makes its next step. -/
def turn (t : Registering) (place : Nat) : Registering :=
  match t.calls[place]? with
  | none => t
  | some c => ⟨(c.step t.registry).2, t.calls.set place (c.step t.registry).1⟩

/-- The calls make their steps as a schedule says. -/
def play (schedule : List Nat) (t : Registering) : Registering :=
  schedule.foldl turn t

/-- Every caller was told something. -/
def IsDone (t : Registering) : Prop :=
  ∀ c ∈ t.calls, ∃ isNew, c.stage = .told isNew

/-- The names that calls were told to be new. -/
def won (t : Registering) : List String :=
  t.calls.filterMap Call.won?

/-! ### One step -/

/-- A turn is a step of one call, and leaves the other calls as they are. -/
theorem turn_cases (t : Registering) (place : Nat) :
    t.turn place = t ∨ ∃ before c later, t.calls = before ++ c :: later ∧
      t.turn place = ⟨(c.step t.registry).2, before ++ (c.step t.registry).1 :: later⟩ := by
  cases hCall : t.calls[place]? with
  | none => exact .inl (by rw [turn, hCall])
  | some c =>
      obtain ⟨hPlace, hThere⟩ := List.getElem?_eq_some_iff.mp hCall
      refine .inr ⟨t.calls.take place, c, t.calls.drop (place + 1), ?_, ?_⟩
      · rw [← hThere, List.getElem_cons_drop, List.take_append_drop]
      · rw [turn, hCall]
        dsimp only
        rw [List.set_eq_take_append_cons_drop, if_pos hPlace]

theorem candidate?_eq_none {r : Registry} {specifier : String} (h : r.candidate? specifier = none) :
    packageName specifier = "" ∨ r.contains (packageName specifier) = true := by
  rw [or_iff_not_imp_left]
  simpa [Registry.candidate?, Registry.trusts_eq, packageName_packageName] using h

theorem candidate?_eq_some {r : Registry} {specifier name : String}
    (h : r.candidate? specifier = some name) :
    name = packageName specifier ∧ name ≠ "" ∧ r.contains name = false := by
  simp only [Registry.candidate?, Registry.trusts_eq, packageName_packageName,
    Option.ite_none_left_eq_some, Bool.or_eq_true, decide_eq_true_eq, not_or, Option.some.injEq] at h
  obtain ⟨⟨hEmpty, hMissing⟩, rfl⟩ := h
  exact ⟨rfl, hEmpty, by simpa using hMissing⟩

/-! ### What every schedule keeps -/

/-- What calls have come to since a registry was as it was at the start. -/
structure Fair (r : Registry) (t : Registering) : Prop where
  /-- Nothing is lost, and what is gained was won by one call each. -/
  names : t.registry.names.Perm (t.won ++ r.names)
  nodup : t.won.Nodup
  fresh : ∀ name ∈ t.won, name ≠ "" ∧ r.contains name = false
  adding : ∀ c ∈ t.calls, ∀ name, c.stage = .adding name →
    name = packageName c.specifier ∧ name ≠ ""
  /-- Whoever is told that a name is not new is told the truth. -/
  refused : ∀ c ∈ t.calls, c.stage = .told false →
    packageName c.specifier = "" ∨ t.registry.contains (packageName c.specifier) = true

variable {r : Registry} {t u : Registering} {specifiers : List String} {name : String}

theorem fair_start (r : Registry) (specifiers : List String) : Fair r (start r specifiers) := by
  have hStage {c : Call} (hCall : c ∈ (start r specifiers).calls) : c.stage = .asking := by
    obtain ⟨s, -, rfl⟩ := List.mem_map.mp hCall
    rfl
  have hWon : (start r specifiers).won = [] := by
    refine List.filterMap_eq_nil_iff.mpr fun c hCall => ?_
    rw [Call.won?, hStage hCall, if_neg (by simp)]
  constructor
  · rw [hWon]
    exact .refl _
  · rw [hWon]
    exact List.nodup_nil
  · rw [hWon]
    simp
  · intro c hCall name hAdding
    rw [hStage hCall] at hAdding
    cases hAdding
  · intro c hCall hTold
    rw [hStage hCall] at hTold
    cases hTold

theorem Fair.contains_iff (h : Fair r t) :
    t.registry.contains name = true ↔ name ∈ t.won ∨ r.contains name = true := by
  simp only [Registry.contains, List.contains_iff_mem, h.names.mem_iff, List.mem_append]

/-- A step of a call that wins nothing keeps the names. -/
theorem Fair.keep {before later : List Call} {c d : Call} (h : Fair r t)
    (hCalls : t.calls = before ++ c :: later) (hBefore : c.won? = none) (hAfter : d.won? = none)
    (hAdding : ∀ name, d.stage = .adding name → name = packageName d.specifier ∧ name ≠ "")
    (hRefused : d.stage = .told false →
      packageName d.specifier = "" ∨ t.registry.contains (packageName d.specifier) = true) :
    Fair r ⟨t.registry, before ++ d :: later⟩ := by
  have hWon : (Registering.mk t.registry (before ++ d :: later)).won = t.won := by
    rw [won, won, hCalls, List.filterMap_append, List.filterMap_append,
      List.filterMap_cons_none hAfter, List.filterMap_cons_none hBefore]
  have hMem {e : Call} (hCall : e ∈ before ++ d :: later) : e = d ∨ e ∈ t.calls := by
    rw [hCalls]
    simp only [List.mem_append, List.mem_cons] at hCall ⊢
    tauto
  constructor
  · rw [hWon]
    exact h.names
  · rw [hWon]
    exact h.nodup
  · rw [hWon]
    exact h.fresh
  · intro e hCall
    rcases hMem hCall with rfl | hOld
    · exact hAdding
    · exact h.adding e hOld
  · intro e hCall
    rcases hMem hCall with rfl | hOld
    · exact hRefused
    · exact h.refused e hOld

/-- A call that adds a missing name wins it. -/
theorem Fair.win {before later : List Call} {c : Call} (h : Fair r t)
    (hCalls : t.calls = before ++ c :: later) (hAdding : c.stage = .adding name)
    (hMissing : t.registry.contains name = false) :
    Fair r ⟨⟨name :: t.registry.names⟩, before ++ { c with stage := .told true } :: later⟩ := by
  obtain ⟨rfl, hName⟩ := h.adding c (by simp [hCalls]) name hAdding
  have hNew : packageName c.specifier ∉ t.won ∧ r.contains (packageName c.specifier) = false := by
    have hNot := h.contains_iff.not.mp (Bool.not_eq_true _ ▸ hMissing)
    simpa [not_or] using hNot
  have hWon : (Registering.mk ⟨packageName c.specifier :: t.registry.names⟩
      (before ++ { c with stage := .told true } :: later)).won.Perm
        (packageName c.specifier :: t.won) := by
    have hLost : c.won? = none := by rw [Call.won?, hAdding, if_neg (by simp)]
    rw [won, won, hCalls, List.filterMap_append, List.filterMap_append,
      List.filterMap_cons_none hLost,
      List.filterMap_cons_some (b := packageName c.specifier) (by simp [Call.won?])]
    exact List.perm_middle
  have hMem {e : Call} (hCall : e ∈ before ++ { c with stage := .told true } :: later) :
      e.stage = .told true ∨ e ∈ t.calls := by
    rw [hCalls]
    simp only [List.mem_append, List.mem_cons] at hCall ⊢
    rcases hCall with hBefore | rfl | hLater
    · exact .inr (.inl hBefore)
    · exact .inl rfl
    · exact .inr (.inr (.inr hLater))
  constructor
  · exact (h.names.cons _).trans (hWon.symm.append_right r.names)
  · exact hWon.nodup_iff.mpr (List.nodup_cons.mpr ⟨hNew.1, h.nodup⟩)
  · intro other hOther
    rcases List.mem_cons.mp (hWon.mem_iff.mp hOther) with rfl | hOld
    · exact ⟨hName, hNew.2⟩
    · exact h.fresh other hOld
  · intro e hCall other hStage
    rcases hMem hCall with hTold | hOld
    · rw [hTold] at hStage
      cases hStage
    · exact h.adding e hOld other hStage
  · intro e hCall hStage
    rcases hMem hCall with hTold | hOld
    · rw [hTold] at hStage
      cases hStage
    · refine (h.refused e hOld hStage).imp_right fun hThere => ?_
      simp only [Registry.contains, List.contains_iff_mem] at hThere ⊢
      exact List.mem_cons_of_mem _ hThere

theorem Fair.turn (h : Fair r t) (place : Nat) : Fair r (t.turn place) := by
  rcases t.turn_cases place with hSame | ⟨before, c, later, hCalls, hTurn⟩
  · rw [hSame]
    exact h
  · rw [hTurn]
    have hThere : c ∈ t.calls := by simp [hCalls]
    cases hStage : c.stage with
    | asking =>
        have hLost : c.won? = none := by rw [Call.won?, hStage, if_neg (by simp)]
        cases hCandidate : t.registry.candidate? c.specifier with
        | none =>
            simp only [Call.step, hStage, hCandidate]
            exact h.keep hCalls hLost (by simp [Call.won?]) (by simp)
              fun _ => candidate?_eq_none hCandidate
        | some name =>
            obtain ⟨hName, hSome, -⟩ := candidate?_eq_some hCandidate
            simp only [Call.step, hStage, hCandidate]
            refine h.keep hCalls hLost (by simp [Call.won?]) (fun other hOther => ?_) (by simp)
            cases hOther
            exact ⟨hName, hSome⟩
    | adding name =>
        have hLost : c.won? = none := by rw [Call.won?, hStage, if_neg (by simp)]
        cases hKnown : t.registry.contains name with
        | true =>
            -- Another call has added the name since this one looked.
            simp only [Call.step, hStage, Registry.insert, hKnown, if_true]
            refine h.keep hCalls hLost (by simp [Call.won?]) (by simp) fun _ => .inr ?_
            rw [← (h.adding c hThere name hStage).1]
            exact hKnown
        | false =>
            simp only [Call.step, hStage, Registry.insert, hKnown, Bool.false_eq_true, if_false]
            exact h.win hCalls hStage hKnown
    | told isNew =>
        simp only [Call.step, hStage]
        rw [← hCalls]
        exact h

theorem Fair.play (h : Fair r t) (schedule : List Nat) : Fair r (t.play schedule) := by
  induction schedule generalizing t with
  | nil => exact h
  | cons place later ih => exact ih (h.turn place)

/-- Calls stay for what they are for. -/
theorem specifiers_turn (t : Registering) (place : Nat) :
    (t.turn place).calls.map Call.specifier = t.calls.map Call.specifier := by
  rcases t.turn_cases place with hSame | ⟨before, c, later, hCalls, hTurn⟩
  · rw [hSame]
  · have hSpecifier : (c.step t.registry).1.specifier = c.specifier := by
      unfold Call.step
      split
      · split <;> rfl
      · rfl
      · rfl
    rw [hTurn, hCalls]
    simp [hSpecifier]

theorem specifiers_play (t : Registering) (schedule : List Nat) :
    (t.play schedule).calls.map Call.specifier = t.calls.map Call.specifier := by
  induction schedule generalizing t with
  | nil => rfl
  | cons place later ih => exact (ih (t.turn place)).trans (specifiers_turn t place)

/-! ### When all is done -/

/-- The names that calls can win: package names that were not trusted at the start. -/
def IsNew (r : Registry) (specifiers : List String) (name : String) : Prop :=
  r.contains name = false ∧ name ≠ "" ∧ name ∈ specifiers.map packageName

instance (r : Registry) (specifiers : List String) (name : String) :
    Decidable (IsNew r specifiers name) :=
  inferInstanceAs (Decidable (_ ∧ _ ∧ _))

/-- When all is done every new name has been won, and no other. -/
theorem Fair.mem_won_iff (h : Fair r t) (hSpecifiers : t.calls.map Call.specifier = specifiers)
    (hDone : t.IsDone) : name ∈ t.won ↔ IsNew r specifiers name := by
  constructor
  · intro hWon
    obtain ⟨hName, hMissing⟩ := h.fresh name hWon
    obtain ⟨c, hCall, hSome⟩ := List.mem_filterMap.mp hWon
    obtain ⟨-, hSame⟩ := Option.ite_none_right_eq_some.mp hSome
    refine ⟨hMissing, hName, List.mem_map.mpr ⟨c.specifier, ?_, Option.some.inj hSame⟩⟩
    rw [← hSpecifiers]
    exact List.mem_map_of_mem hCall
  · rintro ⟨hMissing, hName, hAsked⟩
    obtain ⟨s, hSpecifier, rfl⟩ := List.mem_map.mp hAsked
    rw [← hSpecifiers] at hSpecifier
    obtain ⟨c, hCall, rfl⟩ := List.mem_map.mp hSpecifier
    obtain ⟨isNew, hTold⟩ := hDone c hCall
    cases isNew with
    | true => exact List.mem_filterMap.mpr ⟨c, hCall, by rw [Call.won?, if_pos hTold]⟩
    | false =>
        have hThere := (h.refused c hCall hTold).resolve_left hName
        refine (h.contains_iff.mp hThere).resolve_right ?_
        rw [hMissing]
        simp

/-! ### Calls one after another -/

theorem names_register (r : Registry) (specifier : String) :
    (r.register specifier).2.names =
      if IsNew r [specifier] (packageName specifier) then packageName specifier :: r.names
      else r.names := by
  cases hCandidate : r.candidate? specifier with
  | none =>
      have hOld := candidate?_eq_none hCandidate
      rw [Registry.register, hCandidate, if_neg]
      rintro ⟨hMissing, hName, -⟩
      rcases hOld with hEmpty | hThere
      · exact hName hEmpty
      · rw [hMissing] at hThere
        cases hThere
  | some name =>
      obtain ⟨rfl, hName, hMissing⟩ := candidate?_eq_some hCandidate
      rw [Registry.register, hCandidate, if_pos ⟨hMissing, hName, by simp⟩]
      simp [Registry.insert, hMissing]

/-- Registering specifiers one after another adds each new name once. -/
theorem names_extend (r : Registry) (specifiers : List String) :
    ∃ added : List String, (r.extend specifiers).names.Perm (added ++ r.names) ∧ added.Nodup ∧
      ∀ name, name ∈ added ↔ IsNew r specifiers name := by
  induction specifiers generalizing r with
  | nil => exact ⟨[], .refl _, List.nodup_nil, by simp [IsNew]⟩
  | cons s rest ih =>
      obtain ⟨added, hNames, hNodup, hAdded⟩ := ih (r.register s).2
      have hKnown (name : String) : (r.register s).2.contains name = false ↔
          r.contains name = false ∧ ¬(name = packageName s ∧ name ≠ "") := by
        rw [← Bool.not_eq_true, Registry.contains_register, not_or, Bool.not_eq_true]
      by_cases hNew : IsNew r [s] (packageName s)
      · refine ⟨packageName s :: added, ?_, List.nodup_cons.mpr ⟨?_, hNodup⟩, fun name => ?_⟩
        · rw [names_register, if_pos hNew] at hNames
          exact hNames.trans List.perm_middle
        · rw [hAdded]
          exact fun hAgain => ((hKnown _).mp hAgain.1).2 ⟨rfl, hNew.2.1⟩
        · rw [List.mem_cons, hAdded, IsNew, IsNew, hKnown, List.map_cons, List.mem_cons]
          constructor
          · rintro (rfl | ⟨⟨hMissing, -⟩, hName, hLater⟩)
            · exact ⟨hNew.1, hNew.2.1, .inl rfl⟩
            · exact ⟨hMissing, hName, .inr hLater⟩
          · rintro ⟨hMissing, hName, hAsked⟩
            by_cases hSame : name = packageName s
            · exact .inl hSame
            · exact .inr ⟨⟨hMissing, fun hBoth => hSame hBoth.1⟩, hName, hAsked.resolve_left hSame⟩
      · refine ⟨added, ?_, hNodup, fun name => ?_⟩
        · rw [names_register, if_neg hNew] at hNames
          exact hNames
        · rw [hAdded, IsNew, IsNew, hKnown, List.map_cons, List.mem_cons]
          constructor
          · rintro ⟨⟨hMissing, -⟩, hName, hLater⟩
            exact ⟨hMissing, hName, .inr hLater⟩
          · rintro ⟨hMissing, hName, hAsked⟩
            have hOther : name ≠ packageName s := by
              rintro rfl
              exact hNew ⟨hMissing, hName, by simp⟩
            exact ⟨⟨hMissing, fun hBoth => hOther hBoth.1⟩, hName, hAsked.resolve_left hOther⟩

/-! ### The order does not matter -/

/-- When all is done the names are those of calls that were made one after another. -/
theorem Fair.perm_extend (h : Fair r t) (hSpecifiers : t.calls.map Call.specifier = specifiers)
    (hDone : t.IsDone) : t.registry.names.Perm (r.extend specifiers).names := by
  obtain ⟨added, hNames, hNodup, hAdded⟩ := names_extend r specifiers
  have hWon : t.won.Perm added := (List.perm_ext_iff_of_nodup h.nodup hNodup).mpr fun name =>
    (h.mem_won_iff hSpecifiers hDone).trans (hAdded name).symm
  exact (h.names.trans (hWon.append_right r.names)).trans hNames.symm

/-- What a registry answers depends on which names it has, and not on the order in which they came. -/
theorem answers_of_perm {a b : Registry} (h : a.names.Perm b.names) :
    a.sorted = b.sorted ∧ a.size = b.size ∧ (∀ s, a.trusts s = b.trusts s) ∧
      ∀ s, (a.register s).1 = (b.register s).1 := by
  have hContains (name : String) : a.contains name = b.contains name := by
    rw [Bool.eq_iff_iff, Registry.contains, Registry.contains, List.contains_iff_mem,
      List.contains_iff_mem]
    exact h.mem_iff
  refine ⟨?_, h.length_eq, fun s => hContains _, fun s => ?_⟩
  · refine List.Perm.eq_of_pairwise' (List.pairwise_mergeSort' (· ≤ ·) a.names)
      (List.pairwise_mergeSort' (· ≤ ·) b.names) ?_
    exact (List.mergeSort_perm _ _).trans (h.trans (List.mergeSort_perm _ _).symm)
  · have hCandidate : a.candidate? s = b.candidate? s := by
      rw [Registry.candidate?, Registry.candidate?, Registry.trusts_eq, Registry.trusts_eq, hContains]
    rw [Registry.register, Registry.register, hCandidate]
    cases b.candidate? s with
    | none => rfl
    | some name =>
        simp only [Registry.insert, hContains]
        split <;> rfl

/-- Registering is a set's insertion under every schedule. When all calls have been answered the names are
those of before and the package names of the specifiers, unless empty. Of the calls for a name that was not
trusted before exactly one was told that it is new, and no call for any other name was. A specifier is
trusted when its package name is among the names. All that the registry says from then on is what it would
say if the calls had been made one after another. -/
theorem registered_in_any_order (r : Registry) (specifiers : List String) (schedule : List Nat)
    (hDone : ((start r specifiers).play schedule).IsDone) :
    let t := (start r specifiers).play schedule
    (∀ name, t.registry.contains name = true ↔
      r.contains name = true ∨ (name ≠ "" ∧ name ∈ specifiers.map packageName)) ∧
    t.calls.map Call.specifier = specifiers ∧
    (∀ name, t.calls.countP (fun c => packageName c.specifier = name ∧ c.stage = .told true) =
      if IsNew r specifiers name then 1 else 0) ∧
    (∀ s, t.registry.trusts s = true ↔ packageName s ∈ t.registry.names) ∧
    t.registry.sorted = (r.extend specifiers).sorted ∧
    t.registry.size = (r.extend specifiers).size ∧
    (∀ s, t.registry.trusts s = (r.extend specifiers).trusts s) ∧
    ∀ s, (t.registry.register s).1 = ((r.extend specifiers).register s).1 := by
  intro t
  have hFair : Fair r t := (fair_start r specifiers).play schedule
  have hSpecifiers : t.calls.map Call.specifier = specifiers := by
    rw [specifiers_play, start, List.map_map]
    exact List.map_id specifiers
  have hNames := hFair.perm_extend hSpecifiers hDone
  refine ⟨fun name => ?_, hSpecifiers, fun name => ?_, fun s => ?_, answers_of_perm hNames⟩
  · have hSame : t.registry.contains name = (r.extend specifiers).contains name := by
      rw [Bool.eq_iff_iff, Registry.contains, Registry.contains, List.contains_iff_mem,
        List.contains_iff_mem]
      exact hNames.mem_iff
    rw [hSame, Registry.contains_extend]
  · have hCount : t.calls.countP (fun c => packageName c.specifier = name ∧ c.stage = .told true) =
        t.won.count name := by
      rw [won, List.count_filterMap]
      refine List.countP_congr fun c _ => ?_
      by_cases hTold : c.stage = .told true <;> simp [Call.won?, hTold]
    rw [hCount, hFair.nodup.count]
    simp only [hFair.mem_won_iff hSpecifiers hDone]
  · rw [Registry.trusts_eq, Registry.contains, List.contains_iff_mem]

/-- Both calls for a package find its name missing before one of them adds it. -/
theorem registered_in_any_order_race :
    let t := (start .empty ["a", "a/x", ""]).play [0, 1, 1, 0, 2]
    t.calls.map Call.stage = [.told false, .told true, .told false] ∧
      t.calls.countP (fun c => packageName c.specifier = "a" ∧ c.stage = .told true) = 1 ∧
      t.registry.sorted = (Registry.empty.extend ["a", "a/x", ""]).sorted := by
  intro t
  have hStages : t.calls.map Call.stage = [.told false, .told true, .told false] := by
    decide +kernel
  have hDone : t.IsDone := by
    intro c hCall
    have hStage : c.stage ∈ t.calls.map Call.stage := List.mem_map_of_mem hCall
    rw [hStages] at hStage
    simp only [List.mem_cons, List.not_mem_nil, or_false] at hStage
    rcases hStage with h | h | h <;> exact ⟨_, h⟩
  obtain ⟨-, -, hCount, -, hSorted, -⟩ :=
    registered_in_any_order .empty ["a", "a/x", ""] [0, 1, 1, 0, 2] hDone
  refine ⟨hStages, (hCount "a").trans ?_, hSorted⟩
  decide +kernel

end Registering

end ModuleGateway.Trust
