import ModuleGateway.Proofs.FileSystem.Canonical
import ModuleGateway.Proofs.FileSystem.Sight
import ModuleGateway.Proofs.Gateway.Following

/-!
What a request for a source file tells about files outside the source root. A candidate is joined to the
root as it is written and followed wherever it leads; only the end of the way has to lie in the root. A
way that looks at nothing but the root, what is inside and the directories above shows nothing else. A
way that leaves the root and comes back shows that the directories it passed are there.
-/

namespace ModuleGateway

open FileSystem

namespace Node

/-- The tree with a node at a location and nothing else but the directories above it. -/
def only (node : Node) : Location → Node
  | [] => node
  | name :: rest => .directory [(name, node.only rest)]

variable {node : Node} {l x : Location}

theorem get?_only (node : Node) (l : Location) : (node.only l).get? l = some node := by
  induction l with
  | nil => rfl
  | cons name rest ih =>
      rw [only, get?, children, lookup_cons_eq, if_pos rfl]
      exact ih

/-- Whatever is there lies above the node or inside it. -/
theorem inward_of_only (h : ((node.only l).get? x).isSome) : l <+: x ∨ x <+: l := by
  induction l generalizing x with
  | nil => exact .inl List.nil_prefix
  | cons name rest ih =>
      cases x with
      | nil => exact .inr List.nil_prefix
      | cons other below =>
          rw [only, get?, children, lookup_cons_eq] at h
          split at h
          · rename_i child hChild
            split at hChild
            · rename_i hName
              cases hChild
              rw [hName, List.cons_prefix_cons, List.cons_prefix_cons]
              exact (ih h).imp (fun hInside => ⟨rfl, hInside⟩) fun hAbove => ⟨rfl, hAbove⟩
            · cases hChild
          · cases h

/-- A tree of one file has nothing else but directories. -/
theorem found_of_only {data : FileData} {found : Node}
    (h : ((file data).only l).get? x = some found) :
    (x = l ∧ found = file data) ∨ ∃ entries, found = directory entries := by
  have hThere := get?_only (.file data) l
  rcases inward_of_only (x := x) (by rw [h]; rfl) with hBelow | hAbove
  · obtain ⟨below, rfl⟩ := hBelow
    rw [get?_append, hThere] at h
    cases below with
    | nil =>
        cases h
        exact .inl ⟨List.append_nil l, rfl⟩
    | cons name rest => cases h
  · by_cases hPlace : x = l
    · rw [hPlace, hThere] at h
      cases h
      exact .inl ⟨hPlace, rfl⟩
    · obtain ⟨entries, hDirectory⟩ :=
        outline?_eq_directory.mp (directory_above hAbove hPlace (by rw [hThere]; rfl))
      exact .inr ⟨entries, Option.some.inj (h.symm.trans hDirectory)⟩

/-- A tree of one file has no other file. -/
theorem file_of_only {data found : FileData} (h : ((file data).only l).get? x = some (.file found)) :
    x = l ∧ found = data := by
  rcases found_of_only h with ⟨hPlace, hFound⟩ | ⟨entries, hFound⟩
  · exact ⟨hPlace, Node.file.inj hFound⟩
  · cases hFound

end Node

namespace Source

variable {fs other : FileSystem} {root l : Location} {candidate : String}

/-- All files a request may mean, in the order they are tried. -/
def requested (kind : AssetKind) (request : String) : List String :=
  let relative := Text.trimStart (· = '/') request.toList
  if relative = [] || relative.contains '\x00' then [] else candidates kind (String.ofList relative)

theorem resolve?_eq_findSome? (fs : FileSystem) (root : Location) (kind : AssetKind)
    (request : String) :
    resolve? fs root kind request = (requested kind request).findSome? (accept? fs root) := by
  unfold resolve? requested
  dsimp only
  split <;> rfl

/-- The way to a candidate looks only at the root, at what is inside and at the directories above. -/
def Inward (fs : FileSystem) (root : Location) (candidate : String) : Prop :=
  ∀ l ∈ fs.seen (root.path.join ⟨candidate⟩), root <+: l ∨ l <+: root

instance (fs : FileSystem) (root : Location) (candidate : String) :
    Decidable (Inward fs root candidate) :=
  inferInstanceAs (Decidable (∀ l ∈ _, _ ∨ _))

theorem origin_candidate (fs : FileSystem) (root : Location) (candidate : String) :
    fs.origin (root.path.join ⟨candidate⟩) = [] :=
  if_pos (Path.isAbsolute_join _ root.path_isAbsolute)

/-- A regular file strictly inside the root. -/
def Within (fs : FileSystem) (root l : Location) : Prop :=
  root <+: l ∧ l ≠ root ∧ ∃ data, fs.get? l = some (.file data)

theorem accept?_eq_some_iff :
    accept? fs root candidate = some l ↔
      fs.canonical (root.path.join ⟨candidate⟩) = .ok l ∧ Within fs root l := by
  unfold accept? Within
  cases hPlace : fs.canonical (root.path.join ⟨candidate⟩) with
  | error e => simp
  | ok place =>
      simp only [Option.ite_none_right_eq_some, Bool.and_eq_true, List.isPrefixOf_iff_prefix,
        decide_eq_true_eq, Node.any_isFile_iff, Except.ok.injEq, Option.some.injEq]
      constructor
      · rintro ⟨⟨⟨hInside, hStrict⟩, hRegular⟩, rfl⟩
        exact ⟨rfl, hInside, hStrict, hRegular⟩
      · rintro ⟨rfl, hInside, hStrict, hRegular⟩
        exact ⟨⟨⟨hInside, hStrict⟩, hRegular⟩, rfl⟩

/-- A location is where the first of a request's candidates leads that leads to a regular file inside the
root. -/
def Chosen (fs : FileSystem) (root : Location) (kind : AssetKind) (request : String)
    (l : Location) : Prop :=
  ∃ before candidate after, requested kind request = before ++ candidate :: after ∧
    fs.canonical (root.path.join ⟨candidate⟩) = .ok l ∧ Within fs root l ∧
    ∀ other ∈ before, ∀ place, fs.canonical (root.path.join ⟨other⟩) = .ok place →
      ¬Within fs root place

theorem chosen_of_resolve? {kind : AssetKind} {request : String}
    (h : resolve? fs root kind request = some l) : Chosen fs root kind request l := by
  rw [resolve?_eq_findSome?] at h
  obtain ⟨before, candidate, after, hTried, hAccepted, hRefused⟩ := List.findSome?_eq_some_iff.mp h
  obtain ⟨hCanonical, hWithin⟩ := accept?_eq_some_iff.mp hAccepted
  refine ⟨before, candidate, after, hTried, hCanonical, hWithin, fun other hOther place hPlace hInside => ?_⟩
  have hAccepts := accept?_eq_some_iff.mpr ⟨hPlace, hInside⟩
  rw [hRefused other hOther] at hAccepts
  cases hAccepts

/-- The file that a request means has a location that is made of names. -/
theorem Chosen.named {kind : AssetKind} {request : String} (h : Chosen fs root kind request l) :
    l.Named := by
  obtain ⟨-, candidate, -, -, hCanonical, -⟩ := h
  exact named_of_locate (Path.isAbsolute_join _ root.path_isAbsolute) (locate_of_canonical hCanonical)

theorem Chosen.within {kind : AssetKind} {request : String} (h : Chosen fs root kind request l) :
    Within fs root l := by
  obtain ⟨-, -, -, -, -, hWithin, -⟩ := h
  exact hWithin

/-! ### What lies outside does not count -/

theorem get?_below (hSame : other.get? root = fs.get? root) (hInside : root <+: l) :
    other.get? l = fs.get? l := by
  obtain ⟨below, rfl⟩ := hInside
  simp only [FileSystem.get?] at hSame ⊢
  rw [Node.get?_append, Node.get?_append, hSame]

/-- Two file systems with the same root show the same in it and above it. -/
theorem outline?_inward (hSame : other.get? root = fs.get? root) (hThere : (fs.get? root).isSome)
    (hInward : root <+: l ∨ l <+: root) : other.root.outline? l = fs.root.outline? l := by
  rcases hInward with hInside | hAbove
  · exact congrArg (Option.map Node.outline) (get?_below hSame hInside)
  · by_cases hRoot : l = root
    · exact congrArg (Option.map Node.outline) (hRoot ▸ hSame)
    · have hOther : (other.get? root).isSome := by rwa [hSame]
      rw [Node.directory_above hAbove hRoot hThere, Node.directory_above hAbove hRoot hOther]

/-- A candidate that is accepted lies in a root that is there. -/
theorem isSome_of_accept? (h : accept? fs root candidate = some l) : (fs.get? root).isSome := by
  obtain ⟨-, hInside, -, data, hFile⟩ := accept?_eq_some_iff.mp h
  refine Node.isSome_above hInside ?_
  rw [show fs.root.get? l = some (.file data) from hFile]
  rfl

theorem accept?_kept (hInward : Inward fs root candidate) (hSame : other.get? root = fs.get? root)
    (hThere : (fs.get? root).isSome) (h : accept? fs root candidate = some l) :
    accept? other root candidate = some l := by
  obtain ⟨hCanonical, hInside, hStrict, hFile⟩ := accept?_eq_some_iff.mp h
  refine accept?_eq_some_iff.mpr ⟨?_, hInside, hStrict, ?_⟩
  · rw [← hCanonical]
    refine canonical_congr ?_ fun x hSeen => outline?_inward hSame hThere (hInward x hSeen)
    rw [origin_candidate, origin_candidate]
  · rwa [get?_below hSame hInside]

theorem Inward.congr (hInward : Inward fs root candidate) (hSame : other.get? root = fs.get? root)
    (hThere : (fs.get? root).isSome) : Inward other root candidate := by
  unfold Inward
  rw [seen_congr (by rw [origin_candidate, origin_candidate])
    fun x hSeen => outline?_inward hSame hThere (hInward x hSeen)]
  exact hInward

/-- A candidate whose way looks at nothing outside is accepted, or not, whatever lies there. -/
theorem accept?_congr (hInward : Inward fs root candidate)
    (hSame : other.get? root = fs.get? root) :
    accept? other root candidate = accept? fs root candidate := by
  by_cases hThere : (fs.get? root).isSome
  · have hOther : (other.get? root).isSome := by rwa [hSame]
    ext l
    constructor
    · exact accept?_kept (hInward.congr hSame hThere) hSame.symm hOther
    · exact accept?_kept hInward hSame hThere
  · have hNone (fs : FileSystem) (hMissing : ¬(fs.get? root).isSome) :
        accept? fs root candidate = none :=
      Option.eq_none_iff_forall_ne_some.mpr fun l h => hMissing (isSome_of_accept? h)
    rw [hNone fs hThere, hNone other (by rwa [hSame])]

/-- The file system with nothing but the root and the directories above it. -/
def bare (fs : FileSystem) (root : Location) : FileSystem :=
  { fs with root := ((fs.get? root).getD (.directory [])).only root }

theorem get?_bare (hThere : (fs.get? root).isSome) : (bare fs root).get? root = fs.get? root := by
  obtain ⟨node, hNode⟩ := Option.isSome_iff_exists.mp hThere
  rw [hNode, FileSystem.get?, bare, hNode]
  exact Node.get?_only node root

/-- A candidate that is accepted even when nothing lies outside the root was found by a way that looks at
nothing there. -/
theorem inward_of_bare (hThere : (fs.get? root).isSome)
    (h : accept? (bare fs root) root candidate = some l) : Inward fs root candidate := by
  obtain ⟨hCanonical, -, -, -⟩ := accept?_eq_some_iff.mp h
  have hBare : Inward (bare fs root) root candidate := by
    intro x hSeen
    refine Node.inward_of_only (isSome_of_seen ?_ (locate_of_canonical hCanonical) x hSeen)
    rw [origin_candidate]
    rfl
  refine hBare.congr (get?_bare hThere).symm ?_
  rwa [get?_bare hThere]

/-- An accepted candidate does not depend on what lies outside the root exactly when the way to it looks
at nothing there. -/
theorem accepted_everywhere_iff (h : accept? fs root candidate = some l) :
    (∀ other : FileSystem, other.get? root = fs.get? root →
      accept? other root candidate = some l) ↔ Inward fs root candidate := by
  have hThere := isSome_of_accept? h
  constructor
  · exact fun hAll => inward_of_bare hThere (hAll (bare fs root) (get?_bare hThere))
  · exact fun hInward other hSame => (accept?_congr hInward hSame).trans h

theorem findSome?_accept?_congr {tried : List String} (hInward : ∀ c ∈ tried, Inward fs root c)
    (hSame : other.get? root = fs.get? root) :
    tried.findSome? (accept? other root) = tried.findSome? (accept? fs root) := by
  induction tried with
  | nil => rfl
  | cons c rest ih =>
      obtain ⟨hFirst, hRest⟩ := List.forall_mem_cons.mp hInward
      rw [List.findSome?_cons, List.findSome?_cons, accept?_congr hFirst hSame, ih hRest]

theorem resolve?_congr {kind : AssetKind} {request : String}
    (hInward : ∀ c ∈ requested kind request, Inward fs root c)
    (hSame : other.get? root = fs.get? root) :
    resolve? other root kind request = resolve? fs root kind request := by
  rw [resolve?_eq_findSome?, resolve?_eq_findSome?]
  exact findSome?_accept?_congr hInward hSame

end Source

namespace Gateway

/-- A request for a source file is passed on when no file is meant or when the file's tag cannot be
taken. -/
theorem handle_source_eq_pass_iff (g : Gateway) {r : Request} {path : String} (w : World)
    (hMethod : r.method ≠ .other) (hRoute : Route.ofPath? g.settings r.path = some (.source path)) :
    (g.handle w r).1 = .pass ↔
      ∀ file, Source.resolve? w.fs g.root (AssetKind.ofPath path) path = some file →
        stamp? w.fs file = none := by
  have hStart : g.start r = .resolving path (AssetKind.ofPath path) := by
    rw [start, if_neg hMethod, hRoute]
  have hFit (response : Response) : (Reply.respond response).fit r.method ≠ .pass := by
    unfold Reply.fit
    dsimp only
    split <;> simp
  cases hResolved : Source.resolve? w.fs g.root (AssetKind.ofPath path) path with
  | none =>
      have hLooks : g.looks r w longestLook (g.start r) = .answered .pass := by
        simp only [looks_longestLook, hStart, look, hResolved]
      rw [handle_of_answered g hLooks]
      simp [Reply.fit]
  | some file =>
      cases hStamp : stamp? w.fs file with
      | none =>
          have hLooks : g.looks r w longestLook (g.start r) = .answered .pass := by
            simp only [looks_longestLook, hStart, look, hResolved, hStamp]
          rw [handle_of_answered g hLooks]
          simp [Reply.fit, hStamp]
      | some stamp =>
          have hServed : (g.handle w r).1 ≠ .pass := by
            cases hFresh : Freshness.check stamp g.settings.minify r.ifNoneMatch with
            | fresh v =>
                have hLooks : g.looks r w longestLook (g.start r) =
                    .answered (.respond (.notModified v g.settings.localCacheControl)) := by
                  simp only [looks_longestLook, hStart, look, hResolved, hStamp, hFresh]
                rw [handle_of_answered g hLooks]
                exact hFit _
            | stale v =>
                have hLooks : g.looks r w longestLook (g.start r) =
                    .building (.source file v (AssetKind.ofPath path)) := by
                  simp only [looks_longestLook, hStart, look, hResolved, hStamp, hFresh]
                rw [handle_of_building g hLooks]
                obtain ⟨response, hReply, -⟩ := replyOf_serves g _ _ _
                rw [hReply]
                simp
          simp [hServed, hStamp]

/-- The answer to a request for a source file does not depend on what lies outside the source root, as
long as the ways to the files that it may mean look at nothing there. That condition cannot be left out:
a file that is found by any other way is found only because of what lies outside. -/
theorem source_answer_blind (g : Gateway) (w : World) {r : Request} {path : String}
    (hRoute : Route.ofPath? g.settings r.path = some (.source path)) :
    ((∀ c ∈ Source.requested (AssetKind.ofPath path) path, Source.Inward w.fs g.root c) →
      ∀ other : World, other.fs.get? g.root = w.fs.get? g.root →
        Source.resolve? other.fs g.root (AssetKind.ofPath path) path =
          Source.resolve? w.fs g.root (AssetKind.ofPath path) path ∧
        ((g.handle other r).1 = .pass ↔ (g.handle w r).1 = .pass)) ∧
      ∀ c l, Source.accept? w.fs g.root c = some l →
        ((∀ fs : FileSystem, fs.get? g.root = w.fs.get? g.root →
          Source.accept? fs g.root c = some l) ↔ Source.Inward w.fs g.root c) := by
  refine ⟨fun hInward other hSame => ?_, fun c l => Source.accepted_everywhere_iff⟩
  have hResolve := Source.resolve?_congr hInward hSame
  refine ⟨hResolve, ?_⟩
  by_cases hMethod : r.method = .other
  · have hPass (w : World) : (g.handle w r).1 = .pass := by
      have hLooks : g.looks r w longestLook (g.start r) = .answered .pass := by
        rw [start, if_pos hMethod]
        rfl
      rw [handle_of_answered g hLooks]
      rfl
    simp [hPass]
  · rw [handle_source_eq_pass_iff g other hMethod hRoute, hResolve,
      handle_source_eq_pass_iff g w hMethod hRoute]
    refine forall_congr' fun file => forall_congr' fun hMeant => ?_
    have hChosen := Source.chosen_of_resolve? hMeant
    obtain ⟨hInside, -, data, hFile⟩ := hChosen.within
    have hOther : other.fs.get? file = some (.file data) := by
      rw [Source.get?_below hSame hInside, hFile]
    rw [stamp?, stamp?, stat_path_congr hChosen.named hFile hOther (by simp)]

/-- A project with one source file and a directory beside the source root, which is there or not. -/
def asideFiles (isThere : Bool) : FileSystem where
  root := .directory
    (("src", .directory [("x.js", .file ⟨"export default 1;\n".toUTF8, 0⟩)]) ::
      if isThere then [("aside", .directory [])] else [])

/-- The gateway of that project with a compiler that changes nothing. -/
def asideGateway : Gateway where
  settings := {}
  root := ["src"]
  store := { directory := ⟨".kiln/cache"⟩ }
  compiler := fun unit => .done unit.source

theorem source_answer_blind_plain :
    (asideGateway.handle (asideGateway.newWorld (asideFiles true)) { target := "/modules/y.js" }).1 =
        .pass ↔
      (asideGateway.handle (asideGateway.newWorld (asideFiles false))
        { target := "/modules/y.js" }).1 = .pass := by
  have hRoute : Route.ofPath? asideGateway.settings
      (Request.path { target := "/modules/y.js" }) = some (.source "/y.js") := by decide +kernel
  have hInward : ∀ c ∈ Source.requested (AssetKind.ofPath "/y.js") "/y.js",
      Source.Inward (asideGateway.newWorld (asideFiles false)).fs asideGateway.root c := by
    decide +kernel
  obtain ⟨hBlind, -⟩ := source_answer_blind asideGateway
    (asideGateway.newWorld (asideFiles false)) hRoute
  exact (hBlind hInward (asideGateway.newWorld (asideFiles true)) rfl).2

/-- A path that leaves the source root and comes back is answered only if the directory that it passes is
there. The source root holds no links, and it is the same with and without that directory. -/
theorem source_answer_tells :
    (asideFiles true).get? asideGateway.root = (asideFiles false).get? asideGateway.root ∧
      (∀ l target, asideGateway.root <+: l → ∀ isThere,
        (asideFiles isThere).get? l ≠ some (.symlink target)) ∧
      Route.ofPath? asideGateway.settings "/modules/../aside/../src/x.js" =
        some (.source "/../aside/../src/x.js") ∧
      Source.resolve? (asideFiles true) asideGateway.root .script "/../aside/../src/x.js" =
        some ["src", "x.js"] ∧
      Source.resolve? (asideFiles false) asideGateway.root .script "/../aside/../src/x.js" = none ∧
      (asideGateway.handle (asideGateway.newWorld (asideFiles true))
        { target := "/modules/../aside/../src/x.js" }).1 ≠ .pass ∧
      (asideGateway.handle (asideGateway.newWorld (asideFiles false))
        { target := "/modules/../aside/../src/x.js" }).1 = .pass := by
  refine ⟨rfl, ?_, by decide +kernel⟩
  rintro l target ⟨below, rfl⟩ isThere hLink
  have hRoot : (asideFiles isThere).root.get? asideGateway.root =
      some (.directory [("x.js", .file ⟨"export default 1;\n".toUTF8, 0⟩)]) := by
    cases isThere <;> rfl
  rw [FileSystem.get?, Node.get?_append, hRoot, Option.bind_some] at hLink
  cases below with
  | nil => cases hLink
  | cons name rest =>
      rw [Node.get?, Node.children, Node.lookup_cons_eq] at hLink
      by_cases hName : name = "x.js"
      · rw [if_pos hName] at hLink
        cases rest <;> cases hLink
      · rw [if_neg hName] at hLink
        cases hLink

end Gateway

end ModuleGateway
