import ModuleGateway.Proofs.Gateway.Compiling
import ModuleGateway.Proofs.Gateway.Sequential
import ModuleGateway.Proofs.Source.Outside
import ModuleGateway.Proofs.Store.Failure

/-!
What clients can tell of the store. A module that is read from the store is the one that would be built
again, and building it again would trust nothing new, so requests are answered as if nothing were ever
kept. This says nothing about how long they take, and it needs that no request finds its way to a source
file through the store's own directory.
-/

namespace ModuleGateway

open Build FileSystem

namespace Gateway

/-- The gateway with a store that refuses every write at a step. -/
def refusing (g : Gateway) (step : WriteStep) : Gateway :=
  { g with store := { g.store with refusal := some step } }

/-- The replies to requests that come one after another, with the worlds that they leave. -/
def serve (g : Gateway) (w : World) : List Request → List (Reply × World)
  | [] => []
  | r :: rest => g.handle w r :: g.serve (g.handle w r).2 rest

/-- What clients receive of a gateway that starts, and what is trusted after each request. -/
def course (g : Gateway) (fs : FileSystem) (requests : List Request) :
    List (Reply × Trust.Registry) :=
  (g.serve (g.newWorld fs) requests).map fun done => (done.1, done.2.trusted)

variable {g : Gateway} {r : Request} {w other : World} {fs base : FileSystem} {specifier path : String}
  {kind : AssetKind} {requests : List Request} {trusted : Trust.Registry} {content : ByteArray}

/-! ### Requests that pass the store by -/

/-- A request starts with an answer, with the store or with a source file. -/
theorem start_cases (g : Gateway) (r : Request) :
    (∃ reply, g.start r = .answered reply) ∨ (∃ specifier, g.start r = .recalling specifier) ∨
      ∃ path, Route.ofPath? g.settings r.path = some (.source path) ∧
        g.start r = .resolving path (AssetKind.ofPath path) := by
  have hStart := g.start_spec r
  generalize g.start r = progress at hStart ⊢
  cases hStart with
  | passed | shim => exact .inl ⟨_, rfl⟩
  | recalling => exact .inr (.inl ⟨_, rfl⟩)
  | resolving hRoute => exact .inr (.inr ⟨_, hRoute, rfl⟩)

/-- Where a request starts that passes the store by. -/
def pastStore : Progress → Progress
  | .recalling specifier => .trusting specifier
  | p => p

/-- What a request comes to that passes the store by. -/
def aim (g : Gateway) (r : Request) (w : World) : Progress :=
  g.looks r w longestLook (pastStore (g.start r))

theorem aim_of_answered {reply : Reply} (h : g.start r = .answered reply) :
    g.aim r w = .answered reply := by
  rw [aim, h]
  rfl

theorem aim_of_recalling (h : g.start r = .recalling specifier) :
    g.aim r w =
      if w.trusted.trusts specifier then
        match g.sources.locate? w.fs specifier with
        | some m => .building (.vendor specifier m)
        | none => .answered (g.missed specifier)
      else .answered (g.missed specifier) := by
  rw [aim, h, looks_longestLook]
  cases hTrusted : w.trusted.trusts specifier with
  | false => simp [pastStore, look, hTrusted]
  | true =>
      cases hLocated : g.sources.locate? w.fs specifier <;> simp [pastStore, look, hTrusted, hLocated]

theorem aim_of_resolving (h : g.start r = .resolving path kind) :
    g.aim r w =
      match Source.resolve? w.fs g.root kind path with
      | none => .answered .pass
      | some file =>
        match stamp? w.fs file with
        | none => .answered .pass
        | some stamp =>
          match Freshness.check stamp g.settings.minify r.ifNoneMatch with
          | .fresh v => .answered (.respond (.notModified v g.settings.localCacheControl))
          | .stale v => .building (.source file v kind) := by
  rw [aim, h, looks_longestLook]
  cases hResolved : Source.resolve? w.fs g.root kind path with
  | none => simp only [pastStore, look, hResolved]
  | some file =>
      cases hStamp : stamp? w.fs file with
      | none => simp only [pastStore, look, hResolved, hStamp]
      | some stamp =>
          cases hFresh : Freshness.check stamp g.settings.minify r.ifNoneMatch <;>
            simp only [pastStore, look, hResolved, hStamp, hFresh]

/-- The reply to a request that passes the store by, and what is trusted then. -/
def afresh (g : Gateway) (r : Request) (w : World) : Reply × Trust.Registry :=
  match g.aim r w with
  | .answered reply => (reply.fit r.method, w.trusted)
  | .building b =>
    ((g.replyOf b (g.make w.fs w.trusted b).1).fit r.method, (g.make w.fs w.trusted b).2)
  | _ => (.pass, w.trusted)

/-- A request passes the store by when there is nothing for it. -/
theorem looks_of_missing
    (hMissing : ∀ specifier, g.start r = .recalling specifier → g.store.read? w.fs specifier = none) :
    g.looks r w longestLook (g.start r) = g.aim r w := by
  rcases g.start_cases r with ⟨reply, hStart⟩ | ⟨specifier, hStart⟩ | ⟨path, -, hStart⟩
  · rw [aim, hStart]
    rfl
  · have hStored := hMissing specifier hStart
    rw [aim_of_recalling hStart, hStart, looks_longestLook]
    cases hTrusted : w.trusted.trusts specifier with
    | false => simp [look, hStored, hTrusted]
    | true =>
        cases hLocated : g.sources.locate? w.fs specifier <;>
          simp [look, hStored, hTrusted, hLocated]
  · rw [aim, hStart]
    rfl

/-- A build that a request comes to is for the specifier that it asks for. -/
theorem recalling_of_aim {m : Package.Located} (h : g.aim r w = .building (.vendor specifier m)) :
    g.start r = .recalling specifier ∧ w.trusted.trusts specifier = true ∧
      g.sources.locate? w.fs specifier = some m := by
  rcases g.start_cases r with ⟨reply, hStart⟩ | ⟨other, hStart⟩ | ⟨path, -, hStart⟩
  · rw [aim_of_answered hStart] at h
    cases h
  · rw [aim_of_recalling hStart] at h
    split at h
    · rename_i hTrusted
      split at h
      · rename_i found hFound
        cases h
        exact ⟨hStart, hTrusted, hFound⟩
      · cases h
    · cases h
  · rw [aim_of_resolving hStart] at h
    split at h
    · cases h
    · split at h
      · cases h
      · split at h <;> cases h

theorem left_pastStore (p : Progress) : (pastStore p).left ≤ p.left := by
  cases p with
  | recalling specifier => exact (by decide : 2 ≤ 3)
  | _ => exact Nat.le_refl _

theorem aim_settles (g : Gateway) (r : Request) (w : World) :
    (∃ reply, g.aim r w = .answered reply) ∨ ∃ b, g.aim r w = .building b :=
  settles_of_left g r w ((left_pastStore _).trans (left_start g r))

/-- The file system that a request leaves which passes the store by. -/
def leaves (g : Gateway) (r : Request) (w : World) : FileSystem :=
  match g.aim r w with
  | .building b => g.left w.fs b (g.make w.fs w.trusted b).1
  | _ => w.fs

/-- A request for which there is nothing in the store is handled as if there were no store. -/
theorem handle_of_missing
    (hMissing : ∀ specifier, g.start r = .recalling specifier → g.store.read? w.fs specifier = none) :
    ((g.handle w r).1, (g.handle w r).2.trusted) = g.afresh r w ∧
      (g.handle w r).2.fs = g.leaves r w := by
  have hLooks := looks_of_missing hMissing
  rcases g.aim_settles r w with ⟨reply, hAim⟩ | ⟨b, hAim⟩
  · rw [hAim] at hLooks
    rw [handle_of_answered g hLooks, afresh, leaves, hAim]
    exact ⟨rfl, rfl⟩
  · have hStored : g.stored? (w.join onlyClient b).fs b = none := by
      cases b with
      | vendor specifier m => exact hMissing specifier (recalling_of_aim hAim).1
      | source file v kind => rfl
    obtain ⟨hOutcome, hTrusted, hLeft⟩ := work_of_missing hStored
    rw [hAim] at hLooks
    rw [handle, hLooks, afresh, leaves, hAim]
    refine ⟨Prod.ext ?_ hTrusted, hLeft⟩
    dsimp only
    rw [hOutcome]
    rfl

/-! ### What does not change -/

/-- A request leads to a build when what it asks for is found. -/
def LeadsTo (g : Gateway) (fs : FileSystem) (r : Request) : Building → Prop
  | .vendor specifier m => g.start r = .recalling specifier ∧ g.sources.locate? fs specifier = some m
  | .source file _ kind =>
    ∃ path, g.start r = .resolving path kind ∧ Source.resolve? fs g.root kind path = some file

/-- A specifier comes up when a request asks for it, or when the output imports it of a build that a
request leads to. -/
def ComesUp (g : Gateway) (fs : FileSystem) (requests : List Request) (specifier : String) : Prop :=
  ∃ r ∈ requests, g.start r = .recalling specifier ∨
    ∃ b source output, g.LeadsTo fs r b ∧ fs.readText b.file = .ok source ∧
      g.compiler ⟨b.file, source, b.kind⟩ = .done output ∧ specifier ∈ Relink.asked output ∧
      Specifier.kind specifier = .bare

/-- The source root is the same in two file systems, and so are the modules of the specifiers that come
up. -/
structure Steady (g : Gateway) (requests : List Request) (fs other : FileSystem) : Prop where
  sources : other.get? g.root = fs.get? g.root
  packages : ∀ specifier, g.ComesUp fs requests specifier →
    g.sources.locate? other specifier = g.sources.locate? fs specifier
  modules : ∀ specifier m, g.ComesUp fs requests specifier →
    g.sources.locate? fs specifier = some m → other.readText m.file = fs.readText m.file

/-- The ways to all files that a request for a source file may mean stay with the source root. -/
def StaysInward (g : Gateway) (fs : FileSystem) (r : Request) : Prop :=
  ∀ path, Route.ofPath? g.settings r.path = some (.source path) →
    ∀ c ∈ Source.requested (AssetKind.ofPath path) path, Source.Inward fs g.root c

theorem aim_congr (hSteady : g.Steady requests w.fs other.fs) (hTrusted : other.trusted = w.trusted)
    (hAsked : r ∈ requests) (hInward : g.StaysInward w.fs r) : g.aim r other = g.aim r w := by
  rcases g.start_cases r with ⟨reply, hStart⟩ | ⟨specifier, hStart⟩ | ⟨path, hRoute, hStart⟩
  · rw [aim_of_answered hStart, aim_of_answered hStart]
  · rw [aim_of_recalling hStart, aim_of_recalling hStart, hTrusted,
      hSteady.packages specifier ⟨r, hAsked, .inl hStart⟩]
  · rw [aim_of_resolving hStart, aim_of_resolving hStart,
      Source.resolve?_congr (hInward path hRoute) hSteady.sources]
    cases hResolved : Source.resolve? w.fs g.root (AssetKind.ofPath path) path with
    | none => rfl
    | some file =>
        have hChosen := Source.chosen_of_resolve? hResolved
        obtain ⟨hInside, -, data, hFile⟩ := hChosen.within
        have hSame := Source.get?_below hSteady.sources hInside
        have hStamp : stamp? other.fs file = stamp? w.fs file := by
          rw [stamp?, stamp?,
            stat_path_congr hChosen.named hFile (hSame.trans hFile) (by simp)]
        dsimp only
        rw [hStamp]

/-- A request comes to a build only if it leads to it. -/
theorem leadsTo_of_aim {b : Building} (h : g.aim r w = .building b) : g.LeadsTo w.fs r b := by
  cases b with
  | vendor specifier m =>
      obtain ⟨hStart, -, hLocated⟩ := recalling_of_aim h
      exact ⟨hStart, hLocated⟩
  | source file v kind =>
      rcases g.start_cases r with ⟨reply, hStart⟩ | ⟨specifier, hStart⟩ | ⟨path, -, hStart⟩
      · rw [aim_of_answered hStart] at h
        cases h
      · rw [aim_of_recalling hStart] at h
        split at h
        · split at h <;> cases h
        · cases h
      · rw [aim_of_resolving hStart] at h
        split at h
        · cases h
        · rename_i found hResolved
          split at h
          · cases h
          · split at h
            · cases h
            · cases h
              exact ⟨path, hStart, hResolved⟩

theorem make_steady {b : Building} (hSteady : g.Steady requests fs other.fs) (hAsked : r ∈ requests)
    (hLeads : g.LeadsTo fs r b) : g.make other.fs trusted b = g.make fs trusted b := by
  refine make_congr ?_ fun source output hSource hCompiled specifier hImported hBare => ?_
  · cases b with
    | vendor specifier m =>
        obtain ⟨hStart, hLocated⟩ := hLeads
        exact hSteady.modules specifier m ⟨r, hAsked, .inl hStart⟩ hLocated
    | source file v kind =>
        obtain ⟨path, -, hResolved⟩ := hLeads
        have hChosen := Source.chosen_of_resolve? hResolved
        obtain ⟨hInside, -, data, hFile⟩ := hChosen.within
        have hSame := Source.get?_below hSteady.sources hInside
        exact readText_path_congr hChosen.named hFile (hSame.trans hFile) (by simp)
  · exact hSteady.packages specifier
      ⟨r, hAsked, .inr ⟨b, source, output, hLeads, hSource, hCompiled, hImported, hBare⟩⟩

theorem afresh_congr (hSteady : g.Steady requests w.fs other.fs) (hTrusted : other.trusted = w.trusted)
    (hAsked : r ∈ requests) (hInward : g.StaysInward w.fs r) : g.afresh r other = g.afresh r w := by
  have hAim := aim_congr hSteady hTrusted hAsked hInward
  rw [afresh, afresh, hAim]
  rcases g.aim_settles r w with ⟨reply, hAnswered⟩ | ⟨b, hBuilding⟩
  · rw [hAnswered, hTrusted]
  · rw [hBuilding, hTrusted]
    dsimp only
    rw [make_steady hSteady hAsked (leadsTo_of_aim hBuilding)]

/-- Requests that pass the store by do not depend on it. -/
theorem afresh_store (store : Store) (r : Request) (w : World) :
    ({ g with store } : Gateway).afresh r w = g.afresh r w := by
  have hAim : ({ g with store } : Gateway).aim r w = g.aim r w := by
    rcases g.start_cases r with ⟨reply, hStart⟩ | ⟨specifier, hStart⟩ | ⟨path, -, hStart⟩
    · rw [aim_of_answered hStart]
      exact aim_of_answered hStart
    · rw [aim_of_recalling hStart]
      exact aim_of_recalling (g := { g with store }) hStart
    · rw [aim_of_resolving hStart]
      exact aim_of_resolving (g := { g with store }) hStart
  rw [afresh, afresh, hAim]
  rfl

/-! ### What is kept -/

/-- A content is what is made of a specifier, and making it again trusts nothing new. -/
def Remade (g : Gateway) (fs : FileSystem) (trusted : Trust.Registry) (specifier : String)
    (content : ByteArray) : Prop :=
  trusted.trusts specifier = true ∧
    ∃ m, g.sources.locate? fs specifier = some m ∧
      ∀ later : Trust.Registry, (∀ name, trusted.contains name = true → later.contains name = true) →
        g.make fs later (.vendor specifier m) =
          (.success content AssetKind.script.contentType, later)

theorem Remade.mono {later : Trust.Registry} (h : g.Remade fs trusted specifier content)
    (hGrown : ∀ name, trusted.contains name = true → later.contains name = true) :
    g.Remade fs later specifier content := by
  obtain ⟨hTrusted, m, hLocated, hMade⟩ := h
  exact ⟨hGrown _ hTrusted, m, hLocated, fun last hLast => hMade last fun name => hLast name ∘ hGrown name⟩

/-- A build that succeeds can be made again. -/
theorem remade_of_make {m : Package.Located} {type : String} {later : Trust.Registry}
    (hTrusted : trusted.trusts specifier = true) (hLocated : g.sources.locate? fs specifier = some m)
    (hMade : g.make fs trusted (.vendor specifier m) = (.success content type, later)) :
    g.Remade fs later specifier content ∧ type = AssetKind.script.contentType := by
  obtain rfl : type = AssetKind.script.contentType := type_of_make (congrArg Prod.fst hMade)
  have hGrown (name : String) (hName : trusted.contains name = true) : later.contains name = true := by
    have hKnown : (g.make fs trusted (.vendor specifier m)).2.contains name = true := make_keeps hName
    rwa [hMade] at hKnown
  refine ⟨⟨hGrown _ hTrusted, m, hLocated, fun last hLast => ?_⟩, rfl⟩
  have hAgain : g.make fs last (.vendor specifier m) =
      ((g.make fs trusted (.vendor specifier m)).1, last) :=
    make_again (by rwa [hMade])
  rw [hAgain, hMade]

/-- Between two requests the store holds only what would be made again. -/
structure Kept (g : Gateway) (fs : FileSystem) (w : World) : Prop where
  rests : w.coordinator.AtRest
  files : Store.OnlyFiles (g.store.shelf w.fs)
  entries : ∀ specifier data,
    (g.store.shelf w.fs).lookup (Specifier.entryName specifier) = some (.file data) →
      g.Remade fs w.trusted specifier data.content

theorem Kept.grow {after : World} (h : g.Kept fs w) (hRests : after.coordinator.AtRest)
    (hFs : after.fs = w.fs)
    (hGrown : ∀ name, w.trusted.contains name = true → after.trusted.contains name = true) :
    g.Kept fs after where
  rests := hRests
  files := hFs ▸ h.files
  entries := fun specifier data hEntry => (h.entries specifier data (hFs ▸ hEntry)).mono hGrown

/-- An entry that is written, or not, joins those that the store holds. -/
theorem Kept.persist {after : World} {m : Package.Located} (h : g.Kept fs w)
    (hRests : after.coordinator.AtRest)
    (hFs : after.fs = g.persist w.fs (.vendor specifier m) content)
    (hGrown : ∀ name, w.trusted.contains name = true → after.trusted.contains name = true)
    (hRemade : g.Remade fs after.trusted specifier content) : g.Kept fs after := by
  have hOld (name : String) (data : FileData)
      (hEntry : (g.store.shelf w.fs).lookup (Specifier.entryName name) = some (.file data)) :
      g.Remade fs after.trusted name data.content := (h.entries name data hEntry).mono hGrown
  simp only [Gateway.persist] at hFs
  split at hFs
  · rename_i written hWrite
    have hWritten := Store.written_of_write (h.files.plain _) hWrite
    refine ⟨hRests, by rw [hFs]; exact hWritten.onlyFiles h.files, fun name data hEntry => ?_⟩
    rw [hFs] at hEntry
    by_cases hSame : name = specifier
    · rw [hSame, hWritten.entry] at hEntry
      cases hEntry
      rw [hSame]
      exact hRemade
    · rw [hWritten.lookup_other hSame] at hEntry
      exact hOld name data hEntry
  · rename_i failed hWrite
    have hSpared := Store.spared_of_write_error h.files hWrite
    refine ⟨hRests, by rw [hFs]; exact hSpared.files, fun name data hEntry => ?_⟩
    rw [hFs, hSpared.others _ (g.store.entryName_ne_unfinishedName name specifier)] at hEntry
    exact hOld name data hEntry

/-- A build joins what it makes to what the store holds. -/
theorem Kept.build {after : World} {b : Building} (h : g.Kept fs w)
    (hSteady : g.Steady requests fs w.fs) (hAsked : r ∈ requests)
    (hAim : g.aim r { w with fs } = .building b) (hRests : after.coordinator.AtRest)
    (hFs : after.fs = g.left w.fs b (g.make w.fs w.trusted b).1)
    (hTrusted : after.trusted = (g.make w.fs w.trusted b).2) : g.Kept fs after := by
  have hLeads := leadsTo_of_aim hAim
  have hMake : g.make w.fs w.trusted b = g.make fs w.trusted b :=
    make_steady hSteady hAsked hLeads
  have hGrown (name : String) (hName : w.trusted.contains name = true) :
      after.trusted.contains name = true := by
    rw [hTrusted]
    exact make_keeps hName
  cases hOutcome : (g.make w.fs w.trusted b).1 with
  | failure message =>
      rw [hOutcome] at hFs
      exact h.grow hRests hFs hGrown
  | success content type =>
      rw [hOutcome] at hFs
      cases b with
      | source file v kind => exact h.grow hRests hFs hGrown
      | vendor specifier m =>
          obtain ⟨-, hKnown, hLocated⟩ := recalling_of_aim hAim
          have hMade : g.make fs w.trusted (.vendor specifier m) =
              (.success content type, after.trusted) := by
            rw [← hMake, hTrusted, ← hOutcome]
          have hPersisted : after.fs = g.persist w.fs (.vendor specifier m) content := hFs
          exact h.persist hRests hPersisted hGrown (remade_of_make hKnown hLocated hMade).1

/-- What is in the store is what would be answered afresh. -/
theorem Kept.recall (h : g.Kept fs w) (hStart : g.start r = .recalling specifier)
    (hStored : g.store.read? w.fs specifier = some content) :
    g.handle w r = ((vendorResponse AssetKind.script.contentType content).fit r.method, w) ∧
      g.afresh r { w with fs } =
        ((vendorResponse AssetKind.script.contentType content).fit r.method, w.trusted) := by
  constructor
  · rw [handle_of_answered g]
    rw [hStart, looks_longestLook]
    simp only [look, hStored]
  · obtain ⟨-, -, -, data, hEntry, rfl⟩ := Store.entry_of_read? (h.files _) hStored
    obtain ⟨hTrusted, m, hLocated, hMade⟩ := h.entries specifier data hEntry
    have hAim : g.aim r { w with fs } = .building (.vendor specifier m) := by
      rw [aim_of_recalling hStart]
      simp only [hTrusted, hLocated, if_true]
    rw [afresh, hAim]
    dsimp only
    rw [hMade w.trusted fun _ hName => hName]
    rfl

/-- A request is handled as if nothing were kept, and keeps the store right. -/
theorem Kept.handle (h : g.Kept fs w) (hSteady : g.Steady requests fs w.fs) (hAsked : r ∈ requests)
    (hInward : g.StaysInward fs r) :
    ((g.handle w r).1, (g.handle w r).2.trusted) = g.afresh r { w with fs } ∧
      g.Kept fs (g.handle w r).2 := by
  by_cases hStored : ∃ specifier content,
      g.start r = .recalling specifier ∧ g.store.read? w.fs specifier = some content
  · obtain ⟨specifier, content, hStart, hContent⟩ := hStored
    obtain ⟨hHandle, hAfresh⟩ := h.recall hStart hContent
    rw [hHandle, hAfresh]
    exact ⟨rfl, h⟩
  · have hMissing (specifier : String) (hStart : g.start r = .recalling specifier) :
        g.store.read? w.fs specifier = none := by
      by_contra hSome
      obtain ⟨content, hContent⟩ := Option.ne_none_iff_exists'.mp hSome
      exact hStored ⟨specifier, content, hStart, hContent⟩
    obtain ⟨hReply, hLeaves⟩ := handle_of_missing hMissing
    have hRests := Service.handle_rests (g := g) h.rests r
    have hSame : g.afresh r w = g.afresh r { w with fs } :=
      afresh_congr (w := { w with fs }) hSteady rfl hAsked hInward
    refine ⟨hReply.trans hSame, ?_⟩
    have hAim : g.aim r w = g.aim r { w with fs } :=
      aim_congr (w := { w with fs }) hSteady rfl hAsked hInward
    have hTrusted : (g.handle w r).2.trusted = (g.afresh r w).2 := congrArg Prod.snd hReply
    rcases g.aim_settles r w with ⟨reply, hAnswered⟩ | ⟨b, hBuilding⟩
    · rw [leaves, hAnswered] at hLeaves
      rw [afresh, hAnswered] at hTrusted
      exact h.grow hRests hLeaves fun name hName => hTrusted ▸ hName
    · rw [leaves, hBuilding] at hLeaves
      rw [afresh, hBuilding] at hTrusted
      exact h.build hSteady hAsked (hAim ▸ hBuilding) hRests hLeaves hTrusted

/-! ### Courses -/

/-- The course of requests as if nothing were ever kept. -/
def afreshCourse (g : Gateway) (fs : FileSystem) (trusted : Trust.Registry) :
    List Request → List (Reply × Trust.Registry)
  | [] => []
  | r :: rest =>
    g.afresh r { fs, trusted } :: g.afreshCourse fs (g.afresh r { fs, trusted }).2 rest

theorem afreshCourse_store (store : Store) (fs : FileSystem) (trusted : Trust.Registry)
    (requests : List Request) :
    ({ g with store } : Gateway).afreshCourse fs trusted requests =
      g.afreshCourse fs trusted requests := by
  induction requests generalizing trusted with
  | nil => rfl
  | cons r rest ih => rw [afreshCourse, afreshCourse, afresh_store, ih]

/-- Requests that come one after another are answered as if nothing were ever kept. -/
theorem Kept.serve {later : List Request} (h : g.Kept fs w) (hSteady : g.Steady requests fs w.fs)
    (hCourse : ∀ done ∈ g.serve w later, g.Steady requests fs done.2.fs) (hAsked : later ⊆ requests)
    (hInward : ∀ r ∈ requests, g.StaysInward fs r) :
    (g.serve w later).map (fun done => (done.1, done.2.trusted)) =
      g.afreshCourse fs w.trusted later := by
  induction later generalizing w with
  | nil => rfl
  | cons r rest ih =>
      obtain ⟨hFirst, hOthers⟩ := List.cons_subset.mp hAsked
      rw [Gateway.serve] at hCourse ⊢
      obtain ⟨hNow, hLater⟩ := List.forall_mem_cons.mp hCourse
      obtain ⟨hReply, hAfter⟩ := h.handle hSteady hFirst (hInward r hFirst)
      have hSame : g.afresh r { fs, trusted := w.trusted } = g.afresh r { w with fs } :=
        rfl
      rw [List.map_cons, ih hAfter hNow hLater hOthers, afreshCourse, hSame, ← hReply]

/-- A gateway that starts on an empty store. -/
theorem kept_newWorld (hEmpty : g.store.shelf fs = []) : g.Kept fs (g.newWorld fs) where
  rests := ⟨rfl, rfl⟩
  files := by
    show Store.OnlyFiles (g.store.shelf fs)
    rw [hEmpty]
    exact Store.onlyFiles_nil
  entries := fun specifier data hEntry => by
    have hNone : ([] : List (String × Node)).lookup (Specifier.entryName specifier) =
        some (.file data) := hEmpty ▸ hEntry
    cases hNone

/-- A gateway that starts on an empty store answers as if nothing were ever kept. -/
theorem course_eq_afresh (hEmpty : g.store.shelf fs = [])
    (hSteady : ∀ done ∈ g.serve (g.newWorld fs) requests, g.Steady requests fs done.2.fs)
    (hInward : ∀ r ∈ requests, g.StaysInward fs r) :
    g.course fs requests = g.afreshCourse fs (g.newWorld fs).trusted requests := by
  have hStart : g.Steady requests fs (g.newWorld fs).fs := ⟨rfl, fun _ _ => rfl, fun _ _ _ _ => rfl⟩
  exact (kept_newWorld hEmpty).serve hStart hSteady (List.Subset.refl _) hInward

/-! ### A store that refuses -/

theorem write_refusing (step : WriteStep) (fs : FileSystem) (specifier : String) (content : ByteArray) :
    ∃ failed, (g.refusing step).store.write fs specifier content = .error failed := by
  unfold Store.write
  split
  · exact ⟨_, rfl⟩
  · rename_i hDirectory
    dsimp only
    split
    · exact ⟨_, rfl⟩
    · rename_i hContent
      split
      · exact ⟨_, rfl⟩
      · rename_i hMove
        cases step <;> simp [Store.attempt, refusing] at hDirectory hContent hMove

/-- There is no entry in the store. -/
structure Barren (g : Gateway) (fs : FileSystem) : Prop where
  files : Store.OnlyFiles (g.store.shelf fs)
  vacant : ∀ specifier, (g.store.shelf fs).lookup (Specifier.entryName specifier) = none

theorem barren_of_empty (hEmpty : g.store.shelf fs = []) : g.Barren fs where
  files := hEmpty ▸ Store.onlyFiles_nil
  vacant := fun specifier => by rw [hEmpty]; rfl

theorem Barren.missing (h : g.Barren fs) (specifier : String) : g.store.read? fs specifier = none :=
  Store.read?_eq_none (h.vacant specifier)

theorem Barren.left {step : WriteStep} (h : (g.refusing step).Barren fs) (b : Building)
    (outcome : Outcome) : (g.refusing step).Barren ((g.refusing step).left fs b outcome) := by
  cases outcome with
  | failure message => exact h
  | success content type =>
      cases b with
      | source file v kind => exact h
      | vendor specifier m =>
          obtain ⟨failed, hWrite⟩ := write_refusing (g := g) step fs specifier content
          have hSpared := Store.spared_of_write_error h.files hWrite
          have hLeft : (g.refusing step).left fs (.vendor specifier m) (.success content type) =
              failed.left := by
            simp only [Gateway.left, Gateway.persist, hWrite]
          rw [hLeft]
          refine ⟨hSpared.files, fun name => ?_⟩
          rw [hSpared.others _ (Store.entryName_ne_unfinishedName _ name specifier)]
          exact h.vacant name

/-- While writes are refused nothing is ever found in the store. -/
theorem Barren.serve {step : WriteStep} (h : (g.refusing step).Barren w.fs) :
    ∀ done ∈ (g.refusing step).serve w requests, (g.refusing step).Barren done.2.fs := by
  induction requests generalizing w with
  | nil =>
      intro done hDone
      cases hDone
  | cons r rest ih =>
      obtain ⟨-, hLeaves⟩ := handle_of_missing (g := g.refusing step) (r := r) (w := w)
        fun specifier _ => h.missing specifier
      have hAfter : (g.refusing step).Barren ((g.refusing step).handle w r).2.fs := by
        rw [hLeaves, leaves]
        split
        · exact h.left _ _
        · exact h
      exact List.forall_mem_cons.mpr ⟨hAfter, ih hAfter⟩

/-- The store is transparent. Requests that come one after another to a gateway that starts on an empty
store get the same replies, and lead to the same trust, when writes succeed as when every write is
refused and so every read misses. The sources and the modules that come up have to stay as they are, and
requests for source files must not leave the source root on the way to a file: a way through the store's
own directory leads on only once the store has been written. -/
theorem store_transparent (g : Gateway) (fs : FileSystem) (step : WriteStep) (requests : List Request)
    (hEmpty : g.store.shelf fs = [])
    (hSteady : ∀ done ∈ g.serve (g.newWorld fs) requests ++
      (g.refusing step).serve ((g.refusing step).newWorld fs) requests,
        g.Steady requests fs done.2.fs)
    (hInward : ∀ r ∈ requests, g.StaysInward fs r) :
    g.course fs requests = (g.refusing step).course fs requests ∧
      ∀ done ∈ (g.refusing step).serve ((g.refusing step).newWorld fs) requests,
        ∀ specifier, (g.refusing step).store.read? done.2.fs specifier = none := by
  obtain ⟨hWorking, hRefused⟩ := List.forall_mem_append.mp hSteady
  have hEmptyToo : (g.refusing step).store.shelf fs = [] := hEmpty
  refine ⟨?_, fun done hDone specifier =>
    ((barren_of_empty hEmptyToo).serve done hDone).missing specifier⟩
  have hRefusing : ∀ done ∈ (g.refusing step).serve ((g.refusing step).newWorld fs) requests,
      (g.refusing step).Steady requests fs done.2.fs :=
    fun done hDone => ⟨(hRefused done hDone).sources, (hRefused done hDone).packages,
      (hRefused done hDone).modules⟩
  have hSame : (g.refusing step).afreshCourse fs ((g.refusing step).newWorld fs).trusted requests =
      g.afreshCourse fs (g.newWorld fs).trusted requests :=
    afreshCourse_store _ fs _ requests
  rw [course_eq_afresh hEmpty hWorking hInward, course_eq_afresh hEmptyToo hRefusing hInward, hSame]

/-- A project with one source file and one package. -/
def passageFiles : FileSystem where
  root := .directory
    [("src", .directory [("x.js", .file ⟨"export default 1;\n".toUTF8, 0⟩)]),
      ("node_modules", .directory
        [("a", .directory [("index.js", .file ⟨"export default 2;\n".toUTF8, 0⟩)])])]

/-- The gateway of that project with a compiler that changes nothing. The package is prewarmed, so it is
trusted. -/
def passageGateway : Gateway where
  settings := { prewarm := ["a"] }
  root := ["src"]
  store := { directory := ⟨".kiln/cache"⟩ }
  compiler := fun unit => .done unit.source

/-- The package's module is asked for twice, and then the source file. -/
def passageVisits : List Request :=
  [{ target := "/modules/vendor/a" }, { target := "/modules/vendor/a" }, { target := "/modules/x.js" }]

def passageModule : Package.Located :=
  ⟨"a", ⟨"/node_modules/a"⟩, ⟨"/node_modules/a/index.js"⟩⟩

/-- Only the package comes up. -/
theorem comesUp_passage (h : passageGateway.ComesUp passageFiles passageVisits specifier) :
    specifier = "a" := by
  obtain ⟨r, hAsked, hFound⟩ := h
  have hStart : passageGateway.start r = .recalling "a" ∨
      passageGateway.start r = .resolving "/x.js" .script := by
    have hAll : ∀ r ∈ passageVisits, passageGateway.start r = .recalling "a" ∨
        passageGateway.start r = .resolving "/x.js" .script := by decide +kernel
    exact hAll r hAsked
  rcases hFound with hOwn | ⟨b, source, output, hLeads, hRead, hDone, hImported, -⟩
  · rcases hStart with hSame | hOther
    · cases hSame.symm.trans hOwn
      rfl
    · cases hOther.symm.trans hOwn
  · -- Neither module imports anything.
    exfalso
    cases b with
    | vendor other m =>
        obtain ⟨hOwn, hLocated⟩ := hLeads
        rcases hStart with hSame | hOther
        · cases hSame.symm.trans hOwn
          have hModule : passageGateway.sources.locate? passageFiles "a" = some passageModule := by
            decide +kernel
          have hText : passageFiles.readText passageModule.file = .ok "export default 2;\n" := by
            decide +kernel
          have hNone : Relink.asked "export default 2;\n" = [] := by decide +kernel
          cases hModule.symm.trans hLocated
          cases hText.symm.trans hRead
          cases hDone
          exact List.not_mem_nil (hNone ▸ hImported)
        · cases hOther.symm.trans hOwn
    | source file v kind =>
        obtain ⟨path, hOwn, hResolved⟩ := hLeads
        rcases hStart with hOther | hSame
        · cases hOther.symm.trans hOwn
        · cases hSame.symm.trans hOwn
          have hFile : Source.resolve? passageFiles passageGateway.root .script "/x.js" =
              some ["src", "x.js"] := by decide +kernel
          have hText : passageFiles.readText (Location.path ["src", "x.js"]) =
              .ok "export default 1;\n" := by decide +kernel
          have hNone : Relink.asked "export default 1;\n" = [] := by decide +kernel
          cases hFile.symm.trans hResolved
          cases hText.symm.trans hRead
          cases hDone
          exact List.not_mem_nil (hNone ▸ hImported)

theorem store_transparent_passage :
    passageGateway.course passageFiles passageVisits =
        (passageGateway.refusing .content).course passageFiles passageVisits ∧
      (passageGateway.course passageFiles passageVisits).map (fun done => done.1) =
        [vendorResponse AssetKind.script.contentType "export default 2;\n".toUTF8,
          vendorResponse AssetKind.script.contentType "export default 2;\n".toUTF8,
          .respond { Response.ok AssetKind.script.contentType "no-cache" "export default 1;\n".toUTF8 with
            etag := some ⟨18, 0, false⟩ }] := by
  refine ⟨(store_transparent passageGateway passageFiles .content passageVisits ?_ ?_ ?_).1,
    by decide +kernel⟩
  · exact List.isEmpty_iff.mp (by decide +kernel)
  · have hKept : ∀ done ∈ passageGateway.serve (passageGateway.newWorld passageFiles) passageVisits ++
        (passageGateway.refusing .content).serve ((passageGateway.refusing .content).newWorld passageFiles)
          passageVisits,
        done.2.fs.get? ["src"] = passageFiles.get? ["src"] ∧
          passageGateway.sources.locate? done.2.fs "a" =
            passageGateway.sources.locate? passageFiles "a" ∧
          done.2.fs.readText passageModule.file = passageFiles.readText passageModule.file := by
      decide +kernel
    intro done hDone
    obtain ⟨hSources, hPackage, hText⟩ := hKept done hDone
    refine ⟨hSources, fun specifier hComesUp => ?_, fun specifier m hComesUp hLocated => ?_⟩
    · rw [comesUp_passage hComesUp]
      exact hPackage
    · rw [comesUp_passage hComesUp] at hLocated
      have hModule : passageGateway.sources.locate? passageFiles "a" = some passageModule := by
        decide +kernel
      cases hModule.symm.trans hLocated
      exact hText
  · intro r hAsked path hRoute
    have hRoutes : ∀ r ∈ passageVisits,
        Route.ofPath? passageGateway.settings r.path = some (.vendor "a") ∨
          Route.ofPath? passageGateway.settings r.path = some (.source "/x.js") := by decide +kernel
    rcases hRoutes r hAsked with hVendor | hSource
    · cases hVendor.symm.trans hRoute
    · cases hSource.symm.trans hRoute
      decide +kernel

/-- The second request finds its way to the source file through the directory of the store, which is made
when the first one's module is written. Nothing changes in the source root and among the packages. -/
theorem store_shows :
    let requests : List Request := [{ target := "/modules/vendor/a" },
      { target := "/modules/../.kiln/cache/../../src/x.js" }]
    let working := passageGateway.serve (passageGateway.newWorld passageFiles) requests
    let refused := (passageGateway.refusing .directory).serve
      ((passageGateway.refusing .directory).newWorld passageFiles) requests
    (∀ done ∈ working ++ refused, done.2.fs.get? ["src"] = passageFiles.get? ["src"] ∧
      done.2.fs.get? ["node_modules"] = passageFiles.get? ["node_modules"]) ∧
    working.map (fun done => done.1) =
      [vendorResponse AssetKind.script.contentType "export default 2;\n".toUTF8,
        .respond { Response.ok AssetKind.script.contentType "no-cache" "export default 1;\n".toUTF8 with
          etag := some ⟨18, 0, false⟩ }] ∧
    refused.map (fun done => done.1) =
      [vendorResponse AssetKind.script.contentType "export default 2;\n".toUTF8, .pass] := by
  decide +kernel

end Gateway

end ModuleGateway
