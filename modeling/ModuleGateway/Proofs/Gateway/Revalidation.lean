import ModuleGateway.Proofs.FileSystem.Places
import ModuleGateway.Proofs.Freshness
import ModuleGateway.Proofs.Gateway.Compiling
import ModuleGateway.Proofs.Gateway.Confinement
import ModuleGateway.Proofs.Source.Kind
import ModuleGateway.Proofs.Source.Outside

/-!
Copies that clients keep. The tag of a source file is taken before the file is read, and a request may
share a job that another request started, so a body may be newer than its tag. When no two contents of a
file have the same size and time of change, the tag is still enough: a file that has a tag again has not
changed since it had that tag first, and the body was read in between. The tag does not tell what the file
was compiled as. Where a link leads from the name of a style sheet to a script, a client may hold the build
of the other kind and be told that it is current.
-/

namespace ModuleGateway

open Build FileSystem

/-- The size of a file and the millisecond of its last change. -/
def FileData.mark (data : FileData) : Nat × Int :=
  (data.content.size, data.modified / 1000000)

namespace Gateway

variable {g : Gateway} {fs other : FileSystem} {r : Request} {file : Location} {kind : AssetKind}
  {v : Validator}

/-- The same directories, links and packages, and files in the same places. What the files hold may
differ. -/
structure Alike (g : Gateway) (fs other : FileSystem) : Prop where
  shape : ∀ l, other.root.outline? l = fs.root.outline? l
  start : other.workingDirectory = fs.workingDirectory
  packages : ∀ s, g.sources.locate? other s = g.sources.locate? fs s

theorem Alike.refl (g : Gateway) (fs : FileSystem) : g.Alike fs fs :=
  ⟨fun _ => rfl, rfl, fun _ => rfl⟩

theorem Alike.trans {last : FileSystem} (first : g.Alike fs other) (second : g.Alike other last) :
    g.Alike fs last where
  shape := fun l => (second.shape l).trans (first.shape l)
  start := second.start.trans first.start
  packages := fun s => (second.packages s).trans (first.packages s)

/-- Which file a request means is decided by directories, links and the places of files. -/
theorem Alike.resolve? (h : g.Alike fs other) (root : Location) (kind : AssetKind)
    (request : String) :
    Source.resolve? other root kind request = Source.resolve? fs root kind request := by
  have hAccept : Source.accept? other root = Source.accept? fs root := by
    funext candidate
    have hPlace : other.canonical (root.path.join ⟨candidate⟩) =
        fs.canonical (root.path.join ⟨candidate⟩) :=
      canonical_congr (by rw [origin, origin, h.start]) fun l _ => h.shape l
    have hFile (l : Location) : (other.get? l).any Node.isFile = (fs.get? l).any Node.isFile := by
      have hOutline := h.shape l
      rw [Bool.eq_iff_iff, Node.any_isFile_iff, Node.any_isFile_iff]
      simp only [FileSystem.get?, ← Node.outline?_eq_file, hOutline]
    unfold Source.accept?
    simp only [hPlace, hFile]
  rw [Source.resolve?_eq_findSome?, Source.resolve?_eq_findSome?, hAccept]

/-- A request means a source file, and its path says what the file is compiled as. -/
def Means (g : Gateway) (fs : FileSystem) (r : Request) (file : Location) (kind : AssetKind) : Prop :=
  ∃ path, Route.ofPath? g.settings r.path = some (.source path) ∧ kind = AssetKind.ofPath path ∧
    Source.resolve? fs g.root kind path = some file

theorem Means.unique {same : Request} {another : Location} {anotherKind : AssetKind}
    (h : g.Means fs r file kind) (hPath : same.path = r.path)
    (hSame : g.Means fs same another anotherKind) : another = file ∧ anotherKind = kind := by
  obtain ⟨path, hRoute, rfl, hResolved⟩ := h
  obtain ⟨samePath, hSameRoute, rfl, hSameResolved⟩ := hSame
  rw [hPath, hRoute] at hSameRoute
  cases hSameRoute
  rw [hResolved] at hSameResolved
  cases hSameResolved
  exact ⟨rfl, rfl⟩

theorem Means.named (h : g.Means fs r file kind) : file.Named := by
  obtain ⟨path, -, -, hResolved⟩ := h
  exact (Source.chosen_of_resolve? hResolved).named

theorem Means.regular (h : g.Means fs r file kind) (hAlike : g.Alike fs other) :
    ∃ data, other.get? file = some (.file data) := by
  obtain ⟨path, -, -, hResolved⟩ := h
  obtain ⟨-, -, hFile⟩ := (Source.chosen_of_resolve? hResolved).within
  exact Node.outline?_eq_file.mp ((hAlike.shape file).trans (Node.outline?_eq_file.mpr hFile))

/-- What a file is compiled as is told by its own name, too, when links keep kinds. -/
theorem Means.kind_eq {asked : Request} {otherKind : AssetKind} (h : g.Means fs r file kind)
    (hOther : g.Means other asked file otherKind) (hKeep : fs.LinksKeepKind)
    (hOtherKeep : other.LinksKeepKind) : kind = otherKind := by
  obtain ⟨path, -, rfl, hResolved⟩ := h
  obtain ⟨otherPath, -, rfl, hOtherResolved⟩ := hOther
  obtain ⟨outer, n, rfl, hKind⟩ := Source.kind_of_resolve? hKeep hResolved
  obtain ⟨another, m, hSame, hOtherKind⟩ := Source.kind_of_resolve? hOtherKeep hOtherResolved
  rw [← hKind, ← hOtherKind, List.singleton_inj.mp (List.append_inj_right' hSame rfl)]

/-- A file has a tag. -/
def Tagged (g : Gateway) (fs : FileSystem) (file : Location) (v : Validator) : Prop :=
  ∃ data, fs.get? file = some (.file data) ∧
    Validator.ofStamp ⟨data.content.size, data.modified⟩ g.settings.minify = v

/-- The tag that is taken of a file is the one that it has. -/
theorem tagged_of_stamp? {stamp : Stamp} {data : FileData} (hNamed : file.Named)
    (hFile : fs.get? file = some (.file data)) (h : stamp? fs file = some stamp) :
    g.Tagged fs file (.ofStamp stamp g.settings.minify) := by
  unfold stamp? at h
  split at h
  · rename_i shown hStat
    cases h
    obtain ⟨-, hShown⟩ := get?_of_stat_path hNamed hFile (by simp) hStat
    cases hShown
    exact ⟨data, hFile, rfl⟩
  · cases h

/-- From the epoch on, a tag tells the size and the millisecond of the last change. -/
theorem mark_of_tag {data later : FileData} (hEpoch : 0 ≤ data.modified)
    (hLaterEpoch : 0 ≤ later.modified)
    (hTag : Validator.ofStamp ⟨data.content.size, data.modified⟩ g.settings.minify =
      .ofStamp ⟨later.content.size, later.modified⟩ g.settings.minify) : data.mark = later.mark := by
  obtain ⟨hSize, hTime⟩ := Validator.stamp_of_tag hTag
  exact Prod.ext hSize (hTime hEpoch hLaterEpoch)

end Gateway

namespace Building

/-- The key of a source build tells the file and its tag. -/
theorem source_of_key {b : Building} {file : Location} {v : Validator} {kind : AssetKind}
    (h : b.key = (Building.source file v kind).key) :
    ∃ another anotherKind, b = .source another v anotherKind ∧ another.path = file.path := by
  cases b with
  | vendor specifier m =>
      have hHead := congrArg (fun key => key.toList.head?) h
      simp [Building.key, String.toList_append] at hHead
  | source another w anotherKind =>
      have hChars := congrArg (fun key => key.toList.reverse) h
      simp only [Building.key, String.toList_append, List.reverse_append, Validator.text,
        String.toList_ofList] at hChars
      have hColon (v : Validator) : ':' ∉ v.chars.reverse := by
        rw [List.mem_reverse]
        exact v.not_mem_chars (by decide) (by decide)
      have hCut := congrArg (Text.cut? ':') hChars
      simp only [show ":".toList.reverse = [':'] from rfl, List.singleton_append] at hCut
      rw [Text.cut?_append (hColon w), Text.cut?_append (hColon v), Option.some.injEq,
        Prod.mk.injEq] at hCut
      obtain ⟨hTag, hPath⟩ := hCut
      obtain rfl := Validator.chars_injective (List.reverse_injective hTag)
      refine ⟨another, anotherKind, rfl, ?_⟩
      have hText := String.toList_inj.mp (List.reverse_injective (List.append_cancel_right hPath))
      rw [← Path.mk.injEq] at hText
      exact hText

end Building

namespace Service

/-! ### Edits -/

/-- A step changes nothing but what files hold. A file that gets another content gets a size or a time of
change that it never had before, and no time lies before the epoch. -/
structure Edits (g : Gateway) (past : List FileSystem) (before after : FileSystem) : Prop extends
    g.Alike before after where
  epoch : ∀ l data, after.get? l = some (.file data) → 0 ≤ data.modified
  marks : ∀ l old new, before.get? l = some (.file old) → after.get? l = some (.file new) →
    new ≠ old → ∀ earlier ∈ past, ∀ data, earlier.get? l = some (.file data) → new.mark ≠ data.mark

/-- A run in the course of which files are edited, with all its file systems and moves, the latest
first. -/
inductive Edited (settings : Settings) (start : Service) :
    List FileSystem → List Move → Service → Prop where
  | refl (hEpoch : ∀ l data, start.world.fs.get? l = some (.file data) → 0 ≤ data.modified) :
      Edited settings start [start.world.fs] [] start
  | step {past : List FileSystem} {moves : List Move} {move : Move} {s after : Service}
      (run : Edited settings start past moves s) (hStep : Step settings s move after)
      (hMove : move ≠ .restart) (hEdits : Edits s.gateway past s.world.fs after.world.fs) :
      Edited settings start (after.world.fs :: past) (move :: moves) after

variable {settings : Settings} {start s after : Service} {past : List FileSystem}
  {moves : List Move} {move : Move} {file : Location} {v : Validator} {kind : AssetKind}
  {content : ByteArray} {name : String} {p : Pursuit} {b : Building} {job : Job} {r : Request}

theorem Edited.run (h : Edited settings start past moves s) : Run (Step settings) start moves s := by
  induction h with
  | refl => exact .refl
  | step run hStep hMove hEdits ih => exact ih.step hStep

theorem Edited.gateway_eq (h : Edited settings start past moves s) : s.gateway = start.gateway := by
  induction h with
  | refl => rfl
  | step run hStep hMove hEdits ih => exact (hStep.gateway_eq hMove).trans ih

/-- The latest file system is the present one. -/
theorem Edited.current (h : Edited settings start past moves s) : ∃ rest, past = s.world.fs :: rest := by
  cases h with
  | refl => exact ⟨[], rfl⟩
  | step run hStep hMove hEdits => exact ⟨_, rfl⟩

theorem Edited.current_mem (h : Edited settings start past moves s) : s.world.fs ∈ past := by
  obtain ⟨rest, hRest⟩ := h.current
  rw [hRest]
  exact List.mem_cons_self

theorem Edited.alike (h : Edited settings start past moves s) :
    ∀ fs ∈ past, start.gateway.Alike start.world.fs fs := by
  induction h with
  | refl =>
      intro fs hPast
      rw [List.mem_singleton.mp hPast]
      exact .refl _ _
  | step run hStep hMove hEdits ih =>
      have hAlike := hEdits.toAlike
      rw [run.gateway_eq] at hAlike
      exact List.forall_mem_cons.mpr ⟨(ih _ run.current_mem).trans hAlike, ih⟩

theorem Edited.epoch (h : Edited settings start past moves s) :
    ∀ fs ∈ past, ∀ l data, fs.get? l = some (.file data) → 0 ≤ data.modified := by
  induction h with
  | refl hEpoch =>
      intro fs hPast
      rw [List.mem_singleton.mp hPast]
      exact hEpoch
  | step run hStep hMove hEdits ih => exact List.forall_mem_cons.mpr ⟨hEdits.epoch, ih⟩

/-- A file that has the size and time of change now that it had at an earlier time has not changed
since. -/
theorem Edited.unchanged (h : Edited settings start past moves s) {newer older : List FileSystem}
    {between first : FileSystem} {early data now : FileData} (hPast : past = newer ++ between :: older)
    (hFirst : first ∈ between :: older) (hEarly : first.get? file = some (.file early))
    (hBetween : between.get? file = some (.file data))
    (hNow : s.world.fs.get? file = some (.file now)) (hMark : early.mark = now.mark) :
    data = now := by
  induction h generalizing newer now with
  | refl =>
      cases newer with
      | nil =>
          cases hPast
          cases hBetween.symm.trans hNow
          rfl
      | cons fs rest => simp at hPast
  | @step past moves move s after run hStep hMove hEdits ih =>
      cases newer with
      | nil =>
          cases hPast
          cases hBetween.symm.trans hNow
          rfl
      | cons fs rest =>
          obtain ⟨rfl, rfl⟩ := List.cons.inj hPast
          obtain ⟨old, hOld⟩ : ∃ old, s.world.fs.get? file = some (.file old) :=
            Node.outline?_eq_file.mp
              ((hEdits.shape file).symm.trans (Node.outline?_eq_file.mpr ⟨now, hNow⟩))
          by_cases hSame : now = old
          · rw [hSame] at hMark ⊢
            exact ih rfl hOld hMark
          · have hKnown : first ∈ rest ++ between :: older := List.mem_append_right _ hFirst
            exact absurd hMark.symm (hEdits.marks file old now hOld hNow hSame first hKnown early hEarly)

/-! ### Dated results -/

/-- Some request that came in means a file, and says what it is compiled as. -/
def Asked (start : Service) (moves : List Move) (file : Location) (kind : AssetKind) : Prop :=
  ∃ name r, .arrive name (.request r) ∈ moves ∧ start.gateway.Means start.world.fs r file kind

/-- Something was seen at a time after a file had a tag. -/
def SeenSince (start : Service) (past : List FileSystem) (file : Location) (v : Validator)
    (seen : FileSystem → Prop) : Prop :=
  ∃ newer fs older, past = newer ++ fs :: older ∧ seen fs ∧
    ∃ earlier ∈ fs :: older, start.gateway.Tagged earlier file v

/-- A content is a build of what a file held at a time after it had a tag, for a kind that was asked
for. -/
def BuiltSince (start : Service) (past : List FileSystem) (moves : List Move) (file : Location)
    (v : Validator) (content : ByteArray) : Prop :=
  ∃ kind, Asked start moves file kind ∧ SeenSince start past file v fun fs =>
    start.gateway.built? fs (.source file v kind) = some content

/-- A successful outcome of a source build is a build since the tag was taken. -/
def OutcomeDated (start : Service) (past : List FileSystem) (moves : List Move) :
    Building → Outcome → Prop
  | .source file v _, .success content _ => file.Named → BuiltSince start past moves file v content
  | _, _ => True

/-- A source build is of a file that was asked for, and the file had the build's tag. -/
def BuildingDated (start : Service) (past : List FileSystem) (moves : List Move) : Building → Prop
  | .vendor .. => True
  | .source file v kind => Asked start moves file kind ∧
      ∃ earlier ∈ past, start.gateway.Tagged earlier file v

/-- A job for a source build reads the file, and ends with a build of what it read. -/
def StageDated (start : Service) (past : List FileSystem) (moves : List Move) (file : Location)
    (v : Validator) : Stage → Prop
  | .compiling source => SeenSince start past file v fun fs => fs.readText file.path = .ok source
  | .persisting _ => False
  | .ended (.success content _) => BuiltSince start past moves file v content
  | _ => True

/-- A client asks for the file that its request means. Without a build no body has a tag. -/
def PursuitDated (start : Service) (past : List FileSystem) : Pursuit → Prop
  | .asking r (.validating file kind) => start.gateway.Means start.world.fs r file kind
  | .asking r (.building (.source file v kind)) =>
    start.gateway.Means start.world.fs r file kind ∧
      ∃ earlier ∈ past, start.gateway.Tagged earlier file v
  | .asking _ (.answered (.respond response)) => response.status = 200 → response.etag = none
  | .warming (.building (.source ..)) => False
  | _ => True

/-- A body that left with a tag is a build of the file that was meant. -/
def ReplyDated (start : Service) (past : List FileSystem) (moves : List Move) (r : Request) :
    Reply → Prop
  | .respond response => response.status = 200 → ∀ v, response.etag = some v →
      ∃ file kind content, start.gateway.Means start.world.fs r file kind ∧
        BuiltSince start past moves file v content ∧ (r.method ≠ .head → response.body = content)
  | _ => True

/-- All results are builds of what the files held after they had the tags that the results go by. -/
structure Dated (start : Service) (past : List FileSystem) (moves : List Move) (s : Service) :
    Prop where
  came : ∀ name r progress, (name, .asking r progress) ∈ s.clients → .arrive name (.request r) ∈ moves
  clients : ∀ c ∈ s.clients, PursuitDated start past c.2
  buildings : ∀ j ∈ s.jobs, BuildingDated start past moves j.building
  stages : ∀ j ∈ s.jobs, ∀ file v kind, j.building = .source file v kind →
    StageDated start past moves file v j.stage
  results : ResultsRight (OutcomeDated start past moves) s
  replies : ∀ name r reply, .answer name (.replied r reply) ∈ moves →
    ReplyDated start past moves r reply

/-! ### What is dated stays dated -/

theorem Asked.later (move : Move) (h : Asked start moves file kind) :
    Asked start (move :: moves) file kind := by
  obtain ⟨name, r, hCame, hMeans⟩ := h
  exact ⟨name, r, List.mem_cons_of_mem _ hCame, hMeans⟩

theorem SeenSince.later {seen : FileSystem → Prop} (fs : FileSystem)
    (h : SeenSince start past file v seen) : SeenSince start (fs :: past) file v seen := by
  obtain ⟨newer, between, older, rfl, hSeen, hTagged⟩ := h
  exact ⟨fs :: newer, between, older, rfl, hSeen, hTagged⟩

theorem SeenSince.mono {seen now : FileSystem → Prop} (h : SeenSince start past file v seen)
    (hMono : ∀ fs ∈ past, seen fs → now fs) : SeenSince start past file v now := by
  obtain ⟨newer, between, older, rfl, hSeen, hTagged⟩ := h
  exact ⟨newer, between, older, rfl, hMono between (by simp) hSeen, hTagged⟩

theorem BuiltSince.later (fs : FileSystem) (move : Move)
    (h : BuiltSince start past moves file v content) :
    BuiltSince start (fs :: past) (move :: moves) file v content := by
  obtain ⟨kind, hAsked, hRead⟩ := h
  exact ⟨kind, hAsked.later move, hRead.later fs⟩

theorem OutcomeDated.later {outcome : Outcome} (fs : FileSystem) (move : Move)
    (h : OutcomeDated start past moves b outcome) :
    OutcomeDated start (fs :: past) (move :: moves) b outcome := by
  cases b with
  | vendor specifier m => trivial
  | source file v kind =>
      cases outcome with
      | success content type => exact fun hNamed => (h hNamed).later fs move
      | failure message => trivial

theorem StageDated.later {stage : Stage} (fs : FileSystem) (move : Move)
    (h : StageDated start past moves file v stage) :
    StageDated start (fs :: past) (move :: moves) file v stage := by
  cases stage with
  | compiling source => exact SeenSince.later fs h
  | persisting content => exact h
  | ended outcome =>
      cases outcome with
      | success content type => exact BuiltSince.later fs move h
      | failure message => trivial
  | _ => trivial

theorem tagged_later {earlier : FileSystem} (fs : FileSystem)
    (h : earlier ∈ past ∧ start.gateway.Tagged earlier file v) :
    ∃ earlier ∈ fs :: past, start.gateway.Tagged earlier file v :=
  ⟨earlier, List.mem_cons_of_mem _ h.1, h.2⟩

theorem BuildingDated.later (fs : FileSystem) (move : Move) (h : BuildingDated start past moves b) :
    BuildingDated start (fs :: past) (move :: moves) b := by
  cases b with
  | vendor specifier m => trivial
  | source file v kind =>
      obtain ⟨hAsked, earlier, hTagged⟩ := h
      exact ⟨hAsked.later move, tagged_later fs hTagged⟩

theorem PursuitDated.later (fs : FileSystem) (h : PursuitDated start past p) :
    PursuitDated start (fs :: past) p := by
  cases p with
  | warming t =>
      cases t with
      | building b => cases b <;> exact h
      | _ => trivial
  | asking r progress =>
      cases progress with
      | building b =>
          cases b with
          | vendor specifier m => trivial
          | source file v kind =>
              obtain ⟨hMeans, earlier, hTagged⟩ := h
              exact ⟨hMeans, tagged_later fs hTagged⟩
      | answered reply => cases reply <;> exact h
      | _ => exact h

theorem ReplyDated.later {reply : Reply} (fs : FileSystem) (move : Move)
    (h : ReplyDated start past moves r reply) :
    ReplyDated start (fs :: past) (move :: moves) r reply := by
  cases reply with
  | respond response =>
      intro hStatus v hTag
      obtain ⟨file, kind, content, hMeans, hBuilt, hBody⟩ := h hStatus v hTag
      exact ⟨file, kind, content, hMeans, hBuilt.later fs move, hBody⟩
  | _ => trivial

/-! ### Clients -/

theorem pursuitDated_begin (g : Gateway) (errand : Errand) :
    PursuitDated start past (errand.begin g) := by
  cases errand with
  | prewarm specifier => trivial
  | request r =>
      show PursuitDated start past (.asking r (g.start r))
      have hStart := g.start_spec r
      generalize g.start r = progress at hStart ⊢
      cases hStart with
      | shim => exact fun _ => rfl
      | passed | recalling | resolving => trivial

theorem pursuitDated_missed (g : Gateway) (r : Request) (specifier : String) :
    PursuitDated start past (.asking r (.answered (g.missed specifier))) := by
  unfold Gateway.missed
  split <;> trivial

/-- A look finds the file that is meant, and takes the tag that it has. -/
theorem pursuitDated_look {w : World} (hAlike : start.gateway.Alike start.world.fs w.fs)
    (hCurrent : w.fs ∈ past) (hAddressed : start.gateway.Addressed p)
    (h : PursuitDated start past p) : PursuitDated start past (p.look start.gateway w) := by
  cases p with
  | asking r progress =>
      show PursuitDated start past (.asking r (start.gateway.look r w progress))
      have hLook := start.gateway.look_spec r w progress
      generalize start.gateway.look r w progress = next at hLook ⊢
      cases hLook with
      | recalled => exact fun _ => rfl
      | untrusted | unlocated => exact pursuitDated_missed _ _ _
      | resolved hResolved =>
          rw [hAlike.resolve?] at hResolved
          exact ⟨_, hAddressed.2, hAddressed.1, hResolved⟩
      | fresh => exact fun hStatus => by cases hStatus
      | @stale file kind stamp v hStamp hStale =>
          have hMeans : start.gateway.Means start.world.fs r file kind := h
          obtain ⟨data, hFile⟩ := hMeans.regular hAlike
          rw [Freshness.tag_of_stale hStale]
          exact ⟨hMeans, w.fs, hCurrent, Gateway.tagged_of_stamp? hMeans.named hFile hStamp⟩
      | building | answered => exact h
      | missing | trusted | located | unresolved | gone => trivial
  | warming t =>
      show PursuitDated start past (.warming (start.gateway.glance w t))
      have hGlance := start.gateway.glance_spec w t
      generalize start.gateway.glance w t = next at hGlance ⊢
      cases hGlance with
      | building => exact h
      | ready | wanted | located | unlocated | ended => trivial

/-- A client that needs no build leaves without a tagged body. -/
theorem replyDated_settled {result : Result} {reply : Reply} (h : PursuitDated start past p)
    (hSettled : p.settled? = some result) (hReply : result = .replied r reply) :
    ReplyDated start past moves r reply := by
  cases p with
  | warming t =>
      cases t with
      | ended isReady =>
          cases hSettled
          cases hReply
      | _ => cases hSettled
  | asking asked progress =>
      cases progress with
      | answered found =>
          cases hSettled
          cases hReply
          cases found with
          | respond response =>
              unfold Reply.fit
              dsimp only
              split
              · intro hStatus v hTag
                exact absurd ((h hStatus).symm.trans hTag) (by simp)
              · intro hStatus v hTag
                exact absurd ((h hStatus).symm.trans hTag) (by simp)
          | redirect url => trivial
          | pass => trivial
      | _ => cases hSettled

/-- A client that waited for a source build leaves with the build. -/
theorem replyDated_receive {result : Result} {reply : Reply} {outcome : Outcome}
    (h : PursuitDated start past p)
    (hOutcome : ∀ b, p.building? = some b → OutcomeDated start past moves b outcome)
    (hReceived : p.receive? start.gateway outcome = some result) (hReply : result = .replied r reply) :
    ReplyDated start past moves r reply := by
  cases p with
  | warming t =>
      cases t with
      | building b =>
          cases hReceived
          cases hReply
      | _ => cases hReceived
  | asking asked progress =>
      cases progress with
      | building b =>
          cases hReceived
          cases hReply
          have hUntagged (kind : AssetKind) (body : String) :
              ReplyDated start past moves r ((Gateway.transientResponse kind body).fit r.method) := by
            unfold Gateway.transientResponse Reply.fit
            dsimp only
            split <;> exact fun _ v hTag => by cases hTag
          cases b with
          | vendor specifier m =>
              cases outcome with
              | success content type =>
                  unfold Gateway.replyOf Gateway.vendorResponse Reply.fit
                  dsimp only
                  split <;> exact fun _ v hTag => by cases hTag
              | failure message => exact hUntagged _ _
          | source file v kind =>
              cases outcome with
              | success content type =>
                  obtain ⟨hMeans, -⟩ := h
                  have hBuilt := hOutcome _ rfl hMeans.named
                  unfold Gateway.replyOf Reply.fit
                  dsimp only
                  split
                  · rename_i hHead
                    intro _ w hTag
                    cases hTag
                    exact ⟨file, kind, content, hMeans, hBuilt, fun hMethod => absurd hHead hMethod⟩
                  · intro _ w hTag
                    cases hTag
                    exact ⟨file, kind, content, hMeans, hBuilt, fun _ => rfl⟩
              | failure message => exact hUntagged _ _
      | _ => cases hReceived

/-! ### Jobs -/

theorem output?_alike {fs : FileSystem} {w : World} {source : String}
    (hAlike : start.gateway.Alike start.world.fs fs)
    (hNow : start.gateway.Alike start.world.fs w.fs) :
    start.gateway.output? fs b source =
      ((start.gateway.compileAndLink w.fs b source).run w.trusted).1 := by
  have hPackages (s : String) : start.gateway.sources.locate? w.fs s =
      start.gateway.sources.locate? fs s := by rw [hNow.packages, hAlike.packages]
  rw [Gateway.output?, Gateway.compileAndLink_congr fun _ _ s _ _ => hPackages s]
  exact Gateway.compileAndLink_output _ _

/-- A job reads what the file holds, and makes its result of what it has read. -/
theorem stageDated_next {w : World} {rest : List FileSystem} {stage : Stage}
    (hAlike : ∀ fs ∈ past, start.gateway.Alike start.world.fs fs) (hPast : past = w.fs :: rest)
    (hBuilding : BuildingDated start past moves (.source file v kind))
    (h : StageDated start past moves file v stage) :
    StageDated start past moves file v
      (start.gateway.advance (.source file v kind) w stage).1 := by
  have hAdvance := start.gateway.advance_spec (.source file v kind) w stage
  generalize (start.gateway.advance (.source file v kind) w stage).1 = next,
    (start.gateway.advance (.source file v kind) w stage).2 = after at hAdvance ⊢
  cases hAdvance with
  | stored hStored => cases hStored
  | missing | unreadable => trivial
  | read hRead =>
      obtain ⟨-, hTagged⟩ := hBuilding
      rw [hPast] at hTagged ⊢
      exact ⟨[], w.fs, rest, rfl, hRead, hTagged⟩
  | @compiled source linked trusted hRun =>
      have hNow : start.gateway.Alike start.world.fs w.fs := hAlike _ (by rw [hPast]; simp)
      cases linked with
      | error message => trivial
      | ok output =>
          refine ⟨kind, hBuilding.1, SeenSince.mono h fun fs hFs hRead => ?_⟩
          have hSame : start.gateway.output? fs (.source file v kind) source = .ok output := by
            rw [output?_alike (hAlike fs hFs) hNow, hRun]
          have hRead : fs.readText (Building.source file v kind).file = .ok source := hRead
          simp only [Gateway.built?, hRead, hSame]
          rfl
  | persisted => exact h.elim
  | ended => exact h

theorem stageDated_first (b : Building) : StageDated start past moves file v (Stage.first b) := by
  cases b <;> trivial

/-! ### Steps -/

variable {g : Gateway} {fs : FileSystem}

theorem Dated.keep (h : Dated start past moves s) (now : FileSystem)
    (hCame : ∀ name r progress, (name, .asking r progress) ∈ after.clients →
      (∃ old, (name, .asking r old) ∈ s.clients) ∨ move = .arrive name (.request r))
    (hClients : ∀ c ∈ after.clients, c ∈ s.clients ∨ PursuitDated start past c.2)
    (hJobs : ∀ j ∈ after.jobs, j ∈ s.jobs ∨ BuildingDated start past moves j.building ∧
      ∀ file v kind, j.building = .source file v kind → StageDated start past moves file v j.stage)
    (hResults : ResultsRight (OutcomeDated start past moves) after)
    (hReplies : ∀ name r reply, move = .answer name (.replied r reply) →
      ReplyDated start past moves r reply) :
    Dated start (now :: past) (move :: moves) after where
  came := fun name r progress hClient => by
    rcases hCame name r progress hClient with ⟨old, hOld⟩ | rfl
    · exact List.mem_cons_of_mem _ (h.came name r old hOld)
    · exact List.mem_cons_self
  clients := fun c hClient => (hClients c hClient).elim
    (fun hOld => (h.clients c hOld).later now) fun hNew => hNew.later now
  buildings := fun j hJob => (hJobs j hJob).elim
    (fun hOld => (h.buildings j hOld).later now move) fun hNew => hNew.1.later now move
  stages := fun j hJob file v kind hSource => (hJobs j hJob).elim
    (fun hOld => (h.stages j hOld file v kind hSource).later now move)
    fun hNew => (hNew.2 file v kind hSource).later now move
  results := hResults.mono fun _ _ hOutcome => hOutcome.later now move
  replies := fun name r reply hMem => by
    rcases List.mem_cons.mp hMem with hMove | hOld
    · exact (hReplies name r reply hMove.symm).later now move
    · exact (h.replies name r reply hOld).later now move

/-- What a job ended with is right for all who asked for its key. -/
theorem Dated.outcome (h : Dated start past moves s) (hJob : job ∈ s.jobs) {outcome : Outcome}
    (hEnded : job.stage = .ended outcome) (hKey : b.key = job.building.key) :
    OutcomeDated start past moves b outcome := by
  cases b with
  | vendor specifier m => trivial
  | source file v kind =>
      cases outcome with
      | failure message => trivial
      | success content type =>
          intro hNamed
          obtain ⟨another, anotherKind, hSource, hPath⟩ := Building.source_of_key hKey.symm
          have hBuilding := h.buildings job hJob
          have hStage := h.stages job hJob another v anotherKind hSource
          rw [hSource] at hBuilding
          obtain ⟨⟨name, r, -, hMeans⟩, -⟩ := hBuilding
          obtain rfl := Location.path_injective hMeans.named hNamed hPath
          rw [hEnded] at hStage
          exact hStage

theorem Dated.client_after (h : Dated (fresh g fs) past moves s)
    (hRun : Edited settings (fresh g fs) past moves s) (hStep : Step settings s move after)
    {c : String × Pursuit} (hClient : c ∈ after.clients) :
    c ∈ s.clients ∨ PursuitDated (fresh g fs) past c.2 := by
  rcases hStep.client_of_mem hClient with hOld | ⟨_, errand, -, -, rfl⟩ | ⟨looker, p, -, hThere, rfl⟩
  · exact .inl hOld
  · exact .inr (pursuitDated_begin _ errand)
  · have hAddressed := hRun.run.looked.addressed _ hThere
    rw [hRun.gateway_eq] at hAddressed ⊢
    exact .inr (pursuitDated_look (hRun.alike _ hRun.current_mem) hRun.current_mem hAddressed
      (h.clients _ hThere))

/-- The build that a client needs is of a file that was asked for. -/
theorem Dated.building_of_client (h : Dated (fresh g fs) past moves s) {c : String × Pursuit}
    (hClient : c ∈ s.clients) (hBuilding : c.2.building? = some b) :
    BuildingDated (fresh g fs) past moves b := by
  obtain ⟨name, p⟩ := c
  cases b with
  | vendor specifier m => trivial
  | source file v kind =>
      have hPursuit := h.clients _ hClient
      obtain ⟨r, rfl⟩ | rfl := Pursuit.building_cases hBuilding
      · obtain ⟨hMeans, hTagged⟩ := hPursuit
        exact ⟨⟨name, r, h.came name r _ hClient, hMeans⟩, hTagged⟩
      · exact hPursuit.elim

theorem Dated.job_after (h : Dated (fresh g fs) past moves s)
    (hRun : Edited settings (fresh g fs) past moves s) (hStep : Step settings s move after)
    (hJob : job ∈ after.jobs) :
    job ∈ s.jobs ∨ BuildingDated (fresh g fs) past moves job.building ∧
      ∀ file v kind, job.building = .source file v kind →
        StageDated (fresh g fs) past moves file v job.stage := by
  rcases hStep.job_of_mem hRun.run.looked.booked hJob with
    ⟨hOld, -⟩ | ⟨c, hClient, hBuilding, hFirst⟩ | ⟨old, hOld, -, -, -, rfl⟩
  · exact .inl hOld
  · refine .inr ⟨h.building_of_client hClient hBuilding, fun file v kind _ => ?_⟩
    rw [hFirst]
    exact stageDated_first job.building
  · refine .inr ⟨h.buildings old hOld, fun file v kind hSource => ?_⟩
    obtain ⟨rest, hPast⟩ := hRun.current
    have hSame : old.building = .source file v kind := hSource
    have hBuilding := h.buildings old hOld
    rw [hSame] at hBuilding
    show StageDated (fresh g fs) past moves file v (s.next old).1
    rw [next, hSame, hRun.gateway_eq]
    exact stageDated_next hRun.alike hPast hBuilding (h.stages old hOld file v kind hSame)

theorem Dated.step (h : Dated (fresh g fs) past moves s)
    (hRun : Edited settings (fresh g fs) past moves s) (hStep : Step settings s move after) :
    Dated (fresh g fs) (after.world.fs :: past) (move :: moves) after := by
  refine h.keep _ (fun _ _ _ hClient => hStep.asking_of_mem hClient)
    (fun _ hClient => h.client_after hRun hStep hClient) (fun _ hJob => h.job_after hRun hStep hJob)
    (hStep.resultsRight hRun.run.looked.booked
      (fun _ hJob _ _ hEnded hKey => h.outcome hJob hEnded hKey) h.results) ?_
  rintro other r reply rfl
  cases hStep with
  | answer hClient hSettled => exact replyDated_settled (h.clients _ hClient) hSettled rfl
  | @receive p result d hDue hClient hReceived =>
      obtain ⟨waiter, hWaiter, ending, hEnded, rfl⟩ := Coordinator.ending_of_due hDue
      rw [hRun.gateway_eq] at hReceived
      exact replyDated_receive (h.clients _ hClient)
        (fun b hBuilding => h.results waiter hWaiter p b hClient hBuilding ending hEnded) hReceived rfl

theorem Edited.dated (h : Edited settings (fresh g fs) past moves s) :
    Dated (fresh g fs) past moves s := by
  induction h with
  | refl =>
      refine ⟨fun _ _ _ hClient => ?_, fun _ hClient => ?_, fun _ hJob => ?_, fun _ hJob => ?_,
        fun _ hWaiter => ?_, fun _ _ _ hReply => ?_⟩
      · cases hClient
      · cases hClient
      · cases hJob
      · cases hJob
      · cases hWaiter
      · cases hReply
  | step run hStep hMove hEdits ih => exact ih.step run hStep

/-! ### Copies that are current -/

/-- A copy is called current only if the file has the tag that the request names. -/
theorem tagged_of_look {w : World} {response : Response} (hNamed : file.Named)
    (hFile : ∃ data, w.fs.get? file = some (.file data)) (hHeader : r.ifNoneMatch = some v.text)
    (hAnswer : g.look r w (.validating file kind) = .answered (.respond response)) :
    response = .notModified v g.settings.localCacheControl ∧ g.Tagged w.fs file v := by
  obtain ⟨data, hData⟩ := hFile
  simp only [Gateway.look] at hAnswer
  split at hAnswer
  · cases hAnswer
  · rename_i stamp hStamp
    split at hAnswer
    · rename_i tag hFresh
      obtain ⟨rfl, text, hText, hNames⟩ := Freshness.check_eq_fresh_iff.mp hFresh
      rw [hHeader] at hText
      cases hText
      rw [← Validator.isNamedBy_text.mp hNames]
      cases hAnswer
      exact ⟨rfl, Gateway.tagged_of_stamp? hNamed hData hStamp⟩
    · cases hAnswer

/-- What was built at some time since a file had a tag is what is built of it now, when it has the tag
again. -/
theorem Edited.built_now (h : Edited settings start past moves s)
    (hRegular : ∀ fs ∈ past, ∃ data, fs.get? file = some (.file data)) (hNamed : file.Named)
    (hSeen : SeenSince start past file v fun fs =>
      start.gateway.built? fs (.source file v kind) = some content)
    (hTagged : start.gateway.Tagged s.world.fs file v) :
    start.gateway.built? s.world.fs (.source file v kind) = some content := by
  obtain ⟨newer, between, older, hPast, hBuilt, earlier, hEarlier, early, hEarly, hEarlyTag⟩ := hSeen
  obtain ⟨now, hNow, hNowTag⟩ := hTagged
  have hCurrent := h.current_mem
  have hThen : between ∈ past := by rw [hPast]; simp
  have hBefore : earlier ∈ past := by
    rw [hPast]
    exact List.mem_append_right _ hEarlier
  obtain ⟨data, hData⟩ := hRegular between hThen
  have hMark : early.mark = now.mark :=
    Gateway.mark_of_tag (h.epoch _ hBefore _ _ hEarly) (h.epoch _ hCurrent _ _ hNow)
      (hEarlyTag.trans hNowTag.symm)
  obtain rfl := h.unchanged hPast hEarlier hEarly hData hNow hMark
  have hPackages (specifier : String) : start.gateway.sources.locate? s.world.fs specifier =
      start.gateway.sources.locate? between specifier := by
    rw [(h.alike _ hCurrent).packages, (h.alike _ hThen).packages]
  have hRead : s.world.fs.readText file.path = between.readText file.path :=
    readText_path_congr hNamed hData hNow (by simp)
  exact (Gateway.built?_congr (b := .source file v kind) hPackages hRead).trans hBuilt

/-- A copy that is called current is current. While files are edited between any two steps of requests and
of jobs, somebody receives a body with a tag, and a request that names the tag is about to look at the file,
a request for the same path or for another path of the same file. If it is answered that nothing changed,
then the body is a build of what the file holds at this time, as the kind of file that a request of the run
asked for. This is the kind that the request itself asks for, as long as links keep the kind of what they
lead to. A reply without a body promises the same of the body that was left out. -/
theorem not_modified_sound (hRun : Edited settings (fresh g fs) past moves s) {first second : String}
    {asked again : Request} {held answer : Response}
    (hReceived : .answer first (.replied asked (.respond held)) ∈ moves) (hStatus : held.status = 200)
    (hTag : held.etag = some v) (hClient : (second, .asking again (.validating file kind)) ∈ s.clients)
    (hSame : again.path = asked.path ∨ ∃ askedKind, g.Means fs asked file askedKind)
    (hHeader : again.ifNoneMatch = some v.text)
    (hAnswer : s.gateway.look again s.world (.validating file kind) = .answered (.respond answer)) :
    answer.status = 304 ∧ answer.etag = some v ∧
      ∃ builtKind content, Asked (fresh g fs) moves file builtKind ∧
        (fs.LinksKeepKind → builtKind = kind) ∧
        s.gateway.built? s.world.fs (.source file v builtKind) = some content ∧
        (asked.method ≠ .head → held.body = content) := by
  have hDated := hRun.dated
  have hMeans : g.Means fs again file kind := hDated.clients _ hClient
  have hRegular (now : FileSystem) (hPast : now ∈ past) : ∃ data, now.get? file = some (.file data) :=
    hMeans.regular (hRun.alike now hPast)
  have hCurrent := hRun.current_mem
  rw [hRun.gateway_eq] at hAnswer ⊢
  obtain ⟨rfl, hTagged⟩ := tagged_of_look hMeans.named (hRegular _ hCurrent) hHeader hAnswer
  obtain ⟨another, anotherKind, content, hOther, ⟨builtKind, hAsked, hBuilt⟩, hBody⟩ :=
    hDated.replies _ _ _ hReceived hStatus v hTag
  have hPlace : another = file := by
    rcases hSame with hPath | ⟨askedKind, hMeant⟩
    · exact (hMeans.unique hPath.symm hOther).1
    · exact (hMeant.unique rfl hOther).1
  subst hPlace
  obtain ⟨name, r, hArrived, hBuiltMeans⟩ := hAsked
  exact ⟨rfl, rfl, builtKind, content, ⟨name, r, hArrived, hBuiltMeans⟩,
    fun hLinks => hBuiltMeans.kind_eq hMeans hLinks hLinks,
    hRun.built_now hRegular hMeans.named hBuilt hTagged, hBody⟩

/-! ### One file that is edited -/

/-- A file in place of another is an edit when its size or its time of change is new. -/
theorem edits_of_set {old new : FileData} (hFile : fs.get? file = some (.file old))
    (hPackages : ∀ specifier, g.sources.locate? (fs.set file (some (.file new))) specifier =
      g.sources.locate? fs specifier)
    (hEpoch : ∀ l data, fs.get? l = some (.file data) → 0 ≤ data.modified) (hNew : 0 ≤ new.modified)
    (hMarks : ∀ earlier ∈ past, ∀ data, earlier.get? file = some (.file data) →
      new.mark ≠ data.mark) :
    Edits g past fs (fs.set file (some (.file new))) where
  shape := Node.outline?_set_file hFile
  start := rfl
  packages := hPackages
  epoch := fun l data hData => by
    by_cases hPlace : l = file
    · rw [hPlace] at hData
      cases hData.symm.trans (Node.get?_set_file hFile)
      exact hNew
    · rcases Node.get?_set_file_of_ne hFile hPlace with hSame | ⟨-, after, -, hAfter⟩
      · exact hEpoch l data (hSame.symm.trans hData)
      · cases hData.symm.trans hAfter
  marks := fun l before after hBefore hAfter hNe => by
    by_cases hPlace : l = file
    · rw [hPlace] at hAfter ⊢
      cases hAfter.symm.trans (Node.get?_set_file hFile)
      exact hMarks
    · rcases Node.get?_set_file_of_ne hFile hPlace with hSame | ⟨-, now, -, hNow⟩
      · cases (hSame.symm.trans hAfter).symm.trans hBefore
        exact absurd rfl hNe
      · cases hAfter.symm.trans hNow

/-- A run may begin when no place of the file system has a file from before the epoch. -/
theorem edited_fresh (hEpoch : ∀ place ∈ fs.root.places, ∀ data, place.2 = .file data →
    0 ≤ data.modified) : Edited settings (fresh g fs) [fs] [] (fresh g fs) :=
  .refl fun _ data hData => hEpoch _ (Node.mem_places_of_get? hData) data rfl

/-- A part of a run that leaves all files as they are, behind a run in which files were edited. -/
theorem Edited.still {later : List Move} (h : Edited settings start past moves s)
    (hRun : Run (Step settings) s later after) (hStill : ∀ move ∈ later, move.isStill = true) :
    ∃ longer, Edited settings start longer (later ++ moves) after ∧ longer ⊆ past := by
  induction hRun with
  | refl => exact ⟨past, h, List.Subset.refl past⟩
  | step run hStep ih =>
      obtain ⟨hMove, hOthers⟩ := List.forall_mem_cons.mp hStill
      obtain ⟨longer, hLonger, hKnown⟩ := ih hOthers
      have hSame := hStep.fs_eq hMove
      refine ⟨_, hLonger.step hStep (fun hRestart => ?_) ?_, List.cons_subset.mpr ⟨?_, hKnown⟩⟩
      · rw [hRestart] at hMove
        cases hMove
      · rw [hSame]
        refine ⟨.refl _ _, hLonger.epoch _ hLonger.current_mem, ?_⟩
        intro l old new hOld hNew hNe
        cases hOld.symm.trans hNew
        exact absurd rfl hNe
      · rw [hSame]
        exact hKnown hLonger.current_mem

/-- What a source file holds, and what it holds after an edit, one millisecond later. -/
def soleData : FileData :=
  ⟨"export default 1;\n".toUTF8, 1000000⟩

def soleEdit : FileData :=
  ⟨"export default 2;\n".toUTF8, 2000000⟩

/-- A project with one source file. -/
def soleFiles : FileSystem where
  root := (Node.file soleData).only ["src", "a.js"]

def soleGateway : Gateway where
  settings := {}
  root := ["src"]
  store := { directory := ⟨".kiln/cache"⟩ }
  compiler := fun unit => .done unit.source

/-- The edit of the project's file. -/
theorem edits_sole :
    Edits soleGateway [soleFiles] soleFiles (soleFiles.set ["src", "a.js"] (some (.file soleEdit))) := by
  have hAbsent (fs : FileSystem) (hMissing : fs.get? (fs.workingDirectory ++ ["node_modules"]) = none)
      (specifier : String) : soleGateway.sources.locate? fs specifier = none :=
    Package.locate?_of_missing ⟨by decide, by decide, by decide, by decide⟩ hMissing specifier
  refine edits_of_set (Node.get?_only (.file soleData) ["src", "a.js"]) (fun specifier => ?_)
    (fun l data hData => ?_) (by decide) fun earlier hEarlier data hData => ?_
  · rw [hAbsent _ rfl, hAbsent _ rfl]
  · obtain ⟨-, rfl⟩ := Node.file_of_only hData
    decide
  · rw [List.mem_singleton.mp hEarlier] at hData
    obtain ⟨-, rfl⟩ := Node.file_of_only hData
    decide

theorem edited_sole :
    Edited soleGateway.settings (fresh soleGateway soleFiles) [soleFiles] []
      (fresh soleGateway soleFiles) :=
  edited_fresh (by simp [soleFiles, Node.only, Node.places, Node.placesIn, soleData])

theorem linksKeepKind_sole : soleFiles.LinksKeepKind := by
  intro dir name target hLink
  rcases Node.found_of_only hLink with ⟨-, hFile⟩ | ⟨entries, hDirectory⟩
  · cases hFile
  · cases hDirectory

/-- A client asks for the file before the edit. -/
def soleBegin : List Choice :=
  [.arrive "first" (.request { target := "/modules/a.js" }), .look "first"]

/-- The response to the client, and a question whether it is current. -/
def soleResponse : Response :=
  { Response.ok AssetKind.script.contentType "no-cache" soleEdit.content with
    etag := some ⟨18, 2, false⟩ }

def soleQuestion : Request where
  target := "/modules/a.js"
  ifNoneMatch := some "W/\"12-2\""

/-- Behind the edit the client receives the file, and another one asks the question. -/
def soleGoOn : List Choice :=
  [.look "first", .join "first", .work 0, .work 0, .publish 0, .receive "first",
    .arrive "second" (.request soleQuestion), .look "second"]

/-- The first client holds what is built of the edited script. -/
theorem not_modified_sound_sole :
    let before := performs soleGateway.settings soleBegin [] (fresh soleGateway soleFiles)
    let edited : Service := { before.2 with
      world := { before.2.world with fs := soleFiles.set ["src", "a.js"] (some (.file soleEdit)) } }
    let after := performs soleGateway.settings soleGoOn [] edited
    let moves := after.1 ++ .change :: before.1
    (∃ past, Edited soleGateway.settings (fresh soleGateway soleFiles) past moves after.2) ∧
      after.2.gateway.built? after.2.world.fs (.source ["src", "a.js"] ⟨18, 2, false⟩ .script) =
        some soleResponse.body := by
  intro before edited after moves
  obtain ⟨past, hBegin, hPast⟩ := edited_sole.still
    ((run_performs soleBegin .refl).mono fun _ _ _ hStep => hStep.toSecluded.step) (by decide +kernel)
  have hEdit : Edited soleGateway.settings (fresh soleGateway soleFiles) (edited.world.fs :: past)
      (.change :: (before.1 ++ [])) edited := by
    refine hBegin.step (.change _) (by simp) ?_
    have hFs : before.2.world.fs = soleFiles := List.mem_singleton.mp (hPast hBegin.current_mem)
    show Edits before.2.gateway past before.2.world.fs _
    rw [hBegin.gateway_eq, hFs]
    exact { edits_sole with
      marks := fun l old new hOld hNew hNe earlier hEarlier =>
        edits_sole.marks l old new hOld hNew hNe earlier (hPast hEarlier) }
  rw [List.append_nil] at hEdit
  obtain ⟨longer, hRun, -⟩ := hEdit.still
    ((run_performs soleGoOn .refl).mono fun _ _ _ hStep => hStep.toSecluded.step) (by decide +kernel)
  have hPlay :
      .answer "first" (.replied { target := "/modules/a.js" } (.respond soleResponse)) ∈ moves ∧
      ("second", .asking soleQuestion (.validating ["src", "a.js"] .script)) ∈ after.2.clients ∧
      after.2.gateway.look soleQuestion after.2.world (.validating ["src", "a.js"] .script) =
        .answered (.respond (.notModified ⟨18, 2, false⟩ "no-cache")) := by
    decide +kernel
  obtain ⟨hReceived, hClient, hAnswer⟩ := hPlay
  obtain ⟨-, -, kind, content, -, hKind, hNow, hBody⟩ :=
    not_modified_sound hRun hReceived rfl rfl hClient (.inl rfl) (by decide +kernel) hAnswer
  rw [← hBody (by decide), hKind linksKeepKind_sole] at hNow
  exact ⟨⟨longer, hRun⟩, hNow⟩

/-! ### A link from a style sheet to a script -/

/-- A project whose script has a second name, which is that of a style sheet. -/
def linkedFiles (data : FileData) : FileSystem where
  root := .directory [("src", .directory [("a.css", .symlink "a.js"), ("a.js", .file data)])]

/-- A module whose specifier is completed when it is compiled as a script. -/
def pointingData : FileData :=
  ⟨"import \"./b\";\n".toUTF8, 1000000⟩

/-- A question whether the style sheet is current. -/
def linkedQuestion : Request where
  target := "/modules/a.css"
  ifNoneMatch := some "W/\"e-1\""

/-- A client asks for the style sheet while the job runs that another one has started for the script, and
then the question is asked. -/
def sharedChoices : List Choice :=
  [.arrive "first" (.request { target := "/modules/a.js" }), .look "first", .look "first",
    .join "first", .arrive "second" (.request { target := "/modules/a.css" }), .look "second",
    .look "second", .join "second", .work 0, .work 0, .publish 0, .receive "second",
    .arrive "third" (.request linkedQuestion), .look "third"]

/-- A copy that is called current may be the build of another kind. The client that asked for the style
sheet holds the script, and a request for the style sheet is told that nothing changed. -/
theorem not_modified_sound_linked :
    let played :=
      performs soleGateway.settings sharedChoices [] (fresh soleGateway (linkedFiles pointingData))
    (∃ past, Edited soleGateway.settings (fresh soleGateway (linkedFiles pointingData)) past played.1
      played.2) ∧
    ∃ held answer : Response,
      .answer "second" (.replied { target := "/modules/a.css" } (.respond held)) ∈ played.1 ∧
      held.status = 200 ∧ held.etag = some ⟨14, 1, false⟩ ∧
      ("third", .asking linkedQuestion (.validating ["src", "a.js"] .style)) ∈ played.2.clients ∧
      linkedQuestion.ifNoneMatch = some (Validator.text ⟨14, 1, false⟩) ∧
      played.2.gateway.look linkedQuestion played.2.world (.validating ["src", "a.js"] .style) =
        .answered (.respond answer) ∧ answer.status = 304 ∧
      played.2.gateway.built? played.2.world.fs (.source ["src", "a.js"] ⟨14, 1, false⟩ .style) ≠
        some held.body := by
  intro played
  have hStart : Edited soleGateway.settings (fresh soleGateway (linkedFiles pointingData))
      [linkedFiles pointingData] [] (fresh soleGateway (linkedFiles pointingData)) :=
    edited_fresh (by simp [linkedFiles, Node.places, Node.placesIn, pointingData])
  obtain ⟨past, hRun, -⟩ := hStart.still
    ((run_performs sharedChoices .refl).mono fun _ _ _ hStep => hStep.toSecluded.step) (by decide +kernel)
  rw [List.append_nil] at hRun
  refine ⟨⟨past, hRun⟩,
    { Response.ok AssetKind.script.contentType "no-cache" "import \"./b.js\";\n".toUTF8 with
      etag := some ⟨14, 1, false⟩ },
    .notModified ⟨14, 1, false⟩ "no-cache", ?_⟩
  decide +kernel

end Service

end ModuleGateway
