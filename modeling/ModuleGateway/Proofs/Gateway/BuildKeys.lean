import ModuleGateway.Proofs.Gateway.Revalidation
import ModuleGateway.Proofs.Gateway.Schedule

/-!
What a build's key tells. Jobs are shared by key, so two builds with one key should be of one artifact.
The key of a source build has the file and its tag, but not the kind that the file is compiled as: that
is told by the path of a request, and through a link a style sheet's path may lead to a script.
-/

namespace ModuleGateway

open Build FileSystem

namespace Gateway

variable {g : Gateway} {past : List FileSystem} {b : Building} {p : Pursuit}

/-- What a client came to in the file systems that it looked at. -/
def Came (g : Gateway) (past : List FileSystem) : Building → Prop
  | .vendor specifier m => ∃ fs ∈ past, g.sources.locate? fs specifier = some m
  | .source file v kind => (∃ fs ∈ past, ∃ r, g.Means fs r file kind) ∧
      ∃ fs ∈ past, ∃ stamp, stamp? fs file = some stamp ∧ v = .ofStamp stamp g.settings.minify

/-- A client came to the build that it needs, or to the file that it is about to look at. -/
def CameTo (g : Gateway) (past : List FileSystem) : Pursuit → Prop
  | .asking r (.validating file kind) => ∃ fs ∈ past, g.Means fs r file kind
  | p => ∀ b, p.building? = some b → g.Came past b

/-- A file system in which a build's module lies where the build found it. -/
def StillFinds (g : Gateway) (fs : FileSystem) : Building → Prop
  | .vendor specifier m => g.sources.locate? fs specifier = some m
  | .source .. => True

theorem Came.later (fs : FileSystem) (h : g.Came past b) : g.Came (fs :: past) b := by
  cases b with
  | vendor specifier m =>
      obtain ⟨earlier, hPast, hFound⟩ := h
      exact ⟨earlier, List.mem_cons_of_mem _ hPast, hFound⟩
  | source file v kind =>
      obtain ⟨⟨early, hEarly, hMeans⟩, earlier, hPast, hStamp⟩ := h
      exact ⟨⟨early, List.mem_cons_of_mem _ hEarly, hMeans⟩, earlier, List.mem_cons_of_mem _ hPast,
        hStamp⟩

theorem CameTo.later (fs : FileSystem) (h : g.CameTo past p) : g.CameTo (fs :: past) p := by
  have hBuilding (h : ∀ b, p.building? = some b → g.Came past b) (b : Building)
      (hNeeds : p.building? = some b) : g.Came (fs :: past) b := (h b hNeeds).later fs
  cases p with
  | warming t => exact hBuilding h
  | asking r progress =>
      cases progress with
      | validating file kind =>
          obtain ⟨earlier, hPast, hMeans⟩ := h
          exact ⟨earlier, List.mem_cons_of_mem _ hPast, hMeans⟩
      | _ => exact hBuilding h

theorem CameTo.building (h : g.CameTo past p) (hBuilding : p.building? = some b) : g.Came past b := by
  cases p with
  | warming t => exact h b hBuilding
  | asking r progress =>
      cases progress with
      | validating file kind => cases hBuilding
      | _ => exact h b hBuilding

theorem cameTo_begin (errand : Errand) : g.CameTo past (errand.begin g) := by
  cases errand with
  | prewarm specifier => exact fun b hBuilding => by cases hBuilding
  | request r =>
      show g.CameTo past (.asking r (g.start r))
      have hStart := g.start_spec r
      generalize g.start r = progress at hStart ⊢
      cases hStart <;> exact fun b hNeeds => by cases hNeeds

theorem cameTo_look {w : World} (hCurrent : w.fs ∈ past) (hAddressed : g.Addressed p)
    (h : g.CameTo past p) : g.CameTo past (p.look g w) := by
  cases p with
  | asking r progress =>
      show g.CameTo past (.asking r (g.look r w progress))
      have hLook := g.look_spec r w progress
      generalize g.look r w progress = next at hLook ⊢
      cases hLook with
      | located hLocated =>
          intro b hNeeds
          cases hNeeds
          exact ⟨w.fs, hCurrent, hLocated⟩
      | resolved hResolved => exact ⟨w.fs, hCurrent, _, hAddressed.2, hAddressed.1, hResolved⟩
      | stale hStamp hStale =>
          obtain ⟨earlier, hPast, hMeans⟩ := h
          intro b hNeeds
          cases hNeeds
          exact ⟨⟨earlier, hPast, r, hMeans⟩, w.fs, hCurrent, _, hStamp, Freshness.tag_of_stale hStale⟩
      | building => exact h
      | recalled | missing | trusted | untrusted | unlocated | unresolved | gone | fresh | answered =>
          exact fun b hNeeds => by cases hNeeds
  | warming t =>
      show g.CameTo past (.warming (g.glance w t))
      have hGlance := g.glance_spec w t
      generalize g.glance w t = next at hGlance ⊢
      cases hGlance with
      | located hLocated =>
          intro b hNeeds
          cases hNeeds
          exact ⟨w.fs, hCurrent, hLocated⟩
      | building => exact h
      | ready | wanted | unlocated | ended => exact fun b hNeeds => by cases hNeeds

end Gateway

namespace Service

/-- A run of one gateway with all its file systems and moves, the latest first. -/
inductive Recorded (settings : Settings) (start : Service) :
    List FileSystem → List Move → Service → Prop where
  | refl : Recorded settings start [start.world.fs] [] start
  | step {past : List FileSystem} {moves : List Move} {move : Move} {s after : Service}
      (run : Recorded settings start past moves s) (hStep : Step settings s move after)
      (hMove : move ≠ .restart) :
      Recorded settings start (after.world.fs :: past) (move :: moves) after

variable {settings : Settings} {start s after : Service} {past : List FileSystem}
  {moves : List Move} {move : Move} {g : Gateway} {fs : FileSystem} {b other : Building}
  {first second : String}

theorem Recorded.gateway_eq (h : Recorded settings start past moves s) : s.gateway = start.gateway := by
  induction h with
  | refl => rfl
  | step run hStep hMove ih => exact (hStep.gateway_eq hMove).trans ih

theorem Recorded.current_mem (h : Recorded settings start past moves s) : s.world.fs ∈ past := by
  cases h <;> exact List.mem_cons_self

/-- A run is recorded. -/
theorem Run.recorded (hRun : Run (Step settings) start moves s) (hMoves : .restart ∉ moves) :
    ∃ past, Recorded settings start past moves s := by
  induction hRun with
  | refl => exact ⟨_, .refl⟩
  | step run hStep ih =>
      obtain ⟨hMove, hEarlier⟩ := not_or.mp (List.mem_cons.not.mp hMoves)
      obtain ⟨past, hPast⟩ := ih hEarlier
      exact ⟨_, hPast.step hStep (Ne.symm hMove)⟩

/-- A run in the course of which files are edited, as any run. -/
theorem Edited.recorded (h : Edited settings start past moves s) :
    Recorded settings start past moves s := by
  induction h with
  | refl => exact .refl
  | step run hStep hMove hEdits ih => exact ih.step hStep hMove

/-- Whatever clients need and whatever they joined they came to in the file systems of the run. -/
structure Founded (past : List FileSystem) (moves : List Move) (s : Service) : Prop where
  addressed : ∀ c ∈ s.clients, s.gateway.Addressed c.2
  clients : ∀ c ∈ s.clients, s.gateway.CameTo past c.2
  joins : ∀ name b, .join name b ∈ moves → s.gateway.Came past b

theorem Founded.kept (h : Founded past moves s) (hGateway : after.gateway = s.gateway)
    (hClients : ∀ c ∈ after.clients, c ∈ s.clients ∨
      s.gateway.Addressed c.2 ∧ s.gateway.CameTo (after.world.fs :: past) c.2)
    (hJoins : ∀ name b, move = .join name b → s.gateway.Came past b) :
    Founded (after.world.fs :: past) (move :: moves) after := by
  refine ⟨fun c hClient => ?_, fun c hClient => ?_, fun name b hJoin => ?_⟩
  · rw [hGateway]
    exact (hClients c hClient).elim (h.addressed c) And.left
  · rw [hGateway]
    exact (hClients c hClient).elim (fun hOld => (h.clients c hOld).later _) And.right
  · rw [hGateway]
    rcases List.mem_cons.mp hJoin with hNow | hThen
    · exact (hJoins name b hNow.symm).later _
    · exact (h.joins name b hThen).later _

theorem Founded.step (h : Founded past moves s) (hCurrent : s.world.fs ∈ past)
    (hStep : Step settings s move after) (hMove : move ≠ .restart) :
    Founded (after.world.fs :: past) (move :: moves) after := by
  refine h.kept (hStep.gateway_eq hMove) (fun c hClient => ?_) fun name b hJoin => ?_
  · rcases hStep.client_of_mem hClient with hOld | ⟨_, errand, -, hOffered, rfl⟩ | ⟨_, p, -, hThere, rfl⟩
    · exact .inl hOld
    · exact .inr ⟨Gateway.addressed_begin hOffered, Gateway.cameTo_begin _⟩
    · exact .inr ⟨Gateway.addressed_look _ (h.addressed _ hThere),
        (Gateway.cameTo_look hCurrent (h.addressed _ hThere) (h.clients _ hThere)).later _⟩
  · subst hJoin
    cases hStep with
    | join hClient hBuilding => exact (h.clients _ hClient).building hBuilding

theorem Recorded.founded (h : Recorded settings (fresh g fs) past moves s) : Founded past moves s := by
  induction h with
  | refl => exact ⟨by simp [fresh], by simp [fresh], by simp⟩
  | step run hStep hMove ih => exact ih.step run.current_mem hStep hMove

/-- Two builds of a run that have one key are builds of the module of one specifier, or builds of one file,
which had the same size and, from the epoch on, the same millisecond of its last change when they took its
tag. They are of one kind as long as links keep the kind of what they lead to. When they are of one kind and
find the same files, they are one build, and whoever joins the job of the other build is answered with what
its own build makes of these files. -/
theorem artifact_of_key (hRun : Recorded settings (fresh g fs) past moves s)
    (hFirst : .join first b ∈ moves) (hSecond : .join second other ∈ moves) (hKey : b.key = other.key) :
    ((∃ specifier m n, b = .vendor specifier m ∧ other = .vendor specifier n) ∨
      ∃ file, ∃ now ∈ past, ∃ later ∈ past, ∃ x y,
        Gateway.stamp? now file = some x ∧ Gateway.stamp? later file = some y ∧
        b = .source file (.ofStamp x g.settings.minify) b.kind ∧
        other = .source file (.ofStamp y g.settings.minify) other.kind ∧ x.size = y.size ∧
        (0 ≤ x.modified → 0 ≤ y.modified → x.modified / 1000000 = y.modified / 1000000)) ∧
    ((∀ seen ∈ past, seen.LinksKeepKind) → b.kind = other.kind) ∧
    ∀ seen, g.StillFinds seen b → g.StillFinds seen other → b.kind = other.kind →
      b = other ∧ ∀ trusted,
        g.replyOf other (g.make seen trusted b).1 = g.replyOf other (g.make seen trusted other).1 := by
  have hFounded := hRun.founded
  have hCame := hFounded.joins _ _ hFirst
  have hOtherCame := hFounded.joins _ _ hSecond
  rw [hRun.gateway_eq] at hCame hOtherCame
  cases b with
  | vendor specifier m =>
      obtain ⟨n, rfl⟩ := building_of_key hKey.symm
      refine ⟨.inl ⟨specifier, m, n, rfl, rfl⟩, fun _ => rfl, fun seen hFinds hOtherFinds _ => ?_⟩
      cases Option.some.inj (hFinds.symm.trans hOtherFinds)
      exact ⟨rfl, fun trusted => rfl⟩
  | source file v kind =>
      obtain ⟨another, otherKind, rfl, hPath⟩ := Building.source_of_key hKey.symm
      obtain ⟨⟨early, hEarly, r, hMeans⟩, now, hNow, x, hStamp, hTag⟩ := hCame
      obtain ⟨⟨early', hEarly', r', hMeans'⟩, later, hLater, y, hStamp', hTag'⟩ := hOtherCame
      obtain rfl := Location.path_injective hMeans'.named hMeans.named hPath
      refine ⟨.inr ⟨another, now, hNow, later, hLater, x, y, hStamp, hStamp', ?_, ?_,
        Validator.stamp_of_tag (hTag.symm.trans hTag')⟩, fun hLinks => ?_, fun seen _ _ hKind => ?_⟩
      · rw [hTag]
        rfl
      · rw [hTag']
        rfl
      · exact hMeans.kind_eq hMeans' (hLinks _ hEarly) (hLinks _ hEarly')
      · obtain rfl : kind = otherKind := hKind
        exact ⟨rfl, fun trusted => rfl⟩

/-- Two clients ask for one file by different paths. -/
def soleChoices : List Choice :=
  [.arrive "first" (.request { target := "/modules/a.js" }), .look "first", .look "first",
    .join "first", .arrive "second" (.request { target := "/modules/a" }), .look "second",
    .look "second", .join "second"]

/-- Whatever the second client joins under the first one's key is the same build. -/
theorem artifact_of_key_sole :
    let played := performs soleGateway.settings soleChoices [] (fresh soleGateway soleFiles)
    let build : Building := .source ["src", "a.js"] ⟨18, 1, false⟩ .script
    .join "first" build ∈ played.1 ∧ (∃ other, .join "second" other ∈ played.1 ∧ other.key = build.key) ∧
      ∀ other, .join "second" other ∈ played.1 → other.key = build.key → other = build := by
  intro played build
  obtain ⟨past, hRun, hPast⟩ := edited_sole.still
    ((run_performs soleChoices .refl).mono fun _ _ _ hStep => hStep.toSecluded.step)
    (by decide +kernel)
  have hLinks : ∀ seen ∈ past, seen.LinksKeepKind := by
    intro seen hSeen
    rw [List.mem_singleton.mp (hPast hSeen)]
    exact linksKeepKind_sole
  obtain ⟨hFirst, hJoins⟩ : .join "first" build ∈ played.1 ∧ .join "second" build ∈ played.1 := by
    decide +kernel
  refine ⟨hFirst, ⟨build, hJoins, rfl⟩, fun other hSecond hKey => ?_⟩
  obtain ⟨-, hKinds, hSame⟩ := artifact_of_key hRun.recorded (List.mem_append_left _ hFirst)
    (List.mem_append_left _ hSecond) hKey.symm
  cases other with
  | vendor specifier m =>
      obtain ⟨n, hVendor⟩ := building_of_key hKey.symm
      simp [build] at hVendor
  | source file v kind => exact (hSame soleFiles trivial trivial (hKinds hLinks)).1.symm

/-! ### A link from a style sheet to a script -/

/-- A client asks for the style sheet and another one for the script, while the first one waits. -/
def linkedChoices : List Choice :=
  [.arrive "first" (.request { target := "/modules/a.css" }), .look "first", .look "first",
    .join "first", .arrive "second" (.request { target := "/modules/a.js" }), .look "second",
    .look "second", .join "second", .work 0, .work 0, .publish 0, .receive "second"]

/-- Two builds with one key may be of different artifacts. The second client asks for a script and is
answered with a style sheet. -/
theorem artifact_of_key_linked :
    let played := performs soleGateway.settings linkedChoices [] (fresh soleGateway (linkedFiles soleData))
    Run (Step soleGateway.settings) (fresh soleGateway (linkedFiles soleData)) played.1 played.2 ∧
      ∃ style script : Building, .join "first" style ∈ played.1 ∧ .join "second" script ∈ played.1 ∧
        style.key = script.key ∧ style.kind = .style ∧ script.kind = .script ∧
        ∃ r response, .answer "second" (.replied r (.respond response)) ∈ played.1 ∧
          response.contentType = some AssetKind.style.contentType := by
  intro played
  refine ⟨(run_performs linkedChoices .refl).mono fun _ _ _ hStep => hStep.toSecluded.step,
    .source ["src", "a.js"] ⟨18, 1, false⟩ .style, .source ["src", "a.js"] ⟨18, 1, false⟩ .script, ?_⟩
  obtain ⟨hFirst, hSecond, hAnswer⟩ :
      .join "first" (.source ["src", "a.js"] ⟨18, 1, false⟩ .style) ∈ played.1 ∧
        .join "second" (.source ["src", "a.js"] ⟨18, 1, false⟩ .script) ∈ played.1 ∧
        .answer "second" (.replied { target := "/modules/a.js" }
          (.respond { Response.ok AssetKind.style.contentType "no-cache" soleData.content with
            etag := some ⟨18, 1, false⟩ })) ∈ played.1 := by
    decide +kernel
  exact ⟨hFirst, hSecond, rfl, rfl, rfl, _, _, hAnswer, rfl⟩

end Service

end ModuleGateway
