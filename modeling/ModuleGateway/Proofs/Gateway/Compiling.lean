import ModuleGateway.Gateway.Building
import ModuleGateway.Proofs.Relink.Linking

/-!
What a build makes of a file. The output is decided by what the file holds and by which packages are
installed; what is trusted does not count.
-/

namespace ModuleGateway.Gateway

variable {g : Gateway} {fs other : FileSystem} {b : Building} {source : String}

/-- What linking ends with, as a job tells it. -/
def linkResult : Except Relink.Unterminated String → Except String String
  | .ok linked => .ok linked
  | .error e => .error e.message

/-- What the compiler gives is linked, unless it is a style sheet. -/
theorem compileAndLink_of_done {output : String} {importer : Relink.Importer}
    (hCompiled : g.compiler ⟨b.file, source, b.kind⟩ = .done output)
    (hImporter : b.importer? = some importer) (trusted : Trust.Registry) :
    (g.compileAndLink fs b source).run trusted =
      (linkResult ((Relink.link g.sources fs importer output).run trusted).1,
        ((Relink.link g.sources fs importer output).run trusted).2) := by
  rw [compileAndLink, hCompiled, hImporter]
  simp only [StateT.run, bind, StateT.bind]
  rcases Relink.link g.sources fs importer output trusted with ⟨_ | _, later⟩ <;> rfl

/-- Either nothing is linked, and what is trusted stays as it is, or the output of the compiler is
linked. -/
theorem compileAndLink_cases (g : Gateway) (fs : FileSystem) (b : Building) (source : String) :
    (∃ result, ∀ trusted, (g.compileAndLink fs b source).run trusted = (result, trusted)) ∨
      ∃ importer output, ∀ trusted, (g.compileAndLink fs b source).run trusted =
        (linkResult ((Relink.link g.sources fs importer output).run trusted).1,
          ((Relink.link g.sources fs importer output).run trusted).2) := by
  cases hCompiled : g.compiler ⟨b.file, source, b.kind⟩ with
  | failed message => exact .inl ⟨_, fun trusted => by rw [compileAndLink, hCompiled]; rfl⟩
  | panicked message => exact .inl ⟨_, fun trusted => by rw [compileAndLink, hCompiled]; rfl⟩
  | done output =>
      cases hImporter : b.importer? with
      | none => exact .inl ⟨_, fun trusted => by rw [compileAndLink, hCompiled, hImporter]; rfl⟩
      | some importer =>
          exact .inr ⟨importer, output, compileAndLink_of_done hCompiled hImporter⟩

/-- What becomes of a file does not depend on what is trusted. -/
theorem compileAndLink_output (trusted later : Trust.Registry) :
    ((g.compileAndLink fs b source).run trusted).1 =
      ((g.compileAndLink fs b source).run later).1 := by
  rcases g.compileAndLink_cases fs b source with ⟨result, hRun⟩ | ⟨importer, output, hRun⟩
  · rw [hRun, hRun]
  · rw [hRun, hRun, Relink.link_output trusted later]

/-- The file system counts only by where it has the packages that the output imports. -/
theorem compileAndLink_congr
    (hPackages : ∀ output, g.compiler ⟨b.file, source, b.kind⟩ = .done output →
      ∀ s ∈ Relink.asked output, Specifier.kind s = .bare →
        g.sources.locate? other s = g.sources.locate? fs s) :
    g.compileAndLink other b source = g.compileAndLink fs b source := by
  unfold compileAndLink
  cases hCompiled : g.compiler ⟨b.file, source, b.kind⟩ with
  | failed message => rfl
  | panicked message => rfl
  | done output =>
      dsimp only
      cases b.importer? with
      | none => rfl
      | some importer =>
          dsimp only
          rw [Relink.link_congr (hPackages output hCompiled)]

/-- What is trusted stays trusted. -/
theorem compileAndLink_keeps {name : String} {trusted : Trust.Registry}
    (h : trusted.contains name = true) :
    ((g.compileAndLink fs b source).run trusted).2.contains name = true := by
  rcases g.compileAndLink_cases fs b source with ⟨result, hRun⟩ | ⟨importer, output, hRun⟩
  · rwa [hRun]
  · rw [hRun]
    exact (Relink.contains_link _ _ _ _ _ _).mpr (.inl h)

/-- Doing it again trusts nothing new. -/
theorem compileAndLink_again {before later : Trust.Registry}
    (hTrusted : ∀ name, ((g.compileAndLink fs b source).run before).2.contains name = true →
      later.contains name = true) :
    (g.compileAndLink fs b source).run later =
      (((g.compileAndLink fs b source).run before).1, later) := by
  refine Prod.ext (compileAndLink_output later before) ?_
  rcases g.compileAndLink_cases fs b source with ⟨result, hRun⟩ | ⟨importer, output, hRun⟩
  · rw [hRun]
  · rw [hRun] at hTrusted ⊢
    exact Relink.link_again hTrusted

/-- The text that a build makes of a source. -/
def output? (g : Gateway) (fs : FileSystem) (b : Building) (source : String) : Except String String :=
  ((g.compileAndLink fs b source).run .empty).1

/-- The content that a build gives, when its file is read and built without anything in between. -/
def built? (g : Gateway) (fs : FileSystem) (b : Building) : Option ByteArray :=
  match fs.readText b.file with
  | .error _ => none
  | .ok source => (g.output? fs b source).toOption.map String.toUTF8

theorem built?_congr (hPackages : ∀ s, g.sources.locate? other s = g.sources.locate? fs s)
    (hRead : other.readText b.file = fs.readText b.file) : g.built? other b = g.built? fs b := by
  have hLink (source : String) : g.compileAndLink other b source = g.compileAndLink fs b source :=
    compileAndLink_congr fun _ _ s _ _ => hPackages s
  unfold built? output?
  rw [hRead]
  simp only [hLink]

/-! ### Builds without a store -/

/-- What a build ends with, by what became of its file. -/
def finished (b : Building) : Except String String → Build.Outcome
  | .error message => .failure message
  | .ok output => .success output.toUTF8 b.kind.contentType

/-- What a build ends with that does not look into the store, and what is trusted then. -/
def make (g : Gateway) (fs : FileSystem) (trusted : Trust.Registry) (b : Building) :
    Build.Outcome × Trust.Registry :=
  match fs.readText b.file with
  | .error e => (.failure (b.unreadable e), trusted)
  | .ok source =>
    (finished b ((g.compileAndLink fs b source).run trusted).1,
      ((g.compileAndLink fs b source).run trusted).2)

variable {trusted : Trust.Registry}

theorem make_keeps {name : String} (h : trusted.contains name = true) :
    (g.make fs trusted b).2.contains name = true := by
  unfold make
  split
  · exact h
  · exact compileAndLink_keeps h

theorem type_of_make {content : ByteArray} {type : String}
    (h : (g.make fs trusted b).1 = .success content type) : type = b.kind.contentType := by
  unfold make at h
  split at h
  · cases h
  · rename_i source hRead
    dsimp only at h
    cases hLinked : ((g.compileAndLink fs b source).run trusted).1 with
    | error message =>
        rw [hLinked] at h
        cases h
    | ok output =>
        rw [hLinked] at h
        cases h
        rfl

/-- A build that is made again ends as before and trusts nothing new. -/
theorem make_again {later : Trust.Registry}
    (hTrusted : ∀ name, (g.make fs trusted b).2.contains name = true → later.contains name = true) :
    g.make fs later b = ((g.make fs trusted b).1, later) := by
  cases hRead : fs.readText b.file with
  | error e => simp only [make, hRead]
  | ok source =>
      simp only [make, hRead] at hTrusted ⊢
      rw [compileAndLink_again hTrusted]

theorem make_congr (hRead : other.readText b.file = fs.readText b.file)
    (hPackages : ∀ source output, fs.readText b.file = .ok source →
      g.compiler ⟨b.file, source, b.kind⟩ = .done output →
        ∀ s ∈ Relink.asked output, Specifier.kind s = .bare →
          g.sources.locate? other s = g.sources.locate? fs s) :
    g.make other trusted b = g.make fs trusted b := by
  unfold make
  rw [hRead]
  split
  · rfl
  · rename_i source hSource
    rw [compileAndLink_congr fun output => hPackages source output hSource]

/-- The file system that a build leaves. Only the module of a specifier is persisted. -/
def left (g : Gateway) (fs : FileSystem) (b : Building) : Build.Outcome → FileSystem
  | .success content _ => g.persist fs b content
  | .failure _ => fs

/-- A job that finds nothing in the store builds. -/
theorem work_of_missing {w : World} (hMissing : g.stored? w.fs b = none) :
    (g.work w b).1 = (g.make w.fs w.trusted b).1 ∧
      (g.work w b).2.trusted = (g.make w.fs w.trusted b).2 ∧
      (g.work w b).2.fs = g.left w.fs b (g.make w.fs w.trusted b).1 := by
  cases hRead : w.fs.readText b.file with
  | error e =>
      cases b <;>
        simp [work, longestJob, advances, Stage.first, Stage.outcome, advance, hMissing, hRead, make, left]
  | ok source =>
      rcases hRun : (g.compileAndLink w.fs b source).run w.trusted with ⟨linked, trusted⟩
      have hMake : g.make w.fs w.trusted b = (finished b linked, trusted) := by
        simp only [make, hRead, hRun]
      rw [hMake]
      cases linked with
      | error message =>
          cases b <;>
            simp [work, longestJob, advances, Stage.first, Stage.outcome, advance, hMissing, hRead, hRun,
              afterLinking, finished, left]
      | ok output =>
          cases b with
          | vendor specifier m =>
              simp [work, longestJob, advances, Stage.first, Stage.outcome, advance, hMissing, hRead, hRun,
                afterLinking, finished, left]
          | source file v kind =>
              simp only [work, longestJob, advances, Stage.first, Stage.outcome, advance, hRead, hRun,
                afterLinking, finished, left]
              exact ⟨rfl, trivial, rfl⟩

end ModuleGateway.Gateway
