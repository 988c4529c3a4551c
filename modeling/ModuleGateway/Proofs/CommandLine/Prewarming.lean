import ModuleGateway.Proofs.Gateway.Waiting
import ModuleGateway.Proofs.Settings

/-!
The command that prewarms. It prints how many of the requested entries are ready, but whether it fails is
decided by the entries that were begun: an entry that names no vendor module is requested and never begun,
so it keeps the printed numbers apart without failing the command.
-/

namespace ModuleGateway.CommandLine

/-- The line that tells how many of the requested entries are ready. -/
def readyLine (directory : Path) (ready requested : Nat) : String :=
  green "✓" ++ " " ++ toString ready ++ "/" ++ toString requested ++ " packages ready in " ++
    directory.text ++ "\n"

/-- The number of entries that are ready after all prewarming of a gateway that starts. -/
def readyCount (g : Gateway) (fs : FileSystem) : Nat :=
  (g.wait (g.prewarm (g.newWorld fs)).2).1

variable {args : List String} {fs : FileSystem} {origin : Origin} {settings : Settings} {g : Gateway}

/-- The line tells its number. -/
theorem readyLine_inj {directory : Path} {a b requested : Nat} :
    readyLine directory a requested = readyLine directory b requested ↔ a = b := by
  refine ⟨fun h => ?_, fun h => by rw [h]⟩
  simp only [readyLine, String.append_left_inj, String.append_right_inj] at h
  exact Gateway.toString_injective h

/-- The gateway of a command has the entries that its settings have. -/
theorem prewarm_of_gatewayOf (hLoads : settingsOf fs origin = .ok settings)
    (hGateway : gatewayOf fs origin = .ok g) : g.settings.prewarm = settings.prewarm := by
  rw [gatewayOf, hLoads] at hGateway
  have hNormal := (Gateway.ofSettings_spec hGateway).1
  rw [Settings.eq_of_normalize hNormal]

/-- Only entries that name vendor modules are begun. -/
theorem length_warmable (g : Gateway) :
    g.warmable.length = g.settings.prewarm.countP Specifier.isServable :=
  List.countP_eq_length_filter.symm

theorem readyCount_le (g : Gateway) (fs : FileSystem) : readyCount g fs ≤ g.warmable.length :=
  Gateway.wait_le (w := (g.prewarm (g.newWorld fs)).2) rfl

theorem runPrewarm_of_error {e : SetupError} (hGateway : gatewayOf fs origin = .error e) :
    runPrewarm fs origin = { fs, failure := some (.setup e) } := by
  rw [runPrewarm, hGateway]

/-- The line is printed whether the command fails or not. -/
theorem runPrewarm_of_ok (hGateway : gatewayOf fs origin = .ok g)
    (hRequested : g.settings.prewarm ≠ []) :
    runPrewarm fs origin =
      { fs := (g.wait (g.prewarm (g.newWorld fs)).2).2.fs
        stdout := readyLine g.store.directory (readyCount g fs) g.settings.prewarm.length
        failure :=
          if readyCount g fs < g.warmable.length then
            some (.notReady (g.warmable.length - readyCount g fs))
          else none } := by
  rw [runPrewarm, hGateway]
  exact if_neg fun hNone => hRequested (List.eq_nil_of_length_eq_zero hNone)

theorem runPrewarm_code_iff (hGateway : gatewayOf fs origin = .ok g)
    (hRequested : g.settings.prewarm ≠ []) :
    (runPrewarm fs origin).code = 0 ↔ readyCount g fs = g.warmable.length := by
  have hMost := readyCount_le g fs
  rw [runPrewarm_of_ok hGateway hRequested, Finished.code]
  by_cases hLess : readyCount g fs < g.warmable.length
  · simp [hLess]
    omega
  · simp [hLess]
    omega

/-- A command that prewarms and has something to prewarm fails without a word if there can be no gateway.
Otherwise it prints one number of ready entries, and it succeeds if and only if this is the number of the
entries that name vendor modules. So the exit code tells whether the two printed numbers are equal exactly
if every entry names a vendor module, or one that does is not ready. -/
theorem prewarm_succeeds_iff (hParse : parse? args = some (.prewarm origin))
    (hLoads : settingsOf fs origin = .ok settings) (hRequested : settings.prewarm ≠ []) :
    (∃ e, gatewayOf fs origin = .error e ∧ (run args fs).stdout = "" ∧ (run args fs).code = 1) ∨
    ∃ g ready, gatewayOf fs origin = .ok g ∧
      (∀ n, (run args fs).stdout = readyLine g.store.directory n settings.prewarm.length ↔
        n = ready) ∧
      ready ≤ settings.prewarm.countP Specifier.isServable ∧
      ((run args fs).code = 0 ↔ ready = settings.prewarm.countP Specifier.isServable) ∧
      (((run args fs).code = 0 ↔ ready = settings.prewarm.length) ↔
        (∀ specifier ∈ settings.prewarm, Specifier.isServable specifier = true) ∨
          ready < settings.prewarm.countP Specifier.isServable) := by
  have hRun : run args fs = runPrewarm fs origin := by rw [run, hParse]; rfl
  rw [hRun]
  cases hGateway : gatewayOf fs origin with
  | error e =>
      refine .inl ⟨e, rfl, ?_, ?_⟩ <;> rw [runPrewarm_of_error hGateway]
      rfl
  | ok g =>
      have hEntries := prewarm_of_gatewayOf hLoads hGateway
      have hLine := runPrewarm_of_ok hGateway (hEntries ▸ hRequested)
      have hCode := runPrewarm_code_iff hGateway (hEntries ▸ hRequested)
      have hMost := readyCount_le g fs
      rw [length_warmable, hEntries] at hCode hMost
      have hAll : settings.prewarm.countP Specifier.isServable = settings.prewarm.length ↔
          ∀ specifier ∈ settings.prewarm, Specifier.isServable specifier = true :=
        List.countP_eq_length
      have hValid : settings.prewarm.countP Specifier.isServable ≤ settings.prewarm.length :=
        List.countP_le_length
      refine .inr ⟨g, readyCount g fs, rfl, fun n => ?_, hMost, hCode, ?_⟩
      · rw [hLine, hEntries, readyLine_inj, eq_comm]
      · rw [hCode, ← hAll]
        omega

/-- Settings that ask for a persisted package twice, for one that a global stands for, for one that is not
installed, and for an entry that names no vendor module. -/
def mixedFiles : FileSystem where
  root := .directory
    [("kiln.toml", .file
      ⟨"prewarm = [\"one\", \"react\", \"gone\", \"../one\", \"one\"]\n[globals]\nreact = \"React\"\n".toUTF8,
        0⟩),
      ("src", .directory []),
      (".kiln", .directory [("cache", .directory [("one.js", .file ⟨"export \x7b\x7d;".toUTF8, 0⟩)])])]

/-- Of four entries that name vendor modules three are ready: the command fails. -/
theorem prewarm_succeeds_mixed :
    (run ["prewarm"] mixedFiles).stdout = readyLine ⟨"./.kiln/cache"⟩ 3 5 ∧
      (run ["prewarm"] mixedFiles).code ≠ 0 := by
  have hParse : parse? ["prewarm"] = some (.prewarm {}) := by decide +kernel
  have hLoads : settingsOf mixedFiles {} = .ok (Settings.relativeTo
      { prewarm := ["one", "react", "gone", "../one", "one"], globals := [("react", "React")] }
      ⟨"."⟩) := by decide +kernel
  have hLine : (run ["prewarm"] mixedFiles).stdout = readyLine ⟨"./.kiln/cache"⟩ 3 5 := by
    decide +kernel
  refine ⟨hLine, ?_⟩
  obtain ⟨e, -, hSilent, -⟩ | ⟨g, ready, hGateway, hPrinted, -, hCode, -⟩ :=
    prewarm_succeeds_iff hParse hLoads (by decide)
  · rw [hLine] at hSilent
    revert hSilent
    decide +kernel
  · have hDirectory : (gatewayOf mixedFiles {}).toOption.map (·.store.directory) =
        some ⟨"./.kiln/cache"⟩ := by decide +kernel
    rw [hGateway] at hDirectory
    have hSame : g.store.directory = ⟨"./.kiln/cache"⟩ := Option.some.inj hDirectory
    have hReady : 3 = ready := (hPrinted 3).mp (by rw [hLine, hSame]; rfl)
    rw [ne_eq, hCode, ← hReady]
    decide +kernel

/-- Settings that ask for an entry that names no vendor module. -/
def sidewaysFiles : FileSystem where
  root := .directory
    [("kiln.toml", .file ⟨"prewarm = [\"../one\"]\n".toUTF8, 0⟩), ("src", .directory [])]

/-- The command prints that none of one entry is ready, and succeeds. -/
theorem prewarm_succeeds_unready :
    (run ["prewarm"] sidewaysFiles).stdout = readyLine ⟨"./.kiln/cache"⟩ 0 1 ∧
      (run ["prewarm"] sidewaysFiles).code = 0 := by
  decide +kernel

end ModuleGateway.CommandLine
