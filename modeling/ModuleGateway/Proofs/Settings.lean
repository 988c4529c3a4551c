import ModuleGateway.CommandLine.Run
import ModuleGateway.Proofs.Path
import Mathlib.Data.List.DropRight

/-!
Settings in normal form. Bringing them into normal form once more leaves them as they are, with one
exception: the address of the CDN is checked before it loses the slashes at its end, so an address of
slashes only is accepted once and refused from then on.
-/

namespace ModuleGateway

namespace Text

variable {p : Char → Bool} (text : List Char)

theorem trimEnd_trimEnd : trimEnd p (trimEnd p text) = trimEnd p text :=
  List.rdropWhile_idempotent p text

/-- Nothing is left to trim in front of a text that was trimmed at both ends. -/
theorem trimStart_trim : trimStart p (trim p text) = trim p text := by
  obtain ⟨tail, hText, -⟩ := trimEnd_append p (trimStart p text)
  rw [trim]
  cases hTrim : trimEnd p (trimStart p text) with
  | nil => rfl
  | cons c rest =>
      have hHead : (trimStart p text).head? = some c := by
        rw [hText, hTrim]
        rfl
      have hKept := List.head?_dropWhile_not p text
      rw [← trimStart, hHead] at hKept
      exact List.dropWhile_cons_of_neg (by simpa using hKept)

theorem trim_trim : trim p (trim p text) = trim p text := by
  conv_lhs => rw [trim, trimStart_trim]
  exact trimEnd_trimEnd _

end Text

namespace Settings

theorem bare_ofList_bare (text : String) : bare (String.ofList (bare text)) = bare text := by
  rw [bare, String.toList_ofList]
  exact Text.trim_trim _

/-- The slash in front of the public prefix is not part of what is left of it. -/
theorem bare_rooted (text : String) : bare (String.ofList ('/' :: bare text)) = bare text := by
  have hFront : Text.trimStart (· = '/') ('/' :: bare text) = Text.trimStart (· = '/') (bare text) :=
    List.dropWhile_cons_of_pos (by decide)
  rw [bare, String.toList_ofList, Text.trim, hFront]
  exact Text.trim_trim _

/-- What the checks of settings establish, and what their normal form looks like. -/
structure IsNormal (s : Settings) : Prop where
  rooted : s.publicPrefix = String.ofList ('/' :: bare s.publicPrefix)
  noDots : hasDots (bare s.publicPrefix) = false
  plain : s.vendorSegment = String.ofList (bare s.vendorSegment)
  oneSegment : isOneSegment (bare s.vendorSegment) = true
  address : Text.trimEnd (· = '/') s.cdnAddress.toList = s.cdnAddress.toList

/-- When the CDN is used, its address is not blank. -/
def namesMirror (s : Settings) : Bool :=
  !s.cdnEnabled || Text.trim Text.isSpace s.cdnAddress.toList ≠ []

variable {written settings s : Settings}

/-- What passes the checks comes out in normal form. -/
theorem isNormal_of_normalize (h : written.normalize = .ok settings) : settings.IsNormal := by
  unfold normalize at h
  dsimp only at h
  split at h
  · cases h
  · rename_i hDots
    split at h
    · cases h
    · rename_i hSegment
      split at h
      · cases h
      · cases h
        constructor
        · dsimp only
          rw [bare_rooted]
        · dsimp only
          rw [bare_rooted]
          simpa using hDots
        · dsimp only
          rw [bare_ofList_bare]
        · dsimp only
          rw [bare_ofList_bare]
          simpa using hSegment
        · rw [String.toList_ofList]
          exact Text.trimEnd_trimEnd _

/-- Only the texts of the public prefix, the vendor segment and the CDN's address are brought into another
form. -/
theorem eq_of_normalize (h : written.normalize = .ok settings) : settings = { written with
    publicPrefix := settings.publicPrefix
    vendorSegment := settings.vendorSegment
    cdnAddress := settings.cdnAddress } := by
  unfold normalize at h
  dsimp only at h
  split at h
  · cases h
  · split at h
    · cases h
    · split at h
      · cases h
      · cases h
        rfl

/-- Of settings in normal form only the CDN's address can be refused, and what is accepted stays. -/
theorem IsNormal.normalize_eq (h : s.IsNormal) :
    s.normalize = if s.namesMirror then .ok s else .error .cdnAddressMissing := by
  have hSame : ({ s with
      publicPrefix := String.ofList ('/' :: bare s.publicPrefix)
      vendorSegment := String.ofList (bare s.vendorSegment)
      cdnAddress := String.ofList (Text.trimEnd (· = '/') s.cdnAddress.toList) } : Settings) = s := by
    rw [← h.rooted, ← h.plain, h.address, String.ofList_toList]
  rw [normalize, if_neg (by simp [h.noDots]), if_neg (by simp [h.oneSegment]), hSame, namesMirror]
  cases s.cdnEnabled
  · rfl
  · by_cases hBlank : Text.trim Text.isSpace s.cdnAddress.toList = [] <;> simp [hBlank]

/-- The directories do not count. -/
theorem IsNormal.relativeTo (h : s.IsNormal) (base : Path) : (s.relativeTo base).IsNormal where
  rooted := h.rooted
  noDots := h.noDots
  plain := h.plain
  oneSegment := h.oneSegment
  address := h.address

/-- A source root of the command line's own does not count either. -/
def withRoot (s : Settings) : Option String → Settings
  | some root => { s with sourceRoot := ⟨root⟩ }
  | none => s

theorem IsNormal.withRoot (h : s.IsNormal) (root : Option String) : (s.withRoot root).IsNormal := by
  cases root with
  | none => exact h
  | some root => exact ⟨h.rooted, h.noDots, h.plain, h.oneSegment, h.address⟩

theorem namesMirror_withRoot (s : Settings) (root : Option String) :
    (s.withRoot root).namesMirror = s.namesMirror := by
  cases root <;> rfl

theorem isNormal_of_load {fs : FileSystem} {path : Path} (h : load fs path = .ok settings) :
    settings.IsNormal := by
  unfold load at h
  split at h
  · cases h
  · rename_i text hText
    unfold parse at h
    split at h
    · rename_i written hWritten
      cases hNormal : written.normalize with
      | error e =>
          rw [hNormal] at h
          cases h
      | ok normal =>
          rw [hNormal] at h
          cases h
          exact (isNormal_of_normalize hNormal).relativeTo _
    · cases h

end Settings

namespace CommandLine

open Settings

/-- The file that a command reads its settings from, if there is one. -/
def settingsFile? (fs : FileSystem) (origin : Origin) : Option Path :=
  match origin.config with
  | some path => some ⟨path⟩
  | none => if fs.isFile defaultConfig then some defaultConfig else none

variable {fs : FileSystem} {origin : Origin} {path : Path} {written settings loaded chosen : Settings}

theorem settingsOf_eq (fs : FileSystem) (origin : Origin) :
    settingsOf fs origin =
      match settingsFile? fs origin with
      | some path => (load fs path).bind fun loaded => (loaded.withRoot origin.root).normalize
      | none => ((Settings.relativeTo {} ⟨"."⟩).withRoot origin.root).normalize := by
  obtain ⟨config, root⟩ := origin
  cases config with
  | some path =>
      simp only [settingsOf, settingsFile?, bind, Except.bind]
      cases load fs ⟨path⟩ <;> cases root <;> rfl
  | none =>
      cases hThere : fs.isFile defaultConfig with
      | false => cases root <;> simp [settingsOf, settingsFile?, hThere, bind, Except.bind, withRoot]
      | true =>
          simp only [settingsOf, settingsFile?, hThere, if_true, bind, Except.bind]
          cases load fs defaultConfig <;> cases root <;> rfl

theorem settingsOf_of_load (hFile : settingsFile? fs origin = some path)
    (hLoad : load fs path = .ok loaded) :
    settingsOf fs origin =
      if loaded.namesMirror then .ok (loaded.withRoot origin.root) else .error .cdnAddressMissing := by
  have hChecked : settingsOf fs origin = (loaded.withRoot origin.root).normalize := by
    rw [settingsOf_eq, hFile]
    dsimp only
    rw [hLoad]
    rfl
  rw [hChecked, ((isNormal_of_load hLoad).withRoot _).normalize_eq, namesMirror_withRoot]

/-- What a command works with was in normal form before it was checked for the last time. -/
theorem normal_of_settingsOf (h : settingsOf fs origin = .ok chosen) :
    ∃ checked : Settings, checked.IsNormal ∧ checked.normalize = .ok chosen := by
  rw [settingsOf_eq] at h
  split at h
  · rename_i path hFile
    cases hLoad : load fs path with
    | error e =>
        rw [hLoad] at h
        cases h
    | ok loaded =>
        rw [hLoad] at h
        exact ⟨_, (isNormal_of_load hLoad).withRoot _, h⟩
  · have hDefaults : normalize {} = .ok {} := by decide +kernel
    exact ⟨_, ((isNormal_of_normalize hDefaults).relativeTo _).withRoot _, h⟩

/-- Settings that were accepted are accepted again, by the check that a command makes of what it loaded
and by the one that the gateway makes at its start, and neither changes them; only the address of a CDN
that is used has to name something once its slashes are gone. -/
theorem normalize_again (hNormal : written.normalize = .ok settings) :
    (settings.normalize =
      if settings.namesMirror then .ok settings else .error .cdnAddressMissing) ∧
    (∀ fs origin path loaded, settingsFile? fs origin = some path → load fs path = .ok loaded →
      settingsOf fs origin =
        if loaded.namesMirror then .ok (loaded.withRoot origin.root)
        else .error .cdnAddressMissing) ∧
    ∀ fs origin chosen, settingsOf fs origin = .ok chosen → chosen.normalize = .ok chosen := by
  refine ⟨(isNormal_of_normalize hNormal).normalize_eq,
    fun fs origin path loaded hFile hLoad => settingsOf_of_load hFile hLoad,
    fun fs origin chosen h => ?_⟩
  obtain ⟨checked, hChecked, hChosen⟩ := normal_of_settingsOf h
  have hOnce := hChecked.normalize_eq
  rw [hChosen] at hOnce
  split at hOnce
  · obtain rfl := Except.ok.inj hOnce
    exact hChosen
  · cases hOnce

/-- Settings with slashes wherever they are taken away. -/
def slashedSettings : Settings where
  publicPrefix := "//assets//js/"
  vendorSegment := "/vendor//"
  cdnEnabled := true
  cdnAddress := "https://cdn.example.com//"

theorem normalize_again_slashed :
    let normal : Settings := { slashedSettings with
      publicPrefix := "/assets//js"
      vendorSegment := "vendor"
      cdnAddress := "https://cdn.example.com" }
    slashedSettings.normalize = .ok normal ∧ normal.normalize = .ok normal := by
  intro normal
  have hNormal : slashedSettings.normalize = .ok normal := by decide +kernel
  have hMirror : normal.namesMirror = true := by decide +kernel
  refine ⟨hNormal, ?_⟩
  rw [(normalize_again hNormal).1, if_pos hMirror]

/-- An address of one slash passes the check, and is empty afterwards. -/
theorem normalize_again_refused :
    let written : Settings := { cdnEnabled := true, cdnAddress := "/" }
    let normal : Settings := { written with cdnAddress := "" }
    written.normalize = .ok normal ∧ normal.normalize = .error .cdnAddressMissing := by
  decide +kernel

end CommandLine

end ModuleGateway
