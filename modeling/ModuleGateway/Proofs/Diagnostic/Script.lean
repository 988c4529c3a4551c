import ModuleGateway.Proofs.Diagnostic.Quoting
import ModuleGateway.Proofs.Relink.Quiet

/-!
Generated scripts. Around its texts a script is fixed, and the texts stand in literals that end where the
fixed text goes on. So whatever a path, a message or the name of a global holds, the script is the same code
with other values, and the scanner that looks for imports agrees: none is found, and relinking gives the
script back.
-/

namespace ModuleGateway.Diagnostic

open Text Relink.Concrete

/-! ### Fixed text -/

/-- The script of a failure up to the literal of the path. -/
def scriptFront : String :=
  "const __kiln_path = "

/-- The script between its two literals. -/
def scriptMiddle : String :=
  ";\nconst __kiln_message = "

/-- The script behind the literal of the message. -/
def scriptBack : String :=
  String.join [
    ";\n",
    "console.error(\"[kiln] build failed: \" + __kiln_path + \"\\n\" + __kiln_message);\n",
    "if (typeof document !== \"undefined\") \x7b\n",
    "  const show = () => \x7b\n",
    "    const overlay = document.createElement(\"pre\");\n",
    "    overlay.setAttribute(\"data-kiln-error\", __kiln_path);\n",
    "    overlay.style.cssText = \"position:fixed;inset:0;z-index:2147483647;margin:0;",
    "padding:24px;overflow:auto;background:rgba(24,0,0,.92);color:#ffb4b4;",
    "font:13px/1.5 ui-monospace,monospace;white-space:pre-wrap\";\n",
    "    overlay.textContent = \"Build failed: \" + __kiln_path + \"\\n\\n\" + __kiln_message;\n",
    "    document.body.appendChild(overlay);\n",
    "  \x7d;\n",
    "  if (document.body) show(); else document.addEventListener(\"DOMContentLoaded\", show);\n",
    "\x7d\n",
    "export \x7b\x7d;\n"]

/-- The module of a global up to the names. -/
def shimFront : String :=
  "const __kiln_global = globalThis"

/-- The module of a global behind the names. -/
def shimBack : String :=
  ";\nexport default __kiln_global;\n"

theorem foldl_append_eq_join (front : String) (texts : List String) :
    texts.foldl (· ++ ·) front = front ++ String.join texts := by
  induction texts generalizing front with
  | nil => simp
  | cons text texts ih => rw [List.foldl_cons, ih, String.join_cons, String.append_assoc]

theorem script_eq (path message : String) : script path message =
    scriptFront ++ scriptLiteral path ++ scriptMiddle ++ scriptLiteral message ++ scriptBack := by
  have hMiddle (front : String) : front ++ ";\n" ++ "const __kiln_message = " = front ++ scriptMiddle :=
    String.append_assoc
  rw [scriptBack, ← foldl_append_eq_join, ← hMiddle]
  rfl

/-! ### Names of globals -/

/-- The parts of a dotted path that are not empty. -/
def globalNames (expression : String) : List (List Char) :=
  (split '.' expression.toList).filter (· ≠ [])

/-- Members with these names, one behind the other. -/
def memberAccess (names : List (List Char)) : List Char :=
  names.flatMap fun name => '[' :: Json.quote name ++ [']']

theorem globalShim_eq (expression : String) : globalShim expression =
    shimFront ++ String.ofList (memberAccess (globalNames expression)) ++ shimBack := by
  have hBack (front : String) : front ++ ";\nexport default __kiln_global;\n" = front ++ shimBack := rfl
  exact hBack _

/-- A text is read as a chain of members in brackets up to where no bracket opens. Every name is a string
literal that ends in front of the closing bracket. -/
inductive Accesses : List Char → List (List Nat) → List Char → Prop where
  | none {rest : List Char} (hRest : rest.head? ≠ some '[') : Accesses rest [] rest
  | member {text behind rest : List Char} {name : List Nat} {names : List (List Nat)}
      (hName : scriptRules.literal? text = some (name, ']' :: behind)) (later : Accesses behind names rest) :
      Accesses ('[' :: text) (name :: names) rest

theorem memberAccess_cons (name : List Char) (names : List (List Char)) (rest : List Char) :
    memberAccess (name :: names) ++ rest =
      '[' :: ('"' :: name.flatMap Json.escapeChar ++ '"' :: ']' :: (memberAccess names ++ rest)) := by
  simp [memberAccess, Json.quote]

theorem accesses_memberAccess {rest : List Char} (hRest : rest.head? ≠ some '[')
    (names : List (List Char)) : Accesses (memberAccess names ++ rest) (names.map textUnits) rest := by
  induction names with
  | nil => exact .none hRest
  | cons name names ih =>
      rw [memberAccess_cons]
      exact .member ((encodes_flatMap form_escapeChar name).literal? _) ih

/-! ### Quiet scripts -/

theorem quiet_literal {text body rest : List Char} (h : Encodes text body) (later : Quiet rest) :
    Quiet ('"' :: body ++ '"' :: rest) := by
  have hString := Quiet.string ⟨'"', body, rfl, h.inside⟩ later
  simpa [Literal.text] using hString

theorem quiet_scriptLiteral (text : String) {rest : List Char} (later : Quiet rest) :
    Quiet ((scriptLiteral text).toList ++ rest) := by
  rw [toList_scriptLiteral]
  simpa [scriptBody] using quiet_literal (encodes_parted form_scriptChar text.toList) later

theorem quiet_memberAccess (names : List (List Char)) {rest : List Char} (later : Quiet rest) :
    Quiet (memberAccess names ++ rest) := by
  induction names with
  | nil => exact later
  | cons name names ih =>
      rw [memberAccess_cons]
      have hClosed : Quiet (']' :: (memberAccess names ++ rest)) := .sign (.inr (by decide)) ih
      exact .sign (.inr (by decide)) (quiet_literal (encodes_flatMap form_escapeChar name) hClosed)

theorem quiet_scriptBack : Quiet scriptBack.toList := by
  have hCheck : isQuietFor 1000 scriptBack.toList = true := by
    simp only [scriptBack, String.join_cons, String.join_nil, String.toList_append]
    repeat rw [String.toList_ofList]
    decide +kernel
  have hQuiet := quiet_append 1000 _ hCheck (by simp [Ends]) .nil
  rwa [List.append_nil] at hQuiet

theorem quiet_script (path message : String) : Quiet (script path message).toList := by
  have hEnds (text : String) (rest : List Char) : Ends ((scriptLiteral text).toList ++ rest) := by
    rw [toList_scriptLiteral]
    exact ends_cons (by decide)
  have hMiddle : Quiet (scriptMiddle.toList ++ ((scriptLiteral message).toList ++ scriptBack.toList)) :=
    quiet_append 100 _ (by decide +kernel) (hEnds message _)
      (quiet_scriptLiteral message quiet_scriptBack)
  have hFront := quiet_append 100 scriptFront.toList (by decide +kernel)
    (hEnds path _) (quiet_scriptLiteral path hMiddle)
  simpa only [script_eq, String.toList_append, List.append_assoc] using hFront

theorem quiet_globalShim (expression : String) : Quiet (globalShim expression).toList := by
  have hBack : Quiet shimBack.toList := by
    have hQuiet := quiet_append 100 shimBack.toList (by decide +kernel) (by simp [Ends]) .nil
    rwa [List.append_nil] at hQuiet
  have hEnds (names : List (List Char)) : Ends (memberAccess names ++ shimBack.toList) := by
    cases names with
    | nil => exact ends_cons (by decide)
    | cons name names =>
        rw [memberAccess_cons]
        exact ends_cons (by decide)
  have hFront := quiet_append 100 shimFront.toList (by decide +kernel)
    (hEnds _) (quiet_memberAccess (globalNames expression) hBack)
  simpa only [globalShim_eq, String.toList_append, String.toList_ofList, List.append_assoc] using hFront

/-- No text breaks out of a generated script. The script of a failure is fixed text around two literals;
read by the rules of scripts, each ends where the fixed text goes on and has its text as its value, and none
closes a tag or holds a line end. The module of a global exports what the names of the dotted path lead to
from the global object. Relinking asks about nothing in them and leaves them as they are. -/
theorem script_contained :
    (∀ path message : String,
      script path message =
        scriptFront ++ scriptLiteral path ++ scriptMiddle ++ scriptLiteral message ++ scriptBack ∧
      scriptRules.literal? (scriptLiteral path ++ (scriptMiddle ++ scriptLiteral message ++ scriptBack)).toList =
        some (textUnits path.toList, (scriptMiddle ++ scriptLiteral message ++ scriptBack).toList) ∧
      scriptRules.literal? (scriptLiteral message ++ scriptBack).toList =
        some (textUnits message.toList, scriptBack.toList)) ∧
    (∀ text : String, ¬['<', '/'] <:+: (scriptLiteral text).toList ∧
      ∀ c ∈ (scriptLiteral text).toList, c ∉ lineEnds) ∧
    (∀ expression : String, ∃ access,
      globalShim expression = shimFront ++ String.ofList access ++ shimBack ∧
      Accesses (access ++ shimBack.toList) ((globalNames expression).map textUnits) shimBack.toList) ∧
    ∀ (m : Type → Type) [Monad m] [LawfulMonad m] (map : String → m (Option String)),
      (∀ path message : String,
        Relink.relink map (script path message) = pure (.ok (script path message))) ∧
      ∀ expression : String, Relink.relink map (globalShim expression) = pure (.ok (globalShim expression)) := by
  refine ⟨fun path message => ⟨script_eq path message, ?_, ?_⟩, ?_, ?_, ?_⟩
  · exact literal?_scriptLiteral path _
  · exact literal?_scriptLiteral message scriptBack
  · exact fun text => ⟨scriptLiteral_closes_no_tag text, scriptLiteral_one_line text⟩
  · exact fun expression => ⟨_, globalShim_eq expression, accesses_memberAccess (by decide) _⟩
  · intro m _ _ map
    exact ⟨fun path message => relink_of_quiet (quiet_script path message) map,
      fun expression => relink_of_quiet (quiet_globalShim expression) map⟩

end ModuleGateway.Diagnostic
