import ModuleGateway.Relink.Scanner

/-!
Replacing import targets. The relinker walks the source with the scanner and writes it out in
stretches: when a target is replaced, the source up to its opening quote and then the replacement;
at the end whatever is left. All other text is kept as it stands. The map that names the
replacements may have effects, and is asked once for each target without a backslash, when the
scanner comes to it, also for the targets in front of an error.
-/

namespace ModuleGateway.Relink

/-- A replacement as it is written between quotes: the quote and the backslash are escaped. -/
def quoteWithin (quote : Char) (text : List Char) : List Char :=
  text.flatMap fun c => if c = quote || c = '\\' then ['\\', c] else [c]

/-- Asks for the replacement of a target. A target with a backslash is not asked for. -/
def ask {m : Type → Type} [Monad m] (map : String → m (Option String)) (raw : List Char) :
    m (Option String) :=
  if raw.contains '\\' then pure none else map (String.ofList raw)

/-- The relinker between two steps. -/
structure Relinker where
  scanner : Scanner
  /-- What the source has become so far. -/
  written : List Char := []
  /-- The number of characters of the source that `written` stands for. -/
  copied : Nat := 0
  deriving DecidableEq, Repr

namespace Relinker

/-- The relinker after the answer for the target that opens where the scanner stands. The closing
quote is not written yet. -/
def settle (r : Relinker) (source : List Char) (quote : Char) (raw : List Char) :
    Option String → Relinker
  | none => r
  | some replacement =>
    if replacement.toList = raw then r
    else
      let inside := r.scanner.count + 1
      { r with
        written := r.written ++ (source.take inside).drop r.copied ++
          quoteWithin quote replacement.toList
        copied := inside + raw.length }

/-- The output when the source ends here. -/
def finish (r : Relinker) (source : List Char) : Except Unterminated String :=
  match r.scanner.pending with
  | some e => .error e
  | none => .ok (String.ofList (r.written ++ source.drop r.copied))

/-- Relinks from `r` on, for at most as many steps as are given. -/
def runFor {m : Type → Type} [Monad m] (map : String → m (Option String)) (source : List Char) :
    Nat → Relinker → m (Except Unterminated String)
  | 0, r => pure (r.finish source)
  | fuel + 1, r =>
    match r.scanner.ahead with
    | [] => pure (r.finish source)
    | c :: rest =>
      match r.scanner.step c rest with
      | .error e => pure (.error e)
      | .ok (.verbatim _, next) => runFor map source fuel { r with scanner := next }
      | .ok (.target quote raw, next) => do
        let answer ← ask map raw
        runFor map source fuel { r.settle source quote raw answer with scanner := next }

end Relinker

/-- The source with every import target replaced by what `map` names for it, or the error that
ended the scan. -/
def relink {m : Type → Type} [Monad m] (map : String → m (Option String)) (source : String) :
    m (Except Unterminated String) :=
  let text := source.toList
  Relinker.runFor map text (Scanner.enoughSteps text) { scanner := .initial text }

end ModuleGateway.Relink
