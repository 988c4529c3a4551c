import ModuleGateway.Proofs.Relink.Expressions
import ModuleGateway.Proofs.Relink.Linking

/-!
Relinking a printed module. The scanner reads every item from code to code and comes to exactly the
specifiers, in the order of the text. So relinking the text of a module gives the text of the module with
other specifiers.
-/

namespace ModuleGateway.Relink.Concrete

variable {rest : List Char}

/-! ### Items and modules -/

theorem Item.leads (item : Item) (hLine : ∀ s ∈ item.specifiers, s.OneLine) :
    Leads top (item.pieces.flatMap Piece.text ++ rest) item.pieces top rest := by
  cases item with
  | effect before s after =>
      have hImport : Leads top _ _ top (after.text ++ ';' :: rest) :=
        leads_effect before (s.literal (hLine s List.mem_cons_self)) rfl rfl
      have hWhole := hImport.trans (leads_end after)
      simpa [Item.pieces, importWord, Word.text] using hWhole
  | imports before b origin hBefore hAfter =>
      obtain ⟨hNext, hEnds⟩ := origin.follows rest
      obtain ⟨c, hClause, hStarts⟩ := b.starts (origin.pieces.flatMap Piece.text ++ rest)
      obtain ⟨hEnd, hStart⟩ := hStarts before hBefore
      have hImport := leads_import (f := top) rfl rfl hEnd hStart hClause
      have hBindings := b.leads (fun hWord => hEnds (hAfter hWord)) hNext (by decide)
      have hWhole : Leads top _ _ top rest := hImport.trans ((leads_gap before rfl).trans
        (hBindings.trans (origin.leads (hLine _ List.mem_cons_self))))
      simpa [Item.pieces, importWord, Word.text] using hWhole
  | reexports before b origin hAfter =>
      obtain ⟨hNext, hEnds⟩ := origin.follows rest
      obtain ⟨c, hClause, hEnd, hStart⟩ := b.starts before (origin.pieces.flatMap Piece.text ++ rest)
      have hExport := leads_export (f := top) rfl rfl hEnd hStart hClause
      have hBindings := b.leads (fun hWord => hEnds (hAfter hWord)) hNext (by decide)
      have hWhole : Leads top _ _ top rest := hExport.trans ((leads_gap before rfl).trans
        (hBindings.trans (origin.leads (hLine _ List.mem_cons_self))))
      simpa [Item.pieces, exportWord, Word.text] using hWhole
  | exports before ns after =>
      have hExport : Leads top _ _ clause
          (before.text ++ '\x7b' :: (ns.text ++ (after.text ++ ';' :: rest))) :=
        leads_export rfl rfl (ends_gap before fun _ => ends_cons (by decide))
          (next_gap before (by decide)) (.inl rfl)
      have hSemicolon : Leads clause (';' :: rest) _ top rest := leads_semicolon rfl
      have hWhole := hExport.trans ((leads_gap before rfl).trans
        ((leads_names ns).trans ((leads_gap after rfl).trans hSemicolon)))
      simpa [Item.pieces, exportWord, Word.text] using hWhole
  | lineComment text hText =>
      have hComment : Leads top _ _ top rest := leads_lineComment hText rfl
      simpa [Item.pieces] using hComment
  | blockComment text hText =>
      have hComment : Leads top _ _ top rest := leads_blockComment hText rfl
      simpa [Item.pieces] using hComment
  | statement code =>
      have hCode := code.leads top (';' :: rest) 0 hLine rfl rfl (by simp [top]) (fun _ => rfl)
        ⟨';', rest, rfl, .inl rfl⟩
      have hEnd : Leads { top with member := true } (';' :: rest) (plain [';']) top rest :=
        leads_semicolon rfl
      have hWhole := hCode.trans hEnd
      simpa [Item.pieces, Code.print] using hWhole

theorem leads_items (items : List (Item × Gap))
    (hLine : ∀ s ∈ items.flatMap fun (item, _) => item.specifiers, s.OneLine) :
    Leads top ((items.flatMap fun (item, gap) => item.pieces ++ plain gap.text).flatMap Piece.text)
      (items.flatMap fun (item, gap) => item.pieces ++ plain gap.text) top [] := by
  induction items with
  | nil => exact .refl top []
  | cons entry items ih =>
      obtain ⟨item, gap⟩ := entry
      rw [List.flatMap_cons] at hLine
      obtain ⟨hItem, hOthers⟩ := List.forall_mem_append.mp hLine
      have hWhole := (item.leads hItem).trans ((leads_gap gap rfl).trans (ih hOthers))
      simpa using hWhole

theorem Module.leads (m : Module) (hLine : ∀ s ∈ m.specifiers, s.OneLine) :
    Leads top m.print m.pieces top [] := by
  have hWhole := (leads_gap m.gap rfl).trans (leads_items m.items hLine)
  simpa [Module.print, Module.pieces] using hWhole

/-- The scanner accepts a printed module, and what it reads are the pieces of the module. -/
theorem survey_print (m : Module) (hLine : ∀ s ∈ m.specifiers, s.OneLine) :
    ∃ read, survey m.print = ⟨read, none⟩ ∧ read.flatMap Piece.marks = m.pieces := by
  obtain ⟨read, t, hScans, hRead, hEnd⟩ :=
    m.leads hLine (Scanner.initial m.print) ⟨rfl, rfl, rfl, fun _ => rfl, rfl, rfl⟩
  refine ⟨read, survey_eq hScans hEnd.ahead ?_, hRead⟩
  rw [Scanner.pending, hEnd.mode, hEnd.substitutions]
  rfl

/-! ### Relinking -/

theorem quoteWithin_of_clean {quote : Char} {text : List Char}
    (hClean : ∀ c ∈ text, c ≠ quote ∧ c ≠ '\\') : quoteWithin quote text = text := by
  induction text with
  | nil => rfl
  | cons c text ih =>
      obtain ⟨⟨hQuote, hEscape⟩, hOthers⟩ := List.forall_mem_cons.mp hClean
      have hKept : (if c = quote || c = '\\' then ['\\', c] else [c]) = [c] :=
        if_neg (by simp [hQuote, hEscape])
      rw [quoteWithin, List.flatMap_cons, hKept]
      exact congrArg (c :: ·) (ih hOthers)

namespace Specifier.Plain

variable {s : Specifier}

theorem oneLine (hPlain : s.Plain) : s.OneLine :=
  fun c hc => (hPlain c hc).2.2

theorem written (hPlain : s.Plain) : quoteWithin s.quote s.text = s.text :=
  quoteWithin_of_clean fun c hc => ⟨(hPlain c hc).1, (hPlain c hc).2.1⟩

theorem ask {m : Type → Type} [Monad m] (map : String → m (Option String)) (hPlain : s.Plain) :
    ask map s.text = map (String.ofList s.text) := by
  refine if_neg fun hEscape => ?_
  exact (hPlain '\\' (by simpa using hEscape)).2.1 rfl

/-- The answer for a plain specifier takes its place. -/
theorem edited (hPlain : s.Plain) (answer : Option String) :
    edited s.quote s.text answer = quoteWithin s.quote (s.answered answer).text := by
  cases answer with
  | none => exact hPlain.written.symm
  | some replacement =>
      show (if _ then _ else _) = quoteWithin s.quote replacement.toList
      split
      · rename_i hSame
        rw [hSame, hPlain.written]
      · rfl

end Specifier.Plain

section Relinking

variable {m : Type → Type} [Monad m] [LawfulMonad m] (map : String → m (Option String))

attribute [simp] relinkAll_append

omit [LawfulMonad m] in
@[simp] theorem relinkAll_nil : relinkAll map [] = pure [] := rfl

@[simp] theorem relinkAll_verbatim (text : List Char) (pieces : List Piece) :
    relinkAll map (.verbatim text :: pieces) = (text ++ ·) <$> relinkAll map pieces := by
  simp [relinkAll, Piece.relink]

@[simp] theorem relinkAll_plain_append (text : List Char) (pieces : List Piece) :
    relinkAll map (plain text ++ pieces) = (text ++ ·) <$> relinkAll map pieces := by
  induction text with
  | nil => simp
  | cons c text ih => simp [relinkAll_verbatim, ih]

@[simp] theorem relinkAll_plain (text : List Char) : relinkAll map (plain text) = pure text := by
  have hAll := relinkAll_plain_append map text []
  simpa using hAll

/-- Nothing depends on how verbatim text is cut. -/
theorem relinkAll_marks (pieces : List Piece) :
    relinkAll map (pieces.flatMap Piece.marks) = relinkAll map pieces := by
  induction pieces with
  | nil => rfl
  | cons piece pieces ih =>
      rw [List.flatMap_cons]
      cases piece with
      | verbatim text => rw [Piece.marks, relinkAll_plain_append, ih, relinkAll_verbatim]
      | target quote raw => simp only [Piece.marks, List.cons_append, List.nil_append, relinkAll, ih]

theorem relinkAll_specifier {s : Specifier} (hPlain : s.Plain) (pieces : List Piece) :
    relinkAll map (s.piece :: pieces) = (do
      let new ← s.relink map
      (new.piece.text ++ ·) <$> relinkAll map pieces) := by
  simp only [relinkAll, Specifier.piece, Piece.relink, hPlain.written, hPlain.ask, hPlain.edited,
    Specifier.relink, bind_assoc, pure_bind, map_eq_pure_bind]
  rfl

mutual

/-- Asking along the text of an expression is asking for its specifiers. -/
theorem Code.relinkAll_pieces {e : Edge} (code : Code e) (hPlain : ∀ s ∈ code.specifiers, s.Plain) :
    relinkAll map code.pieces = Code.print <$> code.traverse (·.relink map) := by
  match code with
  | .done gap => simp [Code.pieces, Code.traverse, Code.print]
  | .word gap hGap name rest =>
      have hRest := rest.relinkAll_pieces hPlain
      simp [Code.pieces, Code.traverse, Code.print, hRest]
  | .string gap literal rest =>
      have hRest := rest.relinkAll_pieces hPlain
      simp [Code.pieces, Code.traverse, Code.print, hRest]
  | .operator gap o rest =>
      have hRest := rest.relinkAll_pieces hPlain
      simp [Code.pieces, Code.traverse, Code.print, hRest]
  | .dynamic gap hGap hDot first second specifier third rest =>
      obtain ⟨hSpecifier, hOthers⟩ := List.forall_mem_cons.mp hPlain
      have hRest := rest.relinkAll_pieces hOthers
      simp [Code.pieces, Code.traverse, Code.print, relinkAll_specifier map hSpecifier, hRest]
  | .bracket gap b inner rest =>
      obtain ⟨hInner, hOthers⟩ := List.forall_mem_append.mp hPlain
      have hWithin := inner.relinkAll_pieces hInner
      have hRest := rest.relinkAll_pieces hOthers
      simp [Code.pieces, Code.traverse, Code.print, hWithin, hRest]
  | .template gap t rest =>
      obtain ⟨hInner, hOthers⟩ := List.forall_mem_append.mp hPlain
      have hText := t.relinkAll_pieces hInner
      have hRest := rest.relinkAll_pieces hOthers
      simp [Code.pieces, Code.traverse, Code.print, Template.print, hText, hRest]

theorem Template.relinkAll_pieces (t : Template) (hPlain : ∀ s ∈ t.specifiers, s.Plain) :
    relinkAll map t.pieces = Template.print <$> t.traverse (·.relink map) := by
  match t with
  | .last chunk => simp [Template.pieces, Template.traverse, Template.print]
  | .more chunk inner rest =>
      obtain ⟨hInner, hOthers⟩ := List.forall_mem_append.mp hPlain
      have hWithin := inner.relinkAll_pieces hInner
      have hRest := rest.relinkAll_pieces hOthers
      simp [Template.pieces, Template.traverse, Template.print, Code.print, hWithin, hRest]

end

def Item.print (item : Item) : List Char :=
  item.pieces.flatMap Piece.text

theorem Origin.relinkAll_pieces (o : Origin) (hPlain : o.specifier.Plain) :
    relinkAll map o.pieces = (do
      let new ← o.specifier.relink map
      pure (({ o with specifier := new } : Origin).pieces.flatMap Piece.text)) := by
  simp [Origin.pieces, relinkAll_specifier map hPlain]

theorem Item.relinkAll_pieces (item : Item) (hPlain : ∀ s ∈ item.specifiers, s.Plain) :
    relinkAll map item.pieces = Item.print <$> item.traverse (·.relink map) := by
  cases item with
  | effect before s after =>
      have hSpecifier := hPlain s List.mem_cons_self
      simp [Item.pieces, Item.traverse, Item.print, relinkAll_specifier map hSpecifier]
  | imports before b origin hBefore hAfter =>
      have hOrigin := origin.relinkAll_pieces map (hPlain _ List.mem_cons_self)
      simp [Item.pieces, Item.traverse, Item.print, hOrigin]
  | reexports before b origin hAfter =>
      have hOrigin := origin.relinkAll_pieces map (hPlain _ List.mem_cons_self)
      simp [Item.pieces, Item.traverse, Item.print, hOrigin]
  | exports before ns after => simp [Item.pieces, Item.traverse, Item.print]
  | lineComment text hText => simp [Item.pieces, Item.traverse, Item.print]
  | blockComment text hText => simp [Item.pieces, Item.traverse, Item.print]
  | statement code =>
      have hCode := code.relinkAll_pieces map hPlain
      simp [Item.pieces, Item.traverse, Item.print, Code.print, hCode]

theorem relinkAll_items (items : List (Item × Gap))
    (hPlain : ∀ s ∈ items.flatMap fun (item, _) => item.specifiers, s.Plain) :
    relinkAll map (items.flatMap fun (item, gap) => item.pieces ++ plain gap.text) =
      (fun items : List (Item × Gap) =>
        (items.flatMap fun (item, gap) => item.pieces ++ plain gap.text).flatMap Piece.text) <$>
        items.mapM fun (item, gap) => return (← item.traverse (·.relink map), gap) := by
  induction items with
  | nil => simp
  | cons entry items ih =>
      obtain ⟨item, gap⟩ := entry
      rw [List.flatMap_cons] at hPlain
      obtain ⟨hItem, hOthers⟩ := List.forall_mem_append.mp hPlain
      have hFirst := item.relinkAll_pieces map hItem
      simp [hFirst, ih hOthers, Item.print]

theorem Module.relinkAll_pieces (module : Module) (hPlain : ∀ s ∈ module.specifiers, s.Plain) :
    relinkAll map module.pieces = Module.print <$> module.relink map := by
  have hAll := relinkAll_items map module.items hPlain
  simp [Module.pieces, Module.print, Module.relink, Module.traverse, hAll]

end Relinking

/-! ### The order of the questions -/

/-- The computation writes down these names, behind those that are there. -/
def Tells {α : Type} (x : StateM (List String) α) (names : List String) : Prop :=
  ∀ seen, (x.run seen).2 = seen ++ names

namespace Tells

variable {α β : Type} {x : StateM (List String) α} {names first second : List String}

theorem pure (a : α) : Tells (pure a) [] :=
  fun seen => (List.append_nil seen).symm

theorem bind {next : α → StateM (List String) β} (hFirst : Tells x first)
    (hSecond : ∀ a, Tells (next a) second) : Tells (x >>= next) (first ++ second) := by
  intro seen
  rw [← List.append_assoc, ← hFirst seen]
  exact hSecond _ _

theorem bind_pure (hNames : Tells x names) (g : α → β) :
    Tells (x >>= fun a => Pure.pure (g a)) names := by
  have hBoth := hNames.bind fun a => Tells.pure (g a)
  rwa [List.append_nil] at hBoth

end Tells

section Order

variable {f : Specifier → StateM (List String) Specifier} {name : Specifier → String}

mutual

/-- A traversal comes to the specifiers of an expression in the order of its text. -/
theorem Code.tells (hVisit : ∀ s, Tells (f s) [name s]) {e : Edge} (code : Code e) :
    Tells (code.traverse f) (code.specifiers.map name) := by
  match code with
  | .done gap => exact .pure _
  | .word gap hGap n rest => exact (rest.tells hVisit).bind_pure _
  | .string gap literal rest => exact (rest.tells hVisit).bind_pure _
  | .operator gap o rest => exact (rest.tells hVisit).bind_pure _
  | .dynamic gap hGap hDot first second specifier third rest =>
      exact (hVisit specifier).bind fun _ => (rest.tells hVisit).bind_pure _
  | .bracket gap b inner rest =>
      have hBoth := (inner.tells hVisit).bind fun new =>
        (rest.tells hVisit).bind_pure (Code.bracket (e := e) gap b new)
      rwa [← List.map_append] at hBoth
  | .template gap t rest =>
      have hBoth := (t.tells hVisit).bind fun new =>
        (rest.tells hVisit).bind_pure (Code.template (e := e) gap new)
      rwa [← List.map_append] at hBoth

theorem Template.tells (hVisit : ∀ s, Tells (f s) [name s]) (t : Template) :
    Tells (t.traverse f) (t.specifiers.map name) := by
  match t with
  | .last chunk => exact .pure _
  | .more chunk inner rest =>
      have hBoth := (inner.tells hVisit).bind fun new =>
        (rest.tells hVisit).bind_pure (Template.more chunk new)
      rwa [← List.map_append] at hBoth

end

theorem Item.tells (hVisit : ∀ s, Tells (f s) [name s]) (item : Item) :
    Tells (item.traverse f) (item.specifiers.map name) := by
  cases item with
  | effect before s after => exact (hVisit s).bind_pure _
  | imports before b origin hBefore hAfter => exact (hVisit origin.specifier).bind_pure _
  | reexports before b origin hAfter => exact (hVisit origin.specifier).bind_pure _
  | exports | lineComment | blockComment => exact .pure _
  | statement code => exact (code.tells hVisit).bind_pure _

theorem tells_items (hVisit : ∀ s, Tells (f s) [name s]) (items : List (Item × Gap)) :
    Tells (items.mapM fun (item, gap) => return (← item.traverse f, gap))
      ((items.flatMap fun (item, _) => item.specifiers).map name) := by
  induction items with
  | nil => exact .pure _
  | cons entry items ih =>
      obtain ⟨item, gap⟩ := entry
      rw [List.mapM_cons, List.flatMap_cons, List.map_append]
      exact ((item.tells hVisit).bind_pure _).bind fun _ => ih.bind_pure _

theorem Module.tells (hVisit : ∀ s, Tells (f s) [name s]) (module : Module) :
    Tells (module.traverse f) (module.specifiers.map name) :=
  (tells_items hVisit module.items).bind_pure _

end Order

/-- Relinking commutes with printing. The text of a module, with whatever layout, is accepted, exactly its
specifiers are asked for, in the order of the text, and what comes out is the text of the module with the
answers in place of the specifiers: for every map, with whatever effects and answers. -/
theorem relink_print (module : Module) (hPlain : ∀ s ∈ module.specifiers, s.Plain) :
    failure? (String.ofList module.print) = none ∧
    asked (String.ofList module.print) = module.specifiers.map (fun s => String.ofList s.text) ∧
    ∀ (m : Type → Type) [Monad m] [LawfulMonad m] (map : String → m (Option String)),
      relink map (String.ofList module.print) =
        (fun new : Module => .ok (String.ofList new.print)) <$> module.relink map := by
  obtain ⟨read, hSurvey, hRead⟩ := survey_print module fun s hs => (hPlain s hs).oneLine
  have hAccepted : failure? (String.ofList module.print) = none := by
    rw [failure?, String.toList_ofList, hSurvey]
  have hRelink (m : Type → Type) [Monad m] [LawfulMonad m] (map : String → m (Option String)) :
      relink map (String.ofList module.print) =
        (fun new : Module => .ok (String.ofList new.print)) <$> module.relink map := by
    rw [relink_eq_relinkAll, hAccepted, String.toList_ofList, hSurvey]
    have hAll := module.relinkAll_pieces map hPlain
    rw [← hRead, relinkAll_marks] at hAll
    simp [hAll]
  refine ⟨hAccepted, ?_, hRelink⟩
  have hOrder : Tells (module.relink (recording fun _ => none))
      (module.specifiers.map fun s => String.ofList s.text) := module.tells fun s seen => rfl
  rw [← relink_recording (fun _ => none), hRelink]
  exact hOrder []

/-- A binding may be called `from`, and an import may stand inside of a template. -/
def mixed : Module :=
  let none : Gap := ⟨[], List.all_eq_true.mp rfl⟩
  let space : Gap := ⟨[' '], List.all_eq_true.mp rfl⟩
  let dynamic : Code .other := .dynamic none (by decide) (by decide) none none
    ⟨'"', ['c'], by decide⟩ none (.done none)
  ⟨none, [
    (.imports space (.default fromWord) ⟨space, none, ⟨'\'', ['b'], by decide⟩, none⟩ (by decide)
      (by decide), space),
    (.statement (.template none (.more ⟨[], .nil⟩ dynamic (.last ⟨[], .nil⟩)) (.done none)), none)]⟩

theorem asked_mixed :
    asked (String.ofList "import from from'b'; \x60$\x7bimport(\"c\")\x7d\x60;".toList) = ["b", "c"] :=
  (relink_print mixed (by simp [mixed, Module.specifiers, Item.specifiers, Code.specifiers,
    Template.specifiers, Specifier.Plain, isLineEnd])).2.1

end ModuleGateway.Relink.Concrete
