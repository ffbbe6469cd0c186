/-
Module: ClosureVtl.Proofs.Render.InterpolatedPieces
Purpose: The text and the lines of a template, piece by piece.
Main exports:
  TemplatePart, templateParts, Piece, Piece.Inert, Text.pieces, Walker.RendersPiece,
  Walker.Assembles, Text.pieces_join, templateLiteral_pieces
-/
import ClosureVtl.Proofs.Number.Notation
import ClosureVtl.Proofs.Render.AppendedLines
import ClosureVtl.Proofs.Render.Emission
import ClosureVtl.Proofs.Render.Inversion
import ClosureVtl.Proofs.Text.StringLiteral
import Mathlib.Data.List.Chain

namespace ClosureVtl

/-!
A template is rendered to one string in double quotes, in which the engine evaluates nothing but
names in braces.  `Piece` is what such a string is put together from, and `Text.pieces` reads the
pieces back.  `Walker.RendersPiece` says which piece and which lines each part of a template is
rendered to; `Walker.Assembles` goes through the parts in source order.

Two things make the reading back unambiguous: no piece of text has a mark that the engine
evaluates, and no name has a brace.  Text that is next to a name never runs into other text, as
an expression stands between any two literal parts.
-/

/-! ### Pieces of an interpolated string -/

/-- A piece of an interpolated string. -/
inductive Piece where
  /-- text that stands for itself -/
  | plain (text : String)
  /-- the value of a name -/
  | named (name : String)
deriving DecidableEq, Repr

namespace Piece

/-- A piece as it is written. -/
def text : Piece → String
  | plain text => text
  | named name => "$\x7b" ++ name ++ "\x7d"

/-- Whether the engine evaluates exactly the names among the pieces: text has neither of the two
marks, and a name has no mark and no brace. -/
def Inert : Piece → Prop
  | plain text => '$' ∉ text.toList ∧ '#' ∉ text.toList
  | named name => name ≠ "" ∧ '$' ∉ name.toList ∧ '#' ∉ name.toList ∧ '\x7b' ∉ name.toList ∧
      '\x7d' ∉ name.toList

/-- Whether a piece is text. -/
def isPlain : Piece → Bool
  | plain _ => true
  | named _ => false

end Piece

namespace Text

/-- Text that has been read, unless there is none. -/
def plainPiece : List Char → List Piece
  | [] => []
  | read => [.plain (String.ofList read)]

/-- Text that was read becomes a piece unless it is empty. -/
theorem plainPiece_of_ne_nil {read : List Char} (h : read ≠ []) :
    plainPiece read = [.plain (String.ofList read)] := by
  cases read with
  | nil => exact absurd rfl h
  | cons c rest => rfl

/-- Reads the inside of an interpolated string, outside of braces or within.  A dollar sign opens
a name, whose first character is the brace. -/
def piecesFrom : Bool → List Char → List Char → List Piece
  | false, read, [] => plainPiece read
  | true, _, [] => []
  | false, read, c :: rest =>
    if c = '$' then plainPiece read ++ piecesFrom true [] rest
    else piecesFrom false (read ++ [c]) rest
  | true, read, c :: rest =>
    if c = '\x7d' then .named (String.ofList (read.drop 1)) :: piecesFrom false [] rest
    else piecesFrom true (read ++ [c]) rest

/-- The pieces of an interpolated string in its double quotes, but for text of no length. -/
def pieces (text : String) : List Piece :=
  piecesFrom false [] (text.toList.drop 1).dropLast

/-- Text without a dollar sign is read on as it is. -/
theorem piecesFrom_plain {cs : List Char} (h : '$' ∉ cs) (read rest : List Char) :
    piecesFrom false read (cs ++ rest) = piecesFrom false (read ++ cs) rest := by
  induction cs generalizing read with
  | nil => rw [List.nil_append, List.append_nil]
  | cons c cs ih =>
    obtain ⟨hc, hcs⟩ := not_or.mp (mt List.mem_cons.mpr h)
    rw [List.cons_append, piecesFrom, if_neg (Ne.symm hc), ih hcs, List.append_assoc]
    rfl

/-- A name in braces ends at the first closing brace. -/
theorem piecesFrom_named {cs : List Char} (h : '\x7d' ∉ cs) (read rest : List Char) :
    piecesFrom true read (cs ++ '\x7d' :: rest) =
      .named (String.ofList ((read ++ cs).drop 1)) :: piecesFrom false [] rest := by
  induction cs generalizing read with
  | nil => rw [List.nil_append, piecesFrom, if_pos rfl, List.append_nil]
  | cons c cs ih =>
    obtain ⟨hc, hcs⟩ := not_or.mp (mt List.mem_cons.mpr h)
    rw [List.cons_append, piecesFrom, if_neg (Ne.symm hc), ih hcs, List.append_assoc]
    rfl

/-- Inert pieces are read back, if what was read before is not followed by more text. -/
theorem piecesFrom_flatMap {list : List Piece} (hinert : ∀ piece ∈ list, piece.Inert)
    (hapart : list.IsChain fun piece next => ¬ (piece.isPlain ∧ next.isPlain)) (read : List Char)
    (hread : read = [] ∨ list.head?.any Piece.isPlain = false) :
    piecesFrom false read (list.flatMap fun piece => piece.text.toList) =
      plainPiece read ++ list.filter (· ≠ .plain "") := by
  induction list generalizing read with
  | nil => rw [List.flatMap_nil, piecesFrom, List.filter_nil, List.append_nil]
  | cons piece rest ih =>
    obtain ⟨hfirst, hrest⟩ := List.forall_mem_cons.mp hinert
    rw [List.flatMap_cons]
    cases piece with
    | plain text =>
      have hempty : read = [] := hread.resolve_right (by simp [Piece.isPlain])
      have hnext : rest.head?.any Piece.isPlain = false := by
        cases rest with
        | nil => rfl
        | cons next _ => simpa [Piece.isPlain] using (List.isChain_cons_cons.mp hapart).1
      rw [hempty, Piece.text, piecesFrom_plain hfirst.1, List.nil_append,
        ih hrest hapart.tail _ (.inr hnext), plainPiece, List.nil_append]
      by_cases htext : text = ""
      · subst htext
        rfl
      · have hlist : text.toList ≠ [] := fun h => htext (String.toList_injective h)
        rw [plainPiece_of_ne_nil hlist, String.ofList_toList, List.filter_cons_of_pos (by simpa)]
        rfl
    | named name =>
      have hclosed : '\x7d' ∉ '\x7b' :: name.toList := by
        simp [hfirst.2.2.2.2]
      have hsplit :
          (Piece.named name).text.toList ++ rest.flatMap (fun piece => piece.text.toList) =
            '$' :: (('\x7b' :: name.toList) ++
              '\x7d' :: rest.flatMap fun piece => piece.text.toList) := by
        simp [Piece.text]
      rw [hsplit, piecesFrom, if_pos rfl, piecesFrom_named hclosed,
        ih hrest hapart.tail [] (.inl rfl), List.filter_cons_of_pos (by simp)]
      simp [plainPiece]

/-- The pieces of an interpolated string are read back, but for text of no length. -/
theorem pieces_join {list : List Piece} (hinert : ∀ piece ∈ list, piece.Inert)
    (hapart : list.IsChain fun piece next => ¬ (piece.isPlain ∧ next.isPlain)) :
    pieces ("\"" ++ String.join (list.map Piece.text) ++ "\"") = list.filter (· ≠ .plain "") := by
  have hinside : ((("\"" ++ String.join (list.map Piece.text) ++ "\"").toList.drop 1).dropLast) =
      list.flatMap fun piece => piece.text.toList := by
    simp [String.toList_join, List.flatMap, Function.comp_def]
  unfold pieces
  rw [hinside, piecesFrom_flatMap hinert hapart [] (.inl rfl)]
  rfl

/-! ### Names of references -/

variable {name : String}

/-- A dollar sign and a name are a reference if the name is not empty and has only letters,
digits, underscores and dots. -/
theorem isReference_dollar (name : String) :
    isReference ("$" ++ name) = (!name.toList.isEmpty &&
      name.toList.all fun c => isAlphanumeric c || c == '_' || c == '.') := by
  unfold isReference
  rw [String.toList_append]
  rfl

/-- What stands behind the dollar sign of a reference has no mark and no brace. -/
theorem inert_named (h : isReference ("$" ++ name) = true) : (Piece.named name).Inert := by
  rw [isReference_dollar] at h
  obtain ⟨hname, hall⟩ := Bool.and_eq_true_iff.mp h
  have hforeign : ∀ {mark : Char}, (isAlphanumeric mark || mark == '_' || mark == '.') = false →
      mark ∉ name.toList := fun hmark hm =>
    Bool.false_ne_true (hmark.symm.trans (List.all_eq_true.mp hall _ hm))
  refine ⟨?_, hforeign (by decide), hforeign (by decide), hforeign (by decide),
    hforeign (by decide)⟩
  rintro rfl
  cases hname

/-- A reference is a dollar sign with a name behind it. -/
theorem exists_name_of_isReference {value : String} (h : isReference value = true) :
    ∃ name, value = "$" ++ name := by
  unfold isReference at h
  split at h
  · next path hpath =>
    refine ⟨String.ofList path, String.toList_injective ?_⟩
    simp [hpath]
  · cases h

/-- Such a reference is written in braces. -/
theorem interpolation_dollar (name : String) :
    interpolation ("$" ++ name) = (Piece.named name).text := by
  unfold interpolation
  rw [String.toList_append]
  show "$\x7b" ++ String.ofList name.toList ++ "\x7d" = _
  rw [String.ofList_toList]
  rfl

end Text

theorem Render.tempName_eq (number : Nat) : tempName number = "$" ++ s!"v{number}" := by
  apply String.toList_injective
  simp only [tempName, String.toList_append]
  rfl

theorem Text.isAlphanumeric_of_isDigit {c : Char} (h : c.isDigit = true) :
    isAlphanumeric c = true := by
  have hascii : c.toNat < 128 := by
    have hbound : c.toNat ≤ 57 := (Char.isDigit_iff_toNat.mp h).2
    omega
  rw [isAlphanumeric_of_ascii hascii, Char.isAlphanum, h, Bool.or_true]

/-- So the name of a temporary can be interpolated. -/
theorem Text.isReference_tempName (number : Nat) :
    isReference (Render.tempName number) = true := by
  have hpath : (s!"v{number}").toList = 'v' :: Nat.toDigits 10 number := by
    rw [String.toList_append, toList_toString]
    rfl
  rw [Render.tempName_eq, isReference_dollar, hpath, Bool.and_eq_true]
  refine ⟨rfl, List.all_eq_true.mpr fun c hm => ?_⟩
  have hletter : isAlphanumeric c = true := by
    rcases List.mem_cons.mp hm with rfl | hm
    · decide
    · exact isAlphanumeric_of_isDigit (isDigit_toDigits number c hm)
  rw [hletter]
  rfl

/-! ### Parts of a template -/

/-- A part of a template: literal text, or an expression whose value is put in. -/
inductive TemplatePart where
  | literal (text : String)
  | value (expr : NodeId)
deriving DecidableEq, Repr

/-- Whether a part is literal text. -/
def TemplatePart.isLiteral : TemplatePart → Bool
  | literal _ => true
  | value _ => false

/-- The parts of a template in source order: the head, and each expression with the literal text
behind it. -/
def templateParts (head : String) (spans : List TemplateSpan) : List TemplatePart :=
  .literal head :: spans.flatMap fun span => [.value span.expr, .literal span.literal]

/-- What a part is rendered to: its piece of the text, and the lines it needs. -/
structure PieceOutput where
  piece : Piece
  lines : List String
deriving DecidableEq, Repr

namespace Walker

/-- Whether a run of a part yields a piece and some lines.  Literal text without marks is
escaped.  Other literal text is read from a fresh temporary, which one line sets to a literal in
single quotes that decodes to the text.  A value is read from the reference that it is rendered
to. -/
inductive RendersPiece (w : Walker) : TemplatePart → Output → PieceOutput → Output → Prop where
  | plain {literal : String} {out : Output}
      (marks : '$' ∉ literal.toList ∧ '#' ∉ literal.toList) :
      RendersPiece w (.literal literal) out ⟨.plain (Text.escape literal), []⟩ out
  | stored {literal quoted : String} {out : Output}
      (marks : '$' ∈ literal.toList ∨ '#' ∈ literal.toList)
      (single : ∃ inside, quoted.toList = '\'' :: inside ++ ['\''])
      (decodes : Text.unquote? quoted = some literal) :
      RendersPiece w (.literal literal) out
        ⟨.named s!"v{out.temps + 1}", [s!"#set($v{out.temps + 1} = {quoted})"]⟩
        (out.extend [s!"#set($v{out.temps + 1} = {quoted})"] 1 out.integrations)
  | value {expr : NodeId} {name : String} {lines : List String} {out final : Output}
      (run : (w.reference expr).runOn out = (.ok ("$" ++ name), final))
      (reference : Text.isReference ("$" ++ name) = true)
      (written : final.lines.toList = out.lines.toList ++ lines) :
      RendersPiece w (.value expr) out ⟨.named name, lines⟩ final

/-- Whether a run is made of runs of parts, one after the other. -/
inductive Assembles (w : Walker) :
    List TemplatePart → Output → List PieceOutput → Output → Prop where
  | nil {out : Output} : Assembles w [] out [] out
  | cons {part : TemplatePart} {parts : List TemplatePart} {out middle final : Output}
      {piece : PieceOutput} {pieces : List PieceOutput}
      (first : w.RendersPiece part out piece middle)
      (rest : w.Assembles parts middle pieces final) :
      Assembles w (part :: parts) out (piece :: pieces) final

variable {w : Walker} {part : TemplatePart} {parts : List TemplatePart} {piece : PieceOutput}
  {pieces : List PieceOutput} {out middle final : Output}
  {literal head value text : String} {spans : List TemplateSpan}

/-- The lines of the parts are appended in source order. -/
theorem Assembles.lines (h : w.Assembles parts out pieces final) :
    final.lines.toList = out.lines.toList ++ pieces.flatMap PieceOutput.lines := by
  induction h with
  | nil => rw [List.flatMap_nil, List.append_nil]
  | cons first _ ih =>
    rw [ih, List.flatMap_cons, ← List.append_assoc]
    congr 1
    cases first with
    | plain _ => exact (List.append_nil _).symm
    | stored _ _ _ => simp [Output.extend]
    | value _ _ written => exact written

/-- Only literal text is rendered to text. -/
theorem RendersPiece.isLiteral (h : w.RendersPiece part out piece final)
    (hplain : piece.piece.isPlain = true) : part.isLiteral = true := by
  cases h with
  | plain _ => rfl
  | stored _ _ _ => rfl
  | value _ _ _ => cases hplain

/-- What is rendered for a part of a template is inert. -/
theorem RendersPiece.inert (h : w.RendersPiece part out piece final) : piece.piece.Inert := by
  cases h with
  | plain marks =>
    exact ⟨Text.not_mem_escape (by decide) marks.1, Text.not_mem_escape (by decide) marks.2⟩
  | stored _ _ _ =>
    apply Text.inert_named
    rw [← Render.tempName_eq]
    exact Text.isReference_tempName _
  | value _ reference _ => exact Text.inert_named reference

/-- So are all pieces that are put together. -/
theorem Assembles.inert (h : w.Assembles parts out pieces final) :
    ∀ piece ∈ pieces.map PieceOutput.piece, piece.Inert := by
  induction h with
  | nil => exact List.forall_mem_nil _
  | cons first _ ih => exact List.forall_mem_cons.mpr ⟨first.inert, ih⟩

/-- Parts of which no two literal ones are neighbours have pieces of which no two texts are. -/
theorem Assembles.apart (h : w.Assembles parts out pieces final)
    (hparts : parts.IsChain fun part next => ¬ (part.isLiteral ∧ next.isLiteral)) :
    (pieces.map PieceOutput.piece).IsChain fun piece next => ¬ (piece.isPlain ∧ next.isPlain) := by
  induction h with
  | nil => exact .nil
  | cons first rest ih =>
    cases rest with
    | nil => exact .singleton _
    | cons second rest =>
      obtain ⟨hfirst, hrest⟩ := List.isChain_cons_cons.mp hparts
      refine List.isChain_cons_cons.mpr ⟨fun hplain => hfirst ?_, ih hrest⟩
      exact ⟨first.isLiteral hplain.1, second.isLiteral hplain.2⟩

/-- No two literals stand next to each other, since there is a value between them. -/
theorem isChain_templateParts (head : String) (spans : List TemplateSpan) :
    (templateParts head spans).IsChain fun part next => ¬ (part.isLiteral ∧ next.isLiteral) := by
  induction spans generalizing head with
  | nil => exact .singleton _
  | cons span rest ih =>
    refine List.isChain_cons_cons.mpr ⟨by simp [TemplatePart.isLiteral], ?_⟩
    exact List.isChain_cons_cons.mpr ⟨by simp [TemplatePart.isLiteral], ih span.literal⟩

/-! ### Runs of the parts -/

/-- A literal that is written inline is one plain piece; one that has template syntax is moved to
a temporary. -/
theorem exists_rendersPiece_of_templateText
    (h : (templateText literal).runOn out = (.ok text, final)) :
    ∃ piece, w.RendersPiece (.literal literal) out piece final ∧ text = piece.piece.text := by
  unfold templateText at h
  split at h
  · next htemplate =>
    obtain ⟨temp, middle, htemp, h⟩ := Render.runOn_bind_eq_ok_iff.mp h
    cases (Render.emits_materialize _ out).symm.trans htemp
    cases (Render.runOn_pure _ _).symm.trans h
    have hquoted := Text.toList_quote_of_isTemplateSyntax htemplate
    refine ⟨_, .stored (Text.isTemplateSyntax_iff.mp htemplate) ⟨_, hquoted⟩
      (Text.unquote?_quote literal), ?_⟩
    rw [Render.tempName_eq, Text.interpolation_dollar]
  · next htemplate =>
    cases (Render.runOn_pure _ _).symm.trans h
    have hplain : Text.isTemplateSyntax literal = false := Bool.eq_false_iff.mpr htemplate
    exact ⟨_, .plain (Text.isTemplateSyntax_eq_false_iff.mp hplain), rfl⟩

/-- A reference that is returned is a reference. -/
theorem isReference_of_reference {expr : NodeId}
    (h : (w.reference expr).runOn out = (.ok value, final)) : Text.isReference value = true := by
  obtain ⟨found, middle, _, h⟩ := Render.runOn_bind_eq_ok_iff.mp h
  unfold toReference at h
  split at h
  · next hfound =>
    cases (Render.runOn_pure _ _).symm.trans h
    exact hfound
  · cases (Render.emits_materialize found middle).symm.trans h
    exact Text.isReference_tempName _

/-- The value of a span is a reference, and that is a named piece. -/
theorem exists_rendersPiece_of_reference (hw : w.Appends) {expr : NodeId}
    (h : (w.reference expr).runOn out = (.ok value, final)) :
    ∃ piece, w.RendersPiece (.value expr) out piece final ∧
      Text.interpolation value = piece.piece.text := by
  have hreference := isReference_of_reference h
  obtain ⟨name, rfl⟩ := Text.exists_name_of_isReference hreference
  obtain ⟨lines, hlines⟩ := hw.reference expr h
  exact ⟨_, .value h hreference hlines.symm, Text.interpolation_dollar name⟩

/-- Spans are rendered in order, each to the piece of its value and that of its literal text. -/
theorem exists_assembles_of_mapM (hw : w.Appends) {texts : List String}
    (h : (spans.mapM w.templateSpan).runOn out = (.ok texts, final)) :
    ∃ pieces, w.Assembles (spans.flatMap fun span => [.value span.expr, .literal span.literal])
        out pieces final ∧
      String.join texts = String.join (pieces.map fun piece => piece.piece.text) := by
  induction spans generalizing out texts with
  | nil =>
    cases (Render.runOn_pure _ _).symm.trans h
    exact ⟨[], .nil, rfl⟩
  | cons span rest ih =>
    rw [List.mapM_cons] at h
    obtain ⟨first, middle, hfirst, h⟩ := Render.runOn_bind_eq_ok_iff.mp h
    obtain ⟨others, last, hothers, h⟩ := Render.runOn_bind_eq_ok_iff.mp h
    cases (Render.runOn_pure _ _).symm.trans h
    obtain ⟨value, start, hvalue, hfirst⟩ := Render.runOn_bind_eq_ok_iff.mp hfirst
    obtain ⟨literal, finish, hliteral, hfirst⟩ := Render.runOn_bind_eq_ok_iff.mp hfirst
    cases (Render.runOn_pure _ _).symm.trans hfirst
    obtain ⟨named, hnamed, hname⟩ := exists_rendersPiece_of_reference hw hvalue
    obtain ⟨behind, hbehind, htext⟩ := exists_rendersPiece_of_templateText (w := w) hliteral
    obtain ⟨pieces, hpieces, hjoin⟩ := ih hothers
    refine ⟨_, .cons hnamed (.cons hbehind hpieces), ?_⟩
    rw [hname, htext, String.join_cons, hjoin]
    simp [String.append_assoc]

/-- The head and the spans are the parts of a template; their pieces are put together in order.
-/
theorem exists_assembles_of_templateLiteral (hw : w.Appends)
    (h : (w.templateLiteral head spans).runOn out = (.ok text, final)) :
    ∃ pieces, w.Assembles (templateParts head spans) out pieces final ∧
      text = "\"" ++ String.join (pieces.map fun piece => piece.piece.text) ++ "\"" := by
  obtain ⟨first, middle, hfirst, h⟩ := Render.runOn_bind_eq_ok_iff.mp h
  obtain ⟨texts, last, htexts, h⟩ := Render.runOn_bind_eq_ok_iff.mp h
  cases (Render.runOn_pure _ _).symm.trans h
  obtain ⟨piece, hpiece, rfl⟩ := exists_rendersPiece_of_templateText (w := w) hfirst
  obtain ⟨pieces, hpieces, hjoin⟩ := exists_assembles_of_mapM hw htexts
  refine ⟨_, .cons hpiece hpieces, ?_⟩
  rw [hjoin]
  simp [String.append_assoc]

end Walker

/-! ### Templates -/

/-- A template that renders is a string in double quotes.  Between them stand the pieces of its
head, of each expression and of the literal text behind it, in source order, and the lines that
the pieces need are appended in the same order.  The engine evaluates exactly the names among the
pieces, and the pieces can be read back from the string. -/
theorem templateLiteral_pieces {p : Program}
    (hp : ∀ integration ∈ p.integrations, integration.Appends) {dialect : Dialect} {id : NodeId}
    {head : String} {spans : List TemplateSpan}
    (hn : p.arena.get? id = some (.template head spans)) {n : Nat} {out final : Output}
    {text : String}
    (h : ((p.walkerWithin dialect (n + 1)).expression id).runOn out = (.ok text, final)) :
    ∃ pieces,
      (p.walkerWithin dialect n).Assembles (templateParts head spans) out pieces final ∧
      text = "\"" ++ String.join (pieces.map fun piece => piece.piece.text) ++ "\"" ∧
      final.lines.toList = out.lines.toList ++ pieces.flatMap PieceOutput.lines ∧
      (∀ piece ∈ pieces, piece.piece.Inert) ∧
      Text.pieces text = (pieces.map PieceOutput.piece).filter (· ≠ .plain "") := by
  have hget : (p.walkerWithin dialect n).arena.get? id = some (.template head spans) := by
    rw [p.arena_walkerWithin]
    exact hn
  have hrun : ((p.walkerWithin dialect n).renderExpression id).runOn out = (.ok text, final) := h
  rw [Walker.renderExpression, Walker.node_eq_pure hget, pure_bind] at hrun
  obtain ⟨pieces, hpieces, rfl⟩ := Walker.exists_assembles_of_templateLiteral
    (p.appends_walkerWithin hp dialect n) hrun
  refine ⟨pieces, hpieces, rfl, hpieces.lines, fun piece hm => ?_, ?_⟩
  · exact hpieces.inert _ (List.mem_map_of_mem hm)
  · have hread := Text.pieces_join hpieces.inert
      (hpieces.apart (Walker.isChain_templateParts head spans))
    rwa [List.map_map] at hread

/-- The closure of the template `#1 ${input.name} costs $${price(input)}!`, where `price` is an
integration. -/
def Program.invoiceLine : Program :=
  (Builder.of [.ofStyle "table.get" .inline]
    [.identifier "input", .member ⟨0⟩ "name", .reference "price" (some ⟨0⟩), .identifier "input",
      .argument ⟨3⟩ none, .call ⟨2⟩ [⟨4⟩],
      .template "#1 " [⟨⟨1⟩, " costs $"⟩, ⟨⟨5⟩, "!"⟩], .identifier "input",
      .parameter ⟨7⟩ none, .function [⟨8⟩] ⟨6⟩]).program

/-- Two literal parts and the call are read from temporaries. -/
theorem templateLiteral_pieces_invoiceLine :
    ∃ pieces final,
      ((Program.invoiceLine.walkerWithin (.resolver {}) 8).expression ⟨6⟩).runOn {} =
        (.ok "\"$\x7bv1\x7d$\x7bcontext.arguments.name\x7d$\x7bv2\x7d$\x7bv3\x7d!\"", final) ∧
      (Program.invoiceLine.walkerWithin (.resolver {}) 7).Assembles
        (templateParts "#1 " [⟨⟨1⟩, " costs $"⟩, ⟨⟨5⟩, "!"⟩]) {} pieces final ∧
      pieces.flatMap PieceOutput.lines =
        ["#set($v1 = '#1 ')", "#set($v2 = ' costs $')",
          "#set($v3 = $util.invoke(\"table.get\", $context.arguments))"] ∧
      (pieces.map PieceOutput.piece).filter (· ≠ .plain "") =
        [.named "v1", .named "context.arguments.name", .named "v2", .named "v3", .plain "!"] := by
  have htable : Program.invoiceLine.integrations = #[.ofStyle "table.get" .inline] := by cbv
  have happends : ∀ integration ∈ Program.invoiceLine.integrations, integration.Appends := by
    rw [htable]
    intro integration hm
    rw [List.mem_singleton.mp (List.mem_toArray.mp hm)]
    exact Integration.appends_ofStyle _ _
  have hn : Program.invoiceLine.arena.get? ⟨6⟩ =
      some (.template "#1 " [⟨⟨1⟩, " costs $"⟩, ⟨⟨5⟩, "!"⟩]) := by
    cbv
  have hrun : ((Program.invoiceLine.walkerWithin (.resolver {}) 8).expression ⟨6⟩).runOn {} =
      (.ok "\"$\x7bv1\x7d$\x7bcontext.arguments.name\x7d$\x7bv2\x7d$\x7bv3\x7d!\"",
        ⟨#["#set($v1 = '#1 ')", "#set($v2 = ' costs $')",
          "#set($v3 = $util.invoke(\"table.get\", $context.arguments))"], 3, #[⟨0⟩]⟩) := by
    decide +kernel
  obtain ⟨pieces, hpieces, -, hlines, -, hread⟩ := templateLiteral_pieces happends hn hrun
  refine ⟨pieces, _, hrun, hpieces, hlines.symm, ?_⟩
  rw [← hread]
  decide +kernel

end ClosureVtl
