/-
Module: ClosureVtl.Proofs.Render.LiteralFragment
Purpose: Literals are printed as JSON text, and the text is read back as the literal.
Main exports:
  JsonTree, Arena.literalWithin, JsonLeaf, LeafScanner.fill, JsonTree.Reads,
  literal_fragment_parses
-/
import ClosureVtl.Proofs.Closure.PlacedWalks
import ClosureVtl.Proofs.Number.Nearest

namespace ClosureVtl

/-!
A literal may have parts that are read from the payload by a path.  They stand in its text as
calls that the template engine replaces by JSON text, so the text itself is no JSON; it becomes
JSON once every call is replaced.  `LeafScanner.fill` makes the replacement on the text alone,
without knowing what the text was printed from: it looks at one character after the other and
finds the end of each call by the quotes in it.

What the text of a part is filled with does not depend on what is around it.  That is the
invariant of the induction, `JsonTree.Written`, and it composes as reading JSON does.
-/

/-! ### Literals -/

/-- The key of a property: a name or a string, or a number. -/
inductive JsonKey where
  | name (text : String)
  | number (value : Binary64)

/-- A value that is written out in a closure, but for the parts that are read from the
payload. -/
inductive JsonTree where
  | null
  | boolean (value : Bool)
  | number (value : Binary64)
  | string (text : String)
  | payload (path : String)
  | array (items : List JsonTree)
  | object (members : List (JsonKey × JsonTree))

mutual

/-- The paths of the parts that are read from the payload, in the order of the text. -/
def JsonTree.paths : JsonTree → List String
  | .payload path => [path]
  | .array items => JsonTree.pathsOfItems items
  | .object members => JsonTree.pathsOfMembers members
  | _ => []

def JsonTree.pathsOfItems : List JsonTree → List String
  | [] => []
  | item :: items => item.paths ++ pathsOfItems items

def JsonTree.pathsOfMembers : List (JsonKey × JsonTree) → List String
  | [] => []
  | member :: members => JsonTree.pathsOfMember member ++ pathsOfMembers members

def JsonTree.pathsOfMember : JsonKey × JsonTree → List String
  | (_, item) => item.paths

end

namespace Arena

/-- The key that a property has, if it is a literal without template syntax. -/
def literalKey? (a : Arena) (name : NodeId) : Option JsonKey :=
  match a.get? name with
  | some (.identifier text) | some (.string text) =>
    if Text.isTemplateSyntax text then none else some (.name text)
  | some (.number value) => if value.isFinite then some (.number value) else none
  | _ => none

/-- The property of an object literal. -/
def literalMember? (a : Arena) (walk : NodeId → Option JsonTree) (property : NodeId) :
    Option (JsonKey × JsonTree) :=
  match a.get? property with
  | some (.property name value) =>
    (a.literalKey? name).bind fun key => (walk value).map fun tree => (key, tree)
  | _ => none

/-- The literal that a node is, if its parts are literals. -/
def literalOf (a : Arena) (walk : NodeId → Option JsonTree) : Node → Option JsonTree
  | .null | .undefined => some .null
  | .boolean value => some (.boolean value)
  | .number value => if value.isFinite then some (.number value) else none
  | .string text => if Text.isTemplateSyntax text then none else some (.string text)
  | .array items => (items.mapM walk).map .array
  | .object properties => (properties.mapM (a.literalMember? walk)).map .object
  | .await inner => walk inner
  | _ => none

/-- The literal that an expression of at most `n` levels is: null and undefined, booleans,
finite numbers, strings, arrays without spreads, objects whose keys are names, strings or finite
numbers, and paths into the payload; with any parentheses and `await` around each of them. -/
def literalWithin (a : Arena) : Nat → NodeId → Option JsonTree
  | 0, _ => none
  | n + 1, expr =>
    match a.jsonPath (a.unwrapParens expr) with
    | some path => some (.payload path)
    | none => (a.get? (a.unwrapParens expr)).bind (a.literalOf (a.literalWithin n))

end Arena

/-! ### Filling in the payload -/

/-- A part that is read from the payload, and the JSON text that it is replaced by. -/
structure JsonLeaf where
  path : String
  text : List Char
  value : Json
  valid : Json.parse text = some value

/-- Where a scanner for calls stands: in the text around them, in the name of a function, in the
quotes around a path, or behind a quote that may be the end of it. -/
inductive LeafScanner where
  | text
  | function (read : List Char)
  | path (read : List Char)
  | quote (read : List Char)

namespace LeafScanner

/-- Replaces the calls that read from the payload, one after the other; each must have the path
of the part that it is replaced by, and none may be missing or left over. -/
def fill : LeafScanner → List JsonLeaf → List Char → Option (List Char)
  | text, [], [] => some []
  | text, leaves, c :: rest =>
    if c = '$' then (function []).fill leaves rest
    else (text.fill leaves rest).map (c :: ·)
  | function read, leaves, c :: rest =>
    if c ≠ '\'' then (function (read ++ [c])).fill leaves rest
    else if read = "input.json(".toList then (path []).fill leaves rest
    else none
  | path read, leaves, c :: rest =>
    if c = '\'' then (quote read).fill leaves rest
    else (path (read ++ [c])).fill leaves rest
  | quote read, leaves, c :: rest =>
    -- two quotes are a quote in the path, and a parenthesis behind one ends the call
    if c = '\'' then (path (read ++ [c])).fill leaves rest
    else
      match leaves with
      | leaf :: leaves =>
        if c = ')' ∧ read = leaf.path.toList then (text.fill leaves rest).map (leaf.text ++ ·)
        else none
      | [] => none
  | _, _, [] => none

end LeafScanner

/-! ### Literals as JSON -/

/-- Whether a key is read as the key of a property.  Numbers are compared as numbers. -/
def JsonKey.Reads : JsonKey → String → Prop
  | .name text, key => key = text
  | .number value, key => ∃ q, Json.number? key.toList = some q ∧ value.Nearest q

/-- Whether entries correspond in order.  The parts that are read from the payload are shared out
among them. -/
inductive JsonTree.ReadsEach {E V : Type} (reads : E → List Json → V → Prop) :
    List E → List Json → List V → Prop where
  | nil : ReadsEach reads [] [] []
  | cons {entry : E} {entries : List E} {parts others : List Json} {v : V} {vs : List V}
      (h : reads entry parts v) (hs : ReadsEach reads entries others vs) :
      ReadsEach reads (entry :: entries) (parts ++ others) (v :: vs)

mutual

/-- Whether a JSON value is what a literal stands for when its parts are read from the payload as
the values of a list. -/
inductive JsonTree.Reads : JsonTree → List Json → Json → Prop where
  | null : Reads .null [] .null
  | boolean (value : Bool) : Reads (.boolean value) [] (.boolean value)
  | number {value : Binary64} {q : ℚ} (h : value.Nearest q) :
      Reads (.number value) [] (.number q)
  | string (text : String) : Reads (.string text) [] (.string text)
  | payload (path : String) (v : Json) : Reads (.payload path) [v] v
  | array {trees : List JsonTree} {parts items : List Json}
      (h : JsonTree.ReadsEach JsonTree.Reads trees parts items) :
      Reads (.array trees) parts (.array items)
  | object {trees : List (JsonKey × JsonTree)} {parts : List Json}
      {members : List (String × Json)}
      (h : JsonTree.ReadsEach JsonTree.ReadsMember trees parts members) :
      Reads (.object trees) parts (.object members)

/-- Whether a member of a JSON object is what a property stands for. -/
inductive JsonTree.ReadsMember : JsonKey × JsonTree → List Json → String × Json → Prop where
  | of {key : JsonKey} {tree : JsonTree} {parts : List Json} {name : String} {v : Json}
      (hkey : key.Reads name) (h : JsonTree.Reads tree parts v) :
      ReadsMember (key, tree) parts (name, v)

end

/-! ### The calls in a text -/

namespace LeafScanner

variable {leaves : List JsonLeaf} {cs rest read : List Char}

/-- Without a dollar sign there is nothing to replace. -/
theorem fill_plain (h : '$' ∉ cs) :
    text.fill leaves (cs ++ rest) = (text.fill leaves rest).map (cs ++ ·) := by
  induction cs with
  | nil => simp
  | cons c cs ih =>
    rw [List.mem_cons, not_or] at h
    rw [List.cons_append, fill, if_neg (Ne.symm h.1), ih h.2, Option.map_map]
    rfl

/-- Doubled quotes in a path are read as single ones; the induction is on the path. -/
theorem fill_path (cs : List Char) :
    (path read).fill leaves
        ((cs.flatMap fun c => if c = '\'' then [c, c] else [c]) ++ rest) =
      (path (read ++ cs)).fill leaves rest := by
  induction cs generalizing read with
  | nil => rw [List.flatMap_nil, List.nil_append, List.append_nil]
  | cons c cs ih =>
    have hstep : ∀ more, (path read).fill leaves
        ((if c = '\'' then [c, c] else [c]) ++ more) = (path (read ++ [c])).fill leaves more := by
      intro more
      split
      · next hquote =>
        subst hquote
        rfl
      · next hplain => rw [List.singleton_append, fill, if_neg hplain]
    rw [List.flatMap_cons, List.append_assoc, hstep, ih, List.append_assoc]
    rfl

/-- A call is replaced as a whole, whatever characters its path has. -/
theorem fill_inputJson (leaf : JsonLeaf) :
    text.fill (leaf :: leaves) ((Text.inputJson leaf.path).toList ++ rest) =
      (text.fill leaves rest).map (leaf.text ++ ·) := by
  have htext : (Text.inputJson leaf.path).toList ++ rest = "$input.json('".toList ++
      ((leaf.path.toList.flatMap fun c => if c = '\'' then [c, c] else [c]) ++
        '\'' :: ')' :: rest) := by
    simp [Text.inputJson, Text.doubled]
  rw [htext]
  show (path []).fill (leaf :: leaves) (_ ++ '\'' :: ')' :: rest) = _
  rw [fill_path]
  show (quote ([] ++ leaf.path.toList)).fill (leaf :: leaves) (')' :: rest) = _
  rw [fill, if_neg (by decide), if_pos ⟨rfl, List.nil_append _⟩]

end LeafScanner

/-- Whether a text is filled with some parts, wherever it stands. -/
def FillsTo (leaves : List JsonLeaf) (cs filled : List Char) : Prop :=
  ∀ more rest, LeafScanner.text.fill (leaves ++ more) (cs ++ rest) =
    (LeafScanner.text.fill more rest).map (filled ++ ·)

namespace FillsTo

variable {leaves leaves' : List JsonLeaf} {cs cs' filled filled' : List Char}

/-- A text without a dollar sign is filled by itself. -/
theorem plain (h : '$' ∉ cs) : FillsTo [] cs cs := fun _ _ => LeafScanner.fill_plain h

/-- Texts that are filled by themselves are filled together, with the parts of both. -/
theorem append (h : FillsTo leaves cs filled) (h' : FillsTo leaves' cs' filled') :
    FillsTo (leaves ++ leaves') (cs ++ cs') (filled ++ filled') := by
  intro more rest
  rw [List.append_assoc, List.append_assoc, h, h', Option.map_map]
  simp [Function.comp_def]

/-- The text around a filled one stays as it is. -/
theorem within (h : FillsTo leaves cs filled) {front back : List Char} (hfront : '$' ∉ front)
    (hback : '$' ∉ back) : FillsTo leaves (front ++ (cs ++ back)) (front ++ (filled ++ back)) := by
  have hall := (plain hfront).append (h.append (plain hback))
  rwa [List.nil_append, List.append_nil] at hall

/-- A text in front of others, each behind a comma. -/
theorem intercalate_cons {texts fillings : List (List Char)} (h : FillsTo leaves cs filled)
    (hothers : FillsTo leaves' ([','].intercalate texts) ([','].intercalate fillings))
    (hlength : texts.length = fillings.length) :
    FillsTo (leaves ++ leaves') ([','].intercalate (cs :: texts))
      ([','].intercalate (filled :: fillings)) := by
  cases texts with
  | nil =>
    obtain rfl := List.length_eq_zero_iff.mp hlength.symm
    simpa using h.append hothers
  | cons first texts =>
    obtain ⟨firstFilling, fillings, rfl⟩ := List.exists_cons_of_length_eq_add_one hlength.symm
    have hcomma : FillsTo [] [','] [','] := .plain (by decide)
    rw [List.intercalate_cons_cons, List.intercalate_cons_cons]
    simpa using h.append (hcomma.append hothers)

/-- A whole text is filled with all parts. -/
theorem fill_eq (h : FillsTo leaves cs filled) :
    LeafScanner.text.fill leaves cs = some filled := by
  have hall := h [] []
  rw [List.append_nil, List.append_nil] at hall
  rw [hall, LeafScanner.fill, Option.map_some, List.append_nil]

end FillsTo

/-! ### Texts of literals -/

namespace JsonTree

/-- As many values are read as there are entries. -/
theorem ReadsEach.length_eq {E V : Type} {reads : E → List Json → V → Prop} {entries : List E}
    {parts : List Json} {vs : List V} (h : ReadsEach reads entries parts vs) :
    entries.length = vs.length := by
  induction h with
  | nil => rfl
  | cons _ _ ih => rw [List.length_cons, List.length_cons, ih]

/-- Whether a text is filled with the JSON text of a value, whatever its parts are filled with. -/
def WrittenAs {V : Type} (paths : List String) (reads : List Json → V → Prop)
    (spelled : List Char → V → Prop) (cs : List Char) : Prop :=
  ∀ leaves : List JsonLeaf, leaves.map JsonLeaf.path = paths → ∃ filled v,
    FillsTo leaves cs filled ∧ spelled filled v ∧ reads (leaves.map JsonLeaf.value) v

/-- Whether a text is filled with the JSON text of a literal. -/
def Written (tree : JsonTree) (text : String) : Prop :=
  WrittenAs tree.paths tree.Reads Json.Spelled text.toList

/-- Whether a text is filled with the JSON text of a property. -/
def WrittenMember (member : JsonKey × JsonTree) (text : String) : Prop :=
  WrittenAs (pathsOfMember member) (ReadsMember member) Json.SpelledMember text.toList

variable {tree : JsonTree} {text : String} {v : Json}

/-- A literal without parts is written by its JSON text. -/
theorem written_of_spelled (hpaths : tree.paths = []) (hreads : tree.Reads [] v)
    (hplain : '$' ∉ text.toList) (h : Json.Spelled text.toList v) : tree.Written text := by
  intro leaves hleaves
  rw [hpaths, List.map_eq_nil_iff] at hleaves
  subst hleaves
  exact ⟨_, v, .plain hplain, h, hreads⟩

/-- A part from the payload is filled with its own JSON text. -/
theorem written_payload (path : String) : (payload path).Written (Text.inputJson path) := by
  intro leaves hleaves
  obtain ⟨leaf, rfl, rfl⟩ := List.map_eq_singleton_iff.mp hleaves
  refine ⟨leaf.text, leaf.value, fun more rest => ?_, Json.parse_eq_some_iff.mp leaf.valid,
    .payload _ _⟩
  exact LeafScanner.fill_inputJson leaf

/-- Entries separated by commas are filled one after the other. -/
theorem exists_filled_entries {E V : Type} {paths : E → List String}
    {reads : E → List Json → V → Prop} {spelled : List Char → V → Prop} {entries : List E}
    {texts : List (List Char)}
    (h : List.Forall₂ (fun entry cs => WrittenAs (paths entry) (reads entry) spelled cs)
      entries texts) :
    WrittenAs (entries.flatMap paths) (ReadsEach reads entries)
      (fun filled vs => ∃ fillings, List.Forall₂ spelled fillings vs ∧
        filled = [','].intercalate fillings)
      ([','].intercalate texts) := by
  induction h with
  | nil =>
    intro leaves hleaves
    obtain rfl := List.map_eq_nil_iff.mp hleaves
    exact ⟨[], [], .plain (by simp), ⟨[], .nil, rfl⟩, .nil⟩
  | @cons entry cs entries texts hfirst hrest ih =>
    intro leaves hleaves
    rw [List.flatMap_cons, List.map_eq_append_iff] at hleaves
    obtain ⟨front, back, rfl, hfront, hback⟩ := hleaves
    obtain ⟨filled, v, hfilled, hspelled, hreads⟩ := hfirst front hfront
    obtain ⟨others, vs, hothers, ⟨fillings, hfillings, rfl⟩, hreadsAll⟩ := ih back hback
    refine ⟨[','].intercalate (filled :: fillings), v :: vs, ?_,
      ⟨_, .cons hspelled hfillings, rfl⟩, ?_⟩
    · refine hfilled.intercalate_cons hothers ?_
      rw [← hrest.length_eq, hreadsAll.length_eq, hfillings.length_eq]
    · rw [List.map_append]
      exact .cons hreads hreadsAll

/-- The parts of items are those of each, in order. -/
theorem pathsOfItems_eq (items : List JsonTree) : pathsOfItems items = items.flatMap paths := by
  induction items with
  | nil => rfl
  | cons item items ih => rw [pathsOfItems, ih, List.flatMap_cons]

/-- So are the parts of members. -/
theorem pathsOfMembers_eq (members : List (JsonKey × JsonTree)) :
    pathsOfMembers members = members.flatMap pathsOfMember := by
  induction members with
  | nil => rfl
  | cons member members ih => rw [pathsOfMembers, ih, List.flatMap_cons]

/-- An array is written by its items between brackets and commas. -/
theorem written_array {trees : List JsonTree} {texts : List String}
    (h : List.Forall₂ Written trees texts) :
    (array trees).Written ("[" ++ ",".intercalate texts ++ "]") := by
  intro leaves hleaves
  rw [paths, pathsOfItems_eq] at hleaves
  have hentries : List.Forall₂ (fun tree cs => WrittenAs (paths tree) tree.Reads Json.Spelled cs)
      trees (texts.map String.toList) := List.forall₂_map_right_iff.mpr h
  obtain ⟨_, items, hfilled, ⟨fillings, hspelled, rfl⟩, hreads⟩ :=
    exists_filled_entries hentries leaves hleaves
  refine ⟨_, .array items, ?_, Json.spelled_array hspelled, .array hreads⟩
  have hall : FillsTo leaves (['['] ++ (_ ++ [']'])) (['['] ++ (_ ++ [']'])) :=
    hfilled.within (by decide) (by decide)
  simpa [String.toList_intercalate] using hall

/-- An object is written by its members between braces and commas. -/
theorem written_object {members : List (JsonKey × JsonTree)} {texts : List String}
    (h : List.Forall₂ WrittenMember members texts) :
    (object members).Written ("\x7b" ++ ",".intercalate texts ++ "\x7d") := by
  intro leaves hleaves
  rw [paths, pathsOfMembers_eq] at hleaves
  have hentries : List.Forall₂
      (fun member cs => WrittenAs (pathsOfMember member) (ReadsMember member) Json.SpelledMember cs)
      members (texts.map String.toList) := List.forall₂_map_right_iff.mpr h
  obtain ⟨_, entries, hfilled, ⟨fillings, hspelled, rfl⟩, hreads⟩ :=
    exists_filled_entries hentries leaves hleaves
  refine ⟨_, .object entries, ?_, Json.spelled_object hspelled, .object hreads⟩
  have hall : FillsTo leaves (['\x7b'] ++ (_ ++ ['\x7d'])) (['\x7b'] ++ (_ ++ ['\x7d'])) :=
    hfilled.within (by decide) (by decide)
  simpa [String.toList_intercalate] using hall

/-- A member is written by its key, a colon and its value. -/
theorem writtenMember {key : JsonKey} {name : String} (hkey : key.Reads name)
    (hplain : '$' ∉ (Text.jsonString name).toList) (h : tree.Written text) :
    WrittenMember (key, tree) (Text.jsonString name ++ ":" ++ text) := by
  intro leaves hleaves
  obtain ⟨filled, v, hfilled, hspelled, hreads⟩ := h leaves hleaves
  refine ⟨(Text.jsonString name).toList ++ ':' :: filled, (name, v), ?_,
    ⟨filled, rfl, hspelled⟩, .of hkey hreads⟩
  have hcolon : FillsTo [] [':'] [':'] := .plain (by decide)
  simpa using (FillsTo.plain hplain).append (hcolon.append hfilled)

end JsonTree

/-! ### Texts without template syntax -/

namespace Text

variable {text : String}

/-- What is no template syntax has no dollar sign. -/
theorem not_mem_of_isTemplateSyntax (h : isTemplateSyntax text = false) : '$' ∉ text.toList := by
  intro hm
  have hany := List.any_eq_false.mp h '$' hm
  simp at hany

/-- Neither has a digit of base sixteen. -/
theorem hexDigit_ne_dollar : ∀ n < 16, '$' ≠ hexDigit n := by
  decide

/-- Escaping brings no dollar sign in. -/
theorem not_mem_jsonString (h : '$' ∉ text.toList) : '$' ∉ (jsonString text).toList := by
  have hchar : ∀ c, c ≠ '$' → '$' ∉ jsonChar c := by
    intro c hc
    unfold jsonChar
    split_ifs with _ _ _ _ _ _ _ hcontrol
    all_goals try decide
    · have hfirst := hexDigit_ne_dollar (c.toNat / 16) (by omega)
      have hsecond := hexDigit_ne_dollar (c.toNat % 16) (by omega)
      simp [hfirst, hsecond]
    · simpa using Ne.symm hc
  have hmem : '$' ∉ text.toList.flatMap jsonChar := by
    rw [List.mem_flatMap]
    rintro ⟨c, hc, hm⟩
    exact hchar c (fun he => h (he ▸ hc)) hm
  simpa [jsonString] using hmem

end Text

/-! ### Printing a literal -/

/-- Whether a step returns a value and leaves the template as it is. -/
def Render.Returns {α : Type} (x : Render α) (value : α) : Prop :=
  ∀ out, x.runOn out = (.ok value, out)

namespace Render.Returns

variable {α β : Type} {x : Render α} {value : α} {f : α → Render β} {result : β}

/-- A value is returned without writing anything. -/
theorem pure (value : α) : Returns (Pure.pure value : Render α) value := fun _ => rfl

/-- Two silent steps are silent together. -/
theorem bind (h : Returns x value) (hnext : Returns (f value) result) :
    Returns (x >>= f) result := by
  intro out
  rw [runOn_bind, h]
  exact hnext out

/-- A known result is returned. -/
theorem ofExcept {answer : Except Fault α} (h : answer = .ok value) :
    Returns (Render.ofExcept answer) value := by
  rw [h]
  exact .pure value

/-- Silent steps in a row return their values in order. -/
theorem mapM {items : List α} {values : List β}
    (h : List.Forall₂ (fun item value => Returns (f item) value) items values) :
    Returns (items.mapM f) values := by
  induction h with
  | nil => exact .pure []
  | cons hfirst _ ih =>
    rw [List.mapM_cons]
    exact hfirst.bind (ih.bind (.pure _))

end Render.Returns

/-- A finite number has a literal. -/
theorem Binary64.exists_literal {value : Binary64} (h : value.isFinite = true) :
    ∃ text, value.literal = .ok text := by
  rw [literal, if_pos h]
  exact ⟨_, rfl⟩

/-- A number literal is a number of a JSON text. -/
theorem JsonTree.written_number {value : Binary64} {text : String} (h : value.literal = .ok text) :
    (number value).Written text := by
  obtain ⟨q, hspelled, hnearest⟩ := Binary64.exists_spelled_literal h
  have hplain : '$' ∉ text.toList :=
    Binary64.not_mem_literal h (by decide) (by decide) (by decide)
  exact written_of_spelled rfl (.number hnearest) hplain hspelled

namespace Walker

variable {w : Walker} {a : Arena} {expr name : NodeId} {text : String}

/-- A node that exists is found. -/
theorem returns_node {node : Node} (h : w.arena.get? expr = some node) :
    (w.node expr).Returns node :=
  .ofExcept (Arena.node_eq_ok_iff.mpr h)

/-- A text without template syntax is a JSON string, for which no temporary is needed. -/
theorem returns_jsonText (h : Text.isTemplateSyntax text = false) :
    (jsonText text).Returns (Text.jsonString text) := by
  unfold jsonText
  rw [h]
  exact .pure _

/-- The key of a property is printed as a string that is read back as the key. -/
theorem exists_jsonKey {key : JsonKey} (h : a.literalKey? name = some key) :
    ∃ text, key.Reads text ∧ '$' ∉ (Text.jsonString text).toList ∧
      ∀ w : Walker, w.arena = a → (w.jsonKey name).Returns (Text.jsonString text) := by
  have hname : ∀ text,
      (if Text.isTemplateSyntax text then none else some (JsonKey.name text)) = some key →
        key.Reads text ∧ '$' ∉ (Text.jsonString text).toList ∧
          (jsonText text).Returns (Text.jsonString text) := by
    intro text h
    split at h
    · cases h
    · next hsyntax =>
      cases h
      rw [Bool.not_eq_true] at hsyntax
      exact ⟨rfl, Text.not_mem_jsonString (Text.not_mem_of_isTemplateSyntax hsyntax),
        returns_jsonText hsyntax⟩
  unfold Arena.literalKey? at h
  split at h
  · next text hnode =>
    obtain ⟨hreads, hplain, hreturns⟩ := hname text h
    refine ⟨text, hreads, hplain, ?_⟩
    rintro w rfl
    exact (returns_node hnode).bind hreturns
  · next text hnode =>
    obtain ⟨hreads, hplain, hreturns⟩ := hname text h
    refine ⟨text, hreads, hplain, ?_⟩
    rintro w rfl
    exact (returns_node hnode).bind hreturns
  · next value hnode =>
    split at h
    · next hfinite =>
      cases h
      obtain ⟨digits, hdigits⟩ := Binary64.exists_literal hfinite
      have hplain : '$' ∉ digits.toList :=
        Binary64.not_mem_literal hdigits (by decide) (by decide) (by decide)
      refine ⟨digits, Binary64.exists_nearest_of_literal hdigits,
        Text.not_mem_jsonString hplain, ?_⟩
      rintro w rfl
      exact (returns_node hnode).bind ((Render.Returns.ofExcept hdigits).bind (.pure _))
    · cases h
  · cases h

/-- Parts that are printed one by one are printed as a list. -/
theorem exists_forall₂_texts {E T : Type} {walk : E → Option T} {written : T → String → Prop}
    {printed : E → String → Prop}
    (h : ∀ item tree, walk item = some tree → ∃ text, written tree text ∧ printed item text)
    {items : List E} {trees : List T} (hitems : items.mapM walk = some trees) :
    ∃ texts, List.Forall₂ written trees texts ∧ List.Forall₂ printed items texts := by
  induction items generalizing trees with
  | nil =>
    cases hitems
    exact ⟨[], .nil, .nil⟩
  | cons item items ih =>
    rw [List.mapM_cons] at hitems
    obtain ⟨tree, htree, hitems⟩ := Option.bind_eq_some_iff.mp hitems
    obtain ⟨others, hothers, hpure⟩ := Option.bind_eq_some_iff.mp hitems
    cases hpure
    obtain ⟨text, hwritten, hprinted⟩ := h item tree htree
    obtain ⟨texts, hwrittenAll, hprintedAll⟩ := ih hothers
    exact ⟨text :: texts, .cons hwritten hwrittenAll, .cons hprinted hprintedAll⟩

section

variable {walk : NodeId → Option JsonTree} {among : Walker → Prop}
  (harena : ∀ w, among w → w.arena = a)
  (hwalk : ∀ expr tree, walk expr = some tree →
    ∃ text, tree.Written text ∧ ∀ w, among w → (w.fragment expr).Returns text)

include harena hwalk

/-- A member of a literal is rendered without a line, to a text that is filled with it. -/
theorem exists_jsonField {property : NodeId} {member : JsonKey × JsonTree}
    (h : a.literalMember? walk property = some member) :
    ∃ text, JsonTree.WrittenMember member text ∧
      ∀ w, among w → (w.jsonField property).Returns text := by
  unfold Arena.literalMember? at h
  split at h
  · next name value hnode =>
    obtain ⟨key, hkey, h⟩ := Option.bind_eq_some_iff.mp h
    obtain ⟨tree, htree, rfl⟩ := Option.map_eq_some_iff.mp h
    obtain ⟨nameText, hreads, hplain, hname⟩ := exists_jsonKey hkey
    obtain ⟨text, hwritten, hvalue⟩ := hwalk value tree htree
    refine ⟨_, JsonTree.writtenMember hreads hplain hwritten, fun w hw => ?_⟩
    have hproperty : w.arena.get? property = some (.property name value) := harena w hw ▸ hnode
    exact (returns_node hproperty).bind
      ((hname w (harena w hw)).bind ((hvalue w hw).bind (.pure _)))
  · cases h

/-- A literal is printed as a text that is filled with the JSON text of it. -/
theorem exists_fragmentOf (hitem : ∀ expr tree, walk expr = some tree →
      ∃ node, a.get? expr = some node ∧ ∀ inner, node ≠ .spread inner)
    {node : Node} {tree : JsonTree} (h : a.literalOf walk node = some tree) :
    ∃ text, tree.Written text ∧ ∀ w, among w → (w.fragmentOf expr node).Returns text := by
  have hnull : JsonTree.null.Written "null" :=
    JsonTree.written_of_spelled rfl .null (by decide)
      (Json.spelled_word (by decide) (List.all_eq_true.mp (by decide)) rfl)
  unfold Arena.literalOf at h
  split at h
  · cases h
    exact ⟨_, hnull, fun _ _ => .pure _⟩
  · cases h
    exact ⟨_, hnull, fun _ _ => .pure _⟩
  · next value =>
    cases h
    refine ⟨if value then "true" else "false", ?_, fun _ _ => .pure _⟩
    cases value with
    | true =>
      exact JsonTree.written_of_spelled rfl (.boolean true) (by decide)
        (Json.spelled_word (by decide) (List.all_eq_true.mp (by decide)) rfl)
    | false =>
      exact JsonTree.written_of_spelled rfl (.boolean false) (by decide)
        (Json.spelled_word (by decide) (List.all_eq_true.mp (by decide)) rfl)
  · next value =>
    split at h
    · next hfinite =>
      cases h
      obtain ⟨text, htext⟩ := Binary64.exists_literal hfinite
      exact ⟨text, JsonTree.written_number htext, fun _ _ => .ofExcept htext⟩
    · cases h
  · next text =>
    split at h
    · cases h
    · next hsyntax =>
      cases h
      rw [Bool.not_eq_true] at hsyntax
      have hplain := Text.not_mem_jsonString (Text.not_mem_of_isTemplateSyntax hsyntax)
      exact ⟨_, JsonTree.written_of_spelled rfl (.string text) hplain (Json.spelled_string text),
        fun _ _ => returns_jsonText hsyntax⟩
  · next items =>
    obtain ⟨trees, htrees, rfl⟩ := Option.map_eq_some_iff.mp h
    -- an item is printed like any other value unless it is spread, which no literal is
    have hjsonItem : ∀ item tree, walk item = some tree → ∃ text, tree.Written text ∧
        ∀ w, among w → (w.jsonItem item).Returns text := by
      intro item tree htree
      obtain ⟨text, hwritten, hreturns⟩ := hwalk item tree htree
      obtain ⟨node, hnode, hspread⟩ := hitem item tree htree
      refine ⟨text, hwritten, fun w hw => (returns_node (harena w hw ▸ hnode)).bind ?_⟩
      split
      · next inner => exact absurd rfl (hspread inner)
      · exact hreturns w hw
    obtain ⟨texts, hwritten, hreturns⟩ := exists_forall₂_texts hjsonItem htrees
    refine ⟨_, JsonTree.written_array hwritten, fun w hw => ?_⟩
    exact (Render.Returns.mapM (hreturns.imp fun _ _ h => h w hw)).bind (.pure _)
  · next properties =>
    obtain ⟨members, hmembers, rfl⟩ := Option.map_eq_some_iff.mp h
    obtain ⟨texts, hwritten, hreturns⟩ := exists_forall₂_texts
      (fun _ _ => exists_jsonField harena hwalk) hmembers
    refine ⟨_, JsonTree.written_object hwritten, fun w hw => ?_⟩
    exact (Render.Returns.mapM (hreturns.imp fun _ _ h => h w hw)).bind (.pure _)
  · next inner => exact hwalk inner tree h
  · cases h

end

end Walker

namespace Arena

variable {a : Arena} {n : Nat} {expr : NodeId} {tree : JsonTree}

/-- A literal is a node, and no spread. -/
theorem exists_node_of_literalWithin (h : a.literalWithin n expr = some tree) :
    ∃ node, a.get? expr = some node ∧ ∀ inner, node ≠ .spread inner := by
  cases n with
  | zero => cases h
  | succ n =>
    rw [literalWithin] at h
    cases hnode : a.get? expr with
    | none =>
      have hself : a.unwrapParens expr = expr := unwrapParensWithin_of_not_paren (by simp [hnode])
      have hpath : a.jsonPath expr = none := by
        rw [jsonPath, jsonPathWithin, hself, hnode]
      rw [hself, hpath, hnode] at h
      cases h
    | some node =>
      refine ⟨node, rfl, ?_⟩
      rintro inner rfl
      have hself : a.unwrapParens expr = expr := unwrapParensWithin_of_not_paren (by simp [hnode])
      have hpath : a.jsonPath expr = none := by
        rw [jsonPath, jsonPathWithin, hself, hnode]
      rw [hself, hpath, hnode] at h
      cases h

/-! ### No literal is too deep -/

/-- All items are found as before if each of them is. -/
theorem mapM_eq_some_mono {E T : Type} {f f' : E → Option T} {items : List E} {found : List T}
    (h : ∀ item result, f item = some result → f' item = some result)
    (hitems : items.mapM f = some found) : items.mapM f' = some found := by
  induction items generalizing found with
  | nil => exact hitems
  | cons item items ih =>
    rw [List.mapM_cons] at hitems ⊢
    obtain ⟨result, hresult, hitems⟩ := Option.bind_eq_some_iff.mp hitems
    obtain ⟨others, hothers, hpure⟩ := Option.bind_eq_some_iff.mp hitems
    rw [h item result hresult]
    show (items.mapM f').bind _ = _
    rw [ih hothers]
    exact hpure

/-- A literal stays one if more of its parts are found to be literals. -/
theorem literalOf_mono {walk walk' : NodeId → Option JsonTree}
    (h : ∀ id tree, walk id = some tree → walk' id = some tree) {node : Node}
    (hnode : a.literalOf walk node = some tree) : a.literalOf walk' node = some tree := by
  unfold literalOf at hnode ⊢
  split at hnode
  · exact hnode
  · exact hnode
  · exact hnode
  · exact hnode
  · exact hnode
  · obtain ⟨trees, htrees, rfl⟩ := Option.map_eq_some_iff.mp hnode
    exact Option.map_eq_some_iff.mpr ⟨trees, mapM_eq_some_mono h htrees, rfl⟩
  · obtain ⟨members, hmembers, rfl⟩ := Option.map_eq_some_iff.mp hnode
    refine Option.map_eq_some_iff.mpr
      ⟨members, mapM_eq_some_mono (fun property member hmember => ?_) hmembers, rfl⟩
    unfold literalMember? at hmember ⊢
    split at hmember
    · obtain ⟨key, hkey, hvalue⟩ := Option.bind_eq_some_iff.mp hmember
      obtain ⟨tree, htree, rfl⟩ := Option.map_eq_some_iff.mp hvalue
      rw [hkey, Option.bind_some, h _ _ htree]
      rfl
    · cases hmember
  · exact h _ _ hnode
  · cases hnode

/-- One level more finds the same literal, if the levels below do. -/
theorem literalWithin_step {m : Nat}
    (h : ∀ id tree, a.literalWithin n id = some tree → a.literalWithin m id = some tree)
    (hexpr : a.literalWithin (n + 1) expr = some tree) :
    a.literalWithin (m + 1) expr = some tree := by
  rw [literalWithin] at hexpr ⊢
  cases hpath : a.jsonPath (a.unwrapParens expr) with
  | some path =>
    rw [hpath] at hexpr
    exact hexpr
  | none =>
    rw [hpath] at hexpr
    obtain ⟨node, hnode, hliteral⟩ := Option.bind_eq_some_iff.mp hexpr
    exact Option.bind_eq_some_iff.mpr ⟨node, hnode, literalOf_mono h hliteral⟩

/-- So a literal that is found within a bound is found within every larger one. -/
theorem literalWithin_le {m : Nat} (hnm : n ≤ m) (h : a.literalWithin n expr = some tree) :
    a.literalWithin m expr = some tree := by
  induction n generalizing m expr tree with
  | zero => cases h
  | succ n ih =>
    obtain ⟨m, rfl⟩ := Nat.exists_eq_succ_of_ne_zero (n := m) (by omega)
    exact literalWithin_step (fun _ _ => ih (by omega)) h

/-- A literal is in the arena and stays the same literal. -/
theorem settles_literalWithin (a : Arena) : Settles none a.size a.literalWithin where
  inside n id hid := by
    obtain ⟨tree, htree⟩ := Option.ne_none_iff_exists'.mp hid
    obtain ⟨node, hnode, -⟩ := exists_node_of_literalWithin htree
    exact lt_size_of_get? hnode
  keeps n id hid := by
    obtain ⟨tree, htree⟩ := Option.ne_none_iff_exists'.mp hid
    rw [htree, literalWithin_le n.le_succ htree]
  step n m hnm := by
    funext id
    rw [literalWithin, literalWithin, hnm]

/-- A literal of any depth has no more levels than there are nodes. -/
theorem literalWithin_size (h : a.literalWithin n expr = some tree) :
    a.literalWithin a.size expr = some tree :=
  ((settles_literalWithin a).found le_rfl (by simp [h])).trans h

end Arena

/-- Each level of a literal takes one level of a walker. -/
theorem Program.exists_fragment {p : Program} {n : Nat} {expr : NodeId} {tree : JsonTree}
    (h : p.arena.literalWithin n expr = some tree) :
    ∃ text, tree.Written text ∧ ∀ dialect level, n ≤ level →
      ((p.walkerWithin dialect level).fragment expr).Returns text := by
  induction n generalizing expr tree with
  | zero => cases h
  | succ n ih =>
    -- the text has to be the same in all dialects and at all higher levels
    let among (w : Walker) : Prop := ∃ dialect level, n ≤ level ∧ w = p.walkerWithin dialect level
    have harena : ∀ w, among w → w.arena = p.arena := by
      rintro w ⟨dialect, level, -, rfl⟩
      exact p.arena_walkerWithin dialect level
    have hwalk : ∀ expr tree, p.arena.literalWithin n expr = some tree →
        ∃ text, tree.Written text ∧ ∀ w, among w → (w.fragment expr).Returns text := by
      intro expr tree htree
      obtain ⟨text, hwritten, hreturns⟩ := ih htree
      refine ⟨text, hwritten, ?_⟩
      rintro w ⟨dialect, level, hlevel, rfl⟩
      exact hreturns dialect level hlevel
    have hitem := fun expr tree (htree : p.arena.literalWithin n expr = some tree) =>
      Arena.exists_node_of_literalWithin htree
    rw [Arena.literalWithin] at h
    cases hpath : p.arena.jsonPath (p.arena.unwrapParens expr) with
    | some path =>
      rw [hpath] at h
      cases h
      refine ⟨_, JsonTree.written_payload path, fun dialect level hlevel => ?_⟩
      obtain ⟨level, rfl⟩ := Nat.exists_eq_succ_of_ne_zero (n := level) (by omega)
      show Render.Returns (Walker.renderFragment _ expr) _
      unfold Walker.renderFragment
      rw [p.arena_walkerWithin]
      dsimp only
      rw [hpath]
      exact .pure _
    | none =>
      rw [hpath] at h
      obtain ⟨node, hnode, hliteral⟩ := Option.bind_eq_some_iff.mp h
      have hfragment : ∃ text, tree.Written text ∧ ∀ w, among w →
          (w.fragmentOf (p.arena.unwrapParens expr) node).Returns text :=
        Walker.exists_fragmentOf harena hwalk hitem hliteral
      obtain ⟨text, hwritten, hreturns⟩ := hfragment
      refine ⟨text, hwritten, fun dialect level hlevel => ?_⟩
      obtain ⟨level, rfl⟩ := Nat.exists_eq_succ_of_ne_zero (n := level) (by omega)
      show Render.Returns (Walker.renderFragment _ expr) _
      unfold Walker.renderFragment
      rw [p.arena_walkerWithin]
      dsimp only
      rw [hpath]
      refine (Walker.returns_node ?_).bind (hreturns _ ⟨dialect, level, by omega, rfl⟩)
      rw [p.arena_walkerWithin]
      exact hnode

/-- A literal is printed as JSON text without any line, temporary or call.  Whatever JSON texts
its parts from the payload are replaced by, the whole is a JSON text, and it is read as the
literal: members in their order and none lost, strings and keys as they are, and numbers as
decimals that no other number is nearer to. -/
theorem literal_fragment_parses {p : Program} {n : Nat} {expr : NodeId} {tree : JsonTree}
    (h : p.arena.literalWithin n expr = some tree) :
    ∃ text : String,
      (∀ direction config out,
        ((p.walker (.mapping direction config)).fragment expr).runOn out = (.ok text, out)) ∧
      ∀ leaves : List JsonLeaf, leaves.map JsonLeaf.path = tree.paths →
        ∃ filled v, LeafScanner.text.fill leaves text.toList = some filled ∧
          Json.parse filled = some v ∧ tree.Reads (leaves.map JsonLeaf.value) v := by
  obtain ⟨text, hwritten, hreturns⟩ := Program.exists_fragment (Arena.literalWithin_size h)
  refine ⟨text, fun direction config out => ?_, fun leaves hleaves => ?_⟩
  · exact hreturns _ _ (by unfold Program.depth; omega) out
  · obtain ⟨filled, v, hfilled, hspelled, hreads⟩ := hwritten leaves hleaves
    exact ⟨filled, v, hfilled.fill_eq, Json.parse_eq_some_iff.mpr hspelled, hreads⟩

/-- The closure `input => { return { id: input.id, "a\"b": ([1.5, undefined]), 7: await "x" }; }`,
with a part from the payload and a key of each kind. -/
def Program.mixedLiteral : Program :=
  (Builder.of []
    [.identifier "input", .member ⟨0⟩ "id", .identifier "id", .property ⟨2⟩ ⟨1⟩,
      .string "a\"b", .number ⟨false, ⟨1023, by decide⟩, ⟨2251799813685248, by decide⟩⟩,
      .undefined, .array [⟨5⟩, ⟨6⟩], .paren ⟨7⟩, .property ⟨4⟩ ⟨8⟩,
      .number ⟨false, ⟨1025, by decide⟩, ⟨3377699720527872, by decide⟩⟩, .string "x",
      .await ⟨11⟩, .property ⟨10⟩ ⟨12⟩, .object [⟨3⟩, ⟨9⟩, ⟨13⟩],
      .returnValue (some ⟨14⟩), .block [⟨15⟩], .identifier "input", .parameter ⟨17⟩ none,
      .function [⟨18⟩] ⟨16⟩]).program

/-- The literal of that closure. -/
def JsonTree.mixed : JsonTree :=
  .object
    [(.name "id", .payload "$.id"),
      (.name "a\"b",
        .array [.number ⟨false, ⟨1023, by decide⟩, ⟨2251799813685248, by decide⟩⟩, .null]),
      (.number ⟨false, ⟨1025, by decide⟩, ⟨3377699720527872, by decide⟩⟩, .string "x")]

/-- An array that the payload has at a path. -/
def JsonLeaf.flags : JsonLeaf := ⟨"$.id", "[true]".toList, .array [.boolean true], by rfl⟩

/-- The text of the literal parses to its value when the flags are read as a list with one entry.
-/
theorem literal_fragment_parses_mixed :
    Program.mixedLiteral.arena.literalWithin 4 ⟨14⟩ = some .mixed ∧
      ∃ (text : String) (filled : List Char) (v : Json),
        (∀ direction config out,
          ((Program.mixedLiteral.walker (.mapping direction config)).fragment ⟨14⟩).runOn out =
            (.ok text, out)) ∧
        LeafScanner.text.fill [.flags] text.toList = some filled ∧ Json.parse filled = some v ∧
        JsonTree.mixed.Reads [.array [.boolean true]] v := by
  have hliteral : Program.mixedLiteral.arena.literalWithin 4 ⟨14⟩ = some .mixed := by cbv
  obtain ⟨text, hrun, hfill⟩ := literal_fragment_parses hliteral
  obtain ⟨filled, v, hfilled, hparse, hreads⟩ := hfill [.flags] rfl
  exact ⟨hliteral, text, filled, v, hrun, hfilled, hparse, hreads⟩

end ClosureVtl
