/-
Module: ClosureVtl.Proofs.Closure.Correspondence
Purpose: Nodes of two closures that correspond to each other.
Main exports:
  EntryPoint, EntryPoint.levels, Correspondence, Node.Lifts, Node.isOperand, Correspondence.same,
  Node.Lifts.of_parts
-/
import ClosureVtl.Closure.Arena
import Mathlib.Data.List.Forall2
import Mathlib.Data.Option.Basic

namespace ClosureVtl

/-!
Two closures are compared node by node.  Which nodes belong together is up to each
comparison and is passed around as a `Correspondence`; `Node.Lifts` says that two nodes
are of one form and that their parts belong together again.
-/

/-! ### Lists that correspond -/

section Lists

variable {α β γ δ : Type} {R : α → β → Prop} {S : γ → δ → Prop} {items : List α}
  {items' : List β}

/-- Entries at one position correspond. -/
theorem optionRel_getElem? (h : List.Forall₂ R items items') (position : Nat) :
    Option.Rel R items[position]? items'[position]? := by
  induction h generalizing position with
  | nil => exact .none
  | cons hfirst _ ih =>
    cases position with
    | zero => exact .some hfirst
    | succ position => exact ih position

/-- So do the first entries. -/
theorem optionRel_head? (h : List.Forall₂ R items items') :
    Option.Rel R items.head? items'.head? := by
  cases h with
  | nil => exact .none
  | cons hfirst _ => exact .some hfirst

/-- Numbering two lists keeps them in correspondence. -/
theorem forall₂_zipIdx (h : List.Forall₂ R items items') (start : Nat) :
    List.Forall₂ (fun item item' => R item.1 item'.1 ∧ item.2 = item'.2) (items.zipIdx start)
      (items'.zipIdx start) := by
  induction h generalizing start with
  | nil => exact .nil
  | cons hfirst _ ih => exact .cons ⟨hfirst, rfl⟩ (ih (start + 1))

/-- So does pairing them with the same list. -/
theorem forall₂_zip (h : List.Forall₂ R items items') (others : List γ) :
    List.Forall₂ (fun item item' => R item.1 item'.1 ∧ item.2 = item'.2) (items.zip others)
      (items'.zip others) := by
  induction h generalizing others with
  | nil => exact .nil
  | cons hfirst _ ih =>
    cases others with
    | nil => exact .nil
    | cons other rest => exact .cons ⟨hfirst, rfl⟩ (ih rest)

/-- Two tests that agree cut both lists at the same position. -/
theorem forall₂_takeWhile {keep : α → Bool} {keep' : β → Bool} (h : List.Forall₂ R items items')
    (hkeep : ∀ item item', R item item' → keep item = keep' item') :
    List.Forall₂ R (items.takeWhile keep) (items'.takeWhile keep') := by
  induction h with
  | nil => exact .nil
  | cons hfirst _ ih =>
    rw [List.takeWhile_cons, List.takeWhile_cons, hkeep _ _ hfirst]
    split
    · exact .cons hfirst ih
    · exact .nil

/-- Two searches that agree stop at the same position. -/
theorem optionRel_findSome? {f : α → Option γ} {f' : β → Option δ}
    (h : List.Forall₂ R items items')
    (hf : ∀ item item', R item item' → Option.Rel S (f item) (f' item')) :
    Option.Rel S (items.findSome? f) (items'.findSome? f') := by
  induction h with
  | nil => exact .none
  | @cons item item' _ _ hfirst _ ih =>
    rw [List.findSome?_cons, List.findSome?_cons]
    match f item, f' item', hf item item' hfirst with
    | none, none, .none => exact ih
    | some _, some _, .some hfound => exact .some hfound

/-- The last entries correspond. -/
theorem optionRel_getLast? (h : List.Forall₂ R items items') :
    Option.Rel R items.getLast? items'.getLast? := by
  induction h with
  | nil => exact .none
  | @cons _ _ rest rest' hfirst _ ih =>
    rw [List.getLast?_cons, List.getLast?_cons]
    match rest.getLast?, rest'.getLast?, ih with
    | none, none, .none => exact .some hfirst
    | some _, some _, .some hlast => exact .some hlast

theorem optionRel_refl {R : α → α → Prop} (h : ∀ a, R a a) (found : Option α) :
    Option.Rel R found found := by
  cases found with
  | none => exact .none
  | some a => exact .some (h a)

/-- If one search finds something, so does the other. -/
theorem isSome_eq_of_optionRel {found : Option γ} {found' : Option δ}
    (h : Option.Rel S found found') : found.isSome = found'.isSome := by
  cases h <;> rfl

/-- A second choice is taken on both sides or on none. -/
theorem optionRel_or {found other : Option γ} {found' other' : Option δ}
    (h : Option.Rel S found found') (hother : Option.Rel S other other') :
    Option.Rel S (found.or other) (found'.or other') := by
  cases h with
  | none => exact hother
  | some hfound => exact .some hfound

/-- Searches that agree report the same position. -/
theorem findIdx?_eq {hit : α → Bool} {hit' : β → Bool} (h : List.Forall₂ R items items')
    (hhit : ∀ item item', R item item' → hit item = hit' item') :
    items.findIdx? hit = items'.findIdx? hit' := by
  induction h with
  | nil => rfl
  | cons hfirst _ ih => rw [List.findIdx?_cons, List.findIdx?_cons, hhit _ _ hfirst, ih]

end Lists

/-- The entry points of a walker. -/
inductive EntryPoint where
  | expression
  | statement
  | expand
  | fragment
  | integrate
deriving DecidableEq, Repr

/-- The levels that an entry point needs for a node beyond those for its parts. -/
def EntryPoint.levels : EntryPoint → Nat
  | .fragment => 2
  | .expression => 1
  | .statement | .expand | .integrate => 0

/-- The nodes that an entry point is called for: values are entered from outside. -/
def EntryPoint.reached (inner entered : NodeId → Prop) : EntryPoint → NodeId → Prop
  | .expression | .fragment | .integrate => entered
  | .statement | .expand => inner

/-- Which nodes of two closures correspond to each other. -/
structure Correspondence where
  /-- the nodes whose parts correspond to each other -/
  own : NodeId → NodeId → Prop
  /-- parts of one form -/
  node : NodeId → NodeId → Prop
  /-- parts that are values: of one form inside parentheses, if there are any -/
  value : NodeId → NodeId → Prop
  integration : IntegrationId → IntegrationId → Prop
  /-- nodes that both walkers may be called for -/
  calls : EntryPoint → NodeId → NodeId → Prop

/-- Whether two nodes are of one form, with parts that correspond to each other. -/
inductive Node.Lifts (c : Correspondence) : Node → Node → Prop where
  | null : Lifts c .null .null
  | undefined : Lifts c .undefined .undefined
  | boolean (value : Bool) : Lifts c (.boolean value) (.boolean value)
  | number (value : Binary64) : Lifts c (.number value) (.number value)
  | string (value : String) : Lifts c (.string value) (.string value)
  | array {items items' : List NodeId} (h : List.Forall₂ c.value items items') :
      Lifts c (.array items) (.array items')
  | spread {expr expr' : NodeId} (h : c.value expr expr') : Lifts c (.spread expr) (.spread expr')
  | object {properties properties' : List NodeId} (h : List.Forall₂ c.node properties properties') :
      Lifts c (.object properties) (.object properties')
  | property {name name' value value' : NodeId} (hn : c.node name name')
      (hv : c.value value value') : Lifts c (.property name value) (.property name' value')
  | spreadProperty {expr expr' : NodeId} (h : c.value expr expr') :
      Lifts c (.spreadProperty expr) (.spreadProperty expr')
  | computedKey {expr expr' : NodeId} (h : c.value expr expr') :
      Lifts c (.computedKey expr) (.computedKey expr')
  | template (head : String) {spans spans' : List TemplateSpan}
      (h : List.Forall₂ (fun span span' => c.value span.expr span'.expr ∧
        span.literal = span'.literal) spans spans') :
      Lifts c (.template head spans) (.template head spans')
  | identifier (name : String) : Lifts c (.identifier name) (.identifier name)
  | member {base base' : NodeId} (h : c.value base base') (name : String) :
      Lifts c (.member base name) (.member base' name)
  | element {base base' key key' : NodeId} (hb : c.value base base') (hk : c.value key key') :
      Lifts c (.element base key) (.element base' key')
  | reference (name : String) {integration integration' : Option IntegrationId}
      (h : Option.Rel c.integration integration integration') :
      Lifts c (.reference name integration) (.reference name integration')
  | binary {left left' right right' : NodeId} (hl : c.value left left') (op : BinaryOp)
      (hr : c.value right right') : Lifts c (.binary left op right) (.binary left' op right')
  | unary (op : UnaryOp) {operand operand' : NodeId} (h : c.value operand operand') :
      Lifts c (.unary op operand) (.unary op operand')
  | stepAfter {operand operand' : NodeId} (h : c.value operand operand') (step : Step) :
      Lifts c (.stepAfter operand step) (.stepAfter operand' step)
  | conditional {test test' yes yes' no no' : NodeId} (ht : c.value test test')
      (hy : c.value yes yes') (hn : c.value no no') :
      Lifts c (.conditional test yes no) (.conditional test' yes' no')
  | paren {expr expr' : NodeId} (h : c.value expr expr') : Lifts c (.paren expr) (.paren expr')
  | typeOf {expr expr' : NodeId} (h : c.value expr expr') : Lifts c (.typeOf expr) (.typeOf expr')
  | branch {test test' yes yes' : NodeId} {no no' : Option NodeId} (ht : c.value test test')
      (hy : c.node yes yes') (hn : Option.Rel c.node no no') :
      Lifts c (.branch test yes no) (.branch test' yes' no')
  | forOf {target target' iterable iterable' body body' : NodeId} (ht : c.node target target')
      (hi : c.value iterable iterable') (hb : c.node body body') :
      Lifts c (.forOf target iterable body) (.forOf target' iterable' body')
  | forIn {target target' iterable iterable' body body' : NodeId} (ht : c.node target target')
      (hi : c.value iterable iterable') (hb : c.node body body') :
      Lifts c (.forIn target iterable body) (.forIn target' iterable' body')
  | whileLoop {test test' body body' : NodeId} (ht : c.value test test') (hb : c.node body body') :
      Lifts c (.whileLoop test body) (.whileLoop test' body')
  | doWhile {body body' test test' : NodeId} (hb : c.node body body') (ht : c.value test test') :
      Lifts c (.doWhile body test) (.doWhile body' test')
  | forLoop {start start' test test' step step' : Option NodeId} {body body' : NodeId}
      (hs : Option.Rel c.value start start') (ht : Option.Rel c.value test test')
      (hn : Option.Rel c.value step step') (hb : c.node body body') :
      Lifts c (.forLoop start test step body) (.forLoop start' test' step' body')
  | tryCatch {body body' : NodeId} {handler handler' cleanup cleanup' : Option NodeId}
      (hb : c.node body body') (hh : Option.Rel c.node handler handler')
      (hc : Option.Rel c.node cleanup cleanup') :
      Lifts c (.tryCatch body handler cleanup) (.tryCatch body' handler' cleanup')
  | breakLoop : Lifts c .breakLoop .breakLoop
  | continueLoop : Lifts c .continueLoop .continueLoop
  | block {statements statements' : List NodeId} (h : List.Forall₂ c.node statements statements') :
      Lifts c (.block statements) (.block statements')
  | call {callee callee' : NodeId} {args args' : List NodeId} (hc : c.value callee callee')
      (ha : List.Forall₂ c.value args args') : Lifts c (.call callee args) (.call callee' args')
  | construct {callee callee' : NodeId} {args args' : List NodeId} (hc : c.value callee callee')
      (ha : List.Forall₂ c.value args args') :
      Lifts c (.construct callee args) (.construct callee' args')
  | argument {expr expr' : NodeId} (h : c.value expr expr') (name : Option String) :
      Lifts c (.argument expr name) (.argument expr' name)
  | await {expr expr' : NodeId} (h : c.value expr expr') : Lifts c (.await expr) (.await expr')
  | promise {expr expr' : NodeId} (h : c.value expr expr') :
      Lifts c (.promise expr) (.promise expr')
  | function {parameters parameters' : List NodeId} {body body' : NodeId}
      (hp : List.Forall₂ c.node parameters parameters') (hb : c.value body body') :
      Lifts c (.function parameters body) (.function parameters' body')
  | parameter {name name' : NodeId} {default default' : Option NodeId} (hn : c.node name name')
      (hd : Option.Rel c.value default default') :
      Lifts c (.parameter name default) (.parameter name' default')
  | declaration (kind : DeclKind) {name name' : NodeId} {value value' : Option NodeId}
      (hn : c.node name name') (hv : Option.Rel c.value value value') :
      Lifts c (.declaration kind name value) (.declaration kind name' value')
  | arrayPattern {elements elements' : List NodeId} (h : List.Forall₂ c.node elements elements') :
      Lifts c (.arrayPattern elements) (.arrayPattern elements')
  | objectPattern {elements elements' : List NodeId} (h : List.Forall₂ c.node elements elements') :
      Lifts c (.objectPattern elements) (.objectPattern elements')
  | binding {name name' : NodeId} {key key' default default' : Option NodeId}
      (hn : c.node name name') (hk : Option.Rel c.node key key')
      (hd : Option.Rel c.value default default') (rest : Bool) :
      Lifts c (.binding name key default rest) (.binding name' key' default' rest)
  | hole : Lifts c .hole .hole
  | returnValue {expr expr' : Option NodeId} (h : Option.Rel c.value expr expr') :
      Lifts c (.returnValue expr) (.returnValue expr')
  | exprStatement {expr expr' : NodeId} (h : c.value expr expr') :
      Lifts c (.exprStatement expr) (.exprStatement expr')
  | throw {expr expr' : NodeId} (h : c.value expr expr') : Lifts c (.throw expr) (.throw expr')

/-- Whether a node is a statement depends on its form alone. -/
theorem Node.Lifts.isStatement_eq {c : Correspondence} {node node' : Node}
    (h : node.Lifts c node') : node.isStatement = node'.isStatement := by
  cases h <;> rfl

/-- Whether a node is an expression that may stand for a value, pairs of parentheses
included. -/
def Node.isOperand : Node → Bool
  | null | undefined | boolean _ | number _ | string _ | array _ | object _ | template ..
  | identifier _ | member .. | element .. | reference .. | binary .. | unary .. | stepAfter ..
  | conditional .. | paren _ | typeOf _ | call .. | construct .. | await _ | promise _
  | function .. => true
  | _ => false

/-- So does whether it is an operand. -/
theorem Node.Lifts.isOperand_eq {c : Correspondence} {node node' : Node}
    (h : node.Lifts c node') : node.isOperand = node'.isOperand := by
  cases h <;> rfl

/-- Every node corresponds to itself alone. -/
def Correspondence.same : Correspondence where
  own := Eq
  node := Eq
  value := Eq
  integration := Eq
  calls _ := Eq

/-- A node is lifted to itself if each of its parts corresponds to itself. -/
theorem Node.Lifts.of_parts {c : Correspondence} {node : Node}
    (hparts : ∀ part ∈ node.children, c.node part part ∧ c.value part part)
    (hintegration : ∀ id, c.integration id id) : node.Lifts c node := by
  have hnodes : ∀ {ids : List NodeId}, (∀ id ∈ ids, id ∈ node.children) →
      List.Forall₂ c.node ids ids := fun h =>
    List.forall₂_same.mpr fun id hm => (hparts id (h id hm)).1
  have hvalues : ∀ {ids : List NodeId}, (∀ id ∈ ids, id ∈ node.children) →
      List.Forall₂ c.value ids ids := fun h =>
    List.forall₂_same.mpr fun id hm => (hparts id (h id hm)).2
  have hnode : ∀ {id : Option NodeId}, (∀ part ∈ id, part ∈ node.children) →
      Option.Rel c.node id id := by
    rintro (_ | id) h
    · exact .none
    · exact .some (hparts id (h id rfl)).1
  have hvalue : ∀ {id : Option NodeId}, (∀ part ∈ id, part ∈ node.children) →
      Option.Rel c.value id id := by
    rintro (_ | id) h
    · exact .none
    · exact .some (hparts id (h id rfl)).2
  cases node with
  | array items => exact .array (hvalues fun _ => id)
  | object properties => exact .object (hnodes fun _ => id)
  | template head spans =>
    refine .template head (List.forall₂_same.mpr fun span hm => ⟨(hparts _ ?_).2, rfl⟩)
    exact List.mem_map.mpr ⟨span, hm, rfl⟩
  | reference name integration => exact .reference name (optionRel_refl hintegration integration)
  -- all other forms list their parts one by one, in lists, or as options
  | _ =>
    constructor <;>
      first
      | exact (hparts _ (by simp [Node.children])).1
      | exact (hparts _ (by simp [Node.children])).2
      | exact hnodes (by simp +contextual [Node.children])
      | exact hvalues (by simp +contextual [Node.children])
      | exact hnode (by simp +contextual [Node.children])
      | exact hvalue (by simp +contextual [Node.children])

theorem Node.Lifts.refl (node : Node) : node.Lifts .same node :=
  of_parts (fun _ _ => ⟨rfl, rfl⟩) fun _ => rfl

end ClosureVtl
