/-
Module: ClosureVtl.Proofs.Render.OperandOrder
Purpose: Whether the value of an operand survives what later operands of its node do.
Main exports:
  Operand, Arena.EvaluatesInOrder, Arena.Assigns, Walker.RunsInOrder,
  Walker.keepsInOrder_of_renderExpression, Program.stores_of_assigns, operandOrder_iff
-/
import ClosureVtl.Proofs.Render.BlockBalance
import ClosureVtl.Proofs.Render.Inversion
import ClosureVtl.Proofs.Template.Reading
import Mathlib

namespace ClosureVtl

/-!
The operands of many expressions are evaluated from left to right.  They are rendered in
that order, and so are the lines that they need; but the text of an operand is kept for
the text of the whole expression, which is evaluated behind all of those lines.  So an
operand is worth what it was when it was rendered only if no later operand assigns what
the kept text reads.

`Arena.EvaluatesInOrder` lists the expressions in question with their operands, and
`Walker.RunsInOrder` takes the run of such an expression apart into the runs of its
operands.  `Arena.Assigns` follows operands down to assignments and steps, whose lines are
then found among those of the operand that they started from.
-/

/-! ### Operands in order -/

/-- An operand with the way in which it is rendered. -/
inductive Operand where
  | value (id : NodeId)
  | argument (id : NodeId)
  /-- literal text of a template -/
  | literal (text : String)
  | span (span : TemplateSpan)
deriving DecidableEq, Repr

/-- Renders an operand. -/
def Walker.operand (w : Walker) : Operand → Render String
  | .value id => w.expression id
  | .argument id => w.argument id
  | .literal text => templateText text
  | .span span => w.templateSpan span

/-- Whether a method is one of the runtime value: no list operation, no `push` and no
helper of a global. -/
structure Arena.IsRuntimeMethod (a : Arena) (base : NodeId) (name : String) : Prop where
  operation : Walker.ListOperation.ofName? name = none
  push : name ≠ "push"
  helper : ∀ node global, a.get? (a.unwrapParens base) = some node →
    Walker.globalName? a (a.unwrapParens base) node = some global →
      Walker.globalHelper? global name = none

/-- Whether an expression evaluates operands from left to right: binary operators with a
symbol and membership, arrays without spread, element accesses, templates, and the
receivers and arguments of calls. -/
inductive Arena.EvaluatesInOrder (a : Arena) : NodeId → List Operand → Prop where
  | binary {id left right : NodeId} {op : BinaryOp} {symbol : String}
      (node : a.get? id = some (.binary left op right)) (form : op.form = .inline symbol) :
      EvaluatesInOrder a id [.value left, .value right]
  | membership {id left right : NodeId} {op : BinaryOp}
      (node : a.get? id = some (.binary left op right)) (form : op.form = .membership) :
      EvaluatesInOrder a id [.argument left, .value right]
  | array {id : NodeId} {items : List NodeId} (node : a.get? id = some (.array items))
      (plain : items.any (Walker.isSpread a) = false) :
      EvaluatesInOrder a id (items.map .argument)
  | element {id base key : NodeId} (node : a.get? id = some (.element base key)) :
      EvaluatesInOrder a id [.value base, .argument key]
  | template {id : NodeId} {head : String} {spans : List TemplateSpan}
      (node : a.get? id = some (.template head spans)) :
      EvaluatesInOrder a id (.literal head :: spans.map .span)
  | method {id callee base : NodeId} {name : String} {args : List NodeId}
      (node : a.get? id = some (.call callee args))
      (member : a.get? (a.unwrapParens callee) = some (.member base name))
      (runtime : a.IsRuntimeMethod base name) :
      EvaluatesInOrder a id (.value base :: args.map .argument)
  | push {id callee base arg : NodeId} (node : a.get? id = some (.call callee [arg]))
      (member : a.get? (a.unwrapParens callee) = some (.member base "push"))
      (single : ∀ expr, a.get? (a.argumentExpr arg) ≠ some (.spread expr)) :
      EvaluatesInOrder a id [.value base, .argument arg]
  | pushAll {id callee base arg expr : NodeId} (node : a.get? id = some (.call callee [arg]))
      (member : a.get? (a.unwrapParens callee) = some (.member base "push"))
      (spread : a.get? (a.argumentExpr arg) = some (.spread expr)) :
      EvaluatesInOrder a id [.value base, .value expr]

/-- Whether an operator of a form stores to its left operand. -/
def BinaryOp.Form.stores : BinaryOp.Form → Bool
  | store | update _ | storeIfNull => true
  | inline _ | membership | coalesce => false

/-- The target that a node stores to. -/
def Node.stored? : Node → Option NodeId
  | binary target op _ => if op.form.stores then some target else none
  | unary (.step _) target | stepAfter target _ => some target
  | _ => none

/-- The expression that is rendered for an operand. -/
def Operand.expr? (a : Arena) : Operand → Option NodeId
  | .value id => some id
  | .argument id => some (a.argumentExpr id)
  | .literal _ => none
  | .span part => some part.expr

/-- Whether an expression stores to a target on its way, in itself or in an operand that is
evaluated in order. -/
inductive Arena.Assigns (a : Arena) (target : NodeId) : NodeId → Prop where
  | store {id : NodeId} {stored : Node} (node : a.get? id = some stored)
      (stores : stored.stored? = some target) : Assigns a target id
  | paren {id expr : NodeId} (node : a.get? id = some (.paren expr))
      (inner : Assigns a target expr) : Assigns a target id
  | operand {id expr : NodeId} {operands : List Operand} {operand : Operand}
      (order : a.EvaluatesInOrder id operands) (among : operand ∈ operands)
      (rendered : operand.expr? a = some expr) (inner : Assigns a target expr) :
      Assigns a target id

/-- What the rendering of an operand leaves: the text that is kept, and its lines. -/
structure OperandOutput where
  text : String
  lines : List String
deriving DecidableEq, Repr

/-- The assignments that the lines of an operand make. -/
def OperandOutput.assignments (output : OperandOutput) : List Assignment :=
  output.lines.filterMap assignment?

/-- Whether a run is made of runs of operands, one after the other, with these texts and
lines. -/
inductive Walker.RunsInOrder (w : Walker) :
    List Operand → Output → Output → List OperandOutput → Prop where
  | nil {out : Output} : RunsInOrder w [] out out []
  | cons {operand : Operand} {rest : List Operand} {out middle final : Output} {text : String}
      {lines : List String} {parts : List OperandOutput}
      (run : (w.operand operand).runOn out = (.ok text, middle))
      (written : middle.lines.toList = out.lines.toList ++ lines)
      (later : RunsInOrder w rest middle final parts) :
      RunsInOrder w (operand :: rest) out final (⟨text, lines⟩ :: parts)

/-! ### Texts that are kept -/

namespace Text

/-- Whether a text is kept in another one as it is. -/
def Keeps (text part : String) : Prop := part.toList <:+: text.toList

variable {text part before after : String} {parts : List String}

/-- A text keeps itself. -/
theorem keeps_self (text : String) : Keeps text text := List.infix_rfl

/-- What is kept stays so between other texts. -/
theorem Keeps.wrap (h : Keeps text part) (before after : String) :
    Keeps (before ++ text ++ after) part := by
  unfold Keeps
  rw [String.toList_append, String.toList_append]
  exact h.trans (List.infix_append _ _ _)

/-- It stays so behind a text. -/
theorem Keeps.behind (h : Keeps text part) (before : String) : Keeps (before ++ text) part := by
  unfold Keeps
  rw [String.toList_append]
  exact h.trans (List.suffix_append _ _).isInfix

/-- It stays so in front of a text. -/
theorem Keeps.front (h : Keeps text part) (after : String) : Keeps (text ++ after) part := by
  unfold Keeps
  rw [String.toList_append]
  exact h.trans (List.prefix_append _ _).isInfix

/-- Texts that are joined are kept. -/
theorem keeps_join (h : part ∈ parts) : Keeps (String.join parts) part := by
  unfold Keeps
  rw [String.toList_join]
  exact List.infix_of_mem_flatten (List.mem_map_of_mem h)

/-- Lists that are joined by a separator are parts of the whole. -/
private theorem infix_intercalate {item separator : List Char} {items : List (List Char)}
    (h : item ∈ items) : item <:+: separator.intercalate items := by
  induction items with
  | nil => cases h
  | cons first rest ih =>
    cases rest with
    | nil =>
      cases List.mem_singleton.mp h
      rw [List.intercalate_singleton]
    | cons second others =>
      rw [List.intercalate_cons_cons]
      rcases List.mem_cons.mp h with rfl | h
      · rw [List.append_assoc]
        exact (List.prefix_append _ _).isInfix
      · exact (ih h).trans (List.suffix_append _ _).isInfix

/-- Texts are kept between separators. -/
theorem keeps_intercalate (separator : String) (h : part ∈ parts) :
    Keeps (separator.intercalate parts) part := by
  unfold Keeps
  rw [String.toList_intercalate]
  exact infix_intercalate (List.mem_map_of_mem h)

end Text

namespace Walker

variable {w : Walker} {id base : NodeId} {name text : String} {args : List NodeId}
  {operands : List Operand} {out middle final : Output}

/-! ### Runs of operands -/

/-- Whatever an operand is, it is rendered with all its blocks closed. -/
theorem keeps_operand (operand : Operand) : w.Keeps (w.operand operand) := by
  cases operand with
  | value id => exact keeps_expression id
  | argument id => exact keeps_argument id
  | literal text => exact keeps_templateText text
  | span span => exact keeps_templateSpan span

/-- Steps that keep blocks append lines. -/
theorem Keeps.isPrefix {α : Type} {x : Render α} {value : α} (hx : w.Keeps x) (hw : w.KeepsBlocks)
    (h : x.runOn out = (.ok value, final)) : out.lines.toList <+: final.lines.toList := by
  obtain ⟨lines, hlines, -⟩ := (hx []).turns hw out value final h
  exact ⟨lines, hlines.symm⟩

/-- A run of an operand in front of runs of others. -/
theorem exists_runsInOrder_cons (hw : w.KeepsBlocks) {operand : Operand}
    {parts : List OperandOutput} (h : (w.operand operand).runOn out = (.ok text, middle))
    (hrest : w.RunsInOrder operands middle final parts) :
    ∃ lines, w.RunsInOrder (operand :: operands) out final (⟨text, lines⟩ :: parts) := by
  obtain ⟨lines, hlines⟩ := (keeps_operand operand).isPrefix hw h
  exact ⟨lines, .cons h hlines.symm hrest⟩

/-- Two runs one after the other are a run in order. -/
theorem exists_runsInOrder_pair (first second : Operand) (hw : w.KeepsBlocks)
    {left right : String} (hfirst : (w.operand first).runOn out = (.ok left, middle))
    (hsecond : (w.operand second).runOn middle = (.ok right, final)) :
    ∃ front back, w.RunsInOrder [first, second] out final [⟨left, front⟩, ⟨right, back⟩] := by
  obtain ⟨back, hlast⟩ := exists_runsInOrder_cons hw hsecond .nil
  obtain ⟨front, hruns⟩ := exists_runsInOrder_cons hw hfirst hlast
  exact ⟨front, back, hruns⟩

/-- Whether a run is one of operands in order, whose texts are all kept in a text. -/
def KeepsInOrder (w : Walker) (operands : List Operand) (out final : Output) (text : String) :
    Prop :=
  ∃ parts, w.RunsInOrder operands out final parts ∧ ∀ part ∈ parts, Text.Keeps text part.text

/-- Two operands whose texts are kept are kept in order. -/
theorem keepsInOrder_pair (hw : w.KeepsBlocks) {first second : Operand} {left right : String}
    (hfirst : (w.operand first).runOn out = (.ok left, middle))
    (hsecond : (w.operand second).runOn middle = (.ok right, final))
    (hleft : Text.Keeps text left) (hright : Text.Keeps text right) :
    w.KeepsInOrder [first, second] out final text := by
  obtain ⟨_, _, hruns⟩ := exists_runsInOrder_pair first second hw hfirst hsecond
  exact ⟨_, hruns, List.forall_mem_cons.mpr ⟨hleft, List.forall_mem_singleton.mpr hright⟩⟩

/-- Operands that are rendered one after the other yield their texts in order. -/
theorem exists_runsInOrder_of_mapM (hw : w.KeepsBlocks) {α : Type} {items : List α}
    {f : α → Operand} {texts : List String}
    (h : (items.mapM fun item => w.operand (f item)).runOn out = (.ok texts, final)) :
    ∃ parts, w.RunsInOrder (items.map f) out final parts ∧
      parts.map OperandOutput.text = texts := by
  induction items generalizing out texts with
  | nil =>
    rw [List.mapM_nil, Render.runOn_pure] at h
    cases h
    exact ⟨[], .nil, rfl⟩
  | cons item rest ih =>
    rw [List.mapM_cons] at h
    obtain ⟨text, middle, htext, h⟩ := Render.runOn_bind_eq_ok_iff.mp h
    obtain ⟨others, last, hothers, h⟩ := Render.runOn_bind_eq_ok_iff.mp h
    rw [Render.runOn_pure] at h
    cases h
    obtain ⟨parts, hparts, rfl⟩ := ih hothers
    obtain ⟨lines, hruns⟩ := exists_runsInOrder_cons hw htext hparts
    exact ⟨_, hruns, rfl⟩

/-- Arguments are kept between commas. -/
theorem keepsInOrder_of_arguments (hw : w.KeepsBlocks)
    (h : (w.arguments args).runOn out = (.ok text, final)) :
    w.KeepsInOrder (args.map .argument) out final text := by
  obtain ⟨texts, last, htexts, h⟩ := Render.runOn_bind_eq_ok_iff.mp h
  rw [Render.runOn_pure] at h
  cases h
  obtain ⟨parts, hruns, rfl⟩ := exists_runsInOrder_of_mapM (f := .argument) hw htexts
  exact ⟨parts, hruns, fun part hm => Text.keeps_intercalate _ (List.mem_map_of_mem hm)⟩

/-! ### Expressions with operands in order -/

/-- An operator with a symbol keeps both operands within its parentheses. -/
theorem keepsInOrder_of_binary (hw : w.KeepsBlocks) {left right : NodeId} {op : BinaryOp}
    {symbol : String} (form : op.form = .inline symbol)
    (h : (w.binary left op right).runOn out = (.ok text, final)) :
    w.KeepsInOrder [.value left, .value right] out final text := by
  unfold binary at h
  rw [form] at h
  obtain ⟨first, middle, hfirst, h⟩ := Render.runOn_bind_eq_ok_iff.mp h
  obtain ⟨second, last, hsecond, h⟩ := Render.runOn_bind_eq_ok_iff.mp h
  rw [Render.runOn_pure] at h
  cases h
  have hkept : Text.Keeps s!"({first} {symbol} {second})" first :=
    ((((((Text.keeps_self first).behind "(").front " ").front symbol).front " ").front
      second).front ")"
  exact keepsInOrder_pair hw hfirst hsecond hkept (((Text.keeps_self second).behind _).front ")")

/-- Membership keeps the key within the call on the object, though the key is rendered first. -/
theorem keepsInOrder_of_membership (hw : w.KeepsBlocks) {left right : NodeId} {op : BinaryOp}
    (form : op.form = .membership) (h : (w.binary left op right).runOn out = (.ok text, final)) :
    w.KeepsInOrder [.argument left, .value right] out final text := by
  unfold binary at h
  rw [form] at h
  obtain ⟨key, middle, hkey, h⟩ := Render.runOn_bind_eq_ok_iff.mp h
  obtain ⟨object, last, hobject, h⟩ := Render.runOn_bind_eq_ok_iff.mp h
  rw [Render.runOn_pure] at h
  cases h
  exact keepsInOrder_pair hw hkey hobject (((Text.keeps_self key).behind _).front ")")
    ((((Text.keeps_self object).front ".containsKey(").front key).front ")")

/-- A list without spread items keeps all of its items. -/
theorem keepsInOrder_of_arrayLiteral (hw : w.KeepsBlocks) {items : List NodeId}
    (plain : items.any (isSpread w.arena) = false)
    (h : (w.arrayLiteral items).runOn out = (.ok text, final)) :
    w.KeepsInOrder (items.map .argument) out final text := by
  unfold arrayLiteral at h
  rw [plain] at h
  obtain ⟨inner, last, hinner, h⟩ := Render.runOn_bind_eq_ok_iff.mp h
  rw [Render.runOn_pure] at h
  cases h
  obtain ⟨parts, hruns, hkept⟩ := keepsInOrder_of_arguments hw hinner
  exact ⟨parts, hruns, fun part hm => (hkept part hm).wrap "[" "]"⟩

/-- An access by key keeps the base and the key. -/
theorem keepsInOrder_of_element (hw : w.KeepsBlocks) {key : NodeId}
    (h : (do
        let base ← w.expression base
        let key ← w.argument key
        return s!"{base}[{key}]").runOn out = (.ok text, final)) :
    w.KeepsInOrder [.value base, .argument key] out final text := by
  obtain ⟨object, middle, hobject, h⟩ := Render.runOn_bind_eq_ok_iff.mp h
  obtain ⟨index, last, hindex, h⟩ := Render.runOn_bind_eq_ok_iff.mp h
  rw [Render.runOn_pure] at h
  cases h
  exact keepsInOrder_pair hw hobject hindex
    ((((Text.keeps_self object).front "[").front index).front "]")
    (((Text.keeps_self index).behind _).front "]")

/-- A template keeps its first piece and all of its spans. -/
theorem keepsInOrder_of_templateLiteral (hw : w.KeepsBlocks) {head : String}
    {spans : List TemplateSpan} (h : (w.templateLiteral head spans).runOn out = (.ok text, final)) :
    w.KeepsInOrder (.literal head :: spans.map .span) out final text := by
  obtain ⟨front, middle, hfront, h⟩ := Render.runOn_bind_eq_ok_iff.mp h
  obtain ⟨texts, last, htexts, h⟩ := Render.runOn_bind_eq_ok_iff.mp h
  rw [Render.runOn_pure] at h
  cases h
  obtain ⟨parts, hparts, rfl⟩ := exists_runsInOrder_of_mapM (f := .span) hw htexts
  have hhead : (w.operand (.literal head)).runOn out = (.ok front, middle) := hfront
  obtain ⟨lines, hruns⟩ := exists_runsInOrder_cons hw hhead hparts
  refine ⟨_, hruns, List.forall_mem_cons.mpr ⟨?_, fun part hm => ?_⟩⟩
  · exact (((Text.keeps_self front).behind "\"").front _).front "\""
  · exact ((Text.keeps_join (List.mem_map_of_mem hm)).behind _).front "\""

/-! ### Calls -/

/-- A method of the runtime value is no helper, and to find that out writes nothing. -/
theorem helperCall?_of_isRuntimeMethod (hr : w.arena.IsRuntimeMethod base name)
    {found : Option String}
    (h : (w.helperCall? base name args).runOn out = (.ok found, final)) :
    found = none ∧ final = out := by
  obtain ⟨node, start, hnode, hrest⟩ := Render.runOn_bind_eq_ok_iff.mp h
  obtain ⟨hget, rfl⟩ := Render.runOn_ofExcept_eq_ok_iff.mp hnode
  split at hrest
  · rw [Render.runOn_pure] at hrest
    cases hrest
    exact ⟨rfl, rfl⟩
  · next global hglobal =>
    rw [hr.helper node global (Arena.node_eq_ok_iff.mp hget) hglobal] at hrest
    cases hrest
    exact ⟨rfl, rfl⟩

/-- A method keeps its receiver and all of its arguments. -/
theorem keepsInOrder_of_plainMethod (hw : w.KeepsBlocks)
    (h : (w.plainMethod base name args).runOn out = (.ok text, final)) :
    w.KeepsInOrder (.value base :: args.map .argument) out final text := by
  obtain ⟨receiver, middle, hreceiver, h⟩ := Render.runOn_bind_eq_ok_iff.mp h
  obtain ⟨inner, last, hinner, h⟩ := Render.runOn_bind_eq_ok_iff.mp h
  rw [Render.runOn_pure] at h
  cases h
  obtain ⟨parts, hparts, hkept⟩ := keepsInOrder_of_arguments hw hinner
  have hbase : (w.operand (.value base)).runOn out = (.ok receiver, middle) := hreceiver
  obtain ⟨lines, hruns⟩ := exists_runsInOrder_cons hw hbase hparts
  refine ⟨_, hruns, List.forall_mem_cons.mpr ⟨?_, fun part hm => ?_⟩⟩
  · exact (((((Text.keeps_self receiver).front ".").front name).front "(").front inner).front ")"
  · exact ((hkept part hm).behind _).front ")"

/-- A method of the runtime is no list operation, no push and no helper, so it is called as it
stands. -/
theorem keepsInOrder_of_method (hw : w.KeepsBlocks) (hr : w.arena.IsRuntimeMethod base name)
    (h : (w.method base name args).runOn out = (.ok text, final)) :
    w.KeepsInOrder (.value base :: args.map .argument) out final text := by
  unfold method at h
  rw [hr.operation] at h
  dsimp only at h
  rw [if_neg hr.push] at h
  obtain ⟨found, start, hfound, hrest⟩ := Render.runOn_bind_eq_ok_iff.mp h
  obtain ⟨rfl, rfl⟩ := helperCall?_of_isRuntimeMethod hr hfound
  exact keepsInOrder_of_plainMethod hw hrest

/-- A push keeps the list and the value. -/
theorem keepsInOrder_of_push (hw : w.KeepsBlocks) {arg : NodeId}
    (single : ∀ expr, w.arena.get? (w.arena.argumentExpr arg) ≠ some (.spread expr))
    (h : (w.push base [arg]).runOn out = (.ok text, final)) :
    w.KeepsInOrder [.value base, .argument arg] out final text := by
  obtain ⟨list, middle, hlist, hrest⟩ := Render.runOn_bind_eq_ok_iff.mp h
  obtain ⟨node, start, hnode, hadd⟩ := Render.runOn_bind_eq_ok_iff.mp hrest
  obtain ⟨hget, rfl⟩ := Render.runOn_ofExcept_eq_ok_iff.mp hnode
  split at hadd
  · exact absurd (Arena.node_eq_ok_iff.mp hget) (single _)
  · obtain ⟨value, last, hvalue, hdone⟩ := Render.runOn_bind_eq_ok_iff.mp hadd
    rw [Render.runOn_pure] at hdone
    cases hdone
    exact keepsInOrder_pair hw hlist hvalue
      ((((Text.keeps_self list).front ".add(").front value).front ")")
      (((Text.keeps_self value).behind _).front ")")

/-- So does a push of all values of another list. -/
theorem keepsInOrder_of_pushAll (hw : w.KeepsBlocks) {arg expr : NodeId}
    (spread : w.arena.get? (w.arena.argumentExpr arg) = some (.spread expr))
    (h : (w.push base [arg]).runOn out = (.ok text, final)) :
    w.KeepsInOrder [.value base, .value expr] out final text := by
  obtain ⟨list, middle, hlist, hrest⟩ := Render.runOn_bind_eq_ok_iff.mp h
  rw [node_eq_pure spread] at hrest
  obtain ⟨values, last, hvalues, hdone⟩ := Render.runOn_bind_eq_ok_iff.mp
    (show (do
      let values ← w.expression expr
      return s!"{list}.addAll({values})").runOn middle = (.ok text, final) from hrest)
  rw [Render.runOn_pure] at hdone
  cases hdone
  exact keepsInOrder_pair hw hlist hvalues
    ((((Text.keeps_self list).front ".addAll(").front values).front ")")
    (((Text.keeps_self values).behind _).front ")")

/-- Wherever operands are evaluated from left to right they are rendered in order, and the
texts of all of them are kept. -/
theorem keepsInOrder_of_renderExpression (hw : w.KeepsBlocks)
    (ho : w.arena.EvaluatesInOrder id operands)
    (h : (w.renderExpression id).runOn out = (.ok text, final)) :
    w.KeepsInOrder operands out final text := by
  unfold renderExpression at h
  cases ho with
  | binary node form =>
    rw [node_eq_pure node] at h
    exact keepsInOrder_of_binary hw form h
  | membership node form =>
    rw [node_eq_pure node] at h
    exact keepsInOrder_of_membership hw form h
  | array node plain =>
    rw [node_eq_pure node] at h
    exact keepsInOrder_of_arrayLiteral hw plain h
  | element node =>
    rw [node_eq_pure node] at h
    exact keepsInOrder_of_element hw h
  | template node =>
    rw [node_eq_pure node] at h
    exact keepsInOrder_of_templateLiteral hw h
  | method node member runtime =>
    rw [node_eq_pure node] at h
    exact keepsInOrder_of_method hw runtime (runOn_method_of_call member h)
  | push node member single =>
    rw [node_eq_pure node] at h
    exact keepsInOrder_of_push hw single (runOn_method_of_call member h)
  | pushAll node member spread =>
    rw [node_eq_pure node] at h
    exact keepsInOrder_of_pushAll hw spread (runOn_method_of_call member h)

end Walker

/-! ### Assignments of stored targets -/

/-- Whether a text is assigned between two points of a run. -/
def Output.Assigned (text : String) (out final : Output) : Prop :=
  ∃ (lines : List String) (value : String), final.lines.toList = out.lines.toList ++ lines ∧
    s!"#set({text} = {value})" ∈ lines

namespace Output.Assigned

variable {text : String} {out middle final : Output}

/-- The last line is an assignment. -/
theorem of_eq {value : String}
    (h : final.lines.toList = out.lines.toList ++ [s!"#set({text} = {value})"]) :
    Assigned text out final := ⟨_, value, h, List.mem_singleton_self _⟩

/-- Lines in front do not matter. -/
theorem later (h : out.lines.toList <+: middle.lines.toList) (h' : Assigned text middle final) :
    Assigned text out final := by
  obtain ⟨first, hfirst⟩ := h
  obtain ⟨lines, value, hlines, hm⟩ := h'
  refine ⟨first ++ lines, value, ?_, List.mem_append_right _ hm⟩
  rw [hlines, ← hfirst, List.append_assoc]

/-- Neither do lines behind. -/
theorem earlier (h : Assigned text out middle) (h' : middle.lines.toList <+: final.lines.toList) :
    Assigned text out final := by
  obtain ⟨lines, value, hlines, hm⟩ := h
  obtain ⟨more, hmore⟩ := h'
  refine ⟨lines ++ more, value, ?_, List.mem_append_left _ hm⟩
  rw [← hmore, hlines, List.append_assoc]

end Output.Assigned

namespace Walker

variable {w : Walker} {id target right : NodeId} {op : BinaryOp} {text stored : String}
  {out stop final : Output}

/-- The value is rendered first and assigned then. -/
theorem assigned_of_assignNode (hw : w.KeepsBlocks)
    (h : (w.assignNode stored id).runOn out = (.ok (), final)) : out.Assigned stored final := by
  obtain ⟨value, stop, hvalue, hset⟩ := toList_of_assignNode h
  exact (Output.Assigned.of_eq hset).later ((keeps_expression _).isPrefix hw hvalue)

/-- An assignment is one line. -/
theorem assigned_of_assign {value : String}
    (h : (Render.assign stored value).runOn out = (.ok (), final)) : out.Assigned stored final := by
  rw [Render.runOn_emit_eq_ok_iff.mp h]
  exact .of_eq Array.toList_push

/-- Each form of operators that stores assigns to the text of its left operand, also behind a
test for null. -/
theorem assigned_of_binary (hw : w.KeepsBlocks) (hs : op.form.stores = true)
    (h : (w.binary target op right).runOn out = (.ok text, final)) :
    ∃ stored stop, (w.expression target).runOn out = (.ok stored, stop) ∧
      stop.Assigned stored final := by
  unfold binary at h
  cases hform : op.form with
  | store =>
    rw [hform] at h
    obtain ⟨stored, stop, hstored, hrest⟩ := Render.runOn_bind_eq_ok_iff.mp h
    obtain ⟨_, closed, hassign, hdone⟩ := Render.runOn_bind_eq_ok_iff.mp hrest
    cases hdone
    exact ⟨_, stop, hstored, assigned_of_assignNode hw hassign⟩
  | storeIfNull =>
    rw [hform] at h
    obtain ⟨stored, stop, hstored, hrest⟩ := Render.runOn_bind_eq_ok_iff.mp h
    obtain ⟨_, closed, hguarded, hdone⟩ := Render.runOn_bind_eq_ok_iff.mp hrest
    cases hdone
    obtain ⟨opened, finish, hassign, hopened, hclosed⟩ := Render.toList_of_guarded hguarded
    have hinner : opened.Assigned text finish := assigned_of_assignNode hw hassign
    exact ⟨_, stop, hstored, (hinner.later ⟨_, hopened.symm⟩).earlier ⟨_, hclosed.symm⟩⟩
  | update symbol =>
    rw [hform] at h
    obtain ⟨stored, stop, hstored, hrest⟩ := Render.runOn_bind_eq_ok_iff.mp h
    obtain ⟨value, last, hvalue, hupdate⟩ := Render.runOn_bind_eq_ok_iff.mp hrest
    obtain ⟨_, closed, hset, hdone⟩ := Render.runOn_bind_eq_ok_iff.mp hupdate
    cases hdone
    have hlines : stop.lines.toList <+: last.lines.toList :=
      (keeps_expression right).isPrefix hw hvalue
    exact ⟨_, stop, hstored, (assigned_of_assign hset).later hlines⟩
  | inline symbol | membership | coalesce =>
    rw [hform] at hs
    cases hs

/-- A step assigns to the text of its operand. -/
theorem assigned_of_stepped {step : Step}
    (h : (w.stepped target step).runOn out = (.ok text, final)) :
    ∃ stored stop, (w.expression target).runOn out = (.ok stored, stop) ∧
      stop.Assigned stored final := by
  obtain ⟨stored, stop, hstored, hrest⟩ := Render.runOn_bind_eq_ok_iff.mp h
  obtain ⟨_, closed, hset, hdone⟩ := Render.runOn_bind_eq_ok_iff.mp hrest
  cases hdone
  exact ⟨_, stop, hstored, assigned_of_assign hset⟩

/-- So does a step that keeps the value from before. -/
theorem assigned_of_steppedAfter (hw : w.KeepsBlocks) {step : Step}
    (h : (w.steppedAfter target step).runOn out = (.ok text, final)) :
    ∃ stored stop, (w.expression target).runOn out = (.ok stored, stop) ∧
      stop.Assigned stored final := by
  obtain ⟨stored, stop, hstored, hrest⟩ := Render.runOn_bind_eq_ok_iff.mp h
  obtain ⟨before, kept, hkept, hupdate⟩ := Render.runOn_bind_eq_ok_iff.mp hrest
  obtain ⟨_, closed, hset, hdone⟩ := Render.runOn_bind_eq_ok_iff.mp hupdate
  cases hdone
  have hlines : stop.lines.toList <+: kept.lines.toList :=
    (Keeps.materialize stored).isPrefix hw hkept
  exact ⟨stored, stop, hstored, (assigned_of_assign hset).later hlines⟩

/-- A node that stores renders its target and assigns the text. -/
theorem assigned_of_stored (hw : w.KeepsBlocks) {node : Node}
    (hn : w.arena.get? id = some node) (hs : node.stored? = some target)
    (h : (w.renderExpression id).runOn out = (.ok text, final)) :
    ∃ stored stop, (w.expression target).runOn out = (.ok stored, stop) ∧
      stop.Assigned stored final := by
  unfold renderExpression at h
  rw [node_eq_pure hn] at h
  cases node with
  | binary left op right =>
    obtain ⟨hstores, heq⟩ := Option.ite_none_right_eq_some.mp hs
    cases heq
    exact assigned_of_binary hw hstores h
  | unary op operand =>
    cases op with
    | step direction =>
      cases hs
      exact assigned_of_stepped h
    | _ => cases hs
  | stepAfter operand step =>
    cases hs
    exact assigned_of_steppedAfter hw h
  | _ => cases hs

end Walker

/-! ### Assignments on the way -/

namespace Walker

variable {w : Walker} {id expr : NodeId} {operands : List Operand} {operand : Operand}
  {text : String} {parts : List OperandOutput} {out final : Output}

/-- The expression of an operand has its run in the run of the operand. -/
theorem exists_run_of_operand (hw : w.KeepsBlocks) (hr : operand.expr? w.arena = some expr)
    (h : (w.operand operand).runOn out = (.ok text, final)) :
    ∃ value stop, (w.expression expr).runOn out = (.ok value, stop) ∧
      stop.lines.toList <+: final.lines.toList := by
  cases operand with
  | literal text => cases hr
  | value id =>
    cases hr
    exact ⟨text, final, h, List.prefix_rfl⟩
  | argument id =>
    cases hr
    obtain ⟨value, stop, hvalue, hrest⟩ := Render.runOn_bind_eq_ok_iff.mp h
    obtain ⟨node, start, hnode, hdone⟩ := Render.runOn_bind_eq_ok_iff.mp hrest
    obtain ⟨-, rfl⟩ := Render.runOn_ofExcept_eq_ok_iff.mp hnode
    refine ⟨value, start, hvalue, ?_⟩
    split at hdone
    · exact (Keeps.materialize value).isPrefix hw hdone
    · cases hdone
      exact List.prefix_rfl
  | span part =>
    cases hr
    obtain ⟨value, middle, hreference, hrest⟩ := Render.runOn_bind_eq_ok_iff.mp h
    obtain ⟨literal, last, hliteral, hdone⟩ := Render.runOn_bind_eq_ok_iff.mp hrest
    cases hdone
    obtain ⟨first, stop, hfirst, hstored⟩ := Render.runOn_bind_eq_ok_iff.mp hreference
    exact ⟨first, stop, hfirst, ((keeps_toReference first).isPrefix hw hstored).trans
      ((keeps_templateText part.literal).isPrefix hw hliteral)⟩

/-- Runs of operands in order append lines. -/
theorem RunsInOrder.isPrefix (h : w.RunsInOrder operands out final parts) :
    out.lines.toList <+: final.lines.toList := by
  induction h with
  | nil => exact List.prefix_rfl
  | cons run written later ih => exact List.IsPrefix.trans ⟨_, written.symm⟩ ih

/-- Each operand has a stretch of the run for itself. -/
theorem RunsInOrder.exists_run (h : w.RunsInOrder operands out final parts)
    (hm : operand ∈ operands) :
    ∃ start text stop, (w.operand operand).runOn start = (.ok text, stop) ∧
      out.lines.toList <+: start.lines.toList ∧ stop.lines.toList <+: final.lines.toList := by
  induction h with
  | nil => cases hm
  | cons run written later ih =>
    rcases List.mem_cons.mp hm with rfl | hm
    · exact ⟨_, _, _, run, List.prefix_rfl, later.isPrefix⟩
    · obtain ⟨start, text, stop, hrun, hstart, hstop⟩ := ih hm
      exact ⟨start, text, stop, hrun, List.IsPrefix.trans ⟨_, written.symm⟩ hstart, hstop⟩

/-- What holds of the run of each operand holds of all in order. -/
theorem RunsInOrder.forall₂ {R : Operand → OperandOutput → Prop}
    (h : w.RunsInOrder operands out final parts)
    (hone : ∀ {operand start stop text lines},
      (w.operand operand).runOn start = (.ok text, stop) →
        stop.lines.toList = start.lines.toList ++ lines → R operand ⟨text, lines⟩) :
    List.Forall₂ R operands parts := by
  induction h with
  | nil => exact .nil
  | cons run written later ih => exact .cons (hone run written) ih

end Walker

/-- Whether, between two points of a run, a text that a target is rendered to is assigned. -/
def Program.Stores (p : Program) (dialect : Dialect) (target : NodeId) (out final : Output) :
    Prop :=
  ∃ n start text stop,
    ((p.walkerWithin dialect n).expression target).runOn start = (.ok text, stop) ∧
      out.Assigned text final

/-- An expression that assigns a target on its way, at whatever depth, writes an assignment of
its text.  The induction is on that way: each of its steps is one level of the walker. -/
theorem Program.stores_of_assigns {p : Program} (hp : p.BottomUp)
    (ht : ∀ integration ∈ p.integrations, integration.KeepsBlocks) {dialect : Dialect} {n : Nat}
    {id target : NodeId} (ha : p.arena.Assigns target id) {out final : Output} {text : String}
    (h : ((p.walkerWithin dialect n).expression id).runOn out = (.ok text, final)) :
    p.Stores dialect target out final := by
  induction ha generalizing n text out final with
  | @store id stored node stores =>
    cases n with
    | zero => cases h
    | succ n =>
      have hw : (p.walkerWithin dialect n).KeepsBlocks := hp.keepsBlocks_walkerWithin ht n
      rw [← p.arena_walkerWithin dialect n] at node
      obtain ⟨text, stop, htext, hassigned⟩ := Walker.assigned_of_stored hw node stores h
      exact ⟨n, out, text, stop, htext,
        hassigned.later ((Walker.keeps_expression target).isPrefix hw htext)⟩
  | @paren id expr node inner ih =>
    cases n with
    | zero => cases h
    | succ n =>
      apply ih (n := n)
      have hparen : ((p.walkerWithin dialect n).renderExpression id).runOn out =
        (.ok text, final) := h
      unfold Walker.renderExpression at hparen
      rw [node_of_get? node] at hparen
      exact hparen
  | @operand id expr operands operand order among rendered inner ih =>
    cases n with
    | zero => cases h
    | succ n =>
      have hw : (p.walkerWithin dialect n).KeepsBlocks := hp.keepsBlocks_walkerWithin ht n
      rw [← p.arena_walkerWithin dialect n] at order rendered
      obtain ⟨parts, hruns, -⟩ := Walker.keepsInOrder_of_renderExpression hw order h
      -- the run of the operand is a stretch of the run of the whole
      obtain ⟨start, kept, stop, hrun, hstart, hstop⟩ := hruns.exists_run among
      obtain ⟨value, middle, hvalue, hmiddle⟩ := Walker.exists_run_of_operand hw rendered hrun
      obtain ⟨m, begin, stored, last, hstored, hassigned⟩ := ih hvalue
      exact ⟨m, begin, stored, last, hstored,
        (hassigned.later hstart).earlier (hmiddle.trans hstop)⟩

/-! ### Values that later operands change -/

/-- Whether the lines of an operand assign every target that the operand assigns on its way. -/
def Program.CarriesOut (p : Program) (dialect : Dialect) (operand : Operand)
    (output : OperandOutput) : Prop :=
  ∀ expr target, operand.expr? p.arena = some expr → p.arena.Assigns target expr →
    ∃ (n : Nat) (start : Output) (text : String) (stop : Output) (value : String),
      ((p.walkerWithin dialect n).expression target).runOn start = (.ok text, stop) ∧
        s!"#set({text} = {value})" ∈ output.lines

/-- An expression that evaluates operands from left to right is rendered by rendering them in
that order, and its text keeps the texts of all of them.  The assignments that an operand
makes on its way are among its lines.  What an operand is worth is left alone by an operand
behind it exactly if no line of the latter assigns a variable that the kept text of the
former reads. -/
theorem operandOrder_iff {p : Program} (hp : p.BottomUp)
    (ht : ∀ integration ∈ p.integrations, integration.KeepsBlocks) {dialect : Dialect} {n : Nat}
    {id : NodeId} {operands : List Operand} (ho : p.arena.EvaluatesInOrder id operands)
    {out final : Output} {text : String}
    (h : ((p.walkerWithin dialect (n + 1)).expression id).runOn out = (.ok text, final)) :
    ∃ parts, (p.walkerWithin dialect n).RunsInOrder operands out final parts ∧
      (∀ part ∈ parts, Text.Keeps text part.text) ∧
      List.Forall₂ (p.CarriesOut dialect) operands parts ∧
      parts.Pairwise fun earlier later =>
        (Text.KeepsValue earlier.text later.assignments ↔
          ∀ made ∈ later.assignments, Text.reads earlier.text made.target = false) := by
  have hw : (p.walkerWithin dialect n).KeepsBlocks := hp.keepsBlocks_walkerWithin ht n
  rw [← p.arena_walkerWithin dialect n] at ho
  obtain ⟨parts, hruns, hkept⟩ := Walker.keepsInOrder_of_renderExpression hw ho h
  refine ⟨parts, hruns, hkept, ?_, List.pairwise_of_forall fun _ _ => Text.keepsValue_iff⟩
  apply hruns.forall₂
  intro operand start stop kept lines hrun hlines expr target hexpr hassigns
  rw [← p.arena_walkerWithin dialect n] at hexpr
  obtain ⟨value, middle, hvalue, hmiddle⟩ := Walker.exists_run_of_operand hw hexpr hrun
  obtain ⟨m, begin, stored, last, hstored, hassigned⟩ :=
    Program.stores_of_assigns hp ht hassigns hvalue
  obtain ⟨written, assigned, hwritten, hm⟩ := hassigned.earlier hmiddle
  rw [hlines, List.append_cancel_left_eq] at hwritten
  subst hwritten
  exact ⟨m, begin, stored, last, assigned, hstored, hm⟩

/-- The closure `input => { let x = true; return x === (x = false); }`. -/
def Program.readThenAssign : Program :=
  (Builder.of []
    [.boolean true, .identifier "x", .declaration .let ⟨1⟩ (some ⟨0⟩), .identifier "x",
      .identifier "x", .boolean false, .binary ⟨4⟩ .assign ⟨5⟩, .binary ⟨3⟩ .strictEq ⟨6⟩,
      .returnValue (some ⟨7⟩), .block [⟨2⟩, ⟨8⟩], .identifier "input", .parameter ⟨10⟩ none,
      .function [⟨11⟩] ⟨9⟩]).program

/-- The comparison is rendered to a text that reads the variable twice, behind the line that
assigns it. -/
theorem Program.runOn_readThenAssign :
    ((Program.readThenAssign.walkerWithin (.resolver {}) 5).expression ⟨7⟩).runOn {} =
      (.ok "($context.stash.x == $context.stash.x)",
        { lines := #["#set($context.stash.x = false)"] }) := by
  cbv

theorem operandOrder_iff_readThenAssign :
    ∃ parts,
      (Program.readThenAssign.walkerWithin (.resolver {}) 4).RunsInOrder [.value ⟨3⟩, .value ⟨6⟩] {}
          { lines := #["#set($context.stash.x = false)"] } parts ∧
        (∀ part ∈ parts, Text.Keeps "($context.stash.x == $context.stash.x)" part.text) ∧
        List.Forall₂ (Program.readThenAssign.CarriesOut (.resolver {})) [.value ⟨3⟩, .value ⟨6⟩]
          parts ∧
        parts.Pairwise fun earlier later =>
          (Text.KeepsValue earlier.text later.assignments ↔
            ∀ made ∈ later.assignments, Text.reads earlier.text made.target = false) := by
  have hnone : Program.readThenAssign.integrations = #[] := by cbv
  have hn : Program.readThenAssign.arena.get? ⟨7⟩ = some (.binary ⟨3⟩ .strictEq ⟨6⟩) := by cbv
  have hbottom : Program.readThenAssign.BottomUp := Builder.bottomUp_of (by decide) (by cbv)
  have hkeeps : ∀ integration ∈ Program.readThenAssign.integrations, integration.KeepsBlocks := by
    rw [hnone]
    intro integration hm
    exact absurd hm (Array.not_mem_empty integration)
  exact operandOrder_iff hbottom hkeeps (.binary hn rfl) Program.runOn_readThenAssign

/-- The left operand is read behind the assignment that the right one makes: the kept text and
the target are the same. -/
theorem not_keepsValue_readThenAssign :
    Program.readThenAssign.arena.get? ⟨7⟩ = some (.binary ⟨3⟩ .strictEq ⟨6⟩) ∧
      ∃ first second middle final text,
        ((Program.readThenAssign.walkerWithin (.resolver {}) 4).expression ⟨3⟩).runOn {} =
          (.ok first, middle) ∧
        ((Program.readThenAssign.walkerWithin (.resolver {}) 4).expression ⟨6⟩).runOn middle =
          (.ok second, final) ∧
        ((Program.readThenAssign.walkerWithin (.resolver {}) 5).expression ⟨7⟩).runOn {} =
          (.ok text, final) ∧
        Text.Keeps text first ∧
        ¬ Text.KeepsValue first
          ((final.lines.toList.drop middle.lines.size).filterMap assignment?) := by
  refine ⟨by cbv, "$context.stash.x", "$context.stash.x", {}, _, _, by cbv, by cbv,
    Program.runOn_readThenAssign, ?_, ?_⟩
  · exact ((Text.keeps_self "$context.stash.x").behind "(").front " == $context.stash.x)"
  · intro h
    have hreads := Text.keepsValue_iff.mp h ⟨"$context.stash.x", "false"⟩ (by decide +kernel)
    exact absurd hreads (by decide +kernel)

end ClosureVtl
