/-
Module: ClosureVtl.Proofs.Render.CallArguments
Purpose: Which arguments of a call are operators as they stand, and which go through a
  temporary.
Main exports:
  CallText, Arena.Builds, Arena.ComesDownTo, Node.isInfix, Operand.Shields,
  Walker.runsCall_of_builds, Program.inlines_of_run, inline_argument_iff
-/
import ClosureVtl.Proofs.Render.Emission
import ClosureVtl.Proofs.Render.OperandOrder

namespace ClosureVtl

/-!
A call is written around the texts of its arguments.  The template language does not accept
an operator there, so an argument that is an operator is stored in a temporary.  What counts
is the node that the rule for arguments looks at: the argument without its wrapper and its
parentheses.  An operator that is awaited or promised below them is not seen, and neither is
one that is spread, since what is spread is rendered as a value.

`Arena.Builds` lists the calls that are written, with the operands in their parentheses.
`inline_argument_iff` is the whole rule: an operand that comes down to an operator is the text
of the operator itself unless the operator is the node that is looked at.
-/

/-! ### Calls around operands -/

/-- A call that is written around the texts of operands. -/
structure CallText where
  operands : List Operand
  /-- the call on a receiver, with the texts of the operands between commas -/
  text : String → String → String
  /-- whether the call is a line of its own, for its effect -/
  statement : Bool

/-- The key of a property that is known before the template runs. -/
def Node.fixedKey? : Node → Option String
  | .identifier name | .string name => some (Text.quote name)
  | .number value => value.literal.toOption.map Text.quote
  | _ => none

/-- Whether an expression writes a call: of a method or a function, of a helper of the globals,
for membership, for `push`, or to build a literal. -/
inductive Arena.Builds (a : Arena) : NodeId → CallText → Prop where
  | method {id callee base : NodeId} {name : String} {args : List NodeId}
      (node : a.get? id = some (.call callee args))
      (member : a.get? (a.unwrapParens callee) = some (.member base name))
      (runtime : a.IsRuntimeMethod base name) :
      Builds a id ⟨args.map .argument, fun receiver args => s!"{receiver}.{name}({args})", false⟩
  | function {id callee : NodeId} {args : List NodeId} {named : Node}
      (node : a.get? id = some (.call callee args)) (plain : a.resolveIntegration callee = none)
      (found : a.get? (a.unwrapParens callee) = some named)
      (name : (∃ name, named = .identifier name) ∨ ∃ name integration,
        named = .reference name integration) :
      Builds a id ⟨args.map .argument, fun function args => s!"{function}({args})", false⟩
  | helper {id callee base arg : NodeId} {name global : String} {found : Node}
      {helper : String → String} (node : a.get? id = some (.call callee [arg]))
      (member : a.get? (a.unwrapParens callee) = some (.member base name))
      (receiver : a.get? (a.unwrapParens base) = some found)
      (undeclared : Walker.globalName? a (a.unwrapParens base) found = some global)
      (known : Walker.globalHelper? global name = some helper) :
      Builds a id ⟨[.argument arg], fun _ value => helper value, false⟩
  | membership {id left right : NodeId} {op : BinaryOp}
      (node : a.get? id = some (.binary left op right)) (form : op.form = .membership) :
      Builds a id ⟨[.argument left], fun object key => s!"{object}.containsKey({key})", false⟩
  | push {id callee base arg : NodeId} (node : a.get? id = some (.call callee [arg]))
      (member : a.get? (a.unwrapParens callee) = some (.member base "push"))
      (single : ∀ expr, a.get? (a.argumentExpr arg) ≠ some (.spread expr)) :
      Builds a id ⟨[.argument arg], fun list value => s!"{list}.add({value})", false⟩
  | pushAll {id callee base arg expr : NodeId} (node : a.get? id = some (.call callee [arg]))
      (member : a.get? (a.unwrapParens callee) = some (.member base "push"))
      (spread : a.get? (a.argumentExpr arg) = some (.spread expr)) :
      Builds a id ⟨[.value expr], fun list values => s!"{list}.addAll({values})", false⟩
  | item {id item : NodeId} {items : List NodeId} (node : a.get? id = some (.array items))
      (spreads : items.any (Walker.isSpread a) = true) (among : item ∈ items)
      (single : ∀ expr, a.get? item ≠ some (.spread expr)) :
      Builds a id ⟨[.argument item], fun list value => s!"{list}.add({value})", true⟩
  | spreadItem {id item expr : NodeId} {items : List NodeId}
      (node : a.get? id = some (.array items)) (among : item ∈ items)
      (spread : a.get? item = some (.spread expr)) :
      Builds a id ⟨[.value expr], fun list values => s!"{list}.addAll({values})", true⟩
  | property {id property name value : NodeId} {properties : List NodeId} {named : Node}
      {key : String} (node : a.get? id = some (.object properties)) (among : property ∈ properties)
      (member : a.get? property = some (.property name value)) (found : a.get? name = some named)
      (fixed : named.fixedKey? = some key) :
      Builds a id
        ⟨[.argument value], fun object value => s!"{object}.put({key}, {value})", true⟩
  | computedProperty {id property name key value : NodeId} {properties : List NodeId}
      (node : a.get? id = some (.object properties)) (among : property ∈ properties)
      (member : a.get? property = some (.property name value))
      (computed : a.get? name = some (.computedKey key)) :
      Builds a id
        ⟨[.argument key, .argument value], fun object args => s!"{object}.put({args})", true⟩
  | spreadProperty {id property expr : NodeId} {properties : List NodeId}
      (node : a.get? id = some (.object properties)) (among : property ∈ properties)
      (spread : a.get? property = some (.spreadProperty expr)) :
      Builds a id ⟨[.value expr], fun object values => s!"{object}.putAll({values})", true⟩

/-- Whether a call appears around texts: as the text of an expression, or among the lines. -/
def CallText.Appears (call : CallText) (texts : List String) (result : String)
    (final : Output) : Prop :=
  ∃ receiver,
    if call.statement then
      discardLine (call.text receiver (", ".intercalate texts)) ∈ final.lines.toList
    else result = call.text receiver (", ".intercalate texts)

/-- Whether a call is written in a run, around the texts of runs of its operands. -/
def Walker.RunsCall (w : Walker) (call : CallText) (out final : Output) (text : String) : Prop :=
  ∃ start stop parts, w.RunsInOrder call.operands start stop parts ∧
    out.lines.toList <+: start.lines.toList ∧ stop.lines.toList <+: final.lines.toList ∧
    call.Appears (parts.map OperandOutput.text) text final

/-! ### Operators below wrappers -/

/-- What a node wraps without a text of its own. -/
def Node.wrapped? : Node → Option NodeId
  | .paren expr | .argument expr _ | .await expr | .promise expr => some expr
  | _ => none

/-- Whether a node comes down to another one, through wrappers. -/
inductive Arena.ComesDownTo (a : Arena) : NodeId → NodeId → Prop where
  | refl (id : NodeId) : ComesDownTo a id id
  | step {id expr last : NodeId} {node : Node} (found : a.get? id = some node)
      (wrapped : node.wrapped? = some expr) (rest : ComesDownTo a expr last) :
      ComesDownTo a id last

/-- Whether the text of a node is an arithmetic, comparing or logical operator with its
operands, a negation or a sign. -/
def Node.isInfix : Node → Bool
  | .binary _ op _ =>
    match op.form with
    | .inline _ => true
    | _ => false
  | .unary .not _ | .unary .neg _ => true
  | _ => false

/-- Whether an operand comes down to a node. -/
def Operand.ComesTo (a : Arena) (operand : Operand) (last : NodeId) : Prop :=
  ∃ id, (operand = .value id ∨ operand = .argument id) ∧ a.ComesDownTo id last

/-- Whether a node is what the rule for arguments looks at. -/
def Operand.Shields (a : Arena) : Operand → NodeId → Prop
  | .argument id, last => a.argumentExpr id = last
  | _, _ => False

/-- Whether the kept text of an operand is the text of an operator that it comes down to
exactly if the rule for arguments does not look at the operator; otherwise it is a temporary
that holds this text. -/
def Program.Inlines (p : Program) (dialect : Dialect) (operand : Operand)
    (output : OperandOutput) : Prop :=
  ∀ last node, operand.ComesTo p.arena last → p.arena.get? last = some node →
    node.isInfix = true →
    ∃ (n : Nat) (start : Output) (value : String) (stop : Output),
      ((p.walkerWithin dialect n).expression last).runOn start = (.ok value, stop) ∧
        (output.text = value ↔ ¬ operand.Shields p.arena last) ∧
        (operand.Shields p.arena last →
          output.text = Render.tempName (stop.temps + 1) ∧
            s!"#set({output.text} = {value})" ∈ output.lines)

/-! ### Runs that write a call -/

namespace Walker

variable {w : Walker} {id base arg expr : NodeId} {args : List NodeId} {operand : Operand}
  {operands : List Operand} {text value line : String} {parts : List OperandOutput}
  {out start middle stop final : Output} {written : String → String → String}

/-- Arguments are rendered in order, and their texts stand between commas. -/
theorem exists_runsInOrder_of_arguments (hw : w.KeepsBlocks)
    (h : (w.arguments args).runOn start = (.ok text, stop)) :
    ∃ parts, w.RunsInOrder (args.map .argument) start stop parts ∧
      text = ", ".intercalate (parts.map OperandOutput.text) := by
  obtain ⟨texts, last, htexts, h⟩ := Render.runOn_bind_eq_ok_iff.mp h
  rw [Render.runOn_pure] at h
  cases h
  obtain ⟨parts, hruns, rfl⟩ := exists_runsInOrder_of_mapM (f := .argument) hw htexts
  exact ⟨parts, hruns, rfl⟩

/-- The call is the text of the expression. -/
theorem RunsInOrder.runsCall (h : w.RunsInOrder operands start stop parts)
    (hstart : out.lines.toList <+: start.lines.toList)
    (hstop : stop.lines.toList <+: final.lines.toList) (receiver : String)
    (htext : text = written receiver (", ".intercalate (parts.map OperandOutput.text))) :
    w.RunsCall ⟨operands, written, false⟩ out final text :=
  ⟨start, stop, parts, h, hstart, hstop, receiver, htext⟩

/-- The call is a line behind those of the operands. -/
theorem RunsInOrder.runsCall_of_line (h : w.RunsInOrder operands start stop parts)
    (hstart : out.lines.toList <+: start.lines.toList) (receiver : String)
    (hline : stop.lines.toList ++
      [discardLine (written receiver (", ".intercalate (parts.map OperandOutput.text)))] <+:
        final.lines.toList) :
    w.RunsCall ⟨operands, written, true⟩ out final text :=
  ⟨start, stop, parts, h, hstart, (List.prefix_append _ _).trans hline, receiver,
    hline.subset (List.mem_append_right _ (List.mem_singleton_self _))⟩

/-- A single operand. -/
theorem exists_runsInOrder_single (operand : Operand) (hw : w.KeepsBlocks)
    (h : (w.operand operand).runOn start = (.ok value, stop)) :
    ∃ parts, w.RunsInOrder [operand] start stop parts ∧
      value = ", ".intercalate (parts.map OperandOutput.text) := by
  obtain ⟨lines, hruns⟩ := exists_runsInOrder_cons hw h .nil
  exact ⟨_, hruns, String.intercalate_singleton.symm⟩

/-- Each of some steps has its run in the run of them all. -/
theorem exists_run_of_forM {α : Type} {items : List α} {f : α → Render PUnit} {item : α}
    (hw : w.KeepsBlocks) (hf : ∀ item, w.Keeps (f item)) (hm : item ∈ items)
    (h : (items.forM f).runOn out = (.ok (), final)) :
    ∃ start stop, (f item).runOn start = (.ok (), stop) ∧
      out.lines.toList <+: start.lines.toList ∧ stop.lines.toList <+: final.lines.toList := by
  induction items generalizing out with
  | nil => cases hm
  | cons first rest ih =>
    change (f first >>= fun _ => rest.forM f).runOn out = (.ok (), final) at h
    obtain ⟨_, middle, hfirst, hrest⟩ := Render.runOn_bind_eq_ok_iff.mp h
    have hlater : middle.lines.toList <+: final.lines.toList :=
      (Keeps.forM fun item _ => hf item).isPrefix hw hrest
    rcases List.mem_cons.mp hm with rfl | hm
    · exact ⟨out, middle, hfirst, List.prefix_rfl, hlater⟩
    · obtain ⟨start, stop, hrun, hstart, hstop⟩ := ih hm hrest
      exact ⟨start, stop, hrun, ((hf first).isPrefix hw hfirst).trans hstart, hstop⟩

/-! ### Calls that are texts -/

/-- The receiver is rendered first and the arguments behind it, as they stand. -/
theorem runsCall_of_plainMethod (hw : w.KeepsBlocks) {name : String}
    (h : (w.plainMethod base name args).runOn out = (.ok text, final)) :
    w.RunsCall ⟨args.map .argument, fun receiver args => s!"{receiver}.{name}({args})", false⟩
      out final text := by
  obtain ⟨receiver, start, hreceiver, h⟩ := Render.runOn_bind_eq_ok_iff.mp h
  obtain ⟨inner, last, hinner, h⟩ := Render.runOn_bind_eq_ok_iff.mp h
  rw [Render.runOn_pure] at h
  cases h
  obtain ⟨parts, hruns, rfl⟩ := exists_runsInOrder_of_arguments hw hinner
  exact hruns.runsCall ((keeps_expression base).isPrefix hw hreceiver) List.prefix_rfl receiver rfl

/-- A method of the runtime is called as it stands. -/
theorem runsCall_of_method (hw : w.KeepsBlocks) {name : String}
    (hr : w.arena.IsRuntimeMethod base name)
    (h : (w.method base name args).runOn out = (.ok text, final)) :
    w.RunsCall ⟨args.map .argument, fun receiver args => s!"{receiver}.{name}({args})", false⟩
      out final text := by
  unfold method at h
  rw [hr.operation] at h
  dsimp only at h
  rw [if_neg hr.push] at h
  obtain ⟨found, start, hfound, hrest⟩ := Render.runOn_bind_eq_ok_iff.mp h
  obtain ⟨rfl, rfl⟩ := helperCall?_of_isRuntimeMethod hr hfound
  exact runsCall_of_plainMethod hw hrest

/-- A function is written with its address, which takes no line. -/
theorem runsCall_of_namedFunction (hw : w.KeepsBlocks) {callee : NodeId} {name : String}
    (h : (w.namedFunction callee name args).runOn out = (.ok text, final)) :
    w.RunsCall ⟨args.map .argument, fun function args => s!"{function}({args})", false⟩
      out final text := by
  unfold namedFunction at h
  split at h
  · obtain ⟨function, start, hfunction, h⟩ := Render.runOn_bind_eq_ok_iff.mp h
    obtain ⟨inner, last, hinner, h⟩ := Render.runOn_bind_eq_ok_iff.mp h
    rw [Render.runOn_pure] at h
    cases h
    obtain ⟨parts, hruns, rfl⟩ := exists_runsInOrder_of_arguments hw hinner
    exact hruns.runsCall ((keeps_address callee).isPrefix hw hfunction) List.prefix_rfl function
      rfl
  · exact absurd ⟨out, final, h⟩ Render.not_yields_fault

/-- A helper is no method of another kind. -/
theorem plain_of_globalHelper? {global name : String} {helper : String → String}
    (h : globalHelper? global name = some helper) :
    ListOperation.ofName? name = none ∧ name ≠ "push" := by
  unfold globalHelper? at h
  split at h
  all_goals first | exact ⟨rfl, by decide⟩ | cases h

/-- A helper takes one argument, and its receiver is not rendered. -/
theorem runsCall_of_helper (hw : w.KeepsBlocks) {global name : String} {node : Node}
    {helper : String → String} (receiver : w.arena.get? (w.arena.unwrapParens base) = some node)
    (undeclared : globalName? w.arena (w.arena.unwrapParens base) node = some global)
    (known : globalHelper? global name = some helper)
    (h : (w.method base name [arg]).runOn out = (.ok text, final)) :
    w.RunsCall ⟨[.argument arg], fun _ value => helper value, false⟩ out final text := by
  obtain ⟨hoperation, hpush⟩ := plain_of_globalHelper? known
  unfold method at h
  rw [hoperation] at h
  dsimp only at h
  rw [if_neg hpush] at h
  obtain ⟨found, start, hfound, hrest⟩ := Render.runOn_bind_eq_ok_iff.mp h
  unfold helperCall? at hfound
  dsimp only at hfound
  rw [node_eq_pure receiver, pure_bind] at hfound
  simp only [undeclared, known] at hfound
  obtain ⟨value, last, hvalue, hdone⟩ := Render.runOn_bind_eq_ok_iff.mp hfound
  rw [Render.runOn_pure] at hdone
  cases hdone
  rw [Render.runOn_pure] at hrest
  cases hrest
  obtain ⟨parts, hruns, htext⟩ := exists_runsInOrder_single (.argument arg) hw hvalue
  exact hruns.runsCall List.prefix_rfl List.prefix_rfl "" (congrArg helper htext)

/-- The key is rendered in front of the object, whose text comes first. -/
theorem runsCall_of_membership (hw : w.KeepsBlocks) {left right : NodeId} {op : BinaryOp}
    (form : op.form = .membership) (h : (w.binary left op right).runOn out = (.ok text, final)) :
    w.RunsCall ⟨[.argument left], fun object key => s!"{object}.containsKey({key})", false⟩
      out final text := by
  unfold binary at h
  rw [form] at h
  obtain ⟨key, middle, hkey, h⟩ := Render.runOn_bind_eq_ok_iff.mp h
  obtain ⟨object, last, hobject, h⟩ := Render.runOn_bind_eq_ok_iff.mp h
  rw [Render.runOn_pure] at h
  cases h
  obtain ⟨parts, hruns, rfl⟩ := exists_runsInOrder_single (.argument left) hw hkey
  exact hruns.runsCall List.prefix_rfl ((keeps_expression right).isPrefix hw hobject) object rfl

/-- A push adds its argument. -/
theorem runsCall_of_push (hw : w.KeepsBlocks)
    (single : ∀ expr, w.arena.get? (w.arena.argumentExpr arg) ≠ some (.spread expr))
    (h : (w.push base [arg]).runOn out = (.ok text, final)) :
    w.RunsCall ⟨[.argument arg], fun list value => s!"{list}.add({value})", false⟩
      out final text := by
  obtain ⟨list, start, hlist, hrest⟩ := Render.runOn_bind_eq_ok_iff.mp h
  obtain ⟨node, found, hnode, hadd⟩ := Render.runOn_bind_eq_ok_iff.mp hrest
  obtain ⟨hget, rfl⟩ := Render.runOn_ofExcept_eq_ok_iff.mp hnode
  split at hadd
  · exact absurd (Arena.node_eq_ok_iff.mp hget) (single _)
  · obtain ⟨value, last, hvalue, hdone⟩ := Render.runOn_bind_eq_ok_iff.mp hadd
    rw [Render.runOn_pure] at hdone
    cases hdone
    obtain ⟨parts, hruns, rfl⟩ := exists_runsInOrder_single (.argument arg) hw hvalue
    exact hruns.runsCall ((keeps_expression base).isPrefix hw hlist) List.prefix_rfl list rfl

/-- A push of all values adds a list, which is rendered as a value. -/
theorem runsCall_of_pushAll (hw : w.KeepsBlocks)
    (spread : w.arena.get? (w.arena.argumentExpr arg) = some (.spread expr))
    (h : (w.push base [arg]).runOn out = (.ok text, final)) :
    w.RunsCall ⟨[.value expr], fun list values => s!"{list}.addAll({values})", false⟩
      out final text := by
  obtain ⟨list, start, hlist, hrest⟩ := Render.runOn_bind_eq_ok_iff.mp h
  rw [node_eq_pure spread, pure_bind] at hrest
  obtain ⟨values, last, hvalues, hdone⟩ := Render.runOn_bind_eq_ok_iff.mp hrest
  rw [Render.runOn_pure] at hdone
  cases hdone
  obtain ⟨parts, hruns, rfl⟩ := exists_runsInOrder_single (.value expr) hw hvalues
  exact hruns.runsCall ((keeps_expression base).isPrefix hw hlist) List.prefix_rfl list rfl

/-! ### Calls that are lines -/

/-- A line that is written behind a run. -/
theorem lines_of_discard {value : String}
    (h : (Render.discard value).runOn stop = (.ok (), final)) :
    stop.lines.toList ++ [discardLine value] <+: final.lines.toList := by
  rw [Render.runOn_emit_eq_ok_iff.mp h, Array.toList_push]
  exact List.prefix_rfl

/-- An item is added by a line of its own. -/
theorem runsCall_of_addItem (hw : w.KeepsBlocks) {list : String} {item : NodeId}
    (single : ∀ expr, w.arena.get? item ≠ some (.spread expr))
    (h : (w.addItem list item).runOn out = (.ok (), final)) :
    w.RunsCall ⟨[.argument item], fun list value => s!"{list}.add({value})", true⟩
      out final text := by
  obtain ⟨node, found, hnode, hadd⟩ := Render.runOn_bind_eq_ok_iff.mp h
  obtain ⟨hget, rfl⟩ := Render.runOn_ofExcept_eq_ok_iff.mp hnode
  split at hadd
  · exact absurd (Arena.node_eq_ok_iff.mp hget) (single _)
  · obtain ⟨value, last, hvalue, hline⟩ := Render.runOn_bind_eq_ok_iff.mp hadd
    obtain ⟨parts, hruns, rfl⟩ := exists_runsInOrder_single (.argument item) hw hvalue
    exact hruns.runsCall_of_line List.prefix_rfl list (lines_of_discard hline)

/-- A spread item is added as a list, rendered as a value. -/
theorem runsCall_of_addItem_spread (hw : w.KeepsBlocks) {list : String} {item : NodeId}
    (spread : w.arena.get? item = some (.spread expr))
    (h : (w.addItem list item).runOn out = (.ok (), final)) :
    w.RunsCall ⟨[.value expr], fun list values => s!"{list}.addAll({values})", true⟩
      out final text := by
  unfold addItem at h
  rw [node_eq_pure spread, pure_bind] at h
  obtain ⟨values, last, hvalues, hline⟩ := Render.runOn_bind_eq_ok_iff.mp h
  obtain ⟨parts, hruns, rfl⟩ := exists_runsInOrder_single (.value expr) hw hvalues
  exact hruns.runsCall_of_line List.prefix_rfl list (lines_of_discard hline)

/-- A call in the run for an item is one in the run of the array. -/
theorem RunsCall.widen {call : CallText} (h : w.RunsCall call start stop text)
    (hs : call.statement = true) (hstart : out.lines.toList <+: start.lines.toList)
    (hstop : stop.lines.toList <+: final.lines.toList) (result : String) :
    w.RunsCall call out final result := by
  obtain ⟨first, last, parts, hruns, hfirst, hlast, receiver, happears⟩ := h
  rw [if_pos hs] at happears
  refine ⟨first, last, parts, hruns, hstart.trans hfirst, hlast.trans hstop, receiver, ?_⟩
  rw [if_pos hs]
  exact hstop.subset happears

/-- A literal is built in a temporary, item by item; a call in the run for one item is one in
the whole run. -/
theorem runsCall_of_steps (hw : w.KeepsBlocks) {items : List NodeId} {item : NodeId}
    {call : CallText} {opening : String} {add : String → NodeId → Render PUnit}
    (hadd : ∀ literal item, w.Keeps (add literal item)) (hs : call.statement = true)
    (hm : item ∈ items)
    (hitem : ∀ {literal start stop}, (add literal item).runOn start = (.ok (), stop) →
      w.RunsCall call start stop text)
    (h : (do
      let literal ← Render.freshTemp
      Render.assign literal opening
      items.forM (add literal)
      return literal : Render String).runOn out = (.ok text, final)) :
    w.RunsCall call out final text := by
  obtain ⟨literal, fresh, hfresh, h⟩ := Render.runOn_bind_eq_ok_iff.mp h
  obtain ⟨_, opened, hopened, h⟩ := Render.runOn_bind_eq_ok_iff.mp h
  obtain ⟨_, last, hitems, h⟩ := Render.runOn_bind_eq_ok_iff.mp h
  rw [Render.runOn_pure] at h
  cases h
  obtain ⟨start, stop, hrun, hstart, hstop⟩ := exists_run_of_forM hw (hadd text) hm hitems
  have hfront : out.lines.toList <+: opened.lines.toList :=
    (Keeps.freshTemp.isPrefix hw hfresh).trans ((Keeps.assign text _).isPrefix hw hopened)
  exact (hitem hrun).widen hs (hfront.trans hstart) hstop text

/-- The call for an item is one of the lines of the list. -/
theorem runsCall_of_arrayLiteral (hw : w.KeepsBlocks) {items : List NodeId} {item : NodeId}
    {call : CallText} (hs : call.statement = true)
    (spreads : items.any (isSpread w.arena) = true) (hm : item ∈ items)
    (hitem : ∀ {list start stop}, (w.addItem list item).runOn start = (.ok (), stop) →
      w.RunsCall call start stop text)
    (h : (w.arrayLiteral items).runOn out = (.ok text, final)) :
    w.RunsCall call out final text := by
  unfold arrayLiteral at h
  rw [spreads] at h
  exact runsCall_of_steps hw keeps_addItem hs hm hitem h

/-- The call for a property is one of the lines of the object. -/
theorem runsCall_of_objectLiteral (hw : w.KeepsBlocks) {properties : List NodeId}
    {property : NodeId} {call : CallText} (hs : call.statement = true) (hm : property ∈ properties)
    (hproperty : ∀ {object start stop},
      (w.addProperty object property).runOn start = (.ok (), stop) →
        w.RunsCall call start stop text)
    (h : (w.objectLiteral properties).runOn out = (.ok text, final)) :
    w.RunsCall call out final text :=
  runsCall_of_steps hw keeps_addProperty hs hm hproperty h

/-- A fixed key is quoted and needs no lines. -/
theorem runOn_propertyKey_of_fixed {name : NodeId} {node : Node} {key found : String}
    (hget : w.arena.get? name = some node) (fixed : node.fixedKey? = some key)
    (h : (w.propertyKey name).runOn out = (.ok found, final)) : found = key ∧ final = out := by
  unfold propertyKey at h
  rw [node_eq_pure hget, pure_bind] at h
  cases node with
  | identifier name | string name =>
    cases fixed
    cases h
    exact ⟨rfl, rfl⟩
  | number value =>
    obtain ⟨literal, last, hliteral, hdone⟩ := Render.runOn_bind_eq_ok_iff.mp h
    obtain ⟨hvalue, rfl⟩ := Render.runOn_ofExcept_eq_ok_iff.mp hliteral
    rw [Render.runOn_pure] at hdone
    cases hdone
    rw [Node.fixedKey?, hvalue] at fixed
    cases fixed
    exact ⟨rfl, rfl⟩
  | _ => cases fixed

/-- With a fixed key only the value is an operand. -/
theorem runsCall_of_addProperty (hw : w.KeepsBlocks) {object : String}
    {property name value : NodeId} {node : Node} {key : String}
    (member : w.arena.get? property = some (.property name value))
    (hget : w.arena.get? name = some node) (fixed : node.fixedKey? = some key)
    (h : (w.addProperty object property).runOn out = (.ok (), final)) :
    w.RunsCall ⟨[.argument value], fun object value => s!"{object}.put({key}, {value})", true⟩
      out final text := by
  unfold addProperty at h
  rw [node_eq_pure member, pure_bind] at h
  obtain ⟨found, start, hfound, hrest⟩ := Render.runOn_bind_eq_ok_iff.mp h
  obtain ⟨rfl, rfl⟩ := runOn_propertyKey_of_fixed hget fixed hfound
  obtain ⟨argument, last, hvalue, hline⟩ := Render.runOn_bind_eq_ok_iff.mp hrest
  obtain ⟨parts, hruns, rfl⟩ := exists_runsInOrder_single (.argument value) hw hvalue
  exact hruns.runsCall_of_line List.prefix_rfl object (lines_of_discard hline)

/-- A computed key is an operand too, in front of the value. -/
theorem runsCall_of_addProperty_computed (hw : w.KeepsBlocks) {object : String}
    {property name key value : NodeId}
    (member : w.arena.get? property = some (.property name value))
    (computed : w.arena.get? name = some (.computedKey key))
    (h : (w.addProperty object property).runOn out = (.ok (), final)) :
    w.RunsCall ⟨[.argument key, .argument value], fun object args => s!"{object}.put({args})",
      true⟩ out final text := by
  unfold addProperty at h
  rw [node_eq_pure member, pure_bind] at h
  obtain ⟨found, start, hfound, h⟩ := Render.runOn_bind_eq_ok_iff.mp h
  unfold propertyKey at hfound
  rw [node_eq_pure computed, pure_bind] at hfound
  obtain ⟨argument, last, hvalue, hline⟩ := Render.runOn_bind_eq_ok_iff.mp h
  obtain ⟨front, back, hruns⟩ :=
    exists_runsInOrder_pair (.argument key) (.argument value) hw hfound hvalue
  have hput : s!"{object}.put({found}, {argument})" =
      object ++ ".put(" ++ ", ".intercalate [found, argument] ++ ")" := by
    change object ++ ".put(" ++ found ++ ", " ++ argument ++ ")" =
      object ++ ".put(" ++ (found ++ ", " ++ argument) ++ ")"
    simp only [String.append_assoc]
  rw [hput] at hline
  exact hruns.runsCall_of_line List.prefix_rfl object (lines_of_discard hline)

/-- A spread object is put as a value. -/
theorem runsCall_of_addProperty_spread (hw : w.KeepsBlocks) {object : String} {property : NodeId}
    (spread : w.arena.get? property = some (.spreadProperty expr))
    (h : (w.addProperty object property).runOn out = (.ok (), final)) :
    w.RunsCall ⟨[.value expr], fun object values => s!"{object}.putAll({values})", true⟩
      out final text := by
  unfold addProperty at h
  rw [node_eq_pure spread, pure_bind] at h
  obtain ⟨values, last, hvalues, hline⟩ := Render.runOn_bind_eq_ok_iff.mp h
  obtain ⟨parts, hruns, rfl⟩ := exists_runsInOrder_single (.value expr) hw hvalues
  exact hruns.runsCall_of_line List.prefix_rfl object (lines_of_discard hline)

/-- Whatever call an expression writes, it is written around the texts of runs of its
operands. -/
theorem runsCall_of_builds (hw : w.KeepsBlocks) {call : CallText} (hb : w.arena.Builds id call)
    (h : (w.renderExpression id).runOn out = (.ok text, final)) :
    w.RunsCall call out final text := by
  unfold renderExpression at h
  cases hb with
  | method node member runtime =>
    rw [node_eq_pure node] at h
    exact runsCall_of_method hw runtime (runOn_method_of_call member h)
  | function node plain found name =>
    rw [node_eq_pure node, pure_bind] at h
    dsimp only at h
    unfold Walker.call at h
    rw [plain] at h
    dsimp only at h
    rw [node_eq_pure found, pure_bind] at h
    rcases name with ⟨name, rfl⟩ | ⟨name, integration, rfl⟩
    · exact runsCall_of_namedFunction hw h
    · exact runsCall_of_namedFunction hw h
  | helper node member receiver undeclared known =>
    rw [node_eq_pure node] at h
    exact runsCall_of_helper hw receiver undeclared known (runOn_method_of_call member h)
  | membership node form =>
    rw [node_eq_pure node] at h
    exact runsCall_of_membership hw form h
  | push node member single =>
    rw [node_eq_pure node] at h
    exact runsCall_of_push hw single (runOn_method_of_call member h)
  | pushAll node member spread =>
    rw [node_eq_pure node] at h
    exact runsCall_of_pushAll hw spread (runOn_method_of_call member h)
  | item node spreads among single =>
    rw [node_eq_pure node] at h
    exact runsCall_of_arrayLiteral hw rfl spreads among
      (fun hitem => runsCall_of_addItem hw single hitem) h
  | spreadItem node among spread =>
    rw [node_eq_pure node] at h
    have spreads := List.any_eq_true.mpr ⟨_, among, show isSpread w.arena _ = true by
      simp [isSpread, spread]⟩
    exact runsCall_of_arrayLiteral hw rfl spreads among
      (fun hitem => runsCall_of_addItem_spread hw spread hitem) h
  | property node among member found fixed =>
    rw [node_eq_pure node] at h
    exact runsCall_of_objectLiteral hw rfl among
      (fun hproperty => runsCall_of_addProperty hw member found fixed hproperty) h
  | computedProperty node among member computed =>
    rw [node_eq_pure node] at h
    exact runsCall_of_objectLiteral hw rfl among
      (fun hproperty => runsCall_of_addProperty_computed hw member computed hproperty) h
  | spreadProperty node among spread =>
    rw [node_eq_pure node] at h
    exact runsCall_of_objectLiteral hw rfl among
      (fun hproperty => runsCall_of_addProperty_spread hw spread hproperty) h

end Walker

/-! ### Operators that operands come down to -/

namespace Node

variable {node : Node} {expr : NodeId}

/-- What stands between its operands is an operator. -/
theorem isOperator_of_isInfix (h : node.isInfix = true) : Walker.isOperator node = true := by
  cases node with
  | binary left op right => exact h
  | unary op operand => cases op <;> first | rfl | cases h
  | _ => cases h

/-- What wraps another node is no operator. -/
theorem isOperator_of_wrapped? (h : node.wrapped? = some expr) :
    Walker.isOperator node = false := by
  cases node <;> first | rfl | cases h

end Node

namespace Arena

variable {a : Arena} {id last expr : NodeId} {node : Node}

/-- Without parentheses a node comes down to the same. -/
theorem ComesDownTo.unwrapParens (ha : a.Grown) (h : a.ComesDownTo id last)
    (hlast : ∀ expr, a.get? last ≠ some (.paren expr)) :
    a.ComesDownTo (a.unwrapParens id) last := by
  induction h with
  | refl id =>
    rw [unwrapParens_of_not_paren hlast]
    exact .refl id
  | @step id expr last node found wrapped rest ih =>
    cases node with
    | paren inner =>
      cases wrapped
      rw [ha.unwrapParens_of_paren found]
      exact ih hlast
    | _ =>
      rw [unwrapParens_of_not_paren (by simp [found])]
      exact .step found wrapped rest

/-- So does the expression of an argument. -/
theorem ComesDownTo.argumentExpr (ha : a.Grown) (h : a.ComesDownTo id last)
    (hget : a.get? last = some node) (hi : node.isInfix = true) :
    a.ComesDownTo (a.argumentExpr id) last := by
  have hparen : ∀ expr, a.get? last ≠ some (.paren expr) := by
    intro expr hp
    rw [hget] at hp
    cases hp
    cases hi
  unfold Arena.argumentExpr
  split
  · next expr name hargument =>
    cases h with
    | refl =>
      rw [hget] at hargument
      cases hargument
      cases hi
    | step found wrapped rest =>
      rw [hargument] at found
      cases found
      cases wrapped
      exact rest.unwrapParens ha hparen
  · exact h.unwrapParens ha hparen

end Arena

/-- The text of an operator starts with a parenthesis or a sign, so it is no temporary. -/
theorem Walker.ne_tempName_of_isInfix {w : Walker} {id : NodeId} {node : Node} {text : String}
    {out final : Output} (hget : w.arena.get? id = some node) (hi : node.isInfix = true)
    (h : (w.renderExpression id).runOn out = (.ok text, final)) (number : Nat) :
    text ≠ Render.tempName number := by
  have htemp : ['$'] <+: (Render.tempName number).toList :=
    starts_append (by decide) (toString number)
  suffices hstarts : ∃ first, first ≠ '$' ∧ [first] <+: text.toList by
    obtain ⟨first, hne, hfirst⟩ := hstarts
    rintro rfl
    have heq := (List.prefix_of_prefix_length_le hfirst htemp le_rfl).eq_of_length rfl
    exact hne (List.singleton_inj.mp heq)
  unfold renderExpression at h
  rw [node_eq_pure hget, pure_bind] at h
  cases node with
  | binary left op right =>
    dsimp only at h
    unfold binary at h
    cases hform : op.form with
    | inline symbol =>
      rw [hform] at h
      obtain ⟨first, middle, -, hrest⟩ := Render.runOn_bind_eq_ok_iff.mp h
      obtain ⟨second, last, -, hdone⟩ := Render.runOn_bind_eq_ok_iff.mp hrest
      rw [Render.runOn_pure] at hdone
      cases hdone
      refine ⟨'(', by decide, ?_⟩
      repeat apply starts_append
      decide
    | _ => simp [Node.isInfix, hform] at hi
  | unary op operand =>
    cases op with
    | not =>
      obtain ⟨inner, middle, -, hdone⟩ := Render.runOn_bind_eq_ok_iff.mp h
      cases hdone
      exact ⟨'!', by decide, starts_append (by decide) inner⟩
    | neg =>
      obtain ⟨inner, middle, -, hdone⟩ := Render.runOn_bind_eq_ok_iff.mp h
      cases hdone
      exact ⟨'-', by decide, starts_append (by decide) inner⟩
    | _ => cases hi
  | _ => cases hi

namespace Program

variable {p : Program} {dialect : Dialect} {n : Nat} {id last : NodeId} {operand : Operand}
  {text : String} {lines : List String} {start stop : Output}

/-- What comes down to a node is rendered as that node is, a few levels below. -/
theorem exists_run_of_comesDownTo (h : p.arena.ComesDownTo id last)
    (hrun : ((p.walkerWithin dialect n).expression id).runOn start = (.ok text, stop)) :
    ∃ m, ((p.walkerWithin dialect m).expression last).runOn start = (.ok text, stop) := by
  induction h generalizing n with
  | refl => exact ⟨n, hrun⟩
  | @step id expr last node found wrapped rest ih =>
    cases n with
    | zero => cases hrun
    | succ n =>
      change ((p.walkerWithin dialect n).renderExpression id).runOn start = (.ok text, stop) at hrun
      unfold Walker.renderExpression at hrun
      rw [node_of_get? found, pure_bind] at hrun
      cases node with
      | paren | argument | await =>
        cases wrapped
        exact ih hrun
      | promise inner =>
        cases wrapped
        dsimp only at hrun
        unfold Walker.promised at hrun
        split at hrun
        · exact absurd ⟨start, stop, hrun⟩ Render.not_yields_fault
        · exact ih hrun
      | _ => cases wrapped

/-- An operand is the text of the operator that it comes down to unless the rule for
arguments sees the operator. -/
theorem inlines_of_run (hp : p.BottomUp)
    (ht : ∀ integration ∈ p.integrations, integration.KeepsBlocks)
    (h : ((p.walkerWithin dialect n).operand operand).runOn start = (.ok text, stop))
    (hlines : stop.lines.toList = start.lines.toList ++ lines) :
    p.Inlines dialect operand ⟨text, lines⟩ := by
  rintro last node ⟨id, rfl | rfl, hdown⟩ hget hi
  · obtain ⟨m, hm⟩ := exists_run_of_comesDownTo hdown h
    exact ⟨m, start, text, stop, hm, by simp [Operand.Shields], False.elim⟩
  obtain ⟨value, middle, hvalue, hrest⟩ := Render.runOn_bind_eq_ok_iff.mp h
  obtain ⟨seen, found, hnode, hdone⟩ := Render.runOn_bind_eq_ok_iff.mp hrest
  obtain ⟨hseen, rfl⟩ := get?_of_node hnode
  rw [p.arena_walkerWithin] at hvalue hseen
  -- the rule for arguments looks through parentheses and wrappers once, and so sees the operator
  -- or something around it
  by_cases hshields : p.arena.argumentExpr id = last
  · rw [hshields] at hvalue hseen
    cases hget.symm.trans hseen
    rw [if_pos (Node.isOperator_of_isInfix hi)] at hdone
    cases hdone
    have hne : Render.tempName (found.temps + 1) ≠ value := by
      cases n with
      | zero => cases hvalue
      | succ n =>
        have harena : (p.walkerWithin dialect n).arena.get? last = some node := by
          rwa [p.arena_walkerWithin]
        exact (Walker.ne_tempName_of_isInfix harena hi hvalue _).symm
    have hwritten : s!"#set({Render.tempName (found.temps + 1)} = {value})" ∈ lines := by
      obtain ⟨more, hmore⟩ :=
        (Walker.keeps_expression last).isPrefix (hp.keepsBlocks_walkerWithin ht n) hvalue
      rw [Array.toList_push, ← hmore, List.append_assoc, List.append_cancel_left_eq] at hlines
      rw [← hlines]
      exact List.mem_append_right _ (List.mem_singleton_self _)
    exact ⟨n, start, value, found, hvalue, by simp [Operand.Shields, hshields, hne],
      fun _ => ⟨rfl, hwritten⟩⟩
  · obtain ⟨m, hm⟩ := exists_run_of_comesDownTo (hdown.argumentExpr hp.grown hget hi) hvalue
    have hwrapper : Walker.isOperator seen = false := by
      cases hdown.argumentExpr hp.grown hget hi with
      | refl => exact absurd rfl hshields
      | step hfound wrapped rest =>
        cases hseen.symm.trans hfound
        exact Node.isOperator_of_wrapped? wrapped
    rw [hwrapper] at hdone
    cases hdone
    exact ⟨m, start, text, stop, hm, by simp [Operand.Shields, hshields],
      fun hs => absurd hs hshields⟩

end Program

/-- Whatever call an expression writes, the operands between its parentheses are rendered in
order, and the call is written around their texts.  An operand that comes down to an operator,
through parentheses, awaiting, promises and wrappers of arguments, is the text of the operator
as it stands exactly if it is spread or the operator is awaited, promised or wrapped once more;
in all other cases a temporary holds that text. -/
theorem inline_argument_iff {p : Program} (hp : p.BottomUp)
    (ht : ∀ integration ∈ p.integrations, integration.KeepsBlocks) {dialect : Dialect} {n : Nat}
    {id : NodeId} {call : CallText} (hb : p.arena.Builds id call) {out final : Output}
    {text : String}
    (h : ((p.walkerWithin dialect (n + 1)).expression id).runOn out = (.ok text, final)) :
    ∃ start stop parts,
      (p.walkerWithin dialect n).RunsInOrder call.operands start stop parts ∧
      out.lines.toList <+: start.lines.toList ∧ stop.lines.toList <+: final.lines.toList ∧
      call.Appears (parts.map OperandOutput.text) text final ∧
      List.Forall₂ (p.Inlines dialect) call.operands parts := by
  have hw : (p.walkerWithin dialect n).KeepsBlocks := hp.keepsBlocks_walkerWithin ht n
  rw [← p.arena_walkerWithin dialect n] at hb
  obtain ⟨start, stop, parts, hruns, hstart, hstop, happears⟩ := Walker.runsCall_of_builds hw hb h
  exact ⟨start, stop, parts, hruns, hstart, hstop, happears,
    hruns.forall₂ fun hrun hlines => Program.inlines_of_run hp ht hrun hlines⟩

/-- The closure `input => { return { ...(input.a && input.b) }; }`. -/
def Program.spreadOperator : Program :=
  (Builder.of []
    [.identifier "input", .member ⟨0⟩ "a", .identifier "input", .member ⟨2⟩ "b",
      .binary ⟨1⟩ .and ⟨3⟩, .paren ⟨4⟩, .spreadProperty ⟨5⟩, .object [⟨6⟩],
      .returnValue (some ⟨7⟩), .block [⟨8⟩], .identifier "input", .parameter ⟨10⟩ none,
      .function [⟨11⟩] ⟨9⟩]).program

/-- The spread value stands within the call as the operator that it is. -/
theorem Program.runOn_spreadOperator :
    ((Program.spreadOperator.walkerWithin (.resolver {}) 7).expression ⟨7⟩).runOn {} =
      (.ok "$v1",
        { lines := #["#set($v1 = \x7b\x7d)",
            "$util.qr($v1.putAll(($context.arguments.a && $context.arguments.b)))"]
          temps := 1 }) := by
  cbv

/-- Its operand is rendered as a value, so the text of the operator is the operand of the call.
-/
theorem inline_argument_iff_spreadOperator :
    ∃ start stop parts,
      (Program.spreadOperator.walkerWithin (.resolver {}) 6).RunsInOrder [.value ⟨5⟩] start stop
        parts ∧
      [] <+: start.lines.toList ∧
      stop.lines.toList <+: ["#set($v1 = \x7b\x7d)",
        "$util.qr($v1.putAll(($context.arguments.a && $context.arguments.b)))"] ∧
      CallText.Appears ⟨[.value ⟨5⟩], fun object values => s!"{object}.putAll({values})", true⟩
        (parts.map OperandOutput.text) "$v1"
        { lines := #["#set($v1 = \x7b\x7d)",
            "$util.qr($v1.putAll(($context.arguments.a && $context.arguments.b)))"]
          temps := 1 } ∧
      List.Forall₂ (Program.spreadOperator.Inlines (.resolver {})) [.value ⟨5⟩] parts := by
  have hnone : Program.spreadOperator.integrations = #[] := by cbv
  have hbottom : Program.spreadOperator.BottomUp := Builder.bottomUp_of (by decide) (by cbv)
  have hkeeps : ∀ integration ∈ Program.spreadOperator.integrations, integration.KeepsBlocks := by
    rw [hnone]
    intro integration hm
    exact absurd hm (Array.not_mem_empty integration)
  have hobject : Program.spreadOperator.arena.get? ⟨7⟩ = some (.object [⟨6⟩]) := by cbv
  have hspread : Program.spreadOperator.arena.get? ⟨6⟩ = some (.spreadProperty ⟨5⟩) := by cbv
  exact inline_argument_iff hbottom hkeeps
    (.spreadProperty hobject (List.mem_singleton_self _) hspread) Program.runOn_spreadOperator

/-- What is spread comes down to an operator, and the call of `putAll` has the text of this
operator between its parentheses. -/
theorem not_through_temporary_spreadOperator :
    Program.spreadOperator.arena.Builds ⟨7⟩
        ⟨[.value ⟨5⟩], fun object values => s!"{object}.putAll({values})", true⟩ ∧
      Program.spreadOperator.arena.ComesDownTo ⟨5⟩ ⟨4⟩ ∧
      Program.spreadOperator.arena.get? ⟨4⟩ = some (.binary ⟨1⟩ .and ⟨3⟩) ∧
      ∃ value start final,
        ((Program.spreadOperator.walkerWithin (.resolver {}) 5).expression ⟨4⟩).runOn start =
          (.ok value, start) ∧
        ((Program.spreadOperator.walkerWithin (.resolver {}) 7).expression ⟨7⟩).runOn {} =
          (.ok "$v1", final) ∧
        s!"$util.qr($v1.putAll({value}))" ∈ final.lines.toList := by
  have hobject : Program.spreadOperator.arena.get? ⟨7⟩ = some (.object [⟨6⟩]) := by cbv
  have hspread : Program.spreadOperator.arena.get? ⟨6⟩ = some (.spreadProperty ⟨5⟩) := by cbv
  have hparen : Program.spreadOperator.arena.get? ⟨5⟩ = some (.paren ⟨4⟩) := by cbv
  refine ⟨.spreadProperty hobject (List.mem_singleton_self _) hspread, .step hparen rfl (.refl _),
    by cbv, "($context.arguments.a && $context.arguments.b)",
    { lines := #["#set($v1 = \x7b\x7d)"], temps := 1 }, _, by cbv, Program.runOn_spreadOperator,
    List.mem_cons_of_mem _ (List.mem_singleton_self _)⟩

end ClosureVtl
