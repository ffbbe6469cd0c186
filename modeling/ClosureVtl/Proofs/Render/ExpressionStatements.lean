/-
Module: ClosureVtl.Proofs.Render.ExpressionStatements
Purpose: Which calls in an expression statement are in a line that it writes.
Main exports:
  Arena.EndsIn, Arena.effectOf, Arena.effectLine?, Program.getLast?_of_endsIn,
  effectStatement_iff
-/
import ClosureVtl.Proofs.Render.ReachedParts
import ClosureVtl.Proofs.Render.Emission

namespace ClosureVtl

/-!
A call runs where its text is evaluated, so the call of an expression statement has to be in
one of the lines of the statement.  The value is written if its text ends like a call.  That
is decided by the outermost part of the expression alone: a call that the value only passes
through, such as the receiver of a member, is dropped with it.
-/

namespace Arena

/-- The last character of the text of an expression, where the syntax decides it. -/
inductive EndsIn (a : Arena) : NodeId → Char → Prop where
  | wrapped {id expr : NodeId} {node : Node} {last : Char} (found : a.get? id = some node)
      (wraps : node.wrapped? = some expr) (ends : EndsIn a expr last) : EndsIn a id last
  | signed {id operand : NodeId} {op : UnaryOp} {last : Char}
      (node : a.get? id = some (.unary op operand)) (sign : ∀ step, op ≠ .step step)
      (ends : EndsIn a operand last) : EndsIn a id last
  | target {id target : NodeId} {node : Node} {last : Char} (found : a.get? id = some node)
      (stores : node.stored? = some target) (place : node.targetPlace = .text)
      (ends : EndsIn a target last) : EndsIn a id last
  | call {id : NodeId} {call : CallText} (built : a.Builds id call)
      (inline : call.statement = false) : EndsIn a id ')'
  | operator {id left right : NodeId} {op : BinaryOp} {symbol : String}
      (node : a.get? id = some (.binary left op right)) (form : op.form = .inline symbol) :
      EndsIn a id ')'
  | member {id base : NodeId} {name : String} {last : Char}
      (node : a.get? id = some (.member base name)) (ends : name.toList.getLast? = some last) :
      EndsIn a id last
  | element {id base key : NodeId} (node : a.get? id = some (.element base key)) : EndsIn a id ']'
  | array {id : NodeId} {items : List NodeId} (node : a.get? id = some (.array items))
      (plain : items.any (Walker.isSpread a) = false) : EndsIn a id ']'
  | template {id : NodeId} {head : String} {spans : List TemplateSpan}
      (node : a.get? id = some (.template head spans)) : EndsIn a id '"'

/-- What an expression statement renders: its expression, or what a step after it updates. -/
def effectOf (a : Arena) (expr : NodeId) : NodeId :=
  match a.get? (a.unwrapParens expr) with
  | some (.stepAfter operand _) => operand
  | _ => a.unwrapParens expr

/-- The line that an expression statement writes behind those of the value. -/
def effectLine? (a : Arena) (expr : NodeId) (value : String) : Option String :=
  match a.get? (a.unwrapParens expr) with
  | some (.stepAfter _ step) => some (setLine value s!"{value} {step.symbol} 1")
  | _ => if value.toList.getLast? = some ')' then some (discardLine value) else none

end Arena

/-! ### The ends of texts -/

namespace Walker

variable {w : Walker} {id : NodeId} {text : String} {out final : Output}

/-- The text of an operator between its operands is in parentheses. -/
theorem getLast?_of_inline {left right : NodeId} {op : BinaryOp} {symbol : String}
    (form : op.form = .inline symbol)
    (h : (w.binary left op right).runOn out = (.ok text, final)) :
    text.toList.getLast? = some ')' := by
  unfold binary at h
  rw [form] at h
  obtain ⟨first, middle, -, hrest⟩ := Render.runOn_bind_eq_ok_iff.mp h
  obtain ⟨second, last, -, hdone⟩ := Render.runOn_bind_eq_ok_iff.mp hrest
  cases hdone
  exact getLast?_append (by decide) _

theorem getLast?_of_element {base key : NodeId}
    (node : w.arena.get? id = some (.element base key))
    (h : (w.renderExpression id).runOn out = (.ok text, final)) :
    text.toList.getLast? = some ']' := by
  unfold renderExpression at h
  rw [node_eq_pure node, pure_bind] at h
  obtain ⟨object, middle, -, hrest⟩ := Render.runOn_bind_eq_ok_iff.mp h
  obtain ⟨index, last, -, hdone⟩ := Render.runOn_bind_eq_ok_iff.mp hrest
  cases hdone
  exact getLast?_append (by decide) _

theorem getLast?_of_array {items : List NodeId} (node : w.arena.get? id = some (.array items))
    (plain : items.any (isSpread w.arena) = false)
    (h : (w.renderExpression id).runOn out = (.ok text, final)) :
    text.toList.getLast? = some ']' := by
  unfold renderExpression at h
  rw [node_eq_pure node, pure_bind] at h
  dsimp only [arrayLiteral] at h
  rw [plain] at h
  obtain ⟨inner, last, -, hdone⟩ := Render.runOn_bind_eq_ok_iff.mp h
  cases hdone
  exact getLast?_append (by decide) _

theorem getLast?_of_template {head : String} {spans : List TemplateSpan}
    (node : w.arena.get? id = some (.template head spans))
    (h : (w.renderExpression id).runOn out = (.ok text, final)) :
    text.toList.getLast? = some '"' := by
  unfold renderExpression at h
  rw [node_eq_pure node, pure_bind] at h
  obtain ⟨front, middle, -, hrest⟩ := Render.runOn_bind_eq_ok_iff.mp h
  obtain ⟨texts, last, -, hdone⟩ := Render.runOn_bind_eq_ok_iff.mp hrest
  cases hdone
  exact getLast?_append (by decide) _

theorem getLast?_of_member {base : NodeId} {name : String} {last : Char}
    (node : w.arena.get? id = some (.member base name)) (ends : name.toList.getLast? = some last)
    (h : (w.renderExpression id).runOn out = (.ok text, final)) :
    text.toList.getLast? = some last := by
  unfold renderExpression at h
  rw [node_eq_pure node, pure_bind] at h
  obtain ⟨object, middle, -, hdone⟩ := Render.runOn_bind_eq_ok_iff.mp h
  cases hdone
  exact getLast?_append ends _

end Walker

namespace Program

variable {p : Program} {dialect : Dialect} {n : Nat} {id : NodeId} {last : Char} {text : String}
  {out final : Output}

/-- The outermost part of an expression decides the last character of its text. -/
theorem getLast?_of_endsIn (hp : p.BottomUp)
    (ht : ∀ integration ∈ p.integrations, integration.KeepsBlocks) (ends : p.arena.EndsIn id last)
    (h : ((p.walkerWithin dialect n).expression id).runOn out = (.ok text, final)) :
    text.toList.getLast? = some last := by
  -- the induction is on the derivation; each step goes to the part that ends the text
  induction ends generalizing n out text final with
  | wrapped found wraps ends ih =>
    obtain ⟨m, hm⟩ := exists_run_of_comesDownTo (.step found wraps (.refl _)) h
    exact ih hm
  | signed node sign ends ih =>
    obtain ⟨m, hrun⟩ := exists_rule h
    rw [← p.arena_walkerWithin dialect m] at node
    obtain ⟨before, value, rfl, hvalue⟩ := Walker.exists_run_of_signed node sign hrun
    exact getLast?_append (ih hvalue) before
  | target found stores place ends ih =>
    obtain ⟨m, hrun⟩ := exists_rule h
    rw [← p.arena_walkerWithin dialect m] at found
    obtain ⟨stop, htarget, -⟩ :=
      Walker.run_of_target (hp.keepsBlocks_walkerWithin ht m) found stores place hrun
    exact ih htarget
  | call built inline =>
    obtain ⟨m, hrun⟩ := exists_rule h
    have hbuilt := built
    rw [← p.arena_walkerWithin dialect m] at hbuilt
    obtain ⟨receiver, args, rfl⟩ :=
      Walker.exists_text_of_builds (hp.keepsBlocks_walkerWithin ht m) hbuilt inline hrun
    exact (built.parentheses inline receiver args).2
  | operator node form =>
    obtain ⟨m, hrun⟩ := exists_rule h
    rw [← p.arena_walkerWithin dialect m] at node
    unfold Walker.renderExpression at hrun
    rw [Walker.node_eq_pure node, pure_bind] at hrun
    exact Walker.getLast?_of_inline form hrun
  | member node ends =>
    obtain ⟨m, hrun⟩ := exists_rule h
    rw [← p.arena_walkerWithin dialect m] at node
    exact Walker.getLast?_of_member node ends hrun
  | element node =>
    obtain ⟨m, hrun⟩ := exists_rule h
    rw [← p.arena_walkerWithin dialect m] at node
    exact Walker.getLast?_of_element node hrun
  | array node plain =>
    obtain ⟨m, hrun⟩ := exists_rule h
    rw [← p.arena_walkerWithin dialect m] at node plain
    exact Walker.getLast?_of_array node plain hrun
  | template node =>
    obtain ⟨m, hrun⟩ := exists_rule h
    rw [← p.arena_walkerWithin dialect m] at node
    exact Walker.getLast?_of_template node hrun

/-- An expression statement renders its value and writes at most one line behind that. -/
theorem lines_of_expressionStatement {w : Walker} {expr : NodeId}
    (h : (w.expressionStatement expr).runOn out = (.ok (), final)) :
    ∃ value middle, (w.expression (w.arena.effectOf expr)).runOn out = (.ok value, middle) ∧
      final.lines.toList = middle.lines.toList ++ (w.arena.effectLine? expr value).toList := by
  obtain ⟨node, found, hnode, hrest⟩ := Render.runOn_bind_eq_ok_iff.mp h
  obtain ⟨hok, rfl⟩ := Render.runOn_ofExcept_eq_ok_iff.mp hnode
  have hget := Arena.node_eq_ok_iff.mp hok
  unfold Arena.effectOf Arena.effectLine?
  rw [hget]
  cases node with
  | stepAfter operand step =>
    obtain ⟨target, last, hstepped, hdone⟩ := Render.runOn_bind_eq_ok_iff.mp hrest
    cases hdone
    obtain ⟨value, middle, hvalue, hset⟩ := Render.runOn_bind_eq_ok_iff.mp hstepped
    obtain ⟨_, closed, hline, hdone⟩ := Render.runOn_bind_eq_ok_iff.mp hset
    cases hdone
    refine ⟨target, middle, hvalue, ?_⟩
    rw [Render.runOn_emit_eq_ok_iff.mp hline]
    exact Array.toList_push
  | _ =>
    obtain ⟨value, middle, hvalue, hdone⟩ := Render.runOn_bind_eq_ok_iff.mp hrest
    refine ⟨value, middle, hvalue, ?_⟩
    dsimp only
    split at hdone
    · next hends =>
      rw [if_pos hends, Render.runOn_emit_eq_ok_iff.mp hdone]
      exact Array.toList_push
    · next hends =>
      rw [if_neg hends]
      cases hdone
      exact (List.append_nil _).symm

/-- What an expression statement reaches through the texts of its value is in a line of the
statement exactly if the value is, unless the value has it in lines already. -/
theorem shows_iff_of_keeps {expr : NodeId} {value : String} {middle : Output}
    (hlines : final.lines.toList =
      middle.lines.toList ++ (p.arena.effectLine? expr value).toList)
    (hout : out.lines.toList <+: middle.lines.toList) (hkept : Text.Keeps value text) :
    Output.Shows text out final ↔
      (p.arena.effectLine? expr value).isSome = true ∨ Output.Shows text out middle := by
  cases hline : p.arena.effectLine? expr value with
  | none =>
    rw [hline, Option.toList_none, List.append_nil] at hlines
    simp [Output.Shows, hlines]
  | some line =>
    rw [hline] at hlines
    have hvalue : Text.Keeps line value := by
      unfold Arena.effectLine? at hline
      split at hline
      · cases hline
        exact ((((Text.keeps_self value).behind "#set(").front " = ").front _).front ")"
      · obtain ⟨-, heq⟩ := Option.ite_none_right_eq_some.mp hline
        cases heq
        exact (Text.keeps_self value).wrap "$util.qr(" ")"
    have hshown : Output.Shows text middle final :=
      .of_append hlines (List.IsInfix.trans hkept hvalue)
    simp [hshown.widen hout List.prefix_rfl]

end Program

/-- The calls of an expression statement, in any dialect.  The statement renders its value and
writes at most one line behind that: for a step after the value the update, and otherwise the
value if its text ends with a parenthesis.  Where the outermost part of the expression decides
the last character, it is the one given by `EndsIn`.  Everything that is rendered for the value
has its run within that of the statement.  A call among it that has its place in a line is in
a line of the statement; one that has its place in the text of the value is so exactly if the
value is written, or if the same text is in a line from before. -/
theorem effectStatement_iff {p : Program} (hp : p.BottomUp)
    (ht : ∀ integration ∈ p.integrations, integration.KeepsBlocks) {dialect : Dialect} {n : Nat}
    {id expr : NodeId} {slot : Option String} {out final : Output}
    (hn : p.arena.get? id = some (.exprStatement expr))
    (h : ((p.walkerWithin dialect (n + 1)).statement id slot).runOn out = (.ok (), final)) :
    ∃ value middle,
      ((p.walkerWithin dialect n).expression (p.arena.effectOf expr)).runOn out =
        (.ok value, middle) ∧
      final.lines.toList = middle.lines.toList ++ (p.arena.effectLine? expr value).toList ∧
      (∀ last, p.arena.EndsIn (p.arena.effectOf expr) last →
        value.toList.getLast? = some last) ∧
      ∀ {place : TextPlace} {call : NodeId},
        p.Reaches dialect (.expression (p.arena.effectOf expr)) place (.expression call) →
        ∃ m ≤ n, ∃ text,
          (p.walkerWithin dialect m).PerformsWithin (.expression call) out text final ∧
          (place = .line → p.RunsIn call text → Output.Shows text out final) ∧
          (place = .text → Text.Keeps value text ∧
            (Output.Shows text out final ↔
              (p.arena.effectLine? expr value).isSome = true ∨ Output.Shows text out middle)) := by
  have hw : (p.walkerWithin dialect n).KeepsBlocks := hp.keepsBlocks_walkerWithin ht n
  have harena := p.arena_walkerWithin dialect n
  have hrun : ((p.walkerWithin dialect n).renderStatement id slot).runOn out = (.ok (), final) := h
  unfold Walker.renderStatement at hrun
  rw [Walker.node_eq_pure (harena.symm ▸ hn), pure_bind] at hrun
  obtain ⟨value, middle, hvalue, hlines⟩ := Program.lines_of_expressionStatement hrun
  rw [harena] at hvalue hlines
  have hout : out.lines.toList <+: middle.lines.toList :=
    (Walker.keeps_expression _).isPrefix hw hvalue
  refine ⟨value, middle, hvalue, hlines,
    fun last ends => Program.getLast?_of_endsIn hp ht ends hvalue, fun {place call} way => ?_⟩
  obtain ⟨m, hm, text, ⟨start, stop, hcall, hstart, hstop⟩, hplace⟩ :=
    Program.puts_of_reaches hp ht way hvalue
  refine ⟨m, hm, text, ⟨start, stop, hcall, hstart, hstop.trans ⟨_, hlines.symm⟩⟩, ?_, ?_⟩
  · rintro rfl hruns
    exact (hplace (Program.isCallText_of_runsIn hp ht hruns hcall)).widen List.prefix_rfl
      ⟨_, hlines.symm⟩
  · rintro rfl
    exact ⟨hplace, Program.shows_iff_of_keeps hlines hout hplace⟩

/-- The closure `input => { input.items.pop().name; }`. -/
def Program.droppedPop : Program :=
  (Builder.of []
    [.identifier "input", .member ⟨0⟩ "items", .member ⟨1⟩ "pop", .call ⟨2⟩ [], .member ⟨3⟩ "name",
      .exprStatement ⟨4⟩, .block [⟨5⟩], .identifier "input", .parameter ⟨7⟩ none,
      .function [⟨8⟩] ⟨6⟩]).program

theorem Program.runsIn_droppedPop (text : String) : Program.droppedPop.RunsIn ⟨3⟩ text := by
  have hnode : Program.droppedPop.arena.get? ⟨3⟩ = some (.call ⟨2⟩ []) := by cbv
  have hmember : Program.droppedPop.arena.get? (Program.droppedPop.arena.unwrapParens ⟨2⟩) =
      some (.member ⟨1⟩ "pop") := by cbv
  have hreceiver : Program.droppedPop.arena.get? (Program.droppedPop.arena.unwrapParens ⟨1⟩) =
      some (.member ⟨0⟩ "items") := by cbv
  exact runsIn_of_memberMethod hnode hmember hreceiver (by decide) (by decide) text

theorem Program.reaches_droppedPop (dialect : Dialect) :
    Program.droppedPop.Reaches dialect (.expression ⟨4⟩) .text (.expression ⟨3⟩) := by
  have hname : Program.droppedPop.arena.get? ⟨4⟩ = some (.member ⟨3⟩ "name") := by cbv
  exact Reaches.step .refl (.expression (.member hname))

theorem Program.runOn_value_droppedPop :
    ((Program.droppedPop.walkerWithin (.resolver {}) 5).expression ⟨4⟩).runOn {} =
      (.ok "$context.arguments.items.pop().name", {}) := by
  cbv

theorem Program.runOn_droppedPop :
    ((Program.droppedPop.walkerWithin (.resolver {}) 6).statement ⟨5⟩ none).runOn {} =
      (.ok (), {}) := by
  have hstatement : (Program.droppedPop.walkerWithin (.resolver {}) 5).arena.get? ⟨5⟩ =
      some (.exprStatement ⟨4⟩) := by cbv
  have hunwrap : (Program.droppedPop.walkerWithin (.resolver {}) 5).arena.unwrapParens ⟨4⟩ =
      ⟨4⟩ := by cbv
  have hmember : (Program.droppedPop.walkerWithin (.resolver {}) 5).arena.get? ⟨4⟩ =
      some (.member ⟨3⟩ "name") := by cbv
  show ((Program.droppedPop.walkerWithin (.resolver {}) 5).renderStatement ⟨5⟩ none).runOn {} = _
  unfold Walker.renderStatement
  rw [Walker.node_eq_pure hstatement, pure_bind]
  dsimp only [Walker.expressionStatement]
  rw [hunwrap, Walker.node_eq_pure hmember, pure_bind, Render.runOn_bind, runOn_value_droppedPop]
  rfl

/-- The last character of the value is that of the member behind the call. -/
theorem effectStatement_iff_droppedPop :
    ∃ value middle,
      ((Program.droppedPop.walkerWithin (.resolver {}) 5).expression
        (Program.droppedPop.arena.effectOf ⟨4⟩)).runOn {} = (.ok value, middle) ∧
      [] = middle.lines.toList ++ (Program.droppedPop.arena.effectLine? ⟨4⟩ value).toList ∧
      value.toList.getLast? = some 'e' := by
  have hnone : Program.droppedPop.integrations = #[] := by cbv
  have hbottom : Program.droppedPop.BottomUp := Builder.bottomUp_of (by decide) (by cbv)
  have hkeeps : ∀ integration ∈ Program.droppedPop.integrations, integration.KeepsBlocks := by
    rw [hnone]
    intro integration hm
    exact absurd hm (Array.not_mem_empty integration)
  have hstatement : Program.droppedPop.arena.get? ⟨5⟩ = some (.exprStatement ⟨4⟩) := by cbv
  have hmember : Program.droppedPop.arena.get? (Program.droppedPop.arena.effectOf ⟨4⟩) =
      some (.member ⟨3⟩ "name") := by cbv
  obtain ⟨value, middle, hvalue, hlines, hends, -⟩ :=
    effectStatement_iff hbottom hkeeps hstatement Program.runOn_droppedPop
  exact ⟨value, middle, hvalue, hlines, hends 'e' (.member hmember (by decide))⟩

/-- The statement contains a call that it renders, and writes no line at all: the template of
the closure is empty. -/
theorem not_shows_droppedPop :
    Program.droppedPop.arena.get? ⟨5⟩ = some (.exprStatement ⟨4⟩) ∧
      Program.droppedPop.RunsIn ⟨3⟩ "$context.arguments.items.pop()" ∧
      Program.droppedPop.Reaches (.resolver {}) (.expression ⟨4⟩) .text (.expression ⟨3⟩) ∧
      ((Program.droppedPop.walkerWithin (.resolver {}) 4).expression ⟨3⟩).runOn {} =
        (.ok "$context.arguments.items.pop()", {}) ∧
      ((Program.droppedPop.walkerWithin (.resolver {}) 6).statement ⟨5⟩ none).runOn {} =
        (.ok (), {}) ∧
      ¬ Output.Shows "$context.arguments.items.pop()" {} {} ∧
      (Program.droppedPop.compileResolver ⟨9⟩ {}).toOption = some
        { template := "", integrations := [] } := by
  refine ⟨by cbv, Program.runsIn_droppedPop _, Program.reaches_droppedPop _, by cbv,
    Program.runOn_droppedPop, ?_, by decide +kernel⟩
  rintro ⟨lines, hlines, line, hm, -⟩
  have hnil : lines = [] := hlines.symm
  rw [hnil] at hm
  cases hm

end ClosureVtl
