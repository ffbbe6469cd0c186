/-
Module: ClosureVtl.Proofs.Render.Inversion
Purpose: Successful runs of rendering taken apart into the runs that they are made of.
Main exports:
  Render.runOn_emit_eq_ok_iff, Render.toList_of_guarded, Render.toList_of_choice,
  Walker.toList_of_assignNode, Walker.runOn_method_of_call, Program.get?_of_node,
  Program.node_of_get?, Program.render_eq_ok_iff_runOn
-/
import ClosureVtl.Proofs.Closure.Binding
import ClosureVtl.Proofs.Render.Writing
import ClosureVtl.Render.Expression

namespace ClosureVtl

/-!
A run that ends well is taken apart step by step with `Render.runOn_bind_eq_ok_iff`.
Here is what that gives for the steps that most rules are made of: where their parts
start and stop, and which lines they put in between.
-/

/-! ### Elementary steps -/

namespace Render

variable {α : Type} {condition : String} {body yes no : Render Unit} {out final : Output}

theorem runOn_emit_eq_ok_iff {line : String} :
    (emit line).runOn out = (.ok (), final) ↔
      final = { out with lines := out.lines.push line } := by
  rw [runOn_emit]
  constructor
  · intro h
    cases h
    rfl
  · rintro rfl
    rfl

theorem runOn_ofExcept_eq_ok_iff {result : Except Fault α} {value : α} :
    (ofExcept result).runOn out = (.ok value, final) ↔ result = .ok value ∧ final = out := by
  cases result with
  | error f =>
    constructor
    · intro h
      rw [ofExcept, runOn_fault] at h
      cases h
    · rintro ⟨h, -⟩
      cases h
  | ok found =>
    constructor
    · intro h
      rw [ofExcept, runOn_pure] at h
      cases h
      exact ⟨rfl, rfl⟩
    · rintro ⟨h, rfl⟩
      cases h
      rfl

/-- A guarded body stands between its two directives. -/
theorem toList_of_guarded (h : (guarded condition body).runOn out = (.ok (), final)) :
    ∃ start finish, body.runOn start = (.ok (), finish) ∧
      start.lines.toList = out.lines.toList ++ [s!"#if({condition})"] ∧
      final.lines.toList = finish.lines.toList ++ ["#end"] := by
  obtain ⟨_, start, hstart, h⟩ := runOn_bind_eq_ok_iff.mp h
  obtain ⟨_, finish, hbody, h⟩ := runOn_bind_eq_ok_iff.mp h
  rw [runOn_emit_eq_ok_iff.mp hstart] at hbody
  rw [runOn_emit_eq_ok_iff.mp h]
  exact ⟨_, finish, hbody, Array.toList_push, Array.toList_push⟩

/-- The halves of a choice stand between three. -/
theorem toList_of_choice (h : (choice condition yes no).runOn out = (.ok (), final)) :
    ∃ start middle turn finish, yes.runOn start = (.ok (), middle) ∧
      no.runOn turn = (.ok (), finish) ∧
      start.lines.toList = out.lines.toList ++ [s!"#if({condition})"] ∧
      turn.lines.toList = middle.lines.toList ++ ["#else"] ∧
      final.lines.toList = finish.lines.toList ++ ["#end"] := by
  obtain ⟨_, start, hstart, h⟩ := runOn_bind_eq_ok_iff.mp h
  obtain ⟨_, middle, hyes, h⟩ := runOn_bind_eq_ok_iff.mp h
  obtain ⟨_, turn, hturn, h⟩ := runOn_bind_eq_ok_iff.mp h
  obtain ⟨_, finish, hno, h⟩ := runOn_bind_eq_ok_iff.mp h
  rw [runOn_emit_eq_ok_iff.mp hstart] at hyes
  rw [runOn_emit_eq_ok_iff.mp hturn] at hno
  rw [runOn_emit_eq_ok_iff.mp h]
  exact ⟨_, middle, _, finish, hyes, hno, Array.toList_push, Array.toList_push, Array.toList_push⟩

end Render

/-! ### Steps of the walker -/

/-- Members are not looked up, so none of them is an integration. -/
theorem Arena.resolveIntegration_of_member {a : Arena} {callee base : NodeId} {name : String}
    (h : a.get? (a.unwrapParens callee) = some (.member base name)) :
    a.resolveIntegration callee = none := by
  unfold resolveIntegration
  rw [resolveIntegrationWithin]
  simp only [h]

namespace Walker

variable {w : Walker} {id : NodeId} {target text : String} {out final : Output}

/-- A node that exists is found. -/
theorem node_eq_pure {node : Node}
    (h : w.arena.get? id = some node) : w.node id = pure node := by
  unfold Walker.node
  rw [Arena.node_eq_ok_iff.mpr h]
  rfl

/-- A handle that leads nowhere is a fault of the builder's caller. -/
theorem node_of_dangling (h : w.arena.get? id = none) :
    w.node id = Render.fault (.breach (.dangling id)) := by
  unfold Walker.node Arena.node
  rw [h]
  rfl

/-- It is one wherever an expression is asked for. -/
theorem renderExpression_dangling (h : w.arena.get? id = none) :
    w.renderExpression id = Render.fault (.breach (.dangling id)) := by
  unfold renderExpression
  rw [node_of_dangling h]
  rfl

/-- Parentheses are passed through. -/
theorem renderExpression_paren {expr : NodeId} (h : w.arena.get? id = some (.paren expr)) :
    w.renderExpression id = w.expression expr := by
  unfold renderExpression
  rw [node_eq_pure h]
  rfl

/-- A dialect with loops goes on as if nothing had been asked. -/
theorem eq_of_runOn_requireLoops {what : String} {out final : Output}
    (h : (w.requireLoops what).runOn out = (.ok (), final)) : final = out := by
  unfold requireLoops at h
  split at h
  · rw [Render.runOn_pure] at h
    cases h
    rfl
  · exact absurd ⟨out, final, h⟩ Render.not_yields_fault

/-- An assignment of an expression is written behind the lines of the expression. -/
theorem toList_of_assignNode (h : (w.assignNode target id).runOn out = (.ok (), final)) :
    ∃ value stop, (w.expression id).runOn out = (.ok value, stop) ∧
      final.lines.toList = stop.lines.toList ++ [s!"#set({target} = {value})"] := by
  obtain ⟨value, stop, hvalue, h⟩ := Render.runOn_bind_eq_ok_iff.mp h
  rw [Render.runOn_emit_eq_ok_iff.mp h]
  exact ⟨value, stop, hvalue, Array.toList_push⟩

/-- So is a temporary. -/
theorem toList_of_materializeNode (h : (w.materializeNode id).runOn out = (.ok text, final)) :
    ∃ value stop, (w.expression id).runOn out = (.ok value, stop) ∧
      final.lines.toList = stop.lines.toList ++ [s!"#set({text} = {value})"] := by
  obtain ⟨value, stop, hvalue, h⟩ := Render.runOn_bind_eq_ok_iff.mp h
  obtain ⟨temp, fresh, hfresh, h⟩ := Render.runOn_bind_eq_ok_iff.mp h
  obtain ⟨_, stored, hstored, h⟩ := Render.runOn_bind_eq_ok_iff.mp h
  cases hfresh
  cases hstored
  cases h
  exact ⟨value, stop, hvalue, Array.toList_push⟩

/-- The call of a member is a method. -/
theorem runOn_method_of_call {callee base : NodeId} {name : String} {args : List NodeId}
    (member : w.arena.get? (w.arena.unwrapParens callee) = some (.member base name))
    (h : (w.call id callee args).runOn out = (.ok text, final)) :
    (w.method base name args).runOn out = (.ok text, final) := by
  unfold call at h
  rw [Arena.resolveIntegration_of_member member] at h
  dsimp only at h
  rw [node_eq_pure member] at h
  exact h

end Walker

namespace Program

variable {p : Program} {dialect : Dialect} {id : NodeId} {out final : Output}

/-- A node that was found is in the arena, and finding it writes nothing. -/
theorem get?_of_node {n : Nat} {node : Node}
    (h : ((p.walkerWithin dialect n).node id).runOn out = (.ok node, final)) :
    p.arena.get? id = some node ∧ final = out := by
  obtain ⟨hok, hout⟩ := Render.runOn_ofExcept_eq_ok_iff.mp h
  rw [p.arena_walkerWithin] at hok
  exact ⟨Arena.node_eq_ok_iff.mp hok, hout⟩

theorem node_of_get? {expr : NodeId} {node : Node} {n : Nat}
    (h : p.arena.get? expr = some node) :
    (p.walkerWithin dialect n).node expr = pure node := by
  apply Walker.node_eq_pure
  rw [p.arena_walkerWithin, h]

/-- A template is what a run of the root leaves behind. -/
theorem render_eq_ok_iff_runOn {root : NodeId} :
    p.render dialect root = .ok final ↔
      ((p.walker dialect).renderRoot root).runOn {} = (.ok (), final) := by
  unfold render
  rcases ((p.walker dialect).renderRoot root).runOn {} with ⟨fault | value, final⟩ <;> simp

end Program

end ClosureVtl
