/-
Module: ClosureVtl.Proofs.Render.GuardedOperands
Purpose: Whether operands that are evaluated on a condition are written in a branch.
Main exports:
  Node.conditionalOperands, Node.isLogical, InBranch, Program.OperandPlaced,
  operand_guarded_iff
-/
import ClosureVtl.Proofs.Render.BlockBalance
import ClosureVtl.Proofs.Render.Inversion
import Mathlib

namespace ClosureVtl

/-!
Five forms of expressions evaluate an operand only on a condition that another operand
decides.  Conditionals and null coalescing write such an operand between the lines of a
branch; conjunctions and disjunctions have a symbol of their own and are rendered like
arithmetic, with whatever lines their right operand needs in front of the whole text.

The rendering of an operand is found in the rendering of its node as a run of its own.
The lines around it say whether it is in a branch.
-/

/-- The operands of a node that are evaluated on a condition, each with the operand that
decides. -/
def Node.conditionalOperands : Node → List (NodeId × NodeId)
  | conditional test yes no => [(test, yes), (test, no)]
  | binary left .coalesce right | binary left .coalesceAssign right
  | binary left .and right | binary left .or right => [(left, right)]
  | _ => []

/-- Whether a node is a conjunction or a disjunction. -/
def Node.isLogical : Node → Bool
  | binary _ .and _ | binary _ .or _ => true
  | _ => false

/-! ### Lines in a branch -/

/-- Whether what stands between two sequences of lines is in a branch that is opened in
the first and closed in the second: in its only part, or in its first or second part. -/
inductive InBranch : List String → List String → Prop where
  | only {front upto rest back : List String} {opener closer : String}
      (opens : lineRole opener = .branch) (above : Balanced upto) (below : Balanced rest)
      (closes : lineRole closer = .close) :
      InBranch (front ++ opener :: upto) (rest ++ closer :: back)
  | first {front upto rest no back : List String} {opener turn closer : String}
      (opens : lineRole opener = .branch) (above : Balanced upto) (below : Balanced rest)
      (turns : lineRole turn = .alternative) (other : Balanced no)
      (closes : lineRole closer = .close) :
      InBranch (front ++ opener :: upto) (rest ++ turn :: (no ++ closer :: back))
  | second {front yes upto rest back : List String} {opener turn closer : String}
      (opens : lineRole opener = .branch) (other : Balanced yes)
      (turns : lineRole turn = .alternative) (above : Balanced upto) (below : Balanced rest)
      (closes : lineRole closer = .close) :
      InBranch (front ++ opener :: (yes ++ turn :: upto)) (rest ++ closer :: back)

/-- No branch is open in front of the first line. -/
theorem not_inBranch_nil (after : List String) : ¬ InBranch [] after := by
  intro h
  generalize hbefore : ([] : List String) = before at h
  cases h <;> cases List.append_ne_nil_of_right_ne_nil _ (List.cons_ne_nil _ _) hbefore.symm

theorem Balanced.append {lines more : List String} (h : Balanced lines) (h' : Balanced more) :
    Balanced (lines ++ more) :=
  balanced_iff_scanLines.mpr (scanLines_trans h.scanLines_eq h'.scanLines_eq)

theorem balanced_assign (target value : String) : Balanced [s!"#set({target} = {value})"] :=
  .plain (lineRole_assign target value) .nil

/-! ### Runs of operands -/

namespace Walker

variable {w : Walker} {id : NodeId} {text : String} {out final : Output}

/-- What an expression writes is balanced. -/
theorem KeepsBlocks.exists_balanced (hw : w.KeepsBlocks)
    (h : (w.expression id).runOn out = (.ok text, final)) :
    ∃ lines, final.lines.toList = out.lines.toList ++ lines ∧ Balanced lines := by
  obtain ⟨lines, hlines, hscan⟩ := hw.expression id [] out text final h
  exact ⟨lines, hlines, balanced_iff_scanLines.mpr hscan⟩

end Walker

/-- Whether a run of an expression is a run of the operand that decides, other lines, a run
of the operand, and other lines again; the lists are the lines of each. -/
structure Walker.OperandPlaced (w : Walker) (deciding operand : NodeId) (out final : Output)
    (first before inner after : List String) : Prop where
  decides : ∃ text middle, (w.expression deciding).runOn out = (.ok text, middle) ∧
    middle.lines.toList = out.lines.toList ++ first
  renders : ∃ start text stop, (w.expression operand).runOn start = (.ok text, stop) ∧
    start.lines.toList = out.lines.toList ++ first ++ before ∧
    stop.lines.toList = start.lines.toList ++ inner ∧
    final.lines.toList = stop.lines.toList ++ after

namespace Walker

variable {w : Walker} {left right test yes no : NodeId} {op : BinaryOp} {text : String}
  {out final : Output}

/-- Whether the lines of an operand are in a branch that is written for its node. -/
def Guards (w : Walker) (deciding operand : NodeId) (out final : Output) : Prop :=
  ∃ first before inner after, w.OperandPlaced deciding operand out final first before inner after ∧
    InBranch before after

/-- An operand that is assigned in a guard is in the branch of the guard. -/
private theorem guards_of_guarded (hw : w.KeepsBlocks) {target condition : String}
    {start : Output} {first front : List String}
    (hdecides : ∃ text middle, (w.expression left).runOn out = (.ok text, middle) ∧
      middle.lines.toList = out.lines.toList ++ first)
    (hfront : start.lines.toList = out.lines.toList ++ first ++ front)
    (h : (Render.guarded condition (w.assignNode target right)).runOn start = (.ok (), final)) :
    w.Guards left right out final := by
  obtain ⟨opened, closed, hbody, hopened, hfinal⟩ := Render.toList_of_guarded h
  obtain ⟨value, stop, hright, hstop⟩ := toList_of_assignNode hbody
  obtain ⟨inner, hinner, -⟩ := hw.exists_balanced hright
  refine ⟨first, front ++ [s!"#if({condition})"], inner, [s!"#set({target} = {value})", "#end"],
    ⟨hdecides, opened, value, stop, hright, ?_, hinner, ?_⟩,
    .only (lineRole_openBranch condition) .nil (balanced_assign target value) lineRole_close⟩
  · rw [hopened, hfront, List.append_assoc]
  · rw [hfinal, hstop, List.append_assoc]
    rfl

theorem guards_of_coalesce (hw : w.KeepsBlocks)
    (h : (w.binary left .coalesce right).runOn out = (.ok text, final)) :
    w.Guards left right out final := by
  obtain ⟨result, stored, hstored, h⟩ := Render.runOn_bind_eq_ok_iff.mp h
  obtain ⟨_, closed, hguarded, h⟩ := Render.runOn_bind_eq_ok_iff.mp h
  rw [Render.runOn_pure] at h
  cases h
  obtain ⟨value, stop, hleft, hset⟩ := toList_of_materializeNode hstored
  obtain ⟨first, hfirst, -⟩ := hw.exists_balanced hleft
  rw [hfirst] at hset
  exact guards_of_guarded hw ⟨value, stop, hleft, hfirst⟩ hset hguarded

theorem guards_of_coalesceAssign (hw : w.KeepsBlocks)
    (h : (w.binary left .coalesceAssign right).runOn out = (.ok text, final)) :
    w.Guards left right out final := by
  obtain ⟨target, stop, hleft, h⟩ := Render.runOn_bind_eq_ok_iff.mp h
  obtain ⟨_, closed, hguarded, h⟩ := Render.runOn_bind_eq_ok_iff.mp h
  rw [Render.runOn_pure] at h
  cases h
  obtain ⟨first, hfirst, -⟩ := hw.exists_balanced hleft
  have hfront : stop.lines.toList = out.lines.toList ++ first ++ [] := by
    rw [hfirst, List.append_nil]
  exact guards_of_guarded hw ⟨_, stop, hleft, hfirst⟩ hfront hguarded

/-- Both parts of a conditional are in its branch. -/
theorem guards_of_conditional (hw : w.KeepsBlocks)
    (h : (w.conditional test yes no).runOn out = (.ok text, final)) :
    w.Guards test yes out final ∧ w.Guards test no out final := by
  obtain ⟨condition, middle, htest, h⟩ := Render.runOn_bind_eq_ok_iff.mp h
  obtain ⟨result, fresh, hfresh, h⟩ := Render.runOn_bind_eq_ok_iff.mp h
  rw [Render.runOn_freshTemp] at hfresh
  cases hfresh
  obtain ⟨_, closed, hchoice, h⟩ := Render.runOn_bind_eq_ok_iff.mp h
  rw [Render.runOn_pure] at h
  cases h
  obtain ⟨opened, turned, resumed, ended, hfirst, hsecond, hopened, hresumed, hfinal⟩ :=
    Render.toList_of_choice hchoice
  obtain ⟨value, stop, hyes, hset⟩ := toList_of_assignNode hfirst
  obtain ⟨other, stop', hno, hset'⟩ := toList_of_assignNode hsecond
  obtain ⟨decided, hdecided, -⟩ := hw.exists_balanced htest
  obtain ⟨inner, hinner, hbalanced⟩ := hw.exists_balanced hyes
  obtain ⟨inner', hinner', hbalanced'⟩ := hw.exists_balanced hno
  have hdecides : ∃ text middle, (w.expression test).runOn out = (.ok text, middle) ∧
      middle.lines.toList = out.lines.toList ++ decided := ⟨condition, middle, htest, hdecided⟩
  have hstart : opened.lines.toList =
      out.lines.toList ++ decided ++ [s!"#if({condition})"] := by
    rw [hopened]
    exact congrArg (· ++ _) hdecided
  generalize Render.tempName _ = result at *
  have hstored : Balanced [s!"#set({result} = {value})"] := balanced_assign result value
  have hstored' : Balanced [s!"#set({result} = {other})"] := balanced_assign result other
  -- what is in front of a half and what is behind it makes up the rest of the branch
  constructor
  · refine ⟨decided, [] ++ s!"#if({condition})" :: [], inner,
      [s!"#set({result} = {value})"] ++
        "#else" :: ((inner' ++ [s!"#set({result} = {other})"]) ++ "#end" :: []),
      ⟨hdecides, opened, value, stop, hyes, hstart, hinner, ?_⟩,
      .first (lineRole_openBranch condition) .nil hstored lineRole_alternative
        (hbalanced'.append hstored') lineRole_close⟩
    rw [hfinal, hset', hinner', hresumed, hset]
    simp
  · refine ⟨decided, [] ++ s!"#if({condition})" ::
        ((inner ++ [s!"#set({result} = {value})"]) ++ "#else" :: []), inner',
      [s!"#set({result} = {other})"] ++ "#end" :: [],
      ⟨hdecides, resumed, other, stop', hno, ?_, hinner', ?_⟩,
      .second (lineRole_openBranch condition) (hbalanced.append hstored)
        lineRole_alternative .nil hstored' lineRole_close⟩
    · rw [hresumed, hset, hinner, hstart]
      simp
    · rw [hfinal, hset']
      simp

/-- An operator with a symbol writes the lines of its operands and none of its own. -/
theorem operandPlaced_of_inline (hw : w.KeepsBlocks) {symbol : String}
    (hform : op.form = .inline symbol)
    (h : (w.binary left op right).runOn out = (.ok text, final)) :
    ∃ first inner, w.OperandPlaced left right out final first [] inner [] := by
  unfold binary at h
  rw [hform] at h
  obtain ⟨value, middle, hleft, h⟩ := Render.runOn_bind_eq_ok_iff.mp h
  obtain ⟨value', stop, hright, h⟩ := Render.runOn_bind_eq_ok_iff.mp h
  rw [Render.runOn_pure] at h
  cases h
  obtain ⟨first, hfirst, -⟩ := hw.exists_balanced hleft
  obtain ⟨inner, hinner, -⟩ := hw.exists_balanced hright
  refine ⟨first, inner, ⟨value, middle, hleft, hfirst⟩, middle, value', final, hright, ?_, hinner,
    (List.append_nil _).symm⟩
  rw [hfirst, List.append_nil]

/-- Of the expressions that evaluate an operand on a condition, conjunctions and disjunctions
write nothing around it, and all others write a branch. -/
theorem guards_or_bare (hw : w.KeepsBlocks) {id deciding operand : NodeId} {node : Node}
    (hn : w.arena.get? id = some node) (hm : (deciding, operand) ∈ node.conditionalOperands)
    (h : (w.renderExpression id).runOn out = (.ok text, final)) :
    (node.isLogical = false ∧ w.Guards deciding operand out final) ∨
      (node.isLogical = true ∧
        ∃ first inner, w.OperandPlaced deciding operand out final first [] inner []) := by
  unfold renderExpression at h
  rw [node_eq_pure hn] at h
  cases node with
  | conditional test yes no =>
    obtain ⟨hyes, hno⟩ := guards_of_conditional hw h
    rcases List.mem_cons.mp hm with heq | hm
    · cases heq
      exact .inl ⟨rfl, hyes⟩
    · cases List.mem_singleton.mp hm
      exact .inl ⟨rfl, hno⟩
  | binary left op right =>
    have hbinary : (w.binary left op right).runOn out = (.ok text, final) := h
    cases op with
    | coalesce =>
      cases List.mem_singleton.mp hm
      exact .inl ⟨rfl, guards_of_coalesce hw hbinary⟩
    | coalesceAssign =>
      cases List.mem_singleton.mp hm
      exact .inl ⟨rfl, guards_of_coalesceAssign hw hbinary⟩
    | and =>
      cases List.mem_singleton.mp hm
      exact .inr ⟨rfl, operandPlaced_of_inline hw rfl hbinary⟩
    | or =>
      cases List.mem_singleton.mp hm
      exact .inr ⟨rfl, operandPlaced_of_inline hw rfl hbinary⟩
    | _ => cases hm
  | _ => cases hm

end Walker

/-! ### Guarded and unguarded operands -/

/-- In the rendering of an expression that evaluates an operand on a condition, the lines of
that operand follow those of the operand that decides.  They are in a branch that is opened
in between, except those of the right operand of a conjunction or a disjunction, which has
no branch; so all of them are guarded exactly if such an operand needs no lines. -/
theorem operand_guarded_iff {p : Program} (hp : p.BottomUp)
    (ht : ∀ integration ∈ p.integrations, integration.KeepsBlocks) {dialect : Dialect} {n : Nat}
    {id deciding operand : NodeId} {node : Node} (hn : p.arena.get? id = some node)
    (hm : (deciding, operand) ∈ node.conditionalOperands) {out final : Output} {text : String}
    (h : ((p.walkerWithin dialect (n + 1)).expression id).runOn out = (.ok text, final)) :
    ∃ first before inner after,
      (p.walkerWithin dialect n).OperandPlaced deciding operand out final first before inner after ∧
        (node.isLogical = true → before = [] ∧ after = []) ∧
        ((inner ≠ [] → InBranch before after) ↔ (node.isLogical = true → inner = [])) := by
  have hw : (p.walkerWithin dialect n).KeepsBlocks := hp.keepsBlocks_walkerWithin ht n
  have hn : (p.walkerWithin dialect n).arena.get? id = some node := by
    rw [p.arena_walkerWithin]
    exact hn
  rcases Walker.guards_or_bare hw hn hm h with
    ⟨hlogical, first, before, inner, after, hplaced, hbranch⟩ | ⟨hlogical, first, inner, hplaced⟩
  · refine ⟨first, before, inner, after, hplaced, by simp [hlogical], ?_⟩
    exact iff_of_true (fun _ => hbranch) (by simp [hlogical])
  · refine ⟨first, [], inner, [], hplaced, fun _ => ⟨rfl, rfl⟩, ?_⟩
    constructor
    · intro hinside _
      cases inner with
      | nil => rfl
      | cons line rest => exact absurd (hinside (List.cons_ne_nil _ _)) (not_inBranch_nil [])
    · intro hnone hinner
      exact absurd (hnone hlogical) hinner

/-- The closure `input => { return input.ok && (input.n = true); }`. -/
def Program.sideCondition : Program :=
  (Builder.of []
    [.identifier "input", .member ⟨0⟩ "ok", .identifier "input", .member ⟨2⟩ "n", .boolean true,
      .binary ⟨3⟩ .assign ⟨4⟩, .binary ⟨1⟩ .and ⟨5⟩, .returnValue (some ⟨6⟩), .block [⟨7⟩],
      .identifier "input", .parameter ⟨9⟩ none, .function [⟨10⟩] ⟨8⟩]).program

theorem Program.runOn_sideCondition :
    ((Program.sideCondition.walkerWithin (.resolver {}) 5).expression ⟨6⟩).runOn {} =
      (.ok "($context.arguments.ok && $context.arguments.n)",
        { lines := #["#set($context.arguments.n = true)"] }) := by
  cbv

theorem operand_guarded_iff_sideCondition :
    ∃ first before inner after,
      (Program.sideCondition.walkerWithin (.resolver {}) 4).OperandPlaced ⟨1⟩ ⟨5⟩ {}
          { lines := #["#set($context.arguments.n = true)"] } first before inner after ∧
        (Node.isLogical (.binary ⟨1⟩ .and ⟨5⟩) = true → before = [] ∧ after = []) ∧
        ((inner ≠ [] → InBranch before after) ↔
          (Node.isLogical (.binary ⟨1⟩ .and ⟨5⟩) = true → inner = [])) := by
  have hnone : Program.sideCondition.integrations = #[] := by cbv
  have hn : Program.sideCondition.arena.get? ⟨6⟩ = some (.binary ⟨1⟩ .and ⟨5⟩) := by cbv
  have hbottom : Program.sideCondition.BottomUp := Builder.bottomUp_of (by decide) (by cbv)
  have hkeeps : ∀ integration ∈ Program.sideCondition.integrations, integration.KeepsBlocks := by
    rw [hnone]
    intro integration hm
    exact absurd hm (Array.not_mem_empty integration)
  exact operand_guarded_iff hbottom hkeeps hn List.mem_cons_self Program.runOn_sideCondition

/-- The assignment is made whatever the left operand is: its line is the only one, and so in
no branch. -/
theorem not_guarded_sideCondition :
    Program.sideCondition.arena.get? ⟨6⟩ = some (.binary ⟨1⟩ .and ⟨5⟩) ∧
      ∃ text value final,
        ((Program.sideCondition.walkerWithin (.resolver {}) 5).expression ⟨6⟩).runOn {} =
          (.ok text, final) ∧
        ((Program.sideCondition.walkerWithin (.resolver {}) 4).expression ⟨5⟩).runOn {} =
          (.ok value, final) ∧
        final.lines.toList = ["#set($context.arguments.n = true)"] ∧
        ∀ before after,
          final.lines.toList = before ++ ["#set($context.arguments.n = true)"] ++ after →
            ¬ InBranch before after := by
  refine ⟨by cbv, _, "$context.arguments.n", _, Program.runOn_sideCondition, by cbv,
    rfl, ?_⟩
  intro before after hlines
  cases before with
  | nil => exact not_inBranch_nil after
  | cons line rest => simp at hlines

end ClosureVtl
