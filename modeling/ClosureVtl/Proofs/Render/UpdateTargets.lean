/-
Module: ClosureVtl.Proofs.Render.UpdateTargets
Purpose: How often the text of an update target, and of a call in it, is written.
Main exports:
  Text.occurrences, Node.updated?, Walker.UpdateLines, Walker.updateLines_of_renderExpression,
  updateTarget_thrice
-/
import ClosureVtl.Proofs.Render.ReachedParts
import ClosureVtl.Proofs.Render.Emission

namespace ClosureVtl

/-!
An update reads its target, writes it, and has a value.  Each of the four forms renders the
target once and then uses its text for all three, with no temporary in between.  That does no
harm where the text is a reference.  But what is kept in the text of the target is written as
often as the target is, and a call runs wherever its text is evaluated.
-/

/-! ### Occurrences -/

namespace Text

/-- How often a text occurs in another one. -/
def occurrences (part text : String) : Nat :=
  text.toList.tails.countP fun rest => part.toList.isPrefixOf rest

/-- How often a text occurs in several. -/
def occurrencesIn (part : String) (texts : List String) : Nat :=
  (texts.map (occurrences part)).sum

variable {part text whole before after : String}

/-- A text that keeps another one has it in it. -/
theorem one_le_occurrences (h : Keeps text part) : 1 ≤ occurrences part text := by
  obtain ⟨before, after, htext⟩ := h
  refine List.one_le_countP_iff.mpr ⟨part.toList ++ after, ?_, ?_⟩
  · rw [List.mem_tails, ← htext, List.append_assoc]
    exact List.suffix_append _ _
  · exact List.isPrefixOf_iff_prefix.mpr (List.prefix_append _ _)

/-- What occurs in two texts does so at least as often in both together. -/
theorem add_le_occurrences_append (hpart : part ≠ "") (before after : String) :
    occurrences part before + occurrences part after ≤ occurrences part (before ++ after) := by
  have hne : part.toList ≠ [] := fun h => hpart (String.toList_eq_nil_iff.mp h)
  unfold occurrences
  rw [String.toList_append]
  induction before.toList with
  | nil =>
    have hnone : part.toList.isPrefixOf [] = false := by
      rw [Bool.eq_false_iff, ne_eq, List.isPrefixOf_iff_prefix, List.prefix_nil]
      exact hne
    simp [hnone]
  | cons c rest ih =>
    rw [List.cons_append, List.tails_cons, List.tails_cons, List.countP_cons, List.countP_cons]
    have hfirst : part.toList.isPrefixOf (c :: rest) = true →
        part.toList.isPrefixOf (c :: (rest ++ after.toList)) = true := fun h =>
      List.isPrefixOf_iff_prefix.mpr
        ((List.isPrefixOf_iff_prefix.mp h).trans (List.prefix_append (c :: rest) _))
    split
    · next h =>
      rw [if_pos (hfirst h)]
      omega
    · omega

/-- What occurs in a text does so at least as often where the text is kept. -/
theorem occurrences_le_of_keeps (hpart : part ≠ "") (h : Keeps whole text) :
    occurrences part text ≤ occurrences part whole := by
  obtain ⟨before, after, hwhole⟩ := h
  have heq : whole = String.ofList before ++ text ++ String.ofList after := by
    apply String.toList_inj.mp
    simp [← hwhole]
  have hfront := add_le_occurrences_append hpart (String.ofList before) text
  have hback := add_le_occurrences_append hpart (String.ofList before ++ text) (String.ofList after)
  rw [heq]
  omega

/-- A line that assigns has the texts of the target and of the value. -/
theorem add_le_occurrences_setLine (hpart : part ≠ "") (target value : String) :
    occurrences part target + occurrences part value ≤ occurrences part (setLine target value) := by
  have hopen := add_le_occurrences_append hpart "#set(" target
  have htarget := add_le_occurrences_append hpart ("#set(" ++ target) " = "
  have hvalue := add_le_occurrences_append hpart ("#set(" ++ target ++ " = ") value
  have hclose := add_le_occurrences_append hpart ("#set(" ++ target ++ " = " ++ value) ")"
  change _ ≤ occurrences part ("#set(" ++ target ++ " = " ++ value ++ ")")
  omega

/-- Occurrences in several lines are added up. -/
theorem occurrencesIn_append (part : String) (texts more : List String) :
    occurrencesIn part (texts ++ more) = occurrencesIn part texts + occurrencesIn part more := by
  simp [occurrencesIn]

theorem occurrencesIn_cons (part text : String) (texts : List String) :
    occurrencesIn part (text :: texts) = occurrences part text + occurrencesIn part texts := by
  simp [occurrencesIn]

end Text

/-! ### Updates -/

/-- The target that a node reads and stores to: compound assignments, those that store only
where nothing is, and steps before or after the value. -/
def Node.updated? : Node → Option NodeId
  | .binary left op _ =>
    match op.form with
    | .update _ | .storeIfNull => some left
    | _ => none
  | .unary (.step _) operand | .stepAfter operand _ => some operand
  | _ => none

namespace Walker

variable {w : Walker} {id operand : NodeId} {node : Node} {target text part : String}
  {lines : List String} {out stop final : Output}

/-- The lines and the text of an update, behind the lines of its target. -/
inductive UpdateLines (w : Walker) (target : String) (stop : Output) :
    Node → List String → String → Prop where
  | compound {left right : NodeId} {op : BinaryOp} {symbol value : String} {last : Output}
      {lines : List String} (form : op.form = .update symbol)
      (run : (w.expression right).runOn stop = (.ok value, last))
      (written : last.lines.toList = stop.lines.toList ++ lines) :
      UpdateLines w target stop (.binary left op right)
        (lines ++ [setLine target s!"{target} {symbol} {value}"]) target
  | ifNull {left right : NodeId} {op : BinaryOp} {value : String} {start last : Output}
      {lines : List String} (form : op.form = .storeIfNull)
      (opened : start.lines.toList = stop.lines.toList ++ [ifLine s!"{target} == {Text.nullText}"])
      (run : (w.expression right).runOn start = (.ok value, last))
      (written : last.lines.toList = start.lines.toList ++ lines) :
      UpdateLines w target stop (.binary left op right)
        (ifLine s!"{target} == {Text.nullText}" :: lines ++ [setLine target value, "#end"]) target
  | before (step : Step) (operand : NodeId) :
      UpdateLines w target stop (.unary (.step step) operand)
        [setLine target s!"{target} {step.symbol} 1"] target
  | after (operand : NodeId) (step : Step) :
      UpdateLines w target stop (.stepAfter operand step)
        [setLine (Render.tempName (stop.temps + 1)) target,
          setLine target s!"{target} {step.symbol} 1"]
        (Render.tempName (stop.temps + 1))

/-- An assignment with an operator reads its target and then writes it. -/
theorem updateLines_of_binary (hw : w.KeepsBlocks) {left right : NodeId} {op : BinaryOp}
    (updates : (Node.binary left op right).updated? = some operand)
    (h : (w.binary left op right).runOn out = (.ok text, final)) :
    ∃ target stop lines, (w.expression operand).runOn out = (.ok target, stop) ∧
      final.lines.toList = stop.lines.toList ++ lines ∧
      w.UpdateLines target stop (.binary left op right) lines text := by
  unfold binary at h
  unfold Node.updated? at updates
  cases hform : op.form with
  | update symbol =>
    simp only [hform, Option.some.injEq] at updates
    subst updates
    rw [hform] at h
    obtain ⟨target, stop, htarget, hrest⟩ := Render.runOn_bind_eq_ok_iff.mp h
    obtain ⟨value, last, hvalue, hupdate⟩ := Render.runOn_bind_eq_ok_iff.mp hrest
    obtain ⟨_, closed, hset, hdone⟩ := Render.runOn_bind_eq_ok_iff.mp hupdate
    cases hdone
    obtain ⟨lines, hlines⟩ := (keeps_expression right).isPrefix hw hvalue
    refine ⟨text, stop, _, htarget, ?_, .compound hform hvalue hlines.symm⟩
    rw [Render.runOn_emit_eq_ok_iff.mp hset, Array.toList_push, ← hlines, List.append_assoc]
    rfl
  | storeIfNull =>
    simp only [hform, Option.some.injEq] at updates
    subst updates
    rw [hform] at h
    obtain ⟨target, stop, htarget, hrest⟩ := Render.runOn_bind_eq_ok_iff.mp h
    obtain ⟨_, closed, hguarded, hdone⟩ := Render.runOn_bind_eq_ok_iff.mp hrest
    cases hdone
    obtain ⟨start, finish, hassign, hopened, hclosed⟩ := Render.toList_of_guarded hguarded
    obtain ⟨value, last, hvalue, hset⟩ := toList_of_assignNode hassign
    obtain ⟨lines, hlines⟩ := (keeps_expression right).isPrefix hw hvalue
    refine ⟨text, stop, _, htarget, ?_, .ifNull hform hopened hvalue hlines.symm⟩
    rw [hclosed, hset, ← hlines, hopened]
    simp [setLine, ifLine]
  | inline symbol | membership | coalesce | store => simp [hform] at updates

/-- So does a step. -/
theorem updateLines_of_stepped {step : Step}
    (h : (w.stepped operand step).runOn out = (.ok text, final)) :
    ∃ target stop lines, (w.expression operand).runOn out = (.ok target, stop) ∧
      final.lines.toList = stop.lines.toList ++ lines ∧
      w.UpdateLines target stop (.unary (.step step) operand) lines text := by
  obtain ⟨target, stop, htarget, hrest⟩ := Render.runOn_bind_eq_ok_iff.mp h
  obtain ⟨_, closed, hset, hdone⟩ := Render.runOn_bind_eq_ok_iff.mp hrest
  cases hdone
  refine ⟨text, stop, _, htarget, ?_, .before step operand⟩
  rw [Render.runOn_emit_eq_ok_iff.mp hset]
  exact Array.toList_push

/-- A step that yields the old value keeps it in a temporary first. -/
theorem updateLines_of_steppedAfter {step : Step}
    (h : (w.steppedAfter operand step).runOn out = (.ok text, final)) :
    ∃ target stop lines, (w.expression operand).runOn out = (.ok target, stop) ∧
      final.lines.toList = stop.lines.toList ++ lines ∧
      w.UpdateLines target stop (.stepAfter operand step) lines text := by
  obtain ⟨target, stop, htarget, hrest⟩ := Render.runOn_bind_eq_ok_iff.mp h
  obtain ⟨before, kept, hkept, hupdate⟩ := Render.runOn_bind_eq_ok_iff.mp hrest
  obtain ⟨_, closed, hset, hdone⟩ := Render.runOn_bind_eq_ok_iff.mp hupdate
  cases hdone
  cases hkept
  refine ⟨target, stop, _, htarget, ?_, .after operand step⟩
  rw [Render.runOn_emit_eq_ok_iff.mp hset]
  simp [setLine]

/-- A node that updates a target renders it once and uses its text from then on. -/
theorem updateLines_of_renderExpression (hw : w.KeepsBlocks)
    (hn : w.arena.get? id = some node) (updates : node.updated? = some operand)
    (h : (w.renderExpression id).runOn out = (.ok text, final)) :
    ∃ target stop lines, (w.expression operand).runOn out = (.ok target, stop) ∧
      final.lines.toList = stop.lines.toList ++ lines ∧
      w.UpdateLines target stop node lines text := by
  unfold renderExpression at h
  rw [node_eq_pure hn, pure_bind] at h
  cases node with
  | binary left op right => exact updateLines_of_binary hw updates h
  | unary op inner =>
    cases op with
    | step direction =>
      cases updates
      exact updateLines_of_stepped h
    | _ => cases updates
  | stepAfter inner step =>
    cases updates
    exact updateLines_of_steppedAfter h
  | _ => cases updates

/-- All four forms use the text of the target three times. -/
theorem UpdateLines.thrice (h : w.UpdateLines target stop node lines text) (hpart : part ≠ "") :
    3 * Text.occurrences part target ≤ Text.occurrencesIn part (lines ++ [text]) := by
  have hset := Text.add_le_occurrences_setLine hpart target
  have hupdate : ∀ value : String, Text.Keeps value target →
      2 * Text.occurrences part target ≤ Text.occurrences part (setLine target value) := by
    intro value hkept
    have hread := Text.occurrences_le_of_keeps hpart hkept
    have hboth := hset value
    omega
  simp only [Text.occurrencesIn_append, Text.occurrencesIn_cons]
  cases h with
  | @compound left right op symbol value last lines form run written =>
    have hline := hupdate s!"{target} {symbol} {value}"
      ((((Text.keeps_self target).front " ").front symbol |>.front " ").front value)
    simp only [Text.occurrencesIn_append, Text.occurrencesIn_cons]
    omega
  | @ifNull left right op value start last lines form opened run written =>
    have hguard : Text.occurrences part target ≤
        Text.occurrences part (ifLine s!"{target} == {Text.nullText}") :=
      Text.occurrences_le_of_keeps hpart
        ((((Text.keeps_self target).front " == ").front Text.nullText).wrap "#if(" ")")
    have hline := hset value
    simp only [Text.occurrencesIn_append, Text.occurrencesIn_cons]
    omega
  | before step operand =>
    have hline := hupdate s!"{target} {step.symbol} 1"
      (((Text.keeps_self target).front " ").front step.symbol |>.front " 1")
    simp only [Text.occurrencesIn_cons]
    omega
  | after operand step =>
    have hline := hupdate s!"{target} {step.symbol} 1"
      (((Text.keeps_self target).front " ").front step.symbol |>.front " 1")
    have hbefore := Text.add_le_occurrences_setLine hpart (Render.tempName (stop.temps + 1)) target
    simp only [Text.occurrencesIn_cons]
    omega

end Walker

/-- How often the calls in the target of an update are written, in all four forms and in any
dialect.  The target is rendered once, and behind its lines its text is used exactly as
`UpdateLines` says.  Whatever occurs in the text of the target occurs in these lines and the
value of the node together at least three times as often.  So a call that is kept in that text
is written at least three times, whatever it is nested in; only a call that has its place in a
line is left alone by the update, and is in a line of the target. -/
theorem updateTarget_thrice {p : Program} (hp : p.BottomUp)
    (ht : ∀ integration ∈ p.integrations, integration.KeepsBlocks) {dialect : Dialect} {n : Nat}
    {id operand : NodeId} {node : Node} {text : String} {out final : Output}
    (hn : p.arena.get? id = some node) (updates : node.updated? = some operand)
    (h : ((p.walkerWithin dialect (n + 1)).expression id).runOn out = (.ok text, final)) :
    ∃ target stop lines,
      ((p.walkerWithin dialect n).expression operand).runOn out = (.ok target, stop) ∧
      final.lines.toList = stop.lines.toList ++ lines ∧
      (p.walkerWithin dialect n).UpdateLines target stop node lines text ∧
      (∀ part, part ≠ "" →
        3 * Text.occurrences part target ≤ Text.occurrencesIn part (lines ++ [text])) ∧
      ∀ {place : TextPlace} {call : NodeId},
        p.Reaches dialect (.expression operand) place (.expression call) →
        ∃ m ≤ n, ∃ written,
          (p.walkerWithin dialect m).PerformsWithin (.expression call) out written stop ∧
          (p.RunsIn call written →
            (place = .text → 3 ≤ Text.occurrencesIn written (lines ++ [text])) ∧
              (place = .line → Output.Shows written out stop)) := by
  have hw : (p.walkerWithin dialect n).KeepsBlocks := hp.keepsBlocks_walkerWithin ht n
  rw [← p.arena_walkerWithin dialect n] at hn
  obtain ⟨target, stop, lines, htarget, hlines, hupdate⟩ :=
    Walker.updateLines_of_renderExpression hw hn updates h
  refine ⟨target, stop, lines, htarget, hlines, hupdate, fun part => hupdate.thrice,
    fun {place call} way => ?_⟩
  obtain ⟨m, hm, written, hperforms, hplace⟩ := Program.puts_of_reaches hp ht way htarget
  refine ⟨m, hm, written, hperforms, fun hruns => ?_⟩
  obtain ⟨start, last, hcall, -, -⟩ := hperforms
  -- a call is not the empty text, so occurrences of it can be counted
  have hcallText := Program.isCallText_of_runsIn hp ht hruns hcall
  refine ⟨?_, ?_⟩
  · rintro rfl
    have hne : written ≠ "" := by
      rintro rfl
      exact absurd hcallText (by decide)
    have hkept := Text.one_le_occurrences hplace
    have hthrice := hupdate.thrice hne
    omega
  · rintro rfl
    exact hplace hcallText

/-- The closure `input => { return ++input.items.pop().n; }`. -/
def Program.stepPop : Program :=
  (Builder.of []
    [.identifier "input", .member ⟨0⟩ "items", .member ⟨1⟩ "pop", .call ⟨2⟩ [], .member ⟨3⟩ "n",
      .unary (.step .increment) ⟨4⟩, .returnValue (some ⟨5⟩), .block [⟨6⟩], .identifier "input",
      .parameter ⟨8⟩ none, .function [⟨9⟩] ⟨7⟩]).program

theorem Program.runsIn_stepPop (text : String) : Program.stepPop.RunsIn ⟨3⟩ text := by
  have hnode : Program.stepPop.arena.get? ⟨3⟩ = some (.call ⟨2⟩ []) := by cbv
  have hmember : Program.stepPop.arena.get? (Program.stepPop.arena.unwrapParens ⟨2⟩) =
      some (.member ⟨1⟩ "pop") := by cbv
  have hreceiver : Program.stepPop.arena.get? (Program.stepPop.arena.unwrapParens ⟨1⟩) =
      some (.member ⟨0⟩ "items") := by cbv
  exact runsIn_of_memberMethod hnode hmember hreceiver (by decide) (by decide) text

theorem Program.reaches_stepPop (dialect : Dialect) :
    Program.stepPop.Reaches dialect (.expression ⟨4⟩) .text (.expression ⟨3⟩) := by
  have hname : Program.stepPop.arena.get? ⟨4⟩ = some (.member ⟨3⟩ "n") := by cbv
  exact Reaches.step .refl (.expression (.member hname))

theorem Program.runOn_stepPop :
    ((Program.stepPop.walkerWithin (.resolver {}) 6).expression ⟨5⟩).runOn {} =
      (.ok "$context.arguments.items.pop().n",
        { lines := #["#set($context.arguments.items.pop().n = "
            ++ "$context.arguments.items.pop().n + 1)"] }) := by
  cbv

theorem updateTarget_thrice_stepPop :
    ∃ target stop lines m written,
      ((Program.stepPop.walkerWithin (.resolver {}) 5).expression ⟨4⟩).runOn {} =
        (.ok target, stop) ∧
      ["#set($context.arguments.items.pop().n = $context.arguments.items.pop().n + 1)"] =
        stop.lines.toList ++ lines ∧
      (Program.stepPop.walkerWithin (.resolver {}) m).PerformsWithin (.expression ⟨3⟩) {} written
        stop ∧
      3 ≤ Text.occurrencesIn written (lines ++ ["$context.arguments.items.pop().n"]) := by
  have hnone : Program.stepPop.integrations = #[] := by cbv
  have hbottom : Program.stepPop.BottomUp := Builder.bottomUp_of (by decide) (by cbv)
  have hkeeps : ∀ integration ∈ Program.stepPop.integrations, integration.KeepsBlocks := by
    rw [hnone]
    intro integration hm
    exact absurd hm (Array.not_mem_empty integration)
  have hstep : Program.stepPop.arena.get? ⟨5⟩ = some (.unary (.step .increment) ⟨4⟩) := by cbv
  obtain ⟨target, stop, lines, htarget, hlines, -, -, hcalls⟩ :=
    updateTarget_thrice hbottom hkeeps hstep rfl Program.runOn_stepPop
  obtain ⟨m, -, written, hperforms, hthrice⟩ := hcalls (Program.reaches_stepPop _)
  exact ⟨target, stop, lines, m, written, htarget, hlines, hperforms,
    (hthrice (Program.runsIn_stepPop written)).1 rfl⟩

/-- The node is a step whose target contains a call, and the text of the call occurs three times
in the line of the step and the value that is returned. -/
theorem not_once_stepPop :
    Program.stepPop.arena.get? ⟨5⟩ = some (.unary (.step .increment) ⟨4⟩) ∧
      Program.stepPop.RunsIn ⟨3⟩ "$context.arguments.items.pop()" ∧
      Program.stepPop.Reaches (.resolver {}) (.expression ⟨4⟩) .text (.expression ⟨3⟩) ∧
      ((Program.stepPop.walkerWithin (.resolver {}) 4).expression ⟨3⟩).runOn {} =
        (.ok "$context.arguments.items.pop()", {}) ∧
      (∃ text final,
        ((Program.stepPop.walkerWithin (.resolver {}) 6).expression ⟨5⟩).runOn {} =
          (.ok text, final) ∧
        ¬ Text.occurrencesIn "$context.arguments.items.pop()" (final.lines.toList ++ [text]) ≤ 1) ∧
      (Program.stepPop.compileResolver ⟨10⟩ {}).toOption = some
        { template := "#set($context.arguments.items.pop().n = "
            ++ "$context.arguments.items.pop().n + 1)\n#return($context.arguments.items.pop().n)"
          integrations := [] } :=
  ⟨by cbv, Program.runsIn_stepPop _, Program.reaches_stepPop _, by cbv,
    ⟨_, _, Program.runOn_stepPop, by decide +kernel⟩, by decide +kernel⟩

end ClosureVtl
