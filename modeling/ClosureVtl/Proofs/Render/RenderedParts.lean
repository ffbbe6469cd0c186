/-
Module: ClosureVtl.Proofs.Render.RenderedParts
Purpose: What a rule of rendering hands to the walker, and where the text goes that comes back.
Main exports:
  Task, TextPlace, Text.isCallText, Output.Shows, Walker.Performs, Walker.PerformsWithin,
  Walker.Puts, Render.Appends, Walker.WritesOut
-/
import ClosureVtl.Proofs.Render.CallArguments

namespace ClosureVtl

/-!
A rule renders a node by handing its parts to the walker, as *tasks*.  What comes back is a
text, and the rule has a *place* for it: in the text of the whole node, or in a line that it
writes.  A reference is passed on without a line, since it can be read again; so only texts
that are no part of a reference, such as those of calls, are bound to be in a line.

`Walker.Puts` says of one run that it contains the run of a task and that the text is in its
place.  Most rules put the texts of their parts into lines, between steps that only append
other lines; `Walker.WritesOut` is this case as a property of a step, which is carried
through the steps around it.
-/

/-- What a rule hands to a walker. -/
inductive Task where
  | expression (id : NodeId)
  | fragment (id : NodeId)
  /-- a statement, which returns to a slot if it is in the body of a callback -/
  | statement (id : NodeId) (inCallback : Bool)
  | pattern (id : NodeId)
  | call (integration : IntegrationId) (id : NodeId)
deriving DecidableEq, Repr

/-- Where the text of a task goes. -/
inductive TextPlace where
  /-- it is kept in the text of the whole -/
  | text
  /-- it is kept in a line -/
  | line
  /-- it is the value of an expression statement, which may be written or not -/
  | dropped
deriving DecidableEq, Repr

namespace Text

/-- Whether a text has a character that no reference has. -/
def isCallText (text : String) : Bool :=
  text.toList.any fun c => !(c == '$' || isAlphanumeric c || c == '_' || c == '.')

/-- A text with a call in it is the text of a call. -/
theorem isCallText_of_keeps {text part : String} (hk : Keeps text part)
    (h : isCallText part = true) : isCallText text = true := by
  obtain ⟨c, hm, hc⟩ := List.any_eq_true.mp h
  exact List.any_eq_true.mpr ⟨c, hk.subset hm, hc⟩

/-- What has such a character is no reference. -/
theorem not_isReference_of_isCallText {text : String} (h : isCallText text = true) :
    isReference text = false := by
  obtain ⟨c, hm, hc⟩ := List.any_eq_true.mp h
  simp only [Bool.not_eq_true', Bool.or_eq_false_iff] at hc
  obtain ⟨⟨⟨hdollar, halpha⟩, hunderscore⟩, hpoint⟩ := hc
  unfold isReference
  split
  · next path hpath =>
    rw [Bool.and_eq_false_iff]
    right
    rw [hpath] at hm
    rcases List.mem_cons.mp hm with rfl | hm
    · cases hdollar
    · rw [List.all_eq_false]
      exact ⟨c, hm, by simp [halpha, hunderscore, hpoint]⟩
  · rfl

/-- The text of a call has a parenthesis. -/
theorem isCallText_of_mem {text : String} (h : '(' ∈ text.toList) : isCallText text = true :=
  List.any_eq_true.mpr ⟨'(', h, by decide⟩

end Text

/-! ### Texts in lines -/

/-- Whether a text is kept in a line that is written between two points of a run. -/
def Output.Shows (part : String) (out final : Output) : Prop :=
  ∃ lines, final.lines.toList = out.lines.toList ++ lines ∧ ∃ line ∈ lines, Text.Keeps line part

namespace Output.Shows

variable {text part line : String} {out start stop final : Output}

/-- A line in a stretch of a run is a line of the whole run. -/
theorem widen (hstart : out.lines.toList <+: start.lines.toList)
    (hstop : stop.lines.toList <+: final.lines.toList) (h : Shows part start stop) :
    Shows part out final := by
  obtain ⟨before, hbefore⟩ := hstart
  obtain ⟨after, hafter⟩ := hstop
  obtain ⟨lines, hlines, line, hm, hkept⟩ := h
  refine ⟨before ++ lines ++ after, ?_, line, ?_, hkept⟩
  · rw [← hafter, hlines, ← hbefore]
    simp only [List.append_assoc]
  · exact List.mem_append_left _ (List.mem_append_right _ hm)

/-- The last line shows what it keeps. -/
theorem of_append (h : final.lines.toList = out.lines.toList ++ [line])
    (hkept : Text.Keeps line part) : Shows part out final :=
  ⟨[line], h, line, List.mem_singleton_self _, hkept⟩

/-- Where something is shown, lines have only been appended. -/
theorem isPrefix (h : Shows part out final) : out.lines.toList <+: final.lines.toList := by
  obtain ⟨lines, hlines, -⟩ := h
  exact ⟨lines, hlines.symm⟩

/-- What is kept in a text is shown where the text is. -/
theorem of_keeps (hkept : Text.Keeps text part) (h : Shows text out final) :
    Shows part out final := by
  obtain ⟨lines, hlines, line, hm, hline⟩ := h
  exact ⟨lines, hlines, line, hm, List.IsInfix.trans hkept hline⟩

end Output.Shows

/-! ### Tasks and places -/

namespace Walker

variable {w : Walker} {task inner : Task} {place : TextPlace} {text result : String}
  {out start stop final : Output}

/-- Whether a run carries out a task. -/
def Performs (w : Walker) (task : Task) (out : Output) (text : String) (final : Output) : Prop :=
  match task with
  | .expression id => (w.expression id).runOn out = (.ok text, final)
  | .fragment id => (w.fragment id).runOn out = (.ok text, final)
  | .statement id inCallback =>
    text = "" ∧ ∃ slot : Option String, slot.isSome = inCallback ∧
      (w.statement id slot).runOn out = (.ok (), final)
  | .pattern id => text = "" ∧ ∃ target, (w.expand id target).runOn out = (.ok (), final)
  | .call integration id => (w.integrate integration id).runOn out = (.ok text, final)

/-- Whether a task is carried out between two points of a run. -/
def PerformsWithin (w : Walker) (task : Task) (out : Output) (text : String) (final : Output) :
    Prop :=
  ∃ start stop, w.Performs task start text stop ∧ out.lines.toList <+: start.lines.toList ∧
    stop.lines.toList <+: final.lines.toList

end Walker

/-- Whether a text is in its place: in the text of the whole, or in a line between two points
of a run unless it may be a part of a reference. -/
def TextPlace.Holds (place : TextPlace) (text part : String) (out final : Output) : Prop :=
  match place with
  | .text => Text.Keeps text part
  | .line => Text.isCallText part = true → Output.Shows part out final
  | .dropped => True

namespace Walker

variable {w : Walker} {task inner : Task} {place : TextPlace} {text result part : String}
  {out start stop final : Output}

/-- Whether a run contains that of a task, and has the text of the task in its place. -/
def Puts (w : Walker) (inner : Task) (place : TextPlace) (text : String) (out final : Output) : Prop :=
  ∃ part, w.PerformsWithin inner out part final ∧ place.Holds text part out final

/-- A task is carried out within its own run. -/
theorem Performs.within (h : w.Performs task out text final) :
    w.PerformsWithin task out text final :=
  ⟨out, final, h, List.prefix_rfl, List.prefix_rfl⟩

/-- A stretch of a run lies within the whole run. -/
theorem PerformsWithin.widen (hstart : out.lines.toList <+: start.lines.toList)
    (hstop : stop.lines.toList <+: final.lines.toList) (h : w.PerformsWithin task start text stop) :
    w.PerformsWithin task out text final := by
  obtain ⟨first, last, hrun, hfirst, hlast⟩ := h
  exact ⟨first, last, hrun, hstart.trans hfirst, hlast.trans hstop⟩

/-- The text of a part is kept in the text of the whole. -/
theorem Performs.puts_text (h : w.Performs inner start part stop)
    (hstart : out.lines.toList <+: start.lines.toList)
    (hstop : stop.lines.toList <+: final.lines.toList) (hkept : Text.Keeps text part) :
    w.Puts inner .text text out final :=
  ⟨part, h.within.widen hstart hstop, hkept⟩

/-- A line in a stretch of a run is one in the whole run. -/
theorem Puts.widen_line (hstart : out.lines.toList <+: start.lines.toList)
    (hstop : stop.lines.toList <+: final.lines.toList) (h : w.Puts inner .line text start stop) :
    w.Puts inner .line result out final := by
  obtain ⟨part, hrun, hshown⟩ := h
  exact ⟨part, hrun.widen hstart hstop, fun hcall => (hshown hcall).widen hstart hstop⟩

/-- A statement and a pattern have no text to put anywhere. -/
theorem Performs.puts_line_of_empty (h : w.Performs inner out "" final) :
    w.Puts inner .line text out final := by
  refine ⟨"", h.within, fun hcall => ?_⟩
  exact absurd hcall (by decide)

end Walker

/-! ### Steps that append lines -/

namespace Render

variable {α β : Type} {x : Render α} {f : α → Render β}

/-- Whether every run of a step that ends well appends lines. -/
def Appends (x : Render α) : Prop :=
  ∀ ⦃out value final⦄, x.runOn out = (.ok value, final) → out.lines.toList <+: final.lines.toList

/-- Whether every run of a step that ends well writes a line that keeps a text. -/
def Mentions (x : Render α) (text : String) : Prop :=
  ∀ ⦃out value final⦄, x.runOn out = (.ok value, final) → Output.Shows text out final

/-- Returning a value appends nothing. -/
theorem appends_pure (value : α) : (pure value : Render α).Appends := by
  intro out result final h
  rw [runOn_pure] at h
  cases h
  exact List.prefix_rfl

/-- A fault ends no run well, so there is nothing to show. -/
theorem appends_fault (f : Fault) : (fault f : Render α).Appends :=
  fun out _ final h => absurd ⟨out, final, h⟩ not_yields_fault

/-- An emitted line is appended. -/
theorem appends_emit (line : String) : (emit line).Appends := by
  intro out value final h
  rw [runOn_emit_eq_ok_iff.mp h, Array.toList_push]
  exact List.prefix_append _ _

/-- So is the end of a block. -/
theorem appends_close : close.Appends := appends_emit _

/-- Steps in a row append what both append. -/
theorem Appends.bind (hx : x.Appends) (hf : ∀ value, (f value).Appends) : (x >>= f).Appends := by
  intro out result final h
  obtain ⟨value, middle, hfirst, hrest⟩ := runOn_bind_eq_ok_iff.mp h
  exact (hx hfirst).trans (hf value hrest)

/-- A choice appends if both sides do. -/
theorem Appends.ite {c : Prop} [Decidable c] {yes no : Render α} (hyes : yes.Appends)
    (hno : no.Appends) : (if c then yes else no).Appends := by
  split
  · exact hyes
  · exact hno

/-- A loop over items appends if each of its steps does. -/
theorem Appends.forM {items : List α} {f : α → Render PUnit} (hf : ∀ item, (f item).Appends) :
    (items.forM f).Appends := by
  induction items with
  | nil => exact appends_pure _
  | cons item rest ih => exact (hf item).bind fun _ => ih

/-- So does a fold. -/
theorem Appends.foldlM {σ : Type} {items : List α} {f : σ → α → Render σ}
    (hf : ∀ state item, (f state item).Appends) (start : σ) : (items.foldlM f start).Appends := by
  induction items generalizing start with
  | nil => exact appends_pure _
  | cons item rest ih =>
    rw [List.foldlM_cons]
    exact (hf start item).bind fun state => ih state

/-! ### Steps that write a text -/

variable {text line : String}

/-- An emitted line mentions what it keeps. -/
theorem mentions_emit (h : Text.Keeps line text) : (emit line).Mentions text := by
  intro out value final hrun
  rw [runOn_emit_eq_ok_iff.mp hrun]
  exact .of_append Array.toList_push h

/-- A fault has no run that would have to mention anything. -/
theorem mentions_fault (f : Fault) : (fault f : Render α).Mentions text :=
  fun out _ final h => absurd ⟨out, final, h⟩ not_yields_fault

/-- An assignment mentions the value. -/
theorem mentions_assign (target text : String) : (assign target text).Mentions text :=
  mentions_emit (((Text.keeps_self text).behind _).front ")")

/-- The argument of a call that is written for its effect is in the line. -/
theorem mentions_discardCall (receiver method text : String) :
    (discard (receiver ++ method ++ text ++ ")")).Mentions text :=
  mentions_emit ((((Text.keeps_self text).behind _).front ")").wrap "$util.qr(" ")")

/-- What is mentioned first stays mentioned. -/
theorem Mentions.first (h : x.Mentions text) (hf : ∀ value, (f value).Appends) :
    (x >>= f).Mentions text := by
  intro out result final hrun
  obtain ⟨value, middle, hx, hrest⟩ := runOn_bind_eq_ok_iff.mp hrun
  exact (h hx).widen List.prefix_rfl (hf value hrest)

/-- What is mentioned later is mentioned behind lines that are only appended. -/
theorem Mentions.later (hx : x.Appends) (h : ∀ value, (f value).Mentions text) :
    (x >>= f).Mentions text := by
  intro out result final hrun
  obtain ⟨value, middle, hfirst, hrest⟩ := runOn_bind_eq_ok_iff.mp hrun
  exact (h value hrest).widen (hx hfirst) List.prefix_rfl

/-- Taking a temporary appends nothing. -/
theorem appends_freshTemp : freshTemp.Appends := by
  intro out value final h
  rw [runOn_freshTemp] at h
  cases h
  exact List.prefix_rfl

/-- A value that is moved to a temporary is in the line that stores it. -/
theorem mentions_materialize (text : String) : (materialize text).Mentions text :=
  .later appends_freshTemp fun temp => (mentions_assign temp text).first fun _ => appends_pure temp

/-- A condition is in the line that opens its branch. -/
theorem mentions_guarded {body : Render Unit} (hbody : body.Appends) :
    (guarded text body).Mentions text :=
  (mentions_emit ((Text.keeps_self text).wrap "#if(" ")")).first fun _ =>
    hbody.bind fun _ => appends_close

/-- The condition of a choice is in the line that opens it. -/
theorem mentions_choice {yes no : Render Unit} (hyes : yes.Appends) (hno : no.Appends) :
    (choice text yes no).Mentions text :=
  (mentions_emit ((Text.keeps_self text).wrap "#if(" ")")).first fun _ =>
    hyes.bind fun _ => (appends_emit _).bind fun _ => hno.bind fun _ => appends_close

/-- A text that is no reference is stored. -/
theorem mentions_toReference (h : Text.isCallText text = true) :
    (Walker.toReference text).Mentions text := by
  unfold Walker.toReference
  rw [Text.not_isReference_of_isCallText h]
  exact mentions_materialize text

end Render

namespace Walker

variable {w : Walker} {α β : Type} {x : Render α} {f : α → Render β} {id : NodeId} {inner : Task}
  {out final : Output}

/-- A step that writes blocks in order appends its lines. -/
theorem Writes.appends {before after : List OpenBlock} (hw : w.KeepsBlocks)
    (h : w.Writes x before after) : x.Appends := by
  intro out value final hrun
  obtain ⟨lines, hlines, -⟩ := h.turns hw out value final hrun
  exact ⟨lines, hlines.symm⟩

/-- So does one that keeps the blocks as they are. -/
theorem Keeps.appends (hw : w.KeepsBlocks) (h : w.Keeps x) : x.Appends := (h []).appends hw

/-! ### Steps that write the text of a task to a line -/

/-- Whether every run of a step that ends well contains a run of a task and writes its text to
a line, unless it may be a part of a reference. -/
def WritesOut (w : Walker) (x : Render α) (inner : Task) : Prop :=
  ∀ ⦃out value final⦄, x.runOn out = (.ok value, final) → w.Puts inner .line "" out final

namespace WritesOut

/-- What is in a line is there whatever the text of the whole is. -/
theorem puts {value : α} {text : String} (h : w.WritesOut x inner)
    (hrun : x.runOn out = (.ok value, final)) : w.Puts inner .line text out final :=
  (h hrun).widen_line List.prefix_rfl List.prefix_rfl

/-- The task may be in the first of two steps, if the second appends. -/
theorem first (h : w.WritesOut x inner) (hf : ∀ value, (f value).Appends) :
    w.WritesOut (x >>= f) inner := by
  intro out result final hrun
  obtain ⟨value, middle, hx, hrest⟩ := Render.runOn_bind_eq_ok_iff.mp hrun
  exact (h hx).widen_line List.prefix_rfl (hf value hrest)

/-- It may be in the second, if the first appends. -/
theorem later (hx : x.Appends) (h : ∀ value, w.WritesOut (f value) inner) :
    w.WritesOut (x >>= f) inner := by
  intro out result final hrun
  obtain ⟨value, middle, hfirst, hrest⟩ := Render.runOn_bind_eq_ok_iff.mp hrun
  exact (h value hrest).widen_line (hx hfirst) List.prefix_rfl

/-- The node that a rule looks at is known. -/
theorem node {node : Node} {f : Node → Render β} (hn : w.arena.get? id = some node)
    (h : w.WritesOut (f node) inner) : w.WritesOut (w.node id >>= f) inner := by
  rw [node_eq_pure hn, pure_bind]
  exact h

/-- A step that fails has no run to contain anything. -/
theorem fault (f : Fault) : w.WritesOut (Render.fault f : Render α) inner :=
  fun out _ final h => absurd ⟨out, final, h⟩ Render.not_yields_fault

/-- The node that a rule looks at exists in a run that ends well. -/
theorem lookup {f : Node → Render β}
    (h : ∀ node, w.arena.get? id = some node → w.WritesOut (f node) inner) :
    w.WritesOut (w.node id >>= f) inner := by
  intro out result final hrun
  obtain ⟨node, middle, hnode, hrest⟩ := Render.runOn_bind_eq_ok_iff.mp hrun
  obtain ⟨hok, rfl⟩ := Render.runOn_ofExcept_eq_ok_iff.mp hnode
  exact h node (Arena.node_eq_ok_iff.mp hok) hrest

/-- A choice writes a text out if both sides do. -/
theorem ite {c : Prop} [Decidable c] {yes no : Render α} (hyes : w.WritesOut yes inner)
    (hno : w.WritesOut no inner) : w.WritesOut (if c then yes else no) inner := by
  split
  · exact hyes
  · exact hno

/-- Among steps in a row it is enough that one of them writes it out. -/
theorem forM {items : List α} {f : α → Render PUnit} {item : α} (hm : item ∈ items)
    (hf : ∀ item, (f item).Appends) (h : w.WritesOut (f item) inner) :
    w.WritesOut (items.forM f) inner := by
  induction items with
  | nil => cases hm
  | cons head rest ih =>
    rcases List.mem_cons.mp hm with rfl | hm
    · exact first h fun _ => .forM hf
    · exact later (hf head) fun _ => ih hm

/-- The same for a fold, from every state. -/
theorem foldlM {σ : Type} {items : List α} {f : σ → α → Render σ} {item : α} (hm : item ∈ items)
    (hf : ∀ state item, (f state item).Appends) (h : ∀ state, w.WritesOut (f state item) inner)
    (start : σ) : w.WritesOut (items.foldlM f start) inner := by
  induction items generalizing start with
  | nil => cases hm
  | cons head rest ih =>
    rw [List.foldlM_cons]
    rcases List.mem_cons.mp hm with rfl | hm
    · exact first (h start) fun state => .foldlM hf state
    · exact later (hf start head) fun state => ih hm state

/-- What a body writes out is written out in the branch. -/
theorem guarded {condition : String} {body : Render Unit} (h : w.WritesOut body inner) :
    w.WritesOut (Render.guarded condition body) inner :=
  later (Render.appends_emit _) fun _ => first h fun _ => Render.appends_close

/-- What the first side of a choice writes out is in the choice. -/
theorem choice_yes {condition : String} {yes no : Render Unit} (h : w.WritesOut yes inner)
    (hno : no.Appends) : w.WritesOut (Render.choice condition yes no) inner :=
  later (Render.appends_emit _) fun _ => first h fun _ =>
    (Render.appends_emit _).bind fun _ => hno.bind fun _ => Render.appends_close

/-- So is what the second side writes out. -/
theorem choice_no {condition : String} {yes no : Render Unit} (hyes : yes.Appends)
    (h : w.WritesOut no inner) : w.WritesOut (Render.choice condition yes no) inner :=
  later (Render.appends_emit _) fun _ => later hyes fun _ =>
    later (Render.appends_emit _) fun _ => first h fun _ => Render.appends_close

/-- An expression whose text is written by the steps behind it. -/
theorem expression (hw : w.KeepsBlocks) {f : String → Render β}
    (h : ∀ text, Text.isCallText text = true → (f text).Mentions text)
    (hf : ∀ text, (f text).Appends) : w.WritesOut (w.expression id >>= f) (.expression id) := by
  intro out result final hrun
  obtain ⟨text, middle, htext, hrest⟩ := Render.runOn_bind_eq_ok_iff.mp hrun
  have htask : w.Performs (.expression id) out text middle := htext
  exact ⟨text, htask.within.widen List.prefix_rfl (hf text hrest), fun hcall =>
    (h text hcall hrest).widen ((keeps_expression id).isPrefix hw htext) List.prefix_rfl⟩

end WritesOut

/-! ### Steps of the walker -/

/-- An assigned node is in the line that assigns it. -/
theorem writesOut_assignNode (hw : w.KeepsBlocks) (target : String) (id : NodeId) :
    w.WritesOut (w.assignNode target id) (.expression id) :=
  .expression hw (fun text _ => Render.mentions_assign target text)
    fun text => (Keeps.assign target text).appends hw

/-- A node that is moved to a temporary is in the line that stores it. -/
theorem writesOut_materializeNode (hw : w.KeepsBlocks) (id : NodeId) :
    w.WritesOut (w.materializeNode id) (.expression id) :=
  .expression hw (fun text _ => Render.mentions_materialize text)
    fun text => (Keeps.materialize text).appends hw

/-- A reference is not written, but then its text is no call. -/
theorem writesOut_reference (hw : w.KeepsBlocks) (id : NodeId) :
    w.WritesOut (w.reference id) (.expression id) :=
  .expression hw (fun _ hcall => Render.mentions_toReference hcall)
    fun text => (keeps_toReference text).appends hw

/-- The lines of a statement are its own. -/
theorem writesOut_statement (id : NodeId) (slot : Option String) :
    w.WritesOut (w.statement id slot) (.statement id slot.isSome) := by
  intro out value final hrun
  have htask : w.Performs (.statement id slot.isSome) out "" final := ⟨rfl, slot, rfl, hrun⟩
  exact htask.puts_line_of_empty

/-- So are those of a pattern. -/
theorem writesOut_expand (id : NodeId) (target : String) :
    w.WritesOut (w.expand id target) (.pattern id) := by
  intro out value final hrun
  have htask : w.Performs (.pattern id) out "" final := ⟨rfl, target, hrun⟩
  exact htask.puts_line_of_empty

end Walker

end ClosureVtl
