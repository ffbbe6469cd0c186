/-
Module: ClosureVtl.Proofs.Render.FollowedRules
Purpose: The rules for calls, expressions, JSON text and statements respect every
  discipline, and so do the walkers of a program.
Main exports:
  Walker.Follows.renderExpression, Walker.Follows.renderFragment,
  Walker.Follows.renderStatement, Walker.Follows.renderRoot, Discipline.Admits,
  Integration.admits_ofStyle, Program.follows_walkerWithin
-/
import ClosureVtl.Proofs.Render.FollowedLists
import ClosureVtl.Render.Program

namespace ClosureVtl

/-!
The remaining rules, one lemma each, and then the walkers of a program level by level.
Expressions and JSON text respect disciplines that are not free as well: a list operation
asks for loops before it opens one.
-/

/-- The symbols of operators keep their operands apart. -/
theorem BinaryOp.isGlue_symbol {op : BinaryOp} {symbol : String}
    (h : op.form = .inline symbol ∨ op.form = .update symbol) :
    Text.isGlue (" " ++ symbol ++ " ") = true := by
  rcases h with h | h <;> cases op <;> cases h <;> decide

namespace Walker.Follows

open Discipline

variable {w : Walker} {D : Discipline} (hw : w.Follows D) {out : Output} {due : Set String}
  {target value : String}
include hw

/-! ### Calls -/

/-- The helpers put fixed pieces around their argument, or only behind it. -/
theorem helperCall? (base : NodeId) (method : String) (args : List NodeId)
    (hdue : D.Holds due out) :
    (w.helperCall? base method args).Leads out fun text final =>
      D.Holds due final ∧ ∀ found ∈ text, D.Knows final found := by
  have hnone : ∀ found ∈ (none : Option String), D.Knows out found := by rintro found ⟨⟩
  refine leads_node fun node _ => ?_
  split
  · exact .pure ⟨hdue, hnone⟩
  · next name _ =>
    split
    · exact .pure ⟨hdue, hnone⟩
    · next helper hhelper =>
      split
      · next arg =>
        refine .bind (hw.argument arg out due hdue) ?_
        rintro value final - ⟨hholds, hvalue⟩
        refine .pure ⟨hholds, ?_⟩
        rintro found ⟨⟩
        unfold globalHelper? at hhelper
        split at hhelper <;> cases hhelper
        · exact (Text.UsesOnly.front (by decide) hvalue).back (by decide)
        · exact (Text.UsesOnly.front (by decide) hvalue).back (by decide)
        · exact hvalue.back (by decide)
        · exact hvalue.back (by decide)
      · exact .fault _

/-- The caller has asked for loops already, so the discipline is free. -/
theorem listOperation (hfree : D.free) (operation : ListOperation) (c : ListCall)
    (args : List NodeId) (out : Output) : D.Says (w.listOperation operation c args) out := by
  cases operation with
  | map => exact hw.mapLoop hfree c out
  | forEach => exact hw.forEachLoop hfree c out
  | filter => exact hw.filterLoop hfree c out
  | reduce => exact hw.reduceLoop hfree c _ out

/-- The list is rendered first; its text may still be written when the argument is. -/
theorem push (base : NodeId) (args : List NodeId) (out : Output) : D.Says (w.push base args) out := by
  unfold Walker.push
  split
  · next arg =>
    refine (hw.expression base out).bind ?_
    intro list middle _ hlist
    refine says_node fun node _ => ?_
    split
    · next expr _ =>
      refine (hw.expression expr middle).bind ?_
      intro values final hfinal hvalues
      exact says_pure (((hlist.later hfinal).between (by decide) hvalues).back (by decide))
    · refine (hw.argument arg middle).bind ?_
      intro value final hfinal hvalue
      exact says_pure (((hlist.later hfinal).between (by decide) hvalue).back (by decide))
  · exact says_fault _

/-- The name of a method is taken from the closure, and it may be written at any time. -/
theorem plainMethod {base : NodeId} {name : String} (hname : ∀ out, D.Knows out name)
    (args : List NodeId) (out : Output) : D.Says (w.plainMethod base name args) out := by
  refine (hw.expression base out).bind ?_
  intro receiver middle _ hreceiver
  refine (hw.arguments args middle).bind ?_
  intro args final hfinal hargs
  have hmethod := (hreceiver.later hfinal).between (by decide : Text.isGlue "." = true) (hname final)
  exact says_pure ((hmethod.between (by decide) hargs).back (by decide))

/-- A list operation comes here from a dialect with loops only. -/
theorem method {base : NodeId} {name : String} (hname : ∀ out, D.Knows out name)
    (args : List NodeId) (out : Output) : D.Says (w.method base name args) out := by
  unfold Walker.method
  split
  · split
    · intro due hdue
      exact hw.requireLoops fun hfree => hw.listOperation hfree _ _ args out due hdue
    · exact says_fault _
  · refine says_ite (fun _ => hw.push base args out) fun _ due hdue => ?_
    refine .bind (hw.helperCall? base name args hdue) ?_
    rintro found middle - ⟨hholds, hfound⟩
    cases found with
    | none => exact hw.plainMethod hname args middle due hholds
    | some text => exact .pure ⟨hholds, hfound text rfl⟩

/-- A function is written with its address, as far as it is a function at all. -/
theorem namedFunction (callee : NodeId) (name : String) (args : List NodeId) (out : Output) :
    D.Says (w.namedFunction callee name args) out := by
  unfold Walker.namedFunction
  split
  · refine (hw.address callee out).bind ?_
    intro function middle _ hfunction
    refine (hw.arguments args middle).bind ?_
    intro args final hfinal hargs
    exact says_pure (((hfunction.later hfinal).between (by decide) hargs).back (by decide))
  · exact says_fault _

/-- A handler is as good as a rule: the walker respects the discipline through it too. -/
theorem call (id callee : NodeId) (args : List NodeId) (out : Output) :
    D.Says (w.call id callee args) out := by
  unfold Walker.call
  split
  · next integration _ => exact hw.integrate integration id out
  · refine says_node fun node hnode => ?_
    split
    · exact hw.method (hw.texts hnode (List.mem_singleton.mpr rfl)) args out
    · exact hw.namedFunction _ _ args out
    · exact hw.namedFunction _ _ args out
    · exact says_fault _

/-- A promise writes nothing of its own. -/
theorem promised (id expr : NodeId) (out : Output) : D.Says (w.promised id expr) out := by
  unfold Walker.promised
  split
  · exact says_fault _
  · exact hw.expression expr out

/-! ### Operators -/

omit hw in
/-- A step is written as an operation with one. -/
theorem knows_step (h : D.Knows out target) (step : Step) :
    D.Knows out s!"{target} {step.symbol} 1" := by
  cases step with
  | increment => exact (h.between (by decide) (knows_tail (by decide))).back (by decide)
  | decrement => exact (h.between (by decide) (knows_tail (by decide))).back (by decide)

/-- The operand is assigned to itself, so its text serves as target and in the value. -/
theorem stepped (operand : NodeId) (step : Step) (out : Output) :
    D.Says (w.stepped operand step) out := by
  refine (hw.expression operand out).bind ?_
  intro target middle _ htarget
  refine (keeps_assign htarget (knows_step htarget step)).saying ?_
  intro _ final hfinal
  exact says_pure (htarget.later hfinal)

/-- The value from before goes to a temporary of its own, which is stored at once. -/
theorem steppedAfter (operand : NodeId) (step : Step) (out : Output) :
    D.Says (w.steppedAfter operand step) out := by
  refine (hw.expression operand out).bind ?_
  intro target middle _ htarget
  refine (says_materialize htarget).bind ?_
  intro before stored hstored hbefore
  have htarget := htarget.later hstored
  refine (keeps_assign htarget (knows_step htarget step)).saying ?_
  intro _ final hfinal
  exact says_pure (hbefore.later hfinal)

omit hw in
/-- An operator stands between blanks, so it does not merge with its operands. -/
theorem knows_operation {op : BinaryOp} {symbol left right : String}
    (h : op.form = .inline symbol ∨ op.form = .update symbol) (hleft : D.Knows out left)
    (hright : D.Knows out right) : D.Knows out (left ++ " " ++ symbol ++ " " ++ right) := by
  have htext : left ++ " " ++ symbol ++ " " ++ right = left ++ (" " ++ symbol ++ " ") ++ right := by
    simp only [String.append_assoc]
  rw [htext]
  exact hleft.between (BinaryOp.isGlue_symbol h) hright

/-- One case for each form: what is stored and what is assigned is the text of an operand or a
temporary that holds it. -/
theorem binary (left : NodeId) (op : BinaryOp) (right : NodeId) (out : Output) :
    D.Says (w.binary left op right) out := by
  unfold Walker.binary
  split
  · refine (hw.expression left out).bind ?_
    intro target middle _ htarget
    refine (hw.assignNode htarget right).saying ?_
    intro _ final hfinal
    exact says_pure (htarget.later hfinal)
  · refine (hw.expression left out).bind ?_
    intro target middle _ htarget
    refine (keeps_ifNull htarget fun later hlater =>
      hw.assignNode (htarget.later hlater) right).saying ?_
    intro _ final hfinal
    exact says_pure (htarget.later hfinal)
  · refine (hw.materializeNode left out).bind ?_
    intro result middle _ hresult
    refine (keeps_ifNull hresult fun later hlater =>
      hw.assignNode (hresult.later hlater) right).saying ?_
    intro _ final hfinal
    exact says_pure (hresult.later hfinal)
  · refine (hw.argument left out).bind ?_
    intro key middle _ hkey
    refine (hw.expression right middle).bind ?_
    intro object final hfinal hobject
    exact says_pure ((hobject.between (by decide) (hkey.later hfinal)).back (by decide))
  · next symbol hform =>
    refine (hw.expression left out).bind ?_
    intro target middle _ htarget
    refine (hw.expression right middle).bind ?_
    intro value later hlater hvalue
    have htarget := htarget.later hlater
    refine (keeps_assign htarget (knows_operation (.inr hform) htarget hvalue)).saying ?_
    intro _ final hfinal
    exact says_pure (htarget.later hfinal)
  · next symbol hform =>
    refine (hw.expression left out).bind ?_
    intro left middle _ hleft
    refine (hw.expression right middle).bind ?_
    intro right final hfinal hright
    have hoperation := knows_operation (.inl hform) (hleft.later hfinal) hright
    have htext : "(" ++ (left ++ " " ++ symbol ++ " " ++ right) ++ ")" =
        s!"({left} {symbol} {right})" := by
      simp [toString, String.append_assoc]
    rw [← htext]
    exact says_pure ((Text.UsesOnly.front (by decide) hoperation).back (by decide))

/-- The sign or the negation stands in front of a text that may be written. -/
theorem unary (op : UnaryOp) (operand : NodeId) (out : Output) : D.Says (w.unary op operand) out := by
  cases op with
  | not =>
    refine (hw.expression operand out).bind ?_
    intro value final _ hvalue
    exact says_pure (Text.UsesOnly.front (by decide) hvalue)
  | neg =>
    refine (hw.expression operand out).bind ?_
    intro value final _ hvalue
    exact says_pure (Text.UsesOnly.front (by decide) hvalue)
  | plus => exact hw.expression operand out
  | step direction => exact hw.stepped operand direction out

/-- Whichever branch comes first stores the result, so that the other may write it. -/
theorem conditional (test yes no : NodeId) (out : Output) : D.Says (w.conditional test yes no) out := by
  intro due hdue
  refine .bind (hw.expression test out due hdue) ?_
  rintro condition middle - ⟨hholds, hcondition⟩
  refine .bind (leads_freshTemp hholds) ?_
  rintro result fresh hfresh ⟨hholds, hslot⟩
  refine .bind (stores_choice (hcondition.later hfresh) hholds ?_ ?_) ?_
  · intro opened hopened hholds
    exact hw.storeNode (hslot.later hopened) yes hholds
  · intro turned _ hresult
    exact hw.assignNode hresult no
  · rintro _ final - hstored
    exact .pure hstored

/-! ### Literals with parts -/

/-- An item is added to a list that is stored already. -/
theorem addItem {list : String} (hlist : D.Knows out list) (item : NodeId) :
    D.Keeps (w.addItem list item) out := by
  refine Discipline.keeps_node fun node _ => ?_
  split
  · next expr _ =>
    refine (hw.expression expr out).then ?_
    intro value middle hmiddle hvalue
    exact keeps_discard (((hlist.later hmiddle).between (by decide) hvalue).back (by decide))
  · refine (hw.argument item out).then ?_
    intro value middle hmiddle hvalue
    exact keeps_discard (((hlist.later hmiddle).between (by decide) hvalue).back (by decide))

/-- A list with a spread item is stored empty before the first item is added. -/
theorem arrayLiteral (items : List NodeId) (out : Output) : D.Says (w.arrayLiteral items) out := by
  refine says_ite (fun _ => ?_) fun _ => ?_
  · refine collecting ?_ out
    intro list middle hlist
    refine (keeps_forM fun item _ later hlater => hw.addItem (hlist.later hlater) item).saying ?_
    intro _ final hfinal
    exact says_pure (hlist.later hfinal)
  · refine (hw.arguments items out).bind ?_
    intro items final _ hitems
    exact says_pure ((Text.UsesOnly.front (by decide) hitems).back (by decide))

/-- A key is quoted, and quoting keeps the temporaries that a text mentions. -/
theorem propertyKey (name : NodeId) (out : Output) : D.Says (w.propertyKey name) out := by
  refine says_node fun node hnode => ?_
  split
  · exact says_pure (Text.UsesOnly.quote (hw.texts hnode (List.mem_singleton.mpr rfl) out))
  · exact says_pure (Text.UsesOnly.quote (hw.texts hnode (List.mem_singleton.mpr rfl) out))
  · next value =>
    refine (number value out).bind ?_
    intro digits final _ hdigits
    exact says_pure (Text.UsesOnly.quote hdigits)
  · next expr => exact hw.argument expr out
  · exact says_fault _

/-- The key, the value and the object are texts that may be written when the property is put. -/
theorem addProperty {object : String} (hobject : D.Knows out object) (property : NodeId) :
    D.Keeps (w.addProperty object property) out := by
  refine Discipline.keeps_node fun node _ => ?_
  split
  · next name value _ =>
    refine (hw.propertyKey name out).then ?_
    intro key middle hmiddle hkey
    refine (hw.argument value middle).then ?_
    intro value final hfinal hvalue
    have hput := ((hobject.later hmiddle).later hfinal).between
      (by decide : Text.isGlue ".put(" = true) (hkey.later hfinal)
    exact keeps_discard ((hput.between (by decide) hvalue).back (by decide))
  · next expr _ =>
    refine (hw.expression expr out).then ?_
    intro value middle hmiddle hvalue
    exact keeps_discard (((hobject.later hmiddle).between (by decide) hvalue).back (by decide))
  · exact keeps_fault _

/-- The object is stored empty, so it is not due while its properties are rendered. -/
theorem objectLiteral (properties : List NodeId) (out : Output) :
    D.Says (w.objectLiteral properties) out := by
  intro due hdue
  refine .bind (leads_freshTemp hdue) ?_
  rintro object fresh - ⟨hholds, hslot⟩
  refine .bind (stores_assign hslot (knows_tail (by decide)) hholds) ?_
  rintro _ stored - ⟨hholds, hobject⟩
  have hproperties : D.Keeps (properties.forM (w.addProperty object)) stored :=
    keeps_forM fun property _ later hlater => hw.addProperty (hobject.later hlater) property
  refine .bind (hproperties due hholds) ?_
  intro _ final hfinal hholds
  exact .pure ⟨hholds, hobject.later hfinal⟩

omit hw in
/-- A piece that holds a dollar sign goes to a temporary, which is stored at once. -/
theorem templateText {text : String} (h : D.Knows out text) : D.Says (Walker.templateText text) out := by
  refine says_ite (fun _ => ?_) fun _ => says_pure (Text.UsesOnly.escape h)
  refine (says_materialize (Text.UsesOnly.quote h)).bind ?_
  intro temp final _ htemp
  exact says_pure (Text.UsesOnly.interpolation htemp)

/-- Each span starts with an interpolation, so it may stand behind any text. -/
theorem templateSpan {span : TemplateSpan} (h : ∀ out, D.Knows out span.literal) (out : Output)
    (hdue : D.Holds due out) :
    (w.templateSpan span).Leads out fun text final =>
      D.Holds due final ∧ D.Knows final text ∧ ['$'] <+: text.toList := by
  refine .bind (hw.reference span.expr out due hdue) ?_
  rintro value middle - ⟨hholds, hvalue⟩
  refine .bind (templateText (h middle) due hholds) ?_
  rintro literal final hfinal ⟨hholds, hliteral⟩
  have hstarts : ['$'] <+: (Text.interpolation value ++ literal).toList := by
    unfold Text.interpolation
    repeat apply starts_append
    decide
  refine .pure ⟨hholds, ?_, hstarts⟩
  have hends : Text.Apart (Text.interpolation value).toList literal.toList := by
    unfold Text.interpolation
    dsimp only
    rw [String.toList_append]
    exact Text.apart_glue (by decide)
  exact (Text.usesOnly_append hends).mpr ⟨(Text.UsesOnly.interpolation hvalue).mono fun _ h =>
    D.allows_later hfinal h, hliteral⟩

omit hw in
/-- Parts that all begin with a dollar sign merge with nothing in front of them, and neither does
what they are joined to; the induction is on the parts from behind. -/
theorem knows_join {parts : List String} (h : ∀ part ∈ parts, D.Knows out part ∧ ['$'] <+: part.toList) :
    D.Knows out (String.join parts) ∧ ∀ front, Text.Apart front (String.join parts).toList := by
  induction parts with
  | nil => exact ⟨Text.usesOnly_of_not_mem (by simp), fun front => .inl (by simp)⟩
  | cons part rest ih =>
    obtain ⟨⟨hpart, hstarts⟩, hrest⟩ := List.forall_mem_cons.mp h
    obtain ⟨hjoined, hapart⟩ := ih hrest
    have hjoin : String.join (part :: rest) = part ++ String.join rest := by
      apply String.toList_injective
      simp [String.toList_join]
    rw [hjoin]
    exact ⟨(Text.usesOnly_append (hapart _)).mpr ⟨hpart, hjoined⟩,
      fun front => Text.apart_of_starts (starts_append hstarts _) (by decide)⟩

/-- The spans are joined behind the first piece and put in quotation marks. -/
theorem templateLiteral {head : String} {spans : List TemplateSpan}
    (hhead : ∀ out, D.Knows out head) (hspans : ∀ span ∈ spans, ∀ out, D.Knows out span.literal)
    (out : Output) : D.Says (w.templateLiteral head spans) out := by
  refine (templateText (hhead out)).bind ?_
  intro head middle _ hhead due hdue
  have hparts : (spans.mapM w.templateSpan).Leads middle fun parts final =>
      D.Holds due final ∧ ∀ part ∈ parts, D.Knows final part ∧ ['$'] <+: part.toList :=
    .mapM (fun hlater h => ⟨h.1.later hlater, h.2⟩)
      (fun span hm later _ hholds => hw.templateSpan (hspans span hm) later hholds) hdue
  refine .bind hparts ?_
  rintro parts final hfinal ⟨hholds, hparts⟩
  obtain ⟨hjoined, hapart⟩ := knows_join hparts
  have hfront : D.Knows final ("\"" ++ head) := Text.UsesOnly.front (by decide) (hhead.later hfinal)
  exact .pure ⟨hholds, ((Text.usesOnly_append (hapart _)).mpr ⟨hfront, hjoined⟩).back (by decide)⟩

/-! ### Expressions -/

/-- One case for each kind of node; the entry points stand for the nodes below. -/
theorem renderExpression (id : NodeId) (out : Output) : D.Says (w.renderExpression id) out := by
  refine says_node fun node hnode => ?_
  cases node with
  | null | undefined => exact says_pure (knows_tail (by decide))
  | boolean value => cases value <;> exact says_pure (knows_tail (by decide))
  | number value => exact number value out
  | string value =>
    exact says_pure (Text.UsesOnly.quote (hw.texts hnode (List.mem_singleton.mpr rfl) out))
  | array items => exact hw.arrayLiteral items out
  | object properties => exact hw.objectLiteral properties out
  | template head spans =>
    refine hw.templateLiteral (hw.texts hnode List.mem_cons_self) ?_ out
    intro span hm
    exact hw.texts hnode (List.mem_cons_of_mem _ (List.mem_map_of_mem hm))
  | identifier | reference => exact hw.address id out
  | member base name =>
    refine (hw.expression base out).bind ?_
    intro base final _ hbase
    exact says_pure (hbase.between (by decide) (hw.texts hnode (List.mem_singleton.mpr rfl) final))
  | element base key =>
    refine (hw.expression base out).bind ?_
    intro base middle _ hbase
    refine (hw.argument key middle).bind ?_
    intro key final hfinal hkey
    exact says_pure (((hbase.later hfinal).between (by decide) hkey).back (by decide))
  | binary left op right => exact hw.binary left op right out
  | unary op operand => exact hw.unary op operand out
  | stepAfter operand step => exact hw.steppedAfter operand step out
  | conditional test yes no => exact hw.conditional test yes no out
  | paren expr | argument expr | await expr => exact hw.expression expr out
  | promise expr => exact hw.promised id expr out
  | call callee args => exact hw.call id callee args out
  | _ => exact says_fault _

/-! ### JSON text -/

omit hw in
/-- A JSON string spells its own quotation marks and keeps the mentions. -/
theorem jsonText {text : String} (h : D.Knows out text) : D.Says (Walker.jsonText text) out := by
  refine says_ite (fun _ => ?_) fun _ => says_pure (Text.UsesOnly.jsonString h)
  refine (says_materialize (Text.UsesOnly.quote h)).bind ?_
  intro temp final _ htemp
  exact says_pure (Text.UsesOnly.escapedAtRuntime htemp)

/-- The test for the type of a value reads it more than once, so it is moved to a reference
first. -/
theorem primitive (expr : NodeId) (out : Output) : D.Says (w.primitive expr) out := by
  refine says_ite (fun _ => says_fault _) fun _ => ?_
  refine (hw.reference expr out).bind ?_
  intro value final _ hvalue
  exact says_pure (Text.UsesOnly.primitiveDispatch hvalue _)

/-- A key of the closure is a JSON string, and no expression is rendered for it. -/
theorem jsonKey (name : NodeId) (out : Output) : D.Says (w.jsonKey name) out := by
  refine says_node fun node hnode => ?_
  split
  · exact jsonText (hw.texts hnode (List.mem_singleton.mpr rfl) out)
  · exact jsonText (hw.texts hnode (List.mem_singleton.mpr rfl) out)
  · next value =>
    refine (number value out).bind ?_
    intro digits final _ hdigits
    exact says_pure (Text.UsesOnly.jsonString hdigits)
  · exact says_fault _

/-- A field is its key and the fragment of its value. -/
theorem jsonField (property : NodeId) (out : Output) : D.Says (w.jsonField property) out := by
  refine says_node fun node _ => ?_
  split
  · next name value _ =>
    refine (hw.jsonKey name out).bind ?_
    intro key middle _ hkey
    refine (hw.fragment value middle).bind ?_
    intro value final hfinal hvalue
    exact says_pure ((hkey.later hfinal).between (by decide) hvalue)
  · exact says_fault _

/-- An item of an array is its fragment, and a spread item is refused. -/
theorem jsonItem (item : NodeId) (out : Output) : D.Says (w.jsonItem item) out := by
  refine says_node fun node _ => ?_
  split
  · exact says_fault _
  · exact hw.fragment item out

/-- One case for each kind of node that has JSON of its own; all others are dispatched as
primitives. -/
theorem fragmentOf {expr : NodeId} {node : Node} (hnode : w.arena.get? expr = some node)
    (out : Output) : D.Says (w.fragmentOf expr node) out := by
  cases node with
  | null | undefined => exact says_pure (knows_tail (by decide))
  | boolean value => cases value <;> exact says_pure (knows_tail (by decide))
  | number value => exact number value out
  | string value => exact jsonText (hw.texts hnode (List.mem_singleton.mpr rfl) out)
  | object properties =>
    refine says_mapM (fun property _ middle _ => hw.jsonField property middle) ?_
    intro fields final hfields
    exact says_pure ((Text.UsesOnly.front (by decide)
      (Text.UsesOnly.intercalate (by decide) hfields)).back (by decide))
  | array items =>
    refine says_mapM (fun item _ middle _ => hw.jsonItem item middle) ?_
    intro values final hvalues
    exact says_pure ((Text.UsesOnly.front (by decide)
      (Text.UsesOnly.intercalate (by decide) hvalues)).back (by decide))
  | template head spans =>
    refine (hw.reference expr out).bind ?_
    intro value final _ hvalue
    exact says_pure (Text.UsesOnly.escapedAtRuntime hvalue)
  | await inner => exact hw.fragment inner out
  | promise inner =>
    exact says_ite (fun _ => hw.expression expr out) fun _ => hw.fragment inner out
  | call callee args =>
    exact says_ite (fun _ => hw.expression expr out) fun _ => hw.primitive expr out
  | _ => exact hw.primitive expr out

/-- A step by index or by key is spelled within brackets, and it begins with one. -/
theorem knows_pathIndex? {key : NodeId} {step : String} (h : w.arena.pathIndex? key = some step) :
    D.Knows out step ∧ ['['] <+: step.toList := by
  unfold Arena.pathIndex? at h
  split at h
  · next value _ =>
    split at h
    · obtain ⟨digits, hdigits, rfl⟩ := Option.map_eq_some_iff.mp h
      have hliteral : value.literal = .ok digits := by
        cases hvalue : value.literal <;> rw [hvalue] at hdigits <;> cases hdigits
        rfl
      refine ⟨(Text.UsesOnly.front (by decide) (Text.usesOnly_of_literal hliteral)).back (by decide), ?_⟩
      repeat apply starts_append
      decide
    · cases h
  · next name hname =>
    cases h
    refine ⟨Text.UsesOnly.pathKey (hw.texts hname (List.mem_singleton.mpr rfl) out), ?_⟩
    unfold Text.pathKey
    repeat apply starts_append
    decide
  · cases h

/-- The steps of a path are spelled with names and numbers of the closure. -/
theorem knows_jsonPath {expr : NodeId} {path : String} (h : w.arena.jsonPath expr = some path) :
    D.Knows out path := by
  unfold Arena.jsonPath at h
  generalize w.arena.size + 1 = n at h
  induction n generalizing expr path with
  | zero => cases h
  | succ n ih =>
    rw [Arena.jsonPathWithin] at h
    split at h
    · split at h
      · cases h
        exact knows_tail (by decide)
      · cases h
    · next base name hnode =>
      obtain ⟨front, hfront, rfl⟩ := Option.map_eq_some_iff.mp h
      have hname := hw.texts hnode (List.mem_singleton.mpr rfl) out
      have hapart : Text.Apart front.toList (Text.pathStep name).toList := by
        unfold Text.pathStep
        split
        · exact Text.apart_of_starts (starts_append (by decide : ['.'] <+: ".".toList) _) (by decide)
        · refine Text.apart_of_starts (starts_append ?_ _) (by decide : '['.isDigit = false)
          exact starts_append (by decide) _
      exact (Text.usesOnly_append hapart).mpr ⟨ih hfront, Text.UsesOnly.pathStep hname⟩
    · next base key hnode =>
      obtain ⟨front, hfront, h⟩ := Option.bind_eq_some_iff.mp h
      obtain ⟨step, hstep, rfl⟩ := Option.map_eq_some_iff.mp h
      obtain ⟨hknown, hstarts⟩ := hw.knows_pathIndex? hstep
      exact (Text.usesOnly_append (Text.apart_of_starts hstarts (by decide))).mpr
        ⟨ih hfront, hknown⟩
    · cases h

/-- A path into the payload is written where it stands; nothing is stored for it. -/
theorem renderFragment (expr : NodeId) (out : Output) : D.Says (w.renderFragment expr) out := by
  unfold Walker.renderFragment
  dsimp only
  split
  · next path hpath => exact says_pure (Text.UsesOnly.inputJson (hw.knows_jsonPath hpath))
  · exact says_node fun node hnode => hw.fragmentOf hnode out

/-! ### Statements -/

variable (hfree : D.free)
include hfree

/-- A return writes a line that not every discipline permits. -/
theorem returned (value : Option NodeId) (out : Output) : D.Keeps (w.returned value) out := by
  unfold Walker.returned
  split
  · next expr _ =>
    refine (hw.expression expr out).then ?_
    intro text middle _ htext
    exact keeps_emit (D.permits_of_free hfree _)
      ((Text.UsesOnly.front (by decide) htext).back (by decide))
  · exact keeps_emit (D.permits_of_free hfree _) (knows_tail (by decide))
  · next expr _ =>
    refine (hw.fragment expr out).then ?_
    intro text middle _ htext
    exact keeps_emit (D.permits_of_free hfree _) htext
  · exact keeps_emit (D.permits_of_free hfree _) (knows_tail (by decide))

/-- The item of a loop is the address of a name, which may be written, or a new temporary, which
the header stores. -/
theorem loop (target : NodeId) {list : String} {body : Render Unit} (hlist : D.Knows out list)
    (hbody : ∀ middle, out.Extends middle → D.Keeps body middle) :
    D.Keeps (w.loop target list body) out := by
  have hrest : ∀ middle, out.Extends middle → D.Keeps (do
      body
      Render.close) middle :=
    fun middle hmiddle => (hbody middle hmiddle).bind fun _ _ _ => keeps_close
  have hpattern : ∀ due, D.Holds due out → Render.Leads (do
      let item ← Render.freshTemp
      Render.openLoop item list
      w.expand target item
      body
      Render.close) out fun _ final => D.Holds due final := by
    intro due hdue
    refine .bind (leads_freshTemp hdue) ?_
    rintro item fresh hfresh ⟨hholds, hslot⟩
    refine .bind (stores_openLoop hfree hslot (hlist.later hfresh) hholds) ?_
    rintro _ opened hopened ⟨hholds, hitem⟩
    refine .bind (hw.expand hfree target item opened hitem due hholds) ?_
    intro _ bound hbound hholds
    exact hrest bound ((hfresh.trans hopened).trans hbound) due hholds
  intro due hdue
  refine hw.requireLoops fun _ => ?_
  refine leads_node fun node _ => ?_
  split
  · refine .bind (hw.address target out due hdue) ?_
    rintro item middle hmiddle ⟨hholds, hitem⟩
    have hholds := D.weaken hholds hitem
    refine .bind (stores_openLoop hfree (.inl hitem) (hlist.later hmiddle) hholds) ?_
    rintro _ opened hopened ⟨hholds, -⟩
    exact hrest opened (hmiddle.trans hopened) due hholds
  · exact hpattern due hdue
  · exact hpattern due hdue
  · have hfault : ∀ cause, (Render.breach cause : Render Unit).Leads out fun _ _ => False :=
      fun _ => .fault _
    exact (hfault _).bind fun _ _ _ h => h.elim

/-- The slot for returns may be written before the loop is opened, and so it may be within. -/
theorem loopStatement {kind : String} {view : String → String}
    (hview : ∀ out list, D.Knows out list → D.Knows out (view list)) (binding iterable body : NodeId)
    {slot : Option String} (hslot : ∀ target ∈ slot, D.Knows out target) :
    D.Keeps (w.loopStatement kind view binding iterable body slot) out := by
  intro due hdue
  refine hw.requireLoops fun _ => ?_
  refine .bind (hw.expression iterable out due hdue) ?_
  rintro list middle hmiddle ⟨hholds, hlist⟩
  have htarget : D.Keeps (w.loopTarget binding) middle := by
    refine Discipline.keeps_node fun node _ => ?_
    split
    · exact keeps_pure _
    · exact keeps_pure _
  refine .bind (htarget due hholds) ?_
  intro target found hfound hholds
  refine hw.loop hfree target (hview found list (hlist.later hfound)) ?_ due hholds
  intro later hlater
  exact hw.statement hfree body slot later fun target hm =>
    (((hslot target hm).later hmiddle).later hfound).later hlater

omit hfree in
/-- What is left of a statement that is no call writes nothing. -/
theorem expressionStatement (expr : NodeId) (out : Output) :
    D.Keeps (w.expressionStatement expr) out := by
  refine Discipline.keeps_node fun node _ => ?_
  split
  · next operand step _ =>
    refine (hw.stepped operand step out).then ?_
    intro _ final _ _
    exact keeps_pure ()
  · refine (hw.expression _ out).then ?_
    intro value middle _ hvalue
    exact keeps_ite (fun _ => keeps_discard hvalue) fun _ => keeps_pure ()

/-- A name is assigned and a pattern is expanded from a reference. -/
theorem declare (name : NodeId) (value : Option NodeId) (out : Output) :
    D.Keeps (w.declare name value) out := by
  have hpattern : ∀ value, D.Keeps (do
      let source ← w.reference value
      w.expand name source) out := by
    intro value
    refine (hw.reference value out).then ?_
    intro source middle _ hsource
    exact hw.expand hfree name source middle hsource
  refine Discipline.keeps_node fun node _ => ?_
  split
  · refine (hw.address name out).then ?_
    intro target middle _ htarget
    cases value with
    | none => exact keeps_assign htarget (knows_tail (by decide))
    | some value => exact hw.assignNode htarget value
  · cases value with
    | none => exact keeps_fault _
    | some value => exact hpattern value
  · cases value with
    | none => exact keeps_fault _
    | some value => exact hpattern value
  · exact keeps_fault _

/-- The slot may be written in front of the branch, and so it may be on both sides. -/
theorem branch (test yes : NodeId) (no : Option NodeId) {slot : Option String}
    (hslot : ∀ target ∈ slot, D.Knows out target) : D.Keeps (w.branch test yes no slot) out := by
  refine (hw.expression test out).then ?_
  intro condition middle hmiddle hcondition
  have hside : ∀ id later, middle.Extends later → D.Keeps (w.statement id slot) later :=
    fun id later hlater => hw.statement hfree id slot later fun target hm =>
      ((hslot target hm).later hmiddle).later hlater
  cases no with
  | none => exact keeps_guarded hcondition (hside yes)
  | some no => exact keeps_choice hcondition (hside yes) (hside no)

/-- A return within a callback stores its value in the slot, which may be written already. -/
theorem returnTo (expr : Option NodeId) {slot : Option String}
    (hslot : ∀ target ∈ slot, D.Knows out target) : D.Keeps (w.returnTo expr slot) out := by
  cases slot with
  | none => exact hw.returned hfree expr out
  | some slot =>
    have hslot := hslot slot rfl
    cases expr with
    | none => exact keeps_assign hslot (knows_tail (by decide))
    | some expr => exact hw.assignNode hslot expr

/-- One case for each kind of statement; the entry points stand for the statements within. -/
theorem renderStatement (id : NodeId) {slot : Option String}
    (hslot : ∀ target ∈ slot, D.Knows out target) : D.Keeps (w.renderStatement id slot) out := by
  refine Discipline.keeps_node fun node _ => ?_
  cases node with
  | block statements =>
    refine keeps_forM fun statement _ middle hmiddle => ?_
    exact hw.statement hfree statement slot middle fun target hm => (hslot target hm).later hmiddle
  | exprStatement expr => exact hw.expressionStatement expr out
  | declaration kind name value => exact hw.declare hfree name value out
  | branch test yes no => exact hw.branch hfree test yes no hslot
  | forOf binding iterable body =>
    exact hw.loopStatement hfree (fun _ _ h => h) binding iterable body hslot
  | forIn binding iterable body =>
    exact hw.loopStatement hfree (fun _ _ h => h.back (by decide)) binding iterable body hslot
  | returnValue expr => exact hw.returnTo hfree expr hslot
  | breakLoop =>
    intro due hdue
    refine hw.requireLoops fun hfree => ?_
    exact keeps_emit (D.permits_of_free hfree _) (knows_tail (by decide)) due hdue
  | _ => exact keeps_fault _

/-! ### Closures -/

omit hw hfree in
/-- The check writes nothing. -/
theorem checkRootParameter (parameter : NodeId) (out : Output) :
    D.Keeps (w.checkRootParameter parameter) out := by
  refine Discipline.keeps_node fun node _ => ?_
  split
  · refine Discipline.keeps_node fun node _ => ?_
    split
    · exact keeps_pure ()
    · exact keeps_fault _
  · exact keeps_pure ()

/-- The body is rendered without a slot, so nothing is due there. -/
theorem renderRoot (root : NodeId) (out : Output) : D.Keeps (w.renderRoot root) out := by
  have hstatement : ∀ id out, D.Keeps (w.statement id none) out :=
    fun id out => hw.statement hfree id none out fun target hm => by cases hm
  refine Discipline.keeps_node fun node _ => ?_
  split
  · next parameters body _ =>
    refine (keeps_forM fun parameter _ middle _ => checkRootParameter parameter middle).bind ?_
    intro _ middle _
    refine Discipline.keeps_node fun node _ => ?_
    exact keeps_ite (fun _ => hstatement body middle) fun _ => hw.returned hfree (some body) middle
  · exact keeps_ite (fun _ => hstatement root out) fun _ => hw.returned hfree (some root) out

end Walker.Follows

/-! ### Handlers -/

/-- Whether an integration respects a discipline wherever the walker that it works with does.
Resolvers may open loops, so the discipline is free there. -/
structure Discipline.Admits (D : Discipline) (integration : Integration) : Prop where
  resolver : D.free → ∀ w site out, w.Follows D → D.Says (integration.resolver w site) out
  mapping : ∀ w site out, w.Follows D → D.Says (integration.mapping w site) out

namespace Integration

open Discipline

variable {D : Discipline} {w : Walker} {out : Output} {kind : String}

/-- The request is one line with the payload in it. -/
theorem says_stashRequest (hfree : D.free) (hw : w.Follows D) (hkind : ∀ out, D.Knows out kind)
    (site : CallSite) : D.Says (stashRequest kind w site) out := by
  have hline : ∀ payload out, D.Knows out payload → D.Says (do
      Render.emit ("#set($context.stash.request = \x7b\"function\": \"" ++ kind
        ++ "\", \"payload\": " ++ payload ++ "\x7d)")
      return "$context.prev.result") out := by
    intro payload out hpayload
    have hrequest := (Text.UsesOnly.front
      (by decide : Text.isGlue "#set($context.stash.request = \x7b\"function\": \"" = true)
        (hkind out)).between (by decide : Text.isGlue "\", \"payload\": " = true) hpayload
    refine (keeps_emit (D.permits_of_free hfree _) (hrequest.back (by decide))).saying ?_
    intro _ final _
    exact says_pure (knows_tail (by decide))
  unfold stashRequest
  split
  · exact hline _ out (knows_tail (by decide))
  · next first _ _ =>
    refine (hw.argument first out).bind ?_
    intro payload middle _ hpayload
    exact hline payload middle hpayload

/-- The request is a text in which the payload stands as JSON. -/
theorem says_jsonRequest (hw : w.Follows D) (hkind : ∀ out, D.Knows out kind) (site : CallSite) :
    D.Says (jsonRequest kind w site) out := by
  have htext : ∀ payload out, D.Knows out payload → D.Knows out ("\x7b\"function\":\"" ++ kind
      ++ "\",\"payload\":" ++ payload ++ "\x7d") := by
    intro payload out hpayload
    exact ((Text.UsesOnly.front (by decide) (hkind out)).between (by decide) hpayload).back
      (by decide)
  unfold jsonRequest
  split
  · exact says_pure (htext _ out (knows_tail (by decide)))
  · next first _ _ =>
    refine (hw.fragment first out).bind ?_
    intro payload final _ hpayload
    exact says_pure (htext payload final hpayload)

/-- An invocation is a text that takes the payload as it stands. -/
theorem says_invocation (hw : w.Follows D) (hkind : ∀ out, D.Knows out kind) (site : CallSite) :
    D.Says (invocation kind w site) out := by
  refine says_mapM (fun id _ middle _ => hw.argument id middle) ?_
  intro args final hargs
  have hall : ∀ text ∈ Text.quote kind :: args, D.Knows final text :=
    List.forall_mem_cons.mpr ⟨Text.UsesOnly.quote (hkind final), hargs⟩
  exact says_pure ((Text.UsesOnly.front (by decide)
    (Text.UsesOnly.intercalate (by decide) hall)).back (by decide))

/-- The same in a mapping template, with the payload as JSON. -/
theorem says_jsonInvocation (hw : w.Follows D) (hkind : ∀ out, D.Knows out kind)
    (site : CallSite) : D.Says (jsonInvocation kind w site) out := by
  refine says_mapM (fun id _ middle _ => hw.fragment id middle) ?_
  intro args final hargs
  exact says_pure (((Text.UsesOnly.front (by decide) (hkind final)).between (by decide)
    (Text.UsesOnly.intercalate (by decide) hargs)).back (by decide))

/-- The common styles respect every discipline under which the kind may be written. -/
theorem admits_ofStyle (hkind : ∀ out, D.Knows out kind) (style : Style) :
    D.Admits (ofStyle kind style) where
  resolver hfree w site out hw := by
    cases style with
    | invoke | appsyncOnly => exact says_stashRequest hfree hw hkind site
    | inline => exact says_invocation hw hkind site
    | apigatewayOnly | none => exact says_fault _
  mapping w site out hw := by
    cases style with
    | invoke | apigatewayOnly => exact says_jsonRequest hw hkind site
    | inline => exact says_jsonInvocation hw hkind site
    | appsyncOnly | none => exact says_fault _

end Integration

namespace Walker

open Discipline

variable {w : Walker} {D : Discipline} {table : Array Integration}

/-- The integration is looked up first and recorded before its handler runs; recording leaves
names and lines alone. -/
theorem Follows.dispatch (hw : w.Follows D) (ht : ∀ integration ∈ table, D.Admits integration)
    (id : IntegrationId) (call : NodeId) (out : Output) : D.Says (w.dispatch table id call) out := by
  unfold Walker.dispatch
  split
  · exact says_fault _
  · next found hfound =>
    have hadmits := ht found (Array.mem_of_getElem? hfound)
    intro due hdue
    refine .get ?_
    split
    · exact .fault _
    · have hrecord : (Render.recordIntegration id).Leads out fun _ final => D.Holds due final := by
        intro _ final hrun
        rw [Render.runOn_recordIntegration] at hrun
        cases hrun
        exact ⟨⟨List.prefix_rfl, Nat.le_refl _⟩, D.record id hdue⟩
      refine .bind hrecord ?_
      intro _ recorded _ hholds
      refine .bindOfExcept fun site _ => ?_
      cases hdialect : w.dialect with
      | resolver config =>
        have hfree := hw.loops (by rw [hdialect]; rfl)
        exact hadmits.resolver hfree w site recorded hw due hholds
      | mapping direction config => exact hadmits.mapping w site recorded hw due hholds

/-! ### Level by level -/

/-- A walker without levels left does nothing but report that. -/
theorem follows_exhausted {arena : Arena} {dialect : Dialect}
    (loops : dialect.supportsLoops = true → D.free)
    (texts : ∀ {id node text}, arena.get? id = some node → text ∈ node.texts →
      ∀ out, D.Knows out text) : (Walker.exhausted arena dialect).Follows D where
  loops := loops
  texts := texts
  expression _ _ := says_fault _
  fragment _ _ := says_fault _
  integrate _ _ _ := says_fault _
  statement _ _ _ _ _ := keeps_fault _
  expand _ _ _ _ _ := keeps_fault _

/-- One level up, every entry point is the rule for it, and the rules respect the discipline. -/
theorem Follows.above (hw : w.Follows D) (ht : ∀ integration ∈ table, D.Admits integration) :
    (w.above table).Follows D where
  loops := hw.loops
  texts := hw.texts
  expression := hw.renderExpression
  fragment := hw.renderFragment
  integrate := hw.dispatch ht
  statement hfree id _ _ hslot := hw.renderStatement hfree id hslot
  expand hfree pattern _ _ htarget := hw.expandPattern hfree pattern htarget

end Walker

/-- All walkers of a program respect a discipline under which the texts of its nodes may be
written and that its integrations respect. -/
theorem Program.follows_walkerWithin {p : Program} {dialect : Dialect} {D : Discipline}
    (loops : dialect.supportsLoops = true → D.free)
    (texts : ∀ {id node text}, p.arena.get? id = some node → text ∈ node.texts →
      ∀ out, D.Knows out text)
    (ht : ∀ integration ∈ p.integrations, D.Admits integration) (n : Nat) :
    (p.walkerWithin dialect n).Follows D := by
  induction n with
  | zero => exact Walker.follows_exhausted loops texts
  | succ n ih => exact ih.above ht

end ClosureVtl
