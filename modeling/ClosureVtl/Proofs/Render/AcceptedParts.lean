/-
Module: ClosureVtl.Proofs.Render.AcceptedParts
Purpose: What patterns, list operations and calls are rendered well has nothing unsupported but in
  parts that are not read.
Main exports:
  Walker.Cleans, Walker.clean_of_expandPattern, Walker.clean_of_listOperation, Walker.clean_of_call
-/
import ClosureVtl.Proofs.Closure.Subtree
import ClosureVtl.Proofs.Render.UnreadParts

namespace ClosureVtl

/-!
A node of an unsupported kind has no rule, so a run that comes to one faults.  What a run that
ends well comes to is therefore clean: rule by rule, each part is handed to the walker, which
renders it well one level below, or is a name without parts, or is unread.

Here are the rules that leave parts unread, those for patterns and for list operations, and the
rules for the calls that lead to them.
-/

namespace Walker

/-- Whether what the entry points of a walker render well is clean. -/
structure Cleans (w : Walker) (root : NodeId) : Prop where
  expression : ∀ {id}, (w.expression id).Succeeds → w.arena.Clean root id
  statement : ∀ {id slot}, (w.statement id slot).Succeeds → w.arena.Clean root id
  expand : ∀ {pattern target}, (w.expand pattern target).Succeeds → w.arena.Clean root pattern
  integrate : ∀ {called call}, w.arena.isCallOf called call = true →
    (w.integrate called call).Succeeds → w.arena.Clean root call

variable {w : Walker} {root id name receiver : NodeId} {node : Node} {value target item : String}
  {key default : Option NodeId} {ids args : List NodeId}

section

variable (hw : w.Cleans root)

include hw

/-! ### Small steps -/

/-- An assigned node was rendered well. -/
theorem clean_of_assignNode (h : (w.assignNode target id).Succeeds) : w.arena.Clean root id :=
  hw.expression h.first

/-- So was one that is moved to a temporary. -/
theorem clean_of_materializeNode (h : (w.materializeNode id).Succeeds) : w.arena.Clean root id :=
  hw.expression h.first

/-- So was one that a reference is made of. -/
theorem clean_of_reference (h : (w.reference id).Succeeds) : w.arena.Clean root id :=
  hw.expression h.first

/-- An argument is clean if the expression in it is. -/
theorem clean_of_argument (h : (w.argument id).Succeeds) : w.arena.Clean root id :=
  .of_argumentExpr (hw.expression h.first)

/-- All arguments of a call were rendered well. -/
theorem clean_of_arguments (h : (w.arguments ids).Succeeds) : ∀ id ∈ ids, w.arena.Clean root id :=
  fun id hm => clean_of_argument hw (h.first.mapM id hm)

/-- A default is rendered behind a test, but it is rendered. -/
theorem clean_of_ifNull (h : (Render.ifNull value (w.assignNode target id)).Succeeds) :
    w.arena.Clean root id :=
  clean_of_assignNode hw h.guarded

/-! ### Patterns -/

/-- A default that is there was rendered well. -/
theorem clean_of_withDefault (h : (w.withDefault value default).Succeeds) :
    ∀ part ∈ default, w.arena.Clean root part := by
  rintro part ⟨⟩
  obtain ⟨slot, -, h⟩ := h.bind
  exact clean_of_ifNull hw h.first

/-- A name has no parts, and a pattern was expanded well. -/
theorem clean_of_bindElement (h : (w.bindElement name value default).Succeeds) :
    w.arena.Clean root name ∧ ∀ part ∈ default, w.arena.Clean root part := by
  obtain ⟨value', hvalue, h⟩ := h.bind
  obtain ⟨node, hn, h⟩ := exists_node h
  refine ⟨?_, clean_of_withDefault hw hvalue.succeeds⟩
  cases node with
  | identifier text => exact .of_leaf hn rfl rfl
  | objectPattern elements | arrayPattern elements =>
    obtain ⟨source, -, h⟩ := h.bind
    exact hw.expand h
  | _ => exact absurd h Render.not_succeeds_fault

/-- A plain key has no parts, and a computed one was rendered well. -/
theorem clean_of_propertyAccess (h : (w.propertyAccess target name key).Succeeds) :
    ∀ part ∈ key, w.arena.Clean root part := by
  rintro part ⟨⟩
  obtain ⟨node, hn, h⟩ := exists_node h
  cases node with
  | identifier text | string text | number value => exact .of_leaf hn rfl rfl
  | computedKey expr =>
    exact .of_children hn rfl (by simpa [Node.children] using clean_of_reference hw h.first)
  | _ => exact absurd h Render.not_succeeds_fault

omit hw in
/-- A rest element is clean if it is bound, or if another one follows it. -/
theorem clean_of_restName? {pattern element : NodeId} (hn : w.arena.get? pattern = some node)
    (hpattern : node.isPattern = true) (hm : element ∈ node.children)
    (hrest : w.arena.restName? element = some name)
    (hlast : ∀ bound, w.arena.lastRest? node.children = some bound → w.arena.Clean root bound) :
    w.arena.Clean root element := by
  obtain ⟨key, default, hbinding⟩ := Arena.restName?_eq_some_iff.mp hrest
  refine .of_parts hbinding rfl fun part hpart => ?_
  have hparts : part = name ∨ part ∈ key.toList ++ default.toList := by
    simp only [Node.children, List.mem_append, List.mem_cons] at hpart ⊢
    tauto
  rcases hparts with rfl | hparts
  · by_cases hbound : w.arena.lastRest? node.children = some part
    · exact .inl (hlast part hbound)
    · exact .inr (.earlierRest hn hpattern hm hrest hbound)
  · exact .inr (.restPart hbinding hparts)

/-- An element other than the rest is bound at once; of rest elements the last one is kept. -/
theorem clean_of_bindObjectElement {state state' : List String × Option NodeId} {element : NodeId}
    (h : (w.bindObjectElement target state element).Yields state') :
    (w.arena.restName? element = none → w.arena.Clean root element) ∧
      state'.2 = (w.arena.restName? element).or state.2 := by
  obtain ⟨node, hn, h⟩ := h.of_bind
  rw [yields_node_iff] at hn
  unfold Arena.restName?
  cases node with
  | binding name key default rest =>
    cases rest with
    | true =>
      cases Render.yields_pure_iff.mp h
      simp [hn]
    | false =>
      obtain ⟨access, haccess, h⟩ := h.of_bind
      obtain ⟨_, hbound, h⟩ := h.of_bind
      cases Render.yields_pure_iff.mp h
      have hkey := clean_of_propertyAccess hw haccess.succeeds
      obtain ⟨hname, hdefault⟩ := clean_of_bindElement hw hbound.succeeds
      refine ⟨fun _ => .of_children hn rfl fun part hm => ?_, by simp [hn]⟩
      simp only [Node.children, List.mem_append, List.mem_cons, Option.mem_toList] at hm
      rcases hm with hm | rfl | hm
      · exact hkey part hm
      · exact hname
      · exact hdefault part hm
  | _ => exact absurd h.succeeds Render.not_succeeds_fault

/-- The same for arrays, where the keys of elements are not read. -/
theorem clean_of_bindArrayElement {pattern : NodeId} {elements : List NodeId}
    (hpattern : w.arena.get? pattern = some (.arrayPattern elements))
    {state state' : Option (Nat × NodeId)} {element : NodeId × Nat} (hm : element.1 ∈ elements)
    (h : (w.bindArrayElement target state element).Yields state') :
    (w.arena.restName? element.1 = none → w.arena.Clean root element.1) ∧
      state'.map Prod.snd = (w.arena.restName? element.1).or (state.map Prod.snd) := by
  obtain ⟨node, hn, h⟩ := h.of_bind
  rw [yields_node_iff] at hn
  unfold Arena.restName?
  cases node with
  | hole =>
    cases Render.yields_pure_iff.mp h
    exact ⟨fun _ => .of_leaf hn rfl rfl, by simp [hn]⟩
  | binding name key default rest =>
    cases rest with
    | true =>
      cases Render.yields_pure_iff.mp h
      simp [hn]
    | false =>
      obtain ⟨_, hbound, h⟩ := h.of_bind
      cases Render.yields_pure_iff.mp h
      obtain ⟨hname, hdefault⟩ := clean_of_bindElement hw hbound.succeeds
      refine ⟨fun _ => .of_parts hn rfl fun part hpart => ?_, by simp [hn]⟩
      simp only [Node.children, List.mem_append, List.mem_cons, Option.mem_toList] at hpart
      rcases hpart with rfl | rfl | hpart
      · exact .inr (.arrayKey hpattern hm hn)
      · exact .inl hname
      · exact .inl (hdefault part hpart)
  | _ => exact absurd h.succeeds Render.not_succeeds_fault

/-- All elements of a pattern are clean: the fixed ones are bound one after the other, and the
last rest element behind them. -/
theorem clean_of_expandPattern (h : (w.expandPattern id target).Succeeds) :
    w.arena.Clean root id := by
  obtain ⟨node, hn, h⟩ := exists_node h
  -- both forms of patterns need the fixed elements and the last rest element; the others are no
  -- parts of what is accepted
  have hall : ∀ {elements}, node.children = elements → node.isPattern = true →
      node.isUnsupported = false →
      (∀ element ∈ elements, w.arena.restName? element = none → w.arena.Clean root element) →
      (∀ bound, w.arena.lastRest? elements = some bound → w.arena.Clean root bound) →
      w.arena.Clean root id := by
    rintro _ rfl hpattern hsupported hfixed hlast
    refine .of_children hn hsupported fun element hm => ?_
    cases hrest : w.arena.restName? element with
    | none => exact hfixed element hm hrest
    | some name => exact clean_of_restName? hn hpattern hm hrest hlast
  cases node with
  | objectPattern elements =>
    obtain ⟨⟨keys, rest⟩, hfold, h⟩ := h.bind
    obtain ⟨hfixed, hrest⟩ := Render.Yields.foldlM _ Prod.snd w.arena.restName?
      (fun _ _ _ _ => clean_of_bindObjectElement hw) hfold
    refine @hall elements rfl rfl rfl hfixed fun bound hbound => ?_
    obtain rfl : rest = some bound := by
      rw [← Arena.lastRest?, hbound] at hrest
      exact hrest
    obtain ⟨remainder, -, h⟩ := h.bind
    exact (clean_of_bindElement hw h).1
  | arrayPattern elements =>
    obtain ⟨rest, hfold, h⟩ := h.bind
    have hmem : ∀ {element : NodeId × Nat}, element ∈ elements.zipIdx → element.1 ∈ elements :=
      fun hm => List.fst_mem_of_mem_zipIdx hm
    obtain ⟨hfixed, hrest⟩ := Render.Yields.foldlM _ (Option.map Prod.snd)
      (fun element => w.arena.restName? element.1)
      (fun _ _ _ hm => clean_of_bindArrayElement hw hn (hmem hm)) hfold
    refine @hall elements rfl rfl rfl (fun element hm => ?_) fun bound hbound => ?_
    · rw [← List.zipIdx_map_fst 0 elements] at hm
      obtain ⟨pair, hpair, rfl⟩ := List.mem_map.mp hm
      exact hfixed pair hpair
    · have hsame : elements.zipIdx.filterMap (fun element => w.arena.restName? element.1) =
          elements.filterMap w.arena.restName? := by
        conv_rhs => rw [← List.zipIdx_map_fst 0 elements, List.filterMap_map]
        rfl
      rw [hsame, ← Arena.lastRest?, hbound] at hrest
      cases rest with
      | none => cases hrest
      | some found =>
        cases hrest
        exact (clean_of_bindElement hw h).1
  | _ => exact absurd h Render.not_succeeds_fault

/-- A parameter that is bound is clean with its default, as a name and as a pattern. -/
theorem clean_of_bindParameter {source : String} (h : (w.bindParameter id source).Succeeds) :
    w.arena.Clean root id := by
  obtain ⟨node, hn, h⟩ := exists_node h
  have hparts : ∀ {name default}, node = .parameter name default → w.arena.Clean root name →
      (∀ part ∈ default, w.arena.Clean root part) → w.arena.Clean root id := by
    rintro name default rfl hname hdefault
    refine .of_children hn rfl ?_
    simpa [Node.children] using And.intro hname hdefault
  cases node with
  | parameter name default =>
    obtain ⟨target, htarget, h⟩ := exists_node h
    have hbound : (w.bindElement name source default).Succeeds → w.arena.Clean root id :=
      fun hbound => hparts rfl (clean_of_bindElement hw hbound).1 (clean_of_bindElement hw hbound).2
    cases target with
    | identifier text =>
      refine hparts rfl (.of_leaf htarget rfl rfl) ?_
      rintro part ⟨⟩
      obtain ⟨address, -, h⟩ := h.bind
      dsimp only at h
      split at h
      · obtain ⟨_, -, h⟩ := h.bind
        exact clean_of_ifNull hw h
      · exact clean_of_ifNull hw h
    | _ => exact hbound h
  | _ => exact absurd h Render.not_succeeds_fault

/-- Of the parameters of a callback those are clean that are given values. -/
theorem clean_of_bindParameters {values : List String}
    (h : ((ids.zip values).forM fun (parameter, source) =>
      w.bindParameter parameter source).Succeeds) :
    ∀ parameter ∈ ids.take values.length, w.arena.Clean root parameter := by
  intro parameter hm
  obtain ⟨source, hpair⟩ := exists_mem_zip hm
  exact clean_of_bindParameter hw (h.forM _ hpair)

/-! ### List operations -/

/-- The body of a callback was rendered well, as a statement or as a value. -/
theorem clean_of_callbackBody (h : (w.callbackBody id).Succeeds) : w.arena.Clean root id := by
  obtain ⟨node, hn, h⟩ := exists_node h
  have hvalue : (w.materializeNode id).Succeeds → w.arena.Clean root id :=
    clean_of_materializeNode hw
  cases node with
  | block statements =>
    obtain ⟨slot, -, h⟩ := h.bind
    obtain ⟨_, -, h⟩ := h.bind
    exact hw.statement h.first
  | _ => exact hvalue h

/-- All stages of a loop and its source were rendered well; a stage gives its callback three
values. -/
theorem clean_of_renderStages {source : NodeId} {header : String → String → Render Unit}
    {stages : List ListCall} (h : (w.renderStages source header stages item).Succeeds) :
    w.arena.Clean root source ∧ ∀ stage ∈ stages,
      (∀ parameter ∈ stage.parameters.take 3, w.arena.Clean root parameter) ∧
        w.arena.Clean root stage.body := by
  induction stages generalizing item with
  | nil => exact ⟨clean_of_reference hw h.first, by simp⟩
  | cons stage inner ih =>
    obtain ⟨stageItem, -, h⟩ := h.bind
    obtain ⟨list, hinner, h⟩ := h.bind
    obtain ⟨_, hparameters, h⟩ := h.bind
    obtain ⟨hsource, hstages⟩ := ih hinner.succeeds
    exact ⟨hsource, List.forall_mem_cons.mpr ⟨⟨clean_of_bindParameters hw hparameters.succeeds,
      clean_of_callbackBody hw h.first⟩, hstages⟩⟩

omit hw in
/-- An expression is clean if the loop over it is, in the stages and in the source. -/
theorem clean_of_fusedChain {a : Arena} {reads : Bool}
    (hsource : a.Clean root (a.fusedChain id reads).2)
    (hstages : ∀ stage ∈ (a.fusedChain id reads).1,
      (∀ parameter ∈ stage.parameters.take 3, a.Clean root parameter) ∧ a.Clean root stage.body) :
    a.Clean root id := by
  have hwithin : ∀ n id, a.Clean root (a.fusedChainWithin n id).2 →
      (∀ stage ∈ (a.fusedChainWithin n id).1,
        (∀ parameter ∈ stage.parameters.take 3, a.Clean root parameter) ∧
          a.Clean root stage.body) → a.Clean root id := by
    intro n
    induction n with
    | zero => exact fun id hsource _ => hsource
    | succ n ih =>
      intro id hsource hstages
      rw [Arena.fusedChainWithin] at hsource hstages
      split at hsource
      · exact hsource
      · next stage hstage =>
        split at hsource
        · exact hsource
        · next hreads =>
          rw [hstage] at hstages
          simp only [hreads] at hstages
          obtain ⟨⟨hparameters, hbody⟩, hinner⟩ := List.forall_mem_cons.mp hstages
          exact Arena.clean_of_mapStage? hstage (ih stage.receiver hsource hinner) hparameters hbody
  unfold Arena.fusedChain at hsource hstages
  split at hsource
  · exact hsource
  · next hreads =>
    rw [if_neg hreads] at hstages
    exact hwithin _ id hsource hstages

/-- The receiver is clean if the source and the stages are that were found below it. -/
theorem clean_of_loopOver {reads : Bool} {header : String → String → Render Unit}
    (h : (w.loopOver receiver item reads header).Succeeds) : w.arena.Clean root receiver := by
  obtain ⟨hsource, hstages⟩ := clean_of_renderStages hw h
  exact clean_of_fusedChain hsource hstages

/-- A consumer binds up to three parameters. -/
theorem clean_of_itemLoop {c : ListCall} (h : (w.itemLoop c).Succeeds) :
    w.arena.Clean root c.receiver ∧
      ∀ parameter ∈ c.parameters.take 3, w.arena.Clean root parameter := by
  obtain ⟨item, -, h⟩ := h.bind
  obtain ⟨list, hlist, h⟩ := h.bind
  exact ⟨clean_of_loopOver hw hlist.succeeds, clean_of_bindParameters hw h.first⟩

/-- A round of a reduction binds up to four. -/
theorem clean_of_reduceStep {c : ListCall} {acc list : String}
    (h : (w.reduceStep c acc item list).Succeeds) :
    (∀ parameter ∈ c.parameters.take 4, w.arena.Clean root parameter) ∧
      w.arena.Clean root c.body := by
  obtain ⟨_, hparameters, h⟩ := h.bind
  exact ⟨clean_of_bindParameters hw hparameters.succeeds, clean_of_callbackBody hw h.first⟩

/-- With or without a seed the chain, the callback and the seed were rendered well. -/
theorem clean_of_reduceLoop {c : ListCall} {initial : Option NodeId}
    (h : (w.reduceLoop c initial).Succeeds) :
    w.arena.Clean root c.receiver ∧
      (∀ parameter ∈ c.parameters.take 4, w.arena.Clean root parameter) ∧
      w.arena.Clean root c.body ∧ ∀ part ∈ initial, w.arena.Clean root part := by
  obtain ⟨acc, -, h⟩ := h.bind
  cases initial with
  | none =>
    obtain ⟨item, -, h⟩ := h.bind
    obtain ⟨list, hlist, h⟩ := h.bind
    obtain ⟨_, hstep, -⟩ := h.bind
    obtain ⟨hparameters, hbody⟩ := clean_of_reduceStep hw hstep.succeeds.choice.2
    exact ⟨clean_of_loopOver hw hlist.succeeds, hparameters, hbody, nofun⟩
  | some initial =>
    obtain ⟨_, hinitial, h⟩ := h.bind
    obtain ⟨item, -, h⟩ := h.bind
    obtain ⟨list, hlist, h⟩ := h.bind
    obtain ⟨_, hstep, -⟩ := h.bind
    obtain ⟨hparameters, hbody⟩ := clean_of_reduceStep hw hstep.succeeds
    refine ⟨clean_of_loopOver hw hlist.succeeds, hparameters, hbody, ?_⟩
    rintro _ ⟨⟩
    exact clean_of_assignNode hw hinitial.succeeds

/-- What a list operation reads is its receiver, of its callback the body and the parameters
that are given values, and, if it is a reduction, the initial value. -/
theorem clean_of_listOperation {operation : ListOperation} {c : ListCall}
    (h : (w.listOperation operation c args).Succeeds) :
    w.arena.Clean root c.receiver ∧
      (∀ parameter ∈ c.parameters.take (Arena.valuesGiven operation),
        w.arena.Clean root parameter) ∧
      w.arena.Clean root c.body ∧
      ∀ arg ∈ args.tail.take (Arena.argumentsRead operation - 1), w.arena.Clean root arg := by
  cases operation with
  | map | filter =>
    obtain ⟨out, -, h⟩ := h.bind
    obtain ⟨_, -, h⟩ := h.bind
    obtain ⟨loopItem, hloop, h⟩ := h.bind
    obtain ⟨hreceiver, hparameters⟩ := clean_of_itemLoop hw hloop.succeeds
    exact ⟨hreceiver, hparameters, clean_of_callbackBody hw h.first, by simp [Arena.argumentsRead]⟩
  | forEach =>
    obtain ⟨loopItem, hloop, h⟩ := h.bind
    obtain ⟨hreceiver, hparameters⟩ := clean_of_itemLoop hw hloop.succeeds
    exact ⟨hreceiver, hparameters, clean_of_callbackBody hw h.first, by simp [Arena.argumentsRead]⟩
  | reduce =>
    obtain ⟨hreceiver, hparameters, hbody, hinitial⟩ := clean_of_reduceLoop hw h
    refine ⟨hreceiver, hparameters, hbody, fun arg hm => .of_argumentExpr (hinitial _ ?_)⟩
    cases args with
    | nil => cases hm
    | cons first others =>
      cases others with
      | nil => cases hm
      | cons second rest =>
        rw [List.mem_singleton.mp hm]
        rfl

/-! ### Calls -/

/-- A push has one argument, which was rendered well, spread or not. -/
theorem clean_of_push {base : NodeId} (h : (w.push base args).Succeeds) :
    w.arena.Clean root base ∧ ∀ arg ∈ args, w.arena.Clean root arg := by
  unfold push at h
  split at h
  · next arg =>
    obtain ⟨list, hbase, h⟩ := h.bind
    refine ⟨hw.expression hbase.succeeds, List.forall_mem_singleton.mpr ?_⟩
    obtain ⟨node, hn, h⟩ := exists_node h
    have hvalue : (w.argument arg >>= fun value => pure s!"{list}.add({value})").Succeeds →
        w.arena.Clean root arg := fun h => clean_of_argument hw h.first
    cases node with
    | spread expr =>
      refine .of_argumentExpr (.of_children hn rfl ?_)
      simpa [Node.children] using hw.expression h.first
    | _ => exact hvalue h
  · exact absurd h Render.not_succeeds_fault

/-- A method renders its receiver and all of its arguments. -/
theorem clean_of_plainMethod {base : NodeId} {method : String}
    (h : (w.plainMethod base method args).Succeeds) :
    w.arena.Clean root base ∧ ∀ arg ∈ args, w.arena.Clean root arg := by
  obtain ⟨receiver, hbase, h⟩ := h.bind
  exact ⟨hw.expression hbase.succeeds, clean_of_arguments hw h.first⟩

/-- The receiver of a helper is a global name. -/
theorem clean_of_helperCall? {base : NodeId} {method text : String}
    (h : (w.helperCall? base method args).Yields (some text)) :
    w.arena.Clean root base ∧ ∀ arg ∈ args, w.arena.Clean root arg := by
  obtain ⟨node, hn, h⟩ := h.of_bind
  rw [yields_node_iff] at hn
  split at h
  · cases Render.yields_pure_iff.mp h
  · next global hglobal =>
    have hbase : w.arena.Clean root base := by
      apply Arena.Clean.of_unwrapParens
      cases node with
      | identifier name | reference name integration => exact .of_leaf hn rfl rfl
      | _ => cases hglobal
    split at h
    · cases Render.yields_pure_iff.mp h
    · split at h
      · next arg =>
        exact ⟨hbase, List.forall_mem_singleton.mpr (clean_of_argument hw h.succeeds.first)⟩
      · exact absurd h Render.not_yields_fault

/-- Each rule for methods leaves unread at most what is listed for the operation. -/
theorem clean_of_method {callee base : NodeId} {field : String}
    (hn : w.arena.get? id = some (.call callee args))
    (hmember : w.arena.get? (w.arena.unwrapParens callee) = some (.member base field))
    (h : (w.method base field args).Succeeds) : w.arena.Clean root id := by
  have hall : w.arena.Clean root base ∧ (∀ arg ∈ args, w.arena.Clean root arg) →
      w.arena.Clean root id := by
    rintro ⟨hbase, hargs⟩
    refine .of_children hn rfl (List.forall_mem_cons.mpr ⟨?_, hargs⟩)
    exact .of_unwrapParens (.of_children hmember rfl (by simpa [Node.children] using hbase))
  unfold method at h
  split at h
  · next operation hknown =>
    split at h
    · next parameters body hcallback =>
      obtain ⟨_, -, h⟩ := h.bind
      obtain ⟨hreceiver, hparameters, hbody, hothers⟩ := clean_of_listOperation hw h
      have hself : w.arena.unwrapParens id = id :=
        Arena.unwrapParensWithin_of_not_paren (by simp [hn])
      exact Arena.clean_of_listCall ⟨⟨callee, field, hself.symm ▸ hn, hmember, hknown⟩, hcallback⟩
        hreceiver hparameters hbody hothers
    · exact absurd h Render.not_succeeds_fault
  · split at h
    · exact hall (clean_of_push hw h)
    · obtain ⟨helper, hhelper, h⟩ := h.bind
      cases helper with
      | some text => exact hall (clean_of_helperCall? hw hhelper)
      | none => exact hall (clean_of_plainMethod hw h)

/-- A function renders its arguments; its name has no parts. -/
theorem clean_of_namedFunction {callee : NodeId} {function : String}
    (h : (w.namedFunction callee function args).Succeeds) :
    ∀ arg ∈ args, w.arena.Clean root arg := by
  unfold namedFunction at h
  split at h
  · obtain ⟨address, -, h⟩ := h.bind
    exact clean_of_arguments hw h.first
  · exact absurd h Render.not_succeeds_fault

/-- A call is clean by the rule for its callee. -/
theorem clean_of_call {callee : NodeId} (hn : w.arena.get? id = some (.call callee args))
    (h : (w.call id callee args).Succeeds) : w.arena.Clean root id := by
  unfold call at h
  split at h
  · next called hcalled =>
    exact hw.integrate (Arena.isCallOf_eq_true_iff.mpr ⟨callee, args, hn, hcalled⟩) h
  · obtain ⟨node, hcallee, h⟩ := exists_node h
    have hnamed : node.isUnsupported = false → node.children = [] →
        (∀ arg ∈ args, w.arena.Clean root arg) → w.arena.Clean root id := fun hnode hleaf hargs =>
      .of_children hn rfl (List.forall_mem_cons.mpr
        ⟨.of_unwrapParens (.of_leaf hcallee hnode hleaf), hargs⟩)
    cases node with
    | member base field => exact clean_of_method hw hn hcallee h
    | identifier name | reference name _ => exact hnamed rfl rfl (clean_of_namedFunction hw h)
    | _ => exact absurd h Render.not_succeeds_fault

end

end Walker

end ClosureVtl
