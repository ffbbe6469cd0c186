/-
Module: ClosureVtl.Proofs.Render.AcceptedKinds
Purpose: A resolver that is compiled has nothing unsupported but in parts that are not read.
Main exports:
  Walker.clean_of_renderExpression, Walker.clean_of_renderStatement, Walker.clean_of_renderRoot,
  Program.RendersArguments, Program.cleans_walkerWithin, unsupported_unread
-/
import ClosureVtl.Proofs.Render.AcceptedParts
import ClosureVtl.Proofs.Render.ReachedParts

namespace ClosureVtl

/-!
The other rules leave no part out, except that a loop ignores the value of what it declares and a
closure its parameters.  Which arguments of a call of an integration are rendered is up to its
handler.  By induction over the levels of the walker, all that is rendered well is clean.
-/

namespace Walker

variable {w : Walker} {root id : NodeId} {ids : List NodeId}

section

variable (hw : w.Cleans root)

include hw

/-! ### Expressions -/

/-- An item was rendered well, a spread one from within. -/
theorem clean_of_addItem {list : String} (h : (w.addItem list id).Succeeds) :
    w.arena.Clean root id := by
  obtain ⟨node, hn, h⟩ := exists_node h
  have hvalue : (w.argument id >>= fun value => Render.discard s!"{list}.add({value})").Succeeds →
      w.arena.Clean root id := fun h => clean_of_argument hw h.first
  cases node with
  | spread expr =>
    exact .of_children hn rfl (by simpa [Node.children] using hw.expression h.first)
  | _ => exact hvalue h

/-- All items were, whichever way the list is written. -/
theorem clean_of_arrayLiteral (h : (w.arrayLiteral ids).Succeeds) :
    ∀ id ∈ ids, w.arena.Clean root id := by
  unfold arrayLiteral at h
  split at h
  · obtain ⟨list, -, h⟩ := h.bind
    obtain ⟨_, -, h⟩ := h.bind
    exact fun id hm => clean_of_addItem hw (h.first.forM id hm)
  · exact clean_of_arguments hw h.first

/-- A plain key has no parts, and a computed one was rendered well. -/
theorem clean_of_propertyKey (h : (w.propertyKey id).Succeeds) : w.arena.Clean root id := by
  obtain ⟨node, hn, h⟩ := exists_node h
  cases node with
  | identifier text | string text | number value => exact .of_leaf hn rfl rfl
  | computedKey expr =>
    exact .of_children hn rfl (by simpa [Node.children] using clean_of_argument hw h)
  | _ => exact absurd h Render.not_succeeds_fault

/-- The key and the value of a property were rendered well. -/
theorem clean_of_addProperty {object : String} (h : (w.addProperty object id).Succeeds) :
    w.arena.Clean root id := by
  obtain ⟨node, hn, h⟩ := exists_node h
  cases node with
  | property name value =>
    obtain ⟨key, hkey, h⟩ := h.bind
    have hname := clean_of_propertyKey hw hkey.succeeds
    exact .of_children hn rfl (by simpa [Node.children] using ⟨hname, clean_of_argument hw h.first⟩)
  | spreadProperty expr =>
    exact .of_children hn rfl (by simpa [Node.children] using hw.expression h.first)
  | _ => exact absurd h Render.not_succeeds_fault

/-- So were all properties of an object. -/
theorem clean_of_objectLiteral (h : (w.objectLiteral ids).Succeeds) :
    ∀ id ∈ ids, w.arena.Clean root id := by
  obtain ⟨object, -, h⟩ := h.bind
  obtain ⟨_, -, h⟩ := h.bind
  exact fun id hm => clean_of_addProperty hw (h.first.forM id hm)

/-- So were the spans of a template. -/
theorem clean_of_templateLiteral {head : String} {spans : List TemplateSpan}
    (h : (w.templateLiteral head spans).Succeeds) :
    ∀ span ∈ spans, w.arena.Clean root span.expr := by
  obtain ⟨text, -, h⟩ := h.bind
  exact fun span hm => clean_of_reference hw (h.first.mapM span hm).first

/-- Each form of operators renders both operands. -/
theorem clean_of_binary {left right : NodeId} {op : BinaryOp}
    (h : (w.binary left op right).Succeeds) :
    w.arena.Clean root left ∧ w.arena.Clean root right := by
  unfold binary at h
  split at h
  · obtain ⟨target, hleft, h⟩ := h.bind
    exact ⟨hw.expression hleft.succeeds, clean_of_assignNode hw h.first⟩
  · obtain ⟨target, hleft, h⟩ := h.bind
    exact ⟨hw.expression hleft.succeeds, clean_of_ifNull hw h.first⟩
  · obtain ⟨result, hleft, h⟩ := h.bind
    exact ⟨clean_of_materializeNode hw hleft.succeeds, clean_of_ifNull hw h.first⟩
  · obtain ⟨key, hleft, h⟩ := h.bind
    exact ⟨clean_of_argument hw hleft.succeeds, hw.expression h.first⟩
  · obtain ⟨target, hleft, h⟩ := h.bind
    exact ⟨hw.expression hleft.succeeds, hw.expression h.first⟩
  · obtain ⟨text, hleft, h⟩ := h.bind
    exact ⟨hw.expression hleft.succeeds, hw.expression h.first⟩

/-- An operator with one operand renders it. -/
theorem clean_of_unary {op : UnaryOp} (h : (w.unary op id).Succeeds) : w.arena.Clean root id := by
  cases op with
  | not | neg => exact hw.expression h.first
  | plus => exact hw.expression h
  | step direction => exact hw.expression h.first

/-- The test and both branches were rendered well. -/
theorem clean_of_conditional {test yes no : NodeId} (h : (w.conditional test yes no).Succeeds) :
    w.arena.Clean root test ∧ w.arena.Clean root yes ∧ w.arena.Clean root no := by
  obtain ⟨condition, htest, h⟩ := h.bind
  obtain ⟨result, -, h⟩ := h.bind
  obtain ⟨hyes, hno⟩ := h.first.choice
  exact ⟨hw.expression htest.succeeds, clean_of_assignNode hw hyes, clean_of_assignNode hw hno⟩

/-- A promise that is not refused was rendered well. -/
theorem clean_of_promised {expr : NodeId} (h : (w.promised id expr).Succeeds) :
    w.arena.Clean root expr := by
  unfold promised at h
  split at h
  · exact absurd h Render.not_succeeds_fault
  · exact hw.expression h

/-- One case for each kind of node that has a rule; a node of an unsupported kind has none. -/
theorem clean_of_renderExpression (h : (w.renderExpression id).Succeeds) :
    w.arena.Clean root id := by
  obtain ⟨node, hn, h⟩ := exists_node h
  have hpart : ∀ {part}, node.children = [part] → node.isUnsupported = false →
      w.arena.Clean root part → w.arena.Clean root id := fun hparts hnode hpart =>
    .of_children hn hnode (by simpa [hparts] using hpart)
  cases node with
  | null | undefined | boolean _ | number _ | string _ | identifier _ | reference _ _ =>
    exact .of_leaf hn rfl rfl
  | array items => exact .of_children hn rfl (clean_of_arrayLiteral hw h)
  | object properties => exact .of_children hn rfl (clean_of_objectLiteral hw h)
  | template head spans =>
    refine .of_children hn rfl fun part hm => ?_
    obtain ⟨span, hspan, rfl⟩ := List.mem_map.mp hm
    exact clean_of_templateLiteral hw h span hspan
  | member base name => exact hpart rfl rfl (hw.expression h.first)
  | element base key =>
    obtain ⟨text, hbase, h⟩ := h.bind
    refine .of_children hn rfl ?_
    simpa [Node.children] using ⟨hw.expression hbase.succeeds, clean_of_argument hw h.first⟩
  | binary left op right =>
    exact .of_children hn rfl (by simpa [Node.children] using clean_of_binary hw h)
  | unary op operand => exact hpart rfl rfl (clean_of_unary hw h)
  | stepAfter operand step => exact hpart rfl rfl (hw.expression h.first)
  | conditional test yes no =>
    exact .of_children hn rfl (by simpa [Node.children] using clean_of_conditional hw h)
  | paren expr | argument expr _ | await expr => exact hpart rfl rfl (hw.expression h)
  | promise expr => exact hpart rfl rfl (clean_of_promised hw h)
  | call callee args => exact clean_of_call hw hn h
  | _ => exact absurd h Render.not_succeeds_fault

/-! ### Statements -/

/-- What a loop binds is clean, and its body was rendered well. -/
theorem clean_of_loop {list : String} {body : Render Unit} (h : (w.loop id list body).Succeeds) :
    w.arena.Clean root id ∧ body.Succeeds := by
  obtain ⟨_, -, h⟩ := h.bind
  obtain ⟨node, hn, h⟩ := exists_node h
  have hpattern : (do
      let item ← Render.freshTemp
      Render.openLoop item list
      w.expand id item
      body
      Render.close).Succeeds → w.arena.Clean root id ∧ body.Succeeds := by
    intro h
    obtain ⟨loopItem, -, h⟩ := h.bind
    obtain ⟨_, -, h⟩ := h.bind
    obtain ⟨_, htarget, h⟩ := h.bind
    exact ⟨hw.expand htarget.succeeds, h.first⟩
  cases node with
  | identifier name =>
    obtain ⟨address, -, h⟩ := h.bind
    obtain ⟨_, -, h⟩ := h.bind
    exact ⟨.of_leaf hn rfl rfl, h.first⟩
  | objectPattern elements | arrayPattern elements => exact hpattern h
  | _ => exact absurd h.first Render.not_succeeds_fault

/-- A loop takes its values from the list and not from its declaration. -/
theorem clean_of_loopStatement {kind : String} {view : String → String}
    {binding iterable body : NodeId} {slot : Option String}
    (hn : w.arena.get? id = some (.forOf binding iterable body) ∨
      w.arena.get? id = some (.forIn binding iterable body))
    (h : (w.loopStatement kind view binding iterable body slot).Succeeds) :
    w.arena.Clean root id := by
  obtain ⟨_, -, h⟩ := h.bind
  obtain ⟨list, hlist, h⟩ := h.bind
  obtain ⟨target, htarget, h⟩ := h.bind
  obtain ⟨hbound, hstatement⟩ := clean_of_loop hw h
  have hbinding : w.arena.Clean root binding := by
    obtain ⟨node, hnode, htarget⟩ := htarget.of_bind
    rw [yields_node_iff] at hnode
    cases node with
    | declaration kind name value =>
      cases Render.yields_pure_iff.mp htarget
      refine .of_parts hnode rfl fun part hm => ?_
      rcases List.mem_cons.mp hm with rfl | hm
      · exact .inl hbound
      · rw [Option.mem_toList.mp hm] at hnode
        exact .inr (.loopValue hn hnode)
    | _ =>
      cases Render.yields_pure_iff.mp htarget
      exact hbound
  have hparts : ∀ part ∈ [binding, iterable, body], w.arena.Clean root part := by
    simpa using ⟨hbinding, hw.expression hlist.succeeds, hw.statement hstatement⟩
  rcases hn with hn | hn
  · exact .of_children hn rfl hparts
  · exact .of_children hn rfl hparts

/-- The value of an expression statement was rendered well, parentheses left out. -/
theorem clean_of_expressionStatement (h : (w.expressionStatement id).Succeeds) :
    w.arena.Clean root id := by
  apply Arena.Clean.of_unwrapParens
  obtain ⟨node, hn, h⟩ := exists_node h
  have hvalue : (w.expression (w.arena.unwrapParens id) >>= fun value =>
      if value.toList.getLast? = some ')' then Render.discard value else pure ()).Succeeds →
      w.arena.Clean root (w.arena.unwrapParens id) := fun h => hw.expression h.first
  cases node with
  | stepAfter operand step =>
    refine .of_children hn rfl ?_
    simpa [Node.children] using hw.expression h.first.first
  | _ => exact hvalue h

/-- A declared name has no parts and a pattern was expanded well, and so was the value. -/
theorem clean_of_declare {value : Option NodeId} (h : (w.declare id value).Succeeds) :
    w.arena.Clean root id ∧ ∀ part ∈ value, w.arena.Clean root part := by
  obtain ⟨node, hn, h⟩ := exists_node h
  have hnone : (Render.breach .patternWithoutValue : Render Unit).Succeeds →
      w.arena.Clean root id ∧ ∀ part ∈ value, w.arena.Clean root part :=
    fun h => absurd h Render.not_succeeds_fault
  cases node with
  | identifier name =>
    obtain ⟨target, -, h⟩ := h.bind
    refine ⟨.of_leaf hn rfl rfl, ?_⟩
    rintro part ⟨⟩
    exact clean_of_assignNode hw h
  | objectPattern elements | arrayPattern elements =>
    cases value with
    | none => exact hnone h
    | some value =>
      obtain ⟨source, hsource, h⟩ := h.bind
      refine ⟨hw.expand h, ?_⟩
      rintro _ ⟨⟩
      exact clean_of_reference hw hsource.succeeds
  | _ => exact absurd h Render.not_succeeds_fault

/-- The test and both sides were rendered well. -/
theorem clean_of_branch {test yes : NodeId} {no : Option NodeId} {slot : Option String}
    (h : (w.branch test yes no slot).Succeeds) :
    w.arena.Clean root test ∧ w.arena.Clean root yes ∧ ∀ part ∈ no, w.arena.Clean root part := by
  obtain ⟨condition, htest, h⟩ := h.bind
  refine ⟨hw.expression htest.succeeds, ?_⟩
  cases no with
  | none => exact ⟨hw.statement h.guarded, nofun⟩
  | some no =>
    obtain ⟨hyes, hno⟩ := Render.Succeeds.choice h
    refine ⟨hw.statement hyes, ?_⟩
    rintro _ ⟨⟩
    exact hw.statement hno

variable {config : ResolverConfig} (hdialect : w.dialect = .resolver config)

include hdialect

/-- A resolver returns the text of an expression. -/
theorem clean_of_returned {value : Option NodeId} (h : (w.returned value).Succeeds) :
    ∀ part ∈ value, w.arena.Clean root part := by
  rintro part ⟨⟩
  unfold returned at h
  rw [hdialect] at h
  exact hw.expression h.first

/-- The value of a return was rendered well, with a slot or without. -/
theorem clean_of_returnTo {value : Option NodeId} {slot : Option String}
    (h : (w.returnTo value slot).Succeeds) : ∀ part ∈ value, w.arena.Clean root part := by
  cases slot with
  | none => exact clean_of_returned hw hdialect h
  | some slot =>
    rintro part ⟨⟩
    exact clean_of_assignNode hw h

/-- One case for each kind of statement that has a rule. -/
theorem clean_of_renderStatement {slot : Option String} (h : (w.renderStatement id slot).Succeeds) :
    w.arena.Clean root id := by
  obtain ⟨node, hn, h⟩ := exists_node h
  cases node with
  | block statements => exact .of_children hn rfl fun part hm => hw.statement (h.forM part hm)
  | exprStatement expr =>
    exact .of_children hn rfl (by simpa [Node.children] using clean_of_expressionStatement hw h)
  | declaration kind name value =>
    exact .of_children hn rfl (by simpa [Node.children] using clean_of_declare hw h)
  | branch test yes no =>
    exact .of_children hn rfl (by simpa [Node.children] using clean_of_branch hw h)
  | forOf binding iterable body => exact clean_of_loopStatement hw (.inl hn) h
  | forIn binding iterable body => exact clean_of_loopStatement hw (.inr hn) h
  | returnValue expr =>
    exact .of_children hn rfl (by simpa [Node.children] using clean_of_returnTo hw hdialect h)
  | breakLoop => exact .of_leaf hn rfl rfl
  | _ => exact absurd h Render.not_succeeds_fault

/-- Of a closure the parameters are not read. -/
theorem clean_of_renderRoot (h : (w.renderRoot root).Succeeds) : w.arena.Clean root root := by
  obtain ⟨node, hn, h⟩ := exists_node h
  have hother : (if node.isStatement then w.statement root none
      else w.returned (some root)).Succeeds → w.arena.Clean root root := by
    intro h
    split at h
    · exact hw.statement h
    · exact clean_of_returned hw hdialect h root rfl
  cases node with
  | function parameters body =>
    obtain ⟨_, -, h⟩ := h.bind
    obtain ⟨node, -, h⟩ := exists_node h
    have hbody : w.arena.Clean root body := by
      split at h
      · exact hw.statement h
      · exact clean_of_returned hw hdialect h body rfl
    refine .of_parts hn rfl fun part hm => ?_
    rcases List.mem_append.mp hm with hm | hm
    · exact .inr (.rootParameter hn hm)
    · exact .inl (List.mem_singleton.mp hm ▸ hbody)
  | _ => exact hother h

end

end Walker

/-! ### Calls of integrations -/

/-- Whether the resolver handlers of a program render all arguments of the calls in it. -/
def Program.RendersArguments (p : Program) (config : ResolverConfig) : Prop :=
  ∀ integration ∈ p.integrations, ∀ ⦃n call site⦄, CallSite.of p.arena call = .ok site →
    (integration.resolver (p.walkerWithin (.resolver config) n) site).Succeeds →
      ∀ arg ∈ site.args, ((p.walkerWithin (.resolver config) n).expression arg).Succeeds ∨
        ((p.walkerWithin (.resolver config) n).argument arg).Succeeds

/-- A call that lists all arguments renders them all. -/
theorem Integration.succeeds_of_invocation {kind : String} {w : Walker} {site : CallSite}
    (h : (Integration.invocation kind w site).Succeeds) :
    ∀ arg ∈ site.args, (w.argument arg).Succeeds :=
  h.first.mapM

namespace Program

variable {p : Program} {root : NodeId} {config : ResolverConfig} {n : Nat}

/-- The callee of such a call is a name, and its arguments are rendered by the handler. -/
theorem clean_of_dispatch (hp : p.RendersArguments config)
    (hw : (p.walkerWithin (.resolver config) n).Cleans root) {called : IntegrationId}
    {call : NodeId} (hcall : p.arena.isCallOf called call = true)
    (h : ((p.walkerWithin (.resolver config) n).dispatch p.integrations called call).Succeeds) :
    p.arena.Clean root call := by
  have harena := p.arena_walkerWithin (.resolver config) n
  obtain ⟨callee, args, hn, hcallee⟩ := Arena.isCallOf_eq_true_iff.mp hcall
  obtain ⟨text, out, final, hrun⟩ := h
  obtain ⟨integration, site, start, hfound, hsite, hhandler, -⟩ :=
    exists_run_of_dispatch harena hrun
  rw [p.dialect_walkerWithin] at hhandler
  have hargs := hp integration (Array.mem_of_getElem? hfound) hsite ⟨text, start, final, hhandler⟩
  refine .of_children hn rfl (List.forall_mem_cons.mpr
    ⟨Arena.clean_of_resolveIntegration hcallee, fun arg hm => .of_argumentExpr ?_⟩)
  have hlisted : p.arena.argumentExpr arg ∈ site.args := by
    rw [CallSite.of, Arena.node_eq_ok_iff.mpr hn] at hsite
    cases hsite
    exact List.mem_map_of_mem hm
  rw [← harena] at hlisted ⊢
  exact (hargs _ hlisted).elim hw.expression (Walker.clean_of_argument hw)

/-- At every level, what the walker of a program renders well is clean. -/
theorem cleans_walkerWithin (hp : p.RendersArguments config) (root : NodeId) (n : Nat) :
    (p.walkerWithin (.resolver config) n).Cleans root := by
  induction n with
  | zero =>
    exact ⟨fun h => absurd h Render.not_succeeds_fault, fun h => absurd h Render.not_succeeds_fault,
      fun h => absurd h Render.not_succeeds_fault, fun _ h => absurd h Render.not_succeeds_fault⟩
  | succ n ih =>
    have harena := p.arena_walkerWithin (.resolver config) n
    have hdialect := p.dialect_walkerWithin (.resolver config) n
    refine ⟨Walker.clean_of_renderExpression ih, Walker.clean_of_renderStatement ih hdialect,
      Walker.clean_of_expandPattern ih, fun hcall h => ?_⟩
    have hclean := clean_of_dispatch hp ih (harena ▸ hcall) h
    exact harena ▸ hclean

end Program

/-- Whatever a compiled closure has of the unsupported kinds stands in a part that is not read.
So it has nothing of these kinds if and only if its unread parts have nothing of them. -/
theorem unsupported_unread {p : Program} {config : ResolverConfig}
    (hp : p.RendersArguments config) {root : NodeId} {template : ResolverTemplate}
    (h : p.compileResolver root config = .ok template) :
    p.arena.Clean root root ∧
      ((∀ inner, p.arena.Below root inner →
          ¬ (p.arena.get? inner).any Node.isUnsupported = true) ↔
        ∀ owner part, p.arena.Below root owner → p.arena.Unread root owner part →
          ∀ inner, p.arena.Below part inner →
            ¬ (p.arena.get? inner).any Node.isUnsupported = true) := by
  have hclean : p.arena.Clean root root := by
    obtain ⟨out, hout⟩ : ∃ out, p.render (.resolver config) root = .ok out := by
      unfold Program.compileResolver at h
      rcases hr : p.render (.resolver config) root with fault | out <;> rw [hr] at h
      · cases h
      · exact ⟨out, rfl⟩
    have harena := p.arena_walkerWithin (.resolver config) p.depth
    have hrun := Walker.clean_of_renderRoot (p.cleans_walkerWithin hp root _)
      (p.dialect_walkerWithin _ _) ⟨(), {}, out, Program.render_eq_ok_iff_runOn.mp hout⟩
    exact harena ▸ hrun
  refine ⟨hclean, fun hnone owner part howner hunread inner hinner => ?_,
    fun hunread inner hinner hany => ?_⟩
  · exact hnone inner (howner.trans (.part hunread.lists hinner))
  · obtain ⟨node, hn, hnode⟩ := (Option.any_eq_true _ _).mp hany
    obtain ⟨owner, part, howner, hpart, hbelow⟩ := hclean hinner hn hnode
    exact hunread owner part howner hpart inner hbelow hany

/-- The closure `(input = typeof "") => { return save(input.map(x => x, typeof "")); }`, where
`save` is an integration. -/
def Program.passedOver : Program :=
  (Builder.of [.ofStyle "table.save" .inline]
    [.identifier "x", .parameter ⟨0⟩ none, .identifier "x", .function [⟨1⟩] ⟨2⟩,
      .identifier "input", .string "", .typeOf ⟨5⟩, .member ⟨4⟩ "map", .argument ⟨3⟩ none,
      .argument ⟨6⟩ none, .call ⟨7⟩ [⟨8⟩, ⟨9⟩], .reference "save" (some ⟨0⟩), .argument ⟨10⟩ none,
      .call ⟨11⟩ [⟨12⟩], .returnValue (some ⟨13⟩), .block [⟨14⟩], .identifier "input",
      .string "", .typeOf ⟨17⟩, .parameter ⟨16⟩ (some ⟨18⟩), .function [⟨19⟩] ⟨15⟩]).program

/-- The nodes are listed with their parts first. -/
theorem Program.bottomUp_passedOver : Program.passedOver.BottomUp :=
  Builder.bottomUp_of (by decide) (by cbv)

/-- Its one integration renders the argument of a call. -/
theorem Program.rendersArguments_passedOver : Program.passedOver.RendersArguments {} := by
  have hof : ∀ integrations nodes, (Builder.of integrations nodes).program.integrations =
      integrations.toArray := fun _ _ => Builder.integrations_of
  have hintegrations : Program.passedOver.integrations = #[.ofStyle "table.save" .inline] :=
    hof _ _
  intro integration hm n call site _ h arg harg
  rw [hintegrations] at hm
  rw [List.mem_singleton.mp (List.mem_toArray.mp hm)] at h
  exact .inr (Integration.succeeds_of_invocation h arg harg)

/-- What it is compiled to. -/
def Program.passedOverTemplate : ResolverTemplate where
  template := "\n".intercalate
    ["#set($v1 = [])", "#foreach($x in $context.arguments)", "#set($v2 = $x)",
      "$util.qr($v1.add($v2))", "#end", "#return($util.invoke(\"table.save\", $v1))"]
  integrations := ["table.save"]

/-- The operators that have no rule stand where nothing reads them, so the closure is compiled.
-/
theorem Program.compileResolver_passedOver :
    Program.passedOver.compileResolver ⟨20⟩ {} = .ok Program.passedOverTemplate := by
  decide +kernel

/-- Both of its unsupported nodes are below the root. -/
theorem Program.below_passedOver : ∀ inner ∈ [(⟨6⟩ : NodeId), ⟨18⟩],
    Program.passedOver.arena.Below ⟨20⟩ inner ∧
      (Program.passedOver.arena.get? inner).any Node.isUnsupported = true := by
  have hgrown := Program.bottomUp_passedOver.grown
  refine List.forall_mem_cons.mpr ⟨⟨hgrown.below_of_isWithin ?_, ?_⟩,
    List.forall_mem_singleton.mpr ⟨hgrown.below_of_isWithin ?_, ?_⟩⟩
  all_goals decide +kernel

/-- They stand in unread parts. -/
theorem unsupported_unread_passedOver :
    Program.passedOver.RendersArguments {} ∧
      Program.passedOver.compileResolver ⟨20⟩ {} = .ok Program.passedOverTemplate ∧
      ∀ inner ∈ [(⟨6⟩ : NodeId), ⟨18⟩], ∃ owner part, Program.passedOver.arena.Below ⟨20⟩ owner ∧
        Program.passedOver.arena.Unread ⟨20⟩ owner part ∧
          Program.passedOver.arena.Below part inner := by
  refine ⟨Program.rendersArguments_passedOver, Program.compileResolver_passedOver, ?_⟩
  have hclean := (unsupported_unread Program.rendersArguments_passedOver
    Program.compileResolver_passedOver).1
  intro inner hm
  obtain ⟨hbelow, hany⟩ := Program.below_passedOver inner hm
  obtain ⟨node, hn, hnode⟩ := (Option.any_eq_true _ _).mp hany
  exact hclean hbelow hn hnode

/-- A closure is compiled, with a root that is no part of another node, although it has
unsupported nodes: a default of a parameter and an argument of a list operation. -/
theorem not_refused_passedOver :
    Program.passedOver.BottomUp ∧ Program.passedOver.arena.parent? ⟨20⟩ = none ∧
      Program.passedOver.RendersArguments {} ∧
      Program.passedOver.compileResolver ⟨20⟩ {} = .ok Program.passedOverTemplate ∧
      ∀ inner ∈ [(⟨6⟩ : NodeId), ⟨18⟩], Program.passedOver.arena.Below ⟨20⟩ inner ∧
        (Program.passedOver.arena.get? inner).any Node.isUnsupported = true :=
  ⟨Program.bottomUp_passedOver, by decide +kernel, Program.rendersArguments_passedOver,
    Program.compileResolver_passedOver, Program.below_passedOver⟩

end ClosureVtl
