/-
Module: ClosureVtl.Proofs.Render.Spending
Purpose: Steps of rendering with a budget for the nodes that they render, and the rules for
  names, patterns and list operations.
Main exports:
  Walker.Spends, Walker.spends_expandPattern, Walker.spends_loopOver, Walker.spends_mapLoop,
  Walker.spends_reduceLoop
-/
import ClosureVtl.Proofs.Closure.Subtree
import ClosureVtl.Proofs.Render.Inversion

namespace ClosureVtl

/-!
Whether a rule renders some part twice is a question about the calls that it makes of the
walker.  `Walker.Spends` is the inductive account of that: each call costs the weight of the
node that it is for, and what the calls cost adds up along steps in a row.  The weights are
any that a node shares out among its parts, so a rule that stays within the weight of its
node renders each part once at most: the part could weigh as much as the node.
-/

namespace Walker

/-- Steps put together from elementary ones, none of which records a call, and from calls of
a walker for nodes that together weigh no more than a budget.  What follows a step may count
on the value being one that the step yields. -/
inductive Spends (w : Walker) (weight : NodeId → Nat) : {α : Type} → Render α → Nat → Prop where
  | pure {α : Type} (value : α) : Spends w weight (pure value) 0
  | fault {α : Type} (f : Fault) : Spends w weight (Render.fault f : Render α) 0
  | bind {α β : Type} {x : Render α} {f : α → Render β} {n m : Nat} (first : Spends w weight x n)
      (next : ∀ value, x.Yields value → Spends w weight (f value) m) :
      Spends w weight (x >>= f) (n + m)
  /-- a step that goes on after a fault -/
  | recover {α : Type} {x : Render α} {f : Fault → Render α} {n m : Nat}
      (first : Spends w weight x n) (next : ∀ cause, Spends w weight (f cause) m) :
      Spends w weight (tryCatch x f) (n + m)
  /-- a step that looks at the template -/
  | get {α : Type} {f : Output → Render α} {n : Nat} (next : ∀ out, Spends w weight (f out) n) :
      Spends w weight (MonadState.get >>= f) n
  | emit (line : String) : Spends w weight (Render.emit line) 0
  | freshTemp : Spends w weight Render.freshTemp 0
  | expression (id : NodeId) : Spends w weight (w.expression id) (weight id)
  | statement (id : NodeId) (slot : Option String) :
      Spends w weight (w.statement id slot) (weight id)
  | expand (pattern : NodeId) (target : String) :
      Spends w weight (w.expand pattern target) (weight pattern)
  | fragment (id : NodeId) : Spends w weight (w.fragment id) (weight id)
  /-- a call is handed to the integration that its callee refers to -/
  | integrate {called : IntegrationId} {call callee : NodeId} {args : List NodeId}
      (hn : w.arena.get? call = some (.call callee args))
      (hr : w.arena.resolveIntegration callee = some called) :
      Spends w weight (w.integrate called call) (weight call)
  | mono {α : Type} {x : Render α} {n m : Nat} (h : Spends w weight x n) (hle : n ≤ m) :
      Spends w weight x m

/-! ### Steps in a row -/

namespace Spends

variable {w : Walker} {weight : NodeId → Nat} {α β σ : Type} {x : Render α} {f : α → Render β}
  {n m k : Nat}

/-- A step before one that costs something. -/
theorem before (first : w.Spends weight x 0)
    (next : ∀ value, x.Yields value → w.Spends weight (f value) n) :
    w.Spends weight (x >>= f) n :=
  .mono (.bind first next) (Nat.le_of_eq (Nat.zero_add n))

/-- A step behind one that costs something. -/
theorem after (first : w.Spends weight x n)
    (next : ∀ value, x.Yields value → w.Spends weight (f value) 0) :
    w.Spends weight (x >>= f) n :=
  .bind first next

/-- Two steps that share a budget. -/
theorem share (hle : n + m ≤ k) (first : w.Spends weight x n)
    (next : ∀ value, x.Yields value → w.Spends weight (f value) m) :
    w.Spends weight (x >>= f) k :=
  .mono (.bind first next) hle

/-- What costs nothing is within every budget. -/
theorem of_free (h : w.Spends weight x 0) : w.Spends weight x n := .mono h (Nat.zero_le n)

/-- A result that is known already costs nothing. -/
theorem ofExcept (result : Except Fault α) : w.Spends weight (Render.ofExcept result) 0 := by
  cases result with
  | error f => exact .fault f
  | ok value => exact .pure value

/-- A choice keeps to a budget if both sides do, each with what decides for it. -/
theorem ite {c : Prop} [Decidable c] {yes no : Render α} (hyes : c → w.Spends weight yes n)
    (hno : ¬ c → w.Spends weight no n) : w.Spends weight (if c then yes else no) n := by
  split
  · next h => exact hyes h
  · next h => exact hno h

/-- The costs of steps in a row add up over the items. -/
theorem forM {items : List α} {f : α → Render PUnit} {cost : α → Nat}
    (h : ∀ item ∈ items, w.Spends weight (f item) (cost item)) :
    w.Spends weight (items.forM f) (items.map cost).sum := by
  induction items with
  | nil => exact .pure _
  | cons item rest ih =>
    rw [List.map_cons, List.sum_cons]
    refine .bind (h item List.mem_cons_self) fun _ _ => ?_
    exact ih fun item hm => h item (List.mem_cons_of_mem _ hm)

/-- The same for steps that yield values. -/
theorem mapM {items : List α} {cost : α → Nat}
    (h : ∀ item ∈ items, w.Spends weight (f item) (cost item)) :
    w.Spends weight (items.mapM f) (items.map cost).sum := by
  induction items with
  | nil => exact .pure _
  | cons item rest ih =>
    rw [List.mapM_cons, List.map_cons, List.sum_cons]
    refine .bind (h item List.mem_cons_self) fun _ _ => ?_
    refine .after (ih fun item hm => h item (List.mem_cons_of_mem _ hm)) fun _ _ => ?_
    exact .pure _

/-- Whether a step keeps to a budget together with what its value says is still left to do. -/
def Leaves (w : Walker) (weight : NodeId → Nat) (x : Render σ) (left : σ → Nat) (budget : Nat) :
    Prop :=
  ∃ n ≤ budget, w.Spends weight x n ∧ ∀ state, x.Yields state → n + left state ≤ budget

/-- A fault leaves nothing to do. -/
theorem leaves_fault {left : σ → Nat} (f : Fault) :
    Leaves w weight (Render.fault f : Render σ) left n :=
  ⟨0, Nat.zero_le _, .fault f, fun _ h => absurd h Render.not_yields_fault⟩

/-- A state that is returned leaves as much to do as it says. -/
theorem leaves_pure {left : σ → Nat} {state : σ} (hle : left state ≤ n) :
    Leaves w weight (Pure.pure state : Render σ) left n := by
  refine ⟨0, Nat.zero_le _, .pure state, fun other h => ?_⟩
  rw [← Render.yields_pure_iff.mp h]
  omega

/-- A node may be looked at for free; a dangling id is a fault. -/
theorem leaves_node {f : Node → Render σ} {left : σ → Nat} {id : NodeId}
    (h : ∀ node, w.arena.get? id = some node → Leaves w weight (f node) left n) :
    Leaves w weight (w.node id >>= f) left n := by
  cases hn : w.arena.get? id with
  | none =>
    rw [node_of_dangling hn]
    exact leaves_fault _
  | some node =>
    rw [node_eq_pure hn, pure_bind]
    exact h node hn

/-- Steps in a row with a step behind them that does what they have left. -/
theorem foldlM {items : List α} {f : σ → α → Render σ} {last : σ → Render β} {left : σ → Nat}
    {cost : α → Nat}
    (h : ∀ state, ∀ item ∈ items, Leaves w weight (f state item) left (left state + cost item))
    (hlast : ∀ state, w.Spends weight (last state) (left state)) (start : σ) :
    w.Spends weight (items.foldlM f start >>= last) (left start + (items.map cost).sum) := by
  induction items generalizing start with
  | nil => exact hlast start
  | cons item rest ih =>
    obtain ⟨n, hle, hitem, hleft⟩ := h start item List.mem_cons_self
    rw [List.foldlM_cons, bind_assoc, List.map_cons, List.sum_cons]
    refine .share (m := left start + cost item - n + (rest.map cost).sum) (by omega) hitem ?_
    intro next hnext
    have hn := hleft next hnext
    refine .mono (ih (fun state item hm => h state item (List.mem_cons_of_mem _ hm)) next) ?_
    omega

/-! ### Elementary steps -/

/-- An assignment writes the texts that it is given, and renders nothing. -/
theorem assign (target value : String) : w.Spends weight (Render.assign target value) 0 := .emit _

/-- So does a discarded value. -/
theorem discard (value : String) : w.Spends weight (Render.discard value) 0 := .emit _

/-- So does the header of a loop. -/
theorem openLoop (item list : String) : w.Spends weight (Render.openLoop item list) 0 := .emit _

/-- So does the line that closes a block. -/
theorem close : w.Spends weight Render.close 0 := .emit _

/-- A value that is moved to a temporary has been paid for already. -/
theorem materialize (value : String) : w.Spends weight (Render.materialize value) 0 :=
  .before .freshTemp fun temp _ => .before (.assign temp value) fun _ _ => .pure temp

/-- A branch costs what its body costs. -/
theorem guarded (condition : String) {body : Render Unit} (h : w.Spends weight body n) :
    w.Spends weight (Render.guarded condition body) n :=
  .before (.emit _) fun _ _ => .after h fun _ _ => .close

/-- So does a test for null. -/
theorem ifNull (value : String) {body : Render Unit} (h : w.Spends weight body n) :
    w.Spends weight (Render.ifNull value body) n :=
  guarded _ h

/-- Both sides of a choice are rendered. -/
theorem choice (condition : String) {yes no : Render Unit} (hyes : w.Spends weight yes n)
    (hno : w.Spends weight no m) : w.Spends weight (Render.choice condition yes no) (n + m) :=
  .before (.emit _) fun _ _ => .bind hyes fun _ _ => .before (.emit _) fun _ _ =>
    .after hno fun _ _ => .close

end Spends

variable {w : Walker} {weight : NodeId → Nat} {n : Nat}

/-! ### Steps built on the entry points -/

/-- A refusal ends the run, so it is within every budget. -/
theorem spends_unsupported {α : Type} (cause : Unsupported) :
    w.Spends weight (Render.unsupported cause : Render α) n :=
  .of_free (.fault _)

/-- So is a breach. -/
theorem spends_breach {α : Type} (cause : Breach) :
    w.Spends weight (Render.breach cause : Render α) n :=
  .of_free (.fault _)

/-- An address is read off the arena, no part is rendered for it. -/
theorem spends_address (id : NodeId) : w.Spends weight (w.address id) 0 := .ofExcept _

/-- A number is written as its own literal. -/
theorem spends_number (value : Binary64) : w.Spends weight (number value) 0 := .ofExcept _

/-- What follows a look at a node may count on the node being the one that is there. -/
theorem spends_node {α : Type} {f : Node → Render α} {id : NodeId}
    (h : ∀ node, w.arena.get? id = some node → w.Spends weight (f node) n) :
    w.Spends weight (w.node id >>= f) n :=
  .before (.ofExcept _) fun node hnode =>
    h node (Arena.node_eq_ok_iff.mp (Render.yields_ofExcept_iff.mp hnode))

/-- An assignment of a node renders the node once. -/
theorem spends_assignNode (target : String) (id : NodeId) :
    w.Spends weight (w.assignNode target id) (weight id) :=
  .after (.expression id) fun value _ => .assign target value

/-- So does a node that is moved to a temporary. -/
theorem spends_materializeNode (id : NodeId) :
    w.Spends weight (w.materializeNode id) (weight id) :=
  .after (.expression id) fun value _ => .materialize value

/-- What is no reference is moved to a temporary for free. -/
theorem spends_toReference (value : String) : w.Spends weight (toReference value) 0 :=
  .ite (fun _ => .pure value) fun _ => .materialize value

/-- A reference to a node renders the node once. -/
theorem spends_reference (id : NodeId) : w.Spends weight (w.reference id) (weight id) :=
  .after (.expression id) fun value _ => spends_toReference value

/-- To ask for loops costs nothing. -/
theorem spends_requireLoops (what : String) : w.Spends weight (w.requireLoops what) 0 :=
  .ite (fun _ => .pure ()) fun _ => spends_unsupported _

/-- The names of a default that there may be. -/
theorem spends_withDefault (value : String) (default : Option NodeId) :
    w.Spends weight (w.withDefault value default) (default.toList.map weight).sum := by
  cases default with
  | none => exact .pure value
  | some default =>
    refine .before (.materialize value) fun slot _ => ?_
    refine .after (.mono (.ifNull slot (spends_assignNode slot default)) ?_) fun _ _ => .pure slot
    simp

/-- What binds a name or a pattern spends the weight of the pattern and of the default. -/
theorem spends_bindElement (name : NodeId) (value : String) (default : Option NodeId) :
    w.Spends weight (w.bindElement name value default)
      (weight name + (default.toList.map weight).sum) := by
  refine .share (Nat.le_of_eq (Nat.add_comm _ _)) (spends_withDefault value default) ?_
  intro value _
  have hpattern : w.Spends weight (do
      let source ← toReference value
      w.expand name source) (weight name) :=
    .before (spends_toReference value) fun source _ => .expand name source
  refine spends_node fun node _ => ?_
  split
  · exact .of_free (.before (spends_address name) fun target _ => .assign target value)
  · exact hpattern
  · exact hpattern
  · exact spends_breach _

/-- The remainder of an object is copied key by key, and no node is rendered for it. -/
theorem spends_objectRest (source : String) (keys : List String) :
    w.Spends weight (objectRest source keys) 0 := by
  refine .before .freshTemp fun rest _ => .before (.assign rest _) fun _ _ => ?_
  refine .before .freshTemp fun key _ => .before (.openLoop key _) fun _ _ => ?_
  have hdone : w.Spends weight (do
      Render.close
      return rest) 0 :=
    .before .close fun _ _ => .pure rest
  cases keys with
  | nil => exact .before (.discard _) fun _ _ => hdone
  | cons first others => exact .before (.guarded _ (.discard _)) fun _ _ => hdone

/-- The variable of a loop is the address of a parameter or a new temporary. -/
theorem spends_loopVariable (parameter : Option NodeId) :
    w.Spends weight (w.loopVariable parameter) 0 := by
  cases parameter with
  | none => exact .freshTemp
  | some parameter =>
    refine spends_node fun node _ => ?_
    split
    · refine spends_node fun node _ => ?_
      split
      · exact spends_address _
      · exact .freshTemp
    · exact .freshTemp

/-- The body of a callback is rendered once, as a block or as a value. -/
theorem spends_callbackBody (body : NodeId) : w.Spends weight (w.callbackBody body) (weight body) := by
  refine spends_node fun node _ => ?_
  split
  · refine .before .freshTemp fun slot _ => .before (.assign slot _) fun _ _ => ?_
    exact .after (.statement body _) fun _ _ => .pure slot
  · exact spends_materializeNode body

/-! ### Parts of nodes -/

section

variable (h : w.arena.Weighs weight)

include h

/-- An argument is the expression in it, which weighs no more. -/
theorem spends_argument (id : NodeId) : w.Spends weight (w.argument id) (weight id) := by
  refine .mono (.after (.expression _) fun value _ => ?_) (h.argumentExpr_le id)
  exact spends_node fun node _ => .ite (fun _ => .materialize value) fun _ => .pure value

/-- Arguments cost what they weigh together. -/
theorem spends_arguments (ids : List NodeId) :
    w.Spends weight (w.arguments ids) (ids.map weight).sum :=
  .after (.mapM fun id _ => spends_argument h id) fun _ _ => .pure _

/-- Only a computed key is rendered, and it is a part of the node for the key. -/
theorem spends_propertyAccess (target : String) (name : NodeId) (key : Option NodeId) :
    w.Spends weight (w.propertyAccess target name key) (key.toList.map weight).sum := by
  cases key with
  | none =>
    refine spends_node fun node _ => ?_
    split
    · exact .pure _
    · exact .fault _
  | some key =>
    refine spends_node fun node hn => ?_
    split
    · exact .of_free (.pure _)
    · exact .of_free (.pure _)
    · next value => exact .of_free (.before (spends_number value) fun _ _ => .pure _)
    · next expr =>
      have hexpr : weight expr ≤ weight key := h.part_le ⟨_, hn, List.mem_singleton.mpr rfl⟩
      refine .mono (.after (spends_reference expr) fun _ _ => .pure _) ?_
      simpa using hexpr
    · exact .of_free (.fault _)

/-- What binding a rest element weighs, which is left for the end. -/
def restWeight (weight : NodeId → Nat) (rest : Option NodeId) : Nat :=
  (rest.toList.map weight).sum

/-- An element is bound at once, except for the rest element: its weight is kept for the end, and
that of a rest element found before is free to be lost. -/
theorem leaves_bindObjectElement (target : String) (state : List String × Option NodeId)
    (element : NodeId) :
    Spends.Leaves w weight (w.bindObjectElement target state element)
      (fun state => restWeight weight state.2) (restWeight weight state.2 + weight element) := by
  refine Spends.leaves_node fun node hn => ?_
  have hparts := h.parts_le hn
  cases node with
  | binding name key default rest =>
    simp only [Node.children, List.map_append, List.map_cons, List.sum_append,
      List.sum_cons] at hparts
    cases rest with
    | true =>
      refine Spends.leaves_pure ?_
      simp only [restWeight, Option.toList_some, List.map_cons, List.map_nil, List.sum_cons,
        List.sum_nil]
      omega
    | false =>
      refine ⟨(key.toList.map weight).sum + (weight name + (default.toList.map weight).sum),
        by omega, ?_, fun next hnext => ?_⟩
      · refine .bind (spends_propertyAccess h target name key) fun access _ => ?_
        exact .after (spends_bindElement name access.1 default) fun _ _ => .pure _
      · obtain ⟨access, -, hnext⟩ := hnext.of_bind
        obtain ⟨_, -, hnext⟩ := hnext.of_bind
        rw [← Render.yields_pure_iff.mp hnext]
        show _ + restWeight weight state.2 ≤ _
        omega
  | _ => exact Spends.leaves_fault _

/-- The remainder is bound behind the elements, from what they have left. -/
theorem spends_expandObject (elements : List NodeId) (target : String) :
    w.Spends weight (w.expandObject elements target) (elements.map weight).sum := by
  refine .mono (.foldlM (fun state element _ => leaves_bindObjectElement h target state element)
    ?_ ([], none)) ?_
  · rintro ⟨keys, _ | name⟩
    · exact .pure ()
    · refine .before (spends_objectRest target keys) fun remainder _ => ?_
      exact .mono (spends_bindElement name remainder none) (by simp [restWeight])
  · simp [restWeight]

/-- The elements of an array pattern share the weight in the same way. -/
theorem leaves_bindArrayElement (target : String) (rest : Option (Nat × NodeId))
    (element : NodeId × Nat) :
    Spends.Leaves w weight (w.bindArrayElement target rest element)
      (fun rest => restWeight weight (rest.map Prod.snd))
      (restWeight weight (rest.map Prod.snd) + weight element.1) := by
  refine Spends.leaves_node fun node hn => ?_
  have hparts := h.parts_le hn
  cases node with
  | hole => exact Spends.leaves_pure (Nat.le_add_right _ _)
  | binding name key default isRest =>
    simp only [Node.children, List.map_append, List.map_cons, List.sum_append,
      List.sum_cons] at hparts
    cases isRest with
    | true =>
      refine Spends.leaves_pure ?_
      simp only [restWeight, Option.map_some, Option.toList_some, List.map_cons, List.map_nil,
        List.sum_cons, List.sum_nil]
      omega
    | false =>
      refine ⟨weight name + (default.toList.map weight).sum, by omega, ?_, fun next hnext => ?_⟩
      · exact .after (spends_bindElement name _ default) fun _ _ => .pure rest
      · obtain ⟨_, -, hnext⟩ := hnext.of_bind
        rw [← Render.yields_pure_iff.mp hnext]
        show _ + restWeight weight (rest.map Prod.snd) ≤ _
        omega
  | _ => exact Spends.leaves_fault _

/-- Positions weigh nothing, so the elements weigh as much with them as without. -/
theorem spends_expandArray (elements : List NodeId) (target : String) :
    w.Spends weight (w.expandArray elements target) (elements.map weight).sum := by
  have hpositions : (elements.zipIdx.map fun element => weight element.1).sum =
      (elements.map weight).sum := by
    conv_rhs => rw [← List.zipIdx_map_fst 0 elements, List.map_map]
    rfl
  refine .mono (.foldlM (fun rest element _ => leaves_bindArrayElement h target rest element)
    ?_ none) ?_
  · rintro (_ | ⟨start, name⟩)
    · exact .pure ()
    · exact .mono (spends_bindElement name _ none) (by simp [restWeight])
  · simp [restWeight, hpositions]

/-- Binding a pattern spends no more than its weight. -/
theorem spends_expandPattern (pattern : NodeId) (target : String) :
    w.Spends weight (w.expandPattern pattern target) (weight pattern) := by
  refine spends_node fun node hn => ?_
  have hparts := h.parts_le hn
  split
  · exact .mono (spends_expandObject h _ target) hparts
  · exact .mono (spends_expandArray h _ target) hparts
  · exact spends_breach _

/-- So does binding a parameter. -/
theorem spends_bindParameter (parameter : NodeId) (source : String) :
    w.Spends weight (w.bindParameter parameter source) (weight parameter) := by
  refine spends_node fun node hn => ?_
  split
  · next name default =>
    have hparts : weight name + (default.toList.map weight).sum ≤ weight parameter := by
      simpa [Node.children] using h.parts_le hn
    refine spends_node fun node _ => ?_
    split
    · refine .before (spends_address name) fun target _ => ?_
      cases default with
      | none =>
        exact .of_free (.ite (fun _ => .before (.assign target source) fun _ _ => .pure ())
          fun _ => .pure ())
      | some default =>
        have hdefault : w.Spends weight (Render.ifNull target (w.assignNode target default))
            (weight parameter) := by
          refine .mono (.ifNull target (spends_assignNode target default)) ?_
          simp at hparts
          omega
        exact .ite (fun _ => .before (.assign target source) fun _ _ => hdefault) fun _ => hdefault
    · exact .mono (spends_bindElement name source default) hparts
  · exact spends_breach _

/-- Parameters are bound once each, whatever they are bound from. -/
theorem spends_bindParameters (parameters : List NodeId) (sources : List String) :
    w.Spends weight ((parameters.zip sources).forM fun (parameter, source) =>
      w.bindParameter parameter source) (parameters.map weight).sum := by
  have hpairs : ((parameters.zip sources).map fun binding => weight binding.1).sum ≤
      (parameters.map weight).sum := by
    induction parameters generalizing sources with
    | nil => simp
    | cons parameter rest ih =>
      cases sources with
      | nil => simp
      | cons source others =>
        simp only [List.zip_cons_cons, List.map_cons, List.sum_cons]
        exact Nat.add_le_add_left (ih others) _
  exact .mono (.forM fun binding _ => spends_bindParameter h binding.1 binding.2) hpairs

/-! ### List operations -/

/-- The callbacks of a chain and its source are rendered once each. -/
theorem spends_renderStages {source : NodeId} {header : String → String → Render Unit}
    (hheader : ∀ item list, w.Spends weight (header item list) 0) (stages : List ListCall)
    (item : String) :
    w.Spends weight (w.renderStages source header stages item)
      ((stages.map (ListCall.callbackWeight weight)).sum + weight source) := by
  induction stages generalizing item with
  | nil =>
    refine .share (Nat.le_of_eq (Nat.add_comm _ _)) (spends_reference source) fun list _ => ?_
    exact .before (hheader item list) fun _ _ => .pure list
  | cons stage inner ih =>
    refine .before (spends_loopVariable _) fun stageItem _ => ?_
    have hcallback : ∀ list, w.Spends weight (do
        w.bindItemParameters stage.parameters stageItem list
        let value ← w.callbackBody stage.body
        Render.assign item value
        return list) (stage.callbackWeight weight) := by
      intro list
      refine .bind (spends_bindParameters h stage.parameters _) fun _ _ => ?_
      refine .after (spends_callbackBody stage.body) fun value _ => ?_
      exact .before (.assign item value) fun _ _ => .pure list
    refine .share ?_ (ih stageItem) fun list _ => hcallback list
    rw [List.map_cons, List.sum_cons]
    omega

/-- The loop of a chain spends no more than the weight of the expression that it is over. -/
theorem spends_loopOver {header : String → String → Render Unit}
    (hheader : ∀ item list, w.Spends weight (header item list) 0) (receiver : NodeId)
    (item : String) (readsList : Bool) :
    w.Spends weight (w.loopOver receiver item readsList header) (weight receiver) :=
  .mono (spends_renderStages h hheader _ item) (h.fusedChain_le receiver readsList)

/-- A loop over items costs its receiver and the parameters that it binds. -/
theorem spends_itemLoop (c : ListCall) :
    w.Spends weight (w.itemLoop c) (weight c.receiver + (c.parameters.map weight).sum) := by
  refine .before (spends_loopVariable _) fun item _ => ?_
  refine .bind (spends_loopOver h Spends.openLoop c.receiver item _) fun list _ => ?_
  exact .after (spends_bindParameters h c.parameters _) fun _ _ => .pure item

/-- A mapping loop spends what the call weighs: receiver, parameters and body. -/
theorem spends_mapLoop (c : ListCall) :
    w.Spends weight (w.mapLoop c) (c.totalWeight weight) := by
  refine .before .freshTemp fun out _ => .before (.assign out _) fun _ _ => ?_
  refine .share (Nat.le_of_eq (Nat.add_assoc _ _ _)) (spends_itemLoop h c) fun _ _ => ?_
  refine .after (spends_callbackBody c.body) fun value _ => ?_
  exact .before (.discard _) fun _ _ => .before .close fun _ _ => .pure out

/-- So does a loop for effects. -/
theorem spends_forEachLoop (c : ListCall) :
    w.Spends weight (w.forEachLoop c) (c.totalWeight weight) := by
  refine .share (Nat.le_of_eq (Nat.add_assoc _ _ _)) (spends_itemLoop h c) fun _ _ => ?_
  refine .after (spends_callbackBody c.body) fun value _ => ?_
  exact .before .close fun _ _ => .pure _

/-- So does a filtering loop. -/
theorem spends_filterLoop (c : ListCall) :
    w.Spends weight (w.filterLoop c) (c.totalWeight weight) := by
  refine .before .freshTemp fun out _ => .before (.assign out _) fun _ _ => ?_
  refine .share (Nat.le_of_eq (Nat.add_assoc _ _ _)) (spends_itemLoop h c) fun item _ => ?_
  refine .after (spends_callbackBody c.body) fun keep _ => ?_
  exact .before (.guarded keep (.discard _)) fun _ _ => .before .close fun _ _ => .pure out

/-- One round of a reduction binds the parameters and renders the body. -/
theorem spends_reduceStep (c : ListCall) (acc item list : String) :
    w.Spends weight (w.reduceStep c acc item list) (c.callbackWeight weight) := by
  refine .bind (spends_bindParameters h c.parameters _) fun _ _ => ?_
  exact .after (spends_callbackBody c.body) fun value _ => .assign acc value

/-- A reduction also renders its initial value. -/
theorem spends_reduceLoop (c : ListCall) (initial : Option NodeId) :
    w.Spends weight (w.reduceLoop c initial)
      ((initial.toList.map weight).sum + c.totalWeight weight) := by
  refine .before .freshTemp fun acc _ => ?_
  cases initial with
  | none =>
    have hheader : ∀ item list, w.Spends weight (do
        emptyReduceGuard list
        Render.openLoop item list) 0 :=
      fun item list => .before (.guarded _ (.emit _)) fun _ _ => .openLoop item list
    have hround : ∀ item list, w.Spends weight (do
        Render.choice s!"{loopIndex} == 0" (Render.assign acc item) (w.reduceStep c acc item list)
        Render.close
        return acc) (c.callbackWeight weight) := by
      intro item list
      refine .mono (.after (.choice _ (.assign acc item) (spends_reduceStep h c acc item list)) ?_)
        (Nat.le_of_eq (Nat.zero_add _))
      exact fun _ _ => .before .close fun _ _ => .pure acc
    refine .before (spends_loopVariable _) fun item _ => ?_
    refine .share ?_ (spends_loopOver h hheader c.receiver item _) fun list _ => hround item list
    exact Nat.le_add_left _ _
  | some initial =>
    have hround : ∀ item list, w.Spends weight (do
        w.reduceStep c acc item list
        Render.close
        return acc) (c.callbackWeight weight) :=
      fun item list => .after (spends_reduceStep h c acc item list) fun _ _ =>
        .before .close fun _ _ => .pure acc
    refine .bind (n := ([initial].map weight).sum) ?_ fun _ _ => ?_
    · exact .mono (spends_assignNode acc initial) (by simp)
    · refine .before (spends_loopVariable _) fun item _ => ?_
      exact .bind (spends_loopOver h Spends.openLoop c.receiver item _) fun list _ =>
        hround item list

end

end Walker

end ClosureVtl
