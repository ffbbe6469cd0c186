/-
Module: ClosureVtl.Proofs.Render.UnreadParts
Purpose: The parts of a closure that no rule reads, and nodes that are found in no other part.
Main exports:
  Node.isUnsupported, Arena.Unread, Arena.Clean, Arena.Clean.of_parts, Arena.clean_of_listCall,
  Render.Succeeds
-/
import ClosureVtl.Proofs.Render.ExpressionParts
import ClosureVtl.Proofs.Render.LoopCount

namespace ClosureVtl

/-!
Most rules render each part of their node, or fault.  Some of them pass over parts, though.  The
parameters of the outermost closure are addressed by their positions, so nothing in them is
rendered.  A list operation takes as many arguments as it has a use for, and its callback as many
parameters as it is given values.  A rest element is bound without its key and its default, and
only the last one of a pattern is bound at all.

`Arena.Unread` lists these parts.  A subtree is *clean* if whatever it has of the unsupported
kinds stands in unread parts.  It is if the parts of its node are, one by one, clean or unread.
-/

/-- Whether there is no rule for a node in a resolver. -/
def Node.isUnsupported : Node → Bool
  | whileLoop .. | doWhile .. | forLoop .. | tryCatch .. | throw _ | continueLoop | typeOf _
  | construct .. => true
  | _ => false

namespace Arena

/-! ### Parts that are passed over -/

/-- The number of arguments that a list operation has a use for. -/
def argumentsRead : Walker.ListOperation → Nat
  | .map | .forEach | .filter => 1
  | .reduce => 2

/-- The number of values that the callback of a list operation is given. -/
def valuesGiven (operation : Walker.ListOperation) : Nat := listPosition operation + 1

/-- The name of a rest element. -/
def restName? (a : Arena) (element : NodeId) : Option NodeId :=
  match a.get? element with
  | some (.binding name _ _ true) => some name
  | _ => none

/-- The name of the last rest element of a pattern. -/
def lastRest? (a : Arena) (elements : List NodeId) : Option NodeId :=
  (elements.filterMap a.restName?).getLast?

/-- Whether a part of a node is never rendered when a closure is. -/
inductive Unread (a : Arena) (root : NodeId) : NodeId → NodeId → Prop where
  /-- the parameters of the closure are addressed by their positions -/
  | rootParameter {parameters : List NodeId} {body part : NodeId}
      (node : a.get? root = some (.function parameters body)) (among : part ∈ parameters) :
      Unread a root root part
  /-- a list operation leaves out further arguments -/
  | argument {id part : NodeId} {operation : Walker.ListOperation} {c : ListCall}
      {args : List NodeId} (calls : a.CallsList id operation c args)
      (behind : part ∈ args.drop (argumentsRead operation)) : Unread a root (a.unwrapParens id) part
  /-- and its callback further parameters -/
  | parameter {id first part : NodeId} {operation : Walker.ListOperation} {c : ListCall}
      {others : List NodeId} (calls : a.CallsList id operation c (first :: others))
      (behind : part ∈ c.parameters.drop (valuesGiven operation)) :
      Unread a root (a.argumentExpr first) part
  /-- a rest element is bound without key and default -/
  | restPart {id name part : NodeId} {key default : Option NodeId}
      (node : a.get? id = some (.binding name key default true))
      (among : part ∈ key.toList ++ default.toList) : Unread a root id part
  /-- a rest element that another one follows is not bound -/
  | earlierRest {id element name : NodeId} {pattern : Node} (node : a.get? id = some pattern)
      (isPattern : pattern.isPattern = true) (among : element ∈ pattern.children)
      (rest : a.restName? element = some name)
      (earlier : a.lastRest? pattern.children ≠ some name) : Unread a root element name
  /-- elements of array patterns go by their positions -/
  | arrayKey {id element name key : NodeId} {elements : List NodeId} {default : Option NodeId}
      (node : a.get? id = some (.arrayPattern elements)) (among : element ∈ elements)
      (binding : a.get? element = some (.binding name (some key) default false)) :
      Unread a root element key
  /-- what a loop declares takes its values from the loop -/
  | loopValue {id target iterable body name value : NodeId} {kind : DeclKind}
      (node : a.get? id = some (.forOf target iterable body) ∨
        a.get? id = some (.forIn target iterable body))
      (declared : a.get? target = some (.declaration kind name (some value))) :
      Unread a root target value

variable {a : Arena} {root id part : NodeId} {node : Node}

/-- A rest element is a binding with a name that is marked so. -/
theorem restName?_eq_some_iff {name : NodeId} :
    a.restName? id = some name ↔
      ∃ key default, a.get? id = some (.binding name key default true) := by
  unfold restName?
  split
  · next found _ _ hn => simp [hn]
  · next hno => simpa using fun key default => hno name key default

/-- A callback is a function that is the first argument. -/
theorem callback?_eq_some_iff {args parameters : List NodeId} {body : NodeId} :
    a.callback? args = some (parameters, body) ↔ ∃ first others, args = first :: others ∧
      a.get? (a.argumentExpr first) = some (.function parameters body) := by
  unfold callback?
  cases args with
  | nil => simp
  | cons first others =>
    dsimp only
    split
    · next found hn => simp [hn]
    · next hno => simpa using hno parameters body

/-- An unread part is a part. -/
theorem Unread.lists (h : a.Unread root id part) : a.Lists id part := by
  cases h with
  | rootParameter node among => exact ⟨_, node, List.mem_append_left _ among⟩
  | argument calls behind =>
    obtain ⟨callee, name, hn, -, -⟩ := calls.call
    exact ⟨_, hn, List.mem_cons_of_mem _ (List.mem_of_mem_drop behind)⟩
  | parameter calls behind =>
    obtain ⟨_, _, ⟨⟩, hfunction⟩ := callback?_eq_some_iff.mp calls.callback
    exact ⟨_, hfunction, List.mem_append_left _ (List.mem_of_mem_drop behind)⟩
  | restPart node among => exact ⟨_, node, by simp [Node.children] at *; tauto⟩
  | earlierRest _ _ _ rest _ =>
    obtain ⟨key, default, hn⟩ := restName?_eq_some_iff.mp rest
    exact ⟨_, hn, by simp [Node.children]⟩
  | arrayKey _ _ binding => exact ⟨_, binding, by simp [Node.children]⟩
  | loopValue _ declared => exact ⟨_, declared, by simp [Node.children]⟩

/-! ### Clean subtrees -/

/-- Whether whatever a subtree has of the unsupported kinds stands in unread parts of it. -/
def Clean (a : Arena) (root id : NodeId) : Prop :=
  ∀ ⦃inner node⦄, a.Below id inner → a.get? inner = some node → node.isUnsupported = true →
    ∃ owner part, a.Below id owner ∧ a.Unread root owner part ∧ a.Below part inner

/-- A subtree is clean if its node is supported and its parts are clean or unread. -/
theorem Clean.of_parts (hn : a.get? id = some node) (hnode : node.isUnsupported = false)
    (hparts : ∀ part ∈ node.children, a.Clean root part ∨ a.Unread root id part) :
    a.Clean root id := by
  intro inner found hbelow hfound hunsupported
  cases hbelow with
  | self =>
    cases hn.symm.trans hfound
    exact absurd (hnode.symm.trans hunsupported) Bool.false_ne_true
  | @part _ part _ hl hbelow =>
    rcases hparts part (hl.mem_children hn) with hpart | hunread
    · obtain ⟨owner, passed, howner, hunread, hinner⟩ := hpart hbelow hfound hunsupported
      exact ⟨owner, passed, .part hl howner, hunread, hinner⟩
    · exact ⟨id, part, .self id, hunread, hbelow⟩

/-- So it is if they are all clean. -/
theorem Clean.of_children (hn : a.get? id = some node) (hnode : node.isUnsupported = false)
    (hparts : ∀ part ∈ node.children, a.Clean root part) : a.Clean root id :=
  .of_parts hn hnode fun part hm => .inl (hparts part hm)

/-- A node without parts has nothing unsupported below it. -/
theorem Clean.of_leaf (hn : a.get? id = some node) (hnode : node.isUnsupported = false)
    (hleaf : node.children = []) : a.Clean root id :=
  .of_children hn hnode (by simp [hleaf])

/-- Parentheses add nothing. -/
theorem Clean.of_unwrapParens (h : a.Clean root (a.unwrapParens id)) : a.Clean root id := by
  have hwithin : ∀ n id, a.Clean root (a.unwrapParensWithin n id) → a.Clean root id := by
    intro n
    induction n with
    | zero => exact fun id h => h
    | succ n ih =>
      intro id h
      rw [unwrapParensWithin] at h
      split at h
      · next expr hn => exact .of_children hn rfl (by simpa [Node.children] using ih expr h)
      · exact h
  exact hwithin a.size id h

/-- Neither does the wrapper of an argument. -/
theorem Clean.of_argumentExpr (h : a.Clean root (a.argumentExpr id)) : a.Clean root id := by
  unfold argumentExpr at h
  split at h
  · next expr name hn =>
    exact .of_children hn rfl (by simpa [Node.children] using h.of_unwrapParens)
  · exact h.of_unwrapParens

/-- A callee that leads to an integration is a name. -/
theorem clean_of_resolveIntegration {called : IntegrationId}
    (h : a.resolveIntegration id = some called) : a.Clean root id := by
  unfold resolveIntegration resolveIntegrationWithin at h
  dsimp only at h
  apply Clean.of_unwrapParens
  split at h
  · next hn => exact .of_leaf hn rfl rfl
  · next hn => exact .of_leaf hn rfl rfl
  · cases h

/-- The call of a list operation is clean if what it reads is. -/
theorem clean_of_listCall {operation : Walker.ListOperation} {c : ListCall} {args : List NodeId}
    (calls : a.CallsList id operation c args) (hreceiver : a.Clean root c.receiver)
    (hparameters : ∀ parameter ∈ c.parameters.take (valuesGiven operation), a.Clean root parameter)
    (hbody : a.Clean root c.body)
    (hothers : ∀ arg ∈ args.tail.take (argumentsRead operation - 1), a.Clean root arg) :
    a.Clean root id := by
  obtain ⟨callee, name, hn, hmember, -⟩ := calls.call
  obtain ⟨first, others, rfl, hfunction⟩ := callback?_eq_some_iff.mp calls.callback
  have hfirst : a.Clean root first := by
    refine .of_argumentExpr (.of_parts hfunction rfl fun part hm => ?_)
    rcases List.mem_append.mp hm with hm | hm
    · rw [← List.take_append_drop (valuesGiven operation) c.parameters] at hm
      exact (List.mem_append.mp hm).imp (hparameters part) (.parameter calls)
    · exact .inl (List.mem_singleton.mp hm ▸ hbody)
  refine .of_unwrapParens (.of_parts hn rfl fun part hm => ?_)
  rcases List.mem_cons.mp hm with rfl | hm
  · exact .inl (.of_unwrapParens (.of_children hmember rfl (by simpa [Node.children])))
  rcases List.mem_cons.mp hm with rfl | hm
  · exact .inl hfirst
  rw [← List.take_append_drop (argumentsRead operation - 1) others] at hm
  refine (List.mem_append.mp hm).imp (hothers part) fun hm => .argument calls ?_
  cases operation <;> exact hm

/-- So is an expression that is looped over, by stages that share the loop. -/
theorem clean_of_mapStage? {stage : ListCall} (h : a.mapStage? id = some stage)
    (hreceiver : a.Clean root stage.receiver)
    (hparameters : ∀ parameter ∈ stage.parameters.take 3, a.Clean root parameter)
    (hbody : a.Clean root stage.body) : a.Clean root id := by
  obtain ⟨args, calls⟩ := callsList_of_mapStage? h
  exact clean_of_listCall calls hreceiver hparameters hbody (by simp [argumentsRead])

end Arena

/-! ### Runs that end well -/

namespace Render

variable {α β σ : Type} {x : Render α} {f : α → Render β}

/-- Whether there is a run of a step that ends well. -/
def Succeeds (x : Render α) : Prop := ∃ value, x.Yields value

theorem Yields.succeeds {value : α} (h : x.Yields value) : x.Succeeds := ⟨value, h⟩

/-- A fault is no success. -/
theorem not_succeeds_fault {f : Fault} : ¬ (fault f : Render α).Succeeds :=
  fun ⟨_, h⟩ => not_yields_fault h

/-- Both parts of a sequence succeed. -/
theorem Succeeds.bind (h : (x >>= f).Succeeds) : ∃ value, x.Yields value ∧ (f value).Succeeds := by
  obtain ⟨result, h⟩ := h
  obtain ⟨value, hx, hf⟩ := h.of_bind
  exact ⟨value, hx, result, hf⟩

theorem Succeeds.first (h : (x >>= f).Succeeds) : x.Succeeds := by
  obtain ⟨value, hx, -⟩ := h.bind
  exact hx.succeeds

/-- Each round of a loop succeeds. -/
theorem Succeeds.forM {items : List α} {f : α → Render PUnit} (h : (items.forM f).Succeeds) :
    ∀ item ∈ items, (f item).Succeeds := by
  induction items with
  | nil => simp
  | cons item rest ih =>
    obtain ⟨_, hitem, hrest⟩ := h.bind
    exact List.forall_mem_cons.mpr ⟨hitem.succeeds, ih hrest⟩

theorem Succeeds.mapM {items : List α} (h : (items.mapM f).Succeeds) :
    ∀ item ∈ items, (f item).Succeeds := by
  induction items with
  | nil => simp
  | cons item rest ih =>
    rw [List.mapM_cons] at h
    obtain ⟨_, hitem, hrest⟩ := h.bind
    exact List.forall_mem_cons.mpr ⟨hitem.succeeds, ih hrest.first⟩

/-- Each item of a fold has its step, and what the state keeps is what the last item that has
such a thing leaves in it. -/
theorem Yields.foldlM (P : α → Prop) (kept : σ → Option β) (next : α → Option β)
    {f : σ → α → Render σ} {items : List α} {start result : σ}
    (hstep : ∀ state item state', item ∈ items → (f state item).Yields state' →
      P item ∧ kept state' = (next item).or (kept state))
    (h : (items.foldlM f start).Yields result) :
    (∀ item ∈ items, P item) ∧ kept result = (items.filterMap next).getLast?.or (kept start) := by
  induction items generalizing start with
  | nil =>
    rw [List.foldlM_nil, yields_pure_iff] at h
    simp [h]
  | cons item rest ih =>
    rw [List.foldlM_cons] at h
    obtain ⟨state, hitem, hrest⟩ := h.of_bind
    obtain ⟨hP, hkept⟩ := hstep start item state List.mem_cons_self hitem
    obtain ⟨hall, hresult⟩ :=
      ih (fun state item state' hm => hstep state item state' (List.mem_cons_of_mem _ hm)) hrest
    refine ⟨List.forall_mem_cons.mpr ⟨hP, hall⟩, ?_⟩
    rw [hresult, hkept, List.filterMap_cons]
    cases next item with
    | none => simp
    | some value =>
      cases hlast : (rest.filterMap next).getLast? <;> simp [List.getLast?_cons, hlast]

variable {condition : String} {body yes no : Render Unit}

/-- A guarded body succeeds; so it was rendered. -/
theorem Succeeds.guarded (h : (guarded condition body).Succeeds) : body.Succeeds := by
  obtain ⟨_, -, h⟩ := h.bind
  exact h.first

/-- Both halves of a choice are rendered, so both succeed. -/
theorem Succeeds.choice (h : (choice condition yes no).Succeeds) : yes.Succeeds ∧ no.Succeeds := by
  obtain ⟨_, -, h⟩ := h.bind
  obtain ⟨_, hyes, h⟩ := h.bind
  obtain ⟨_, -, h⟩ := h.bind
  exact ⟨hyes.succeeds, h.first⟩

end Render

/-- The node that a rule looks at exists. -/
theorem Walker.exists_node {w : Walker} {id : NodeId} {β : Type} {f : Node → Render β}
    (h : (w.node id >>= f).Succeeds) : ∃ node, w.arena.get? id = some node ∧ (f node).Succeeds := by
  obtain ⟨node, hn, hf⟩ := h.bind
  exact ⟨node, yields_node_iff.mp hn, hf⟩

end ClosureVtl
