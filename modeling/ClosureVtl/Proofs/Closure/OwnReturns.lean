/-
Module: ClosureVtl.Proofs.Closure.OwnReturns
Purpose: The returns in the own body of a closure, counted along the parts of a node.
Main exports:
  Arena.isOwn, Arena.ownReturns, Arena.Grown.ownReturns_eq, Node.valueParts,
  Arena.returnsValue, Arena.StatementsInPlace, Arena.StatementsInPlace.returnsIn_eq_zero
-/
import ClosureVtl.Proofs.Closure.CallbackNames

namespace ClosureVtl

/-!
A return belongs to the innermost function around it.  So the returns of a closure are those
at and below its root that are not inside of a further function.  Going down from a node, what
is its own is the node itself and what is own to its parts, where nothing behind a function is
counted.
-/

/-- Counting by a condition that is a sum of others, each item in one of the parts or alone. -/
theorem countP_eq_sum {α β : Type} {items : List α} {parts : List β} {hit own whole : α → Bool}
    {inPart : β → α → Bool}
    (h : ∀ item ∈ items, (if whole item then 1 else 0) =
      (if own item then 1 else 0) + parts.countP (inPart · item)) :
    items.countP (fun item => hit item && whole item) =
      items.countP (fun item => hit item && own item) +
        (parts.map fun part => items.countP fun item => hit item && inPart part item).sum := by
  induction items with
  | nil => simp
  | cons item rest ih =>
    have hrest := ih fun item hm => h item (List.mem_cons_of_mem _ hm)
    have hitem := h item List.mem_cons_self
    have hsum : (parts.map fun part => if (hit item && inPart part item) = true then 1 else 0).sum =
        if hit item then parts.countP (inPart · item) else 0 := by
      cases hit item with
      | false => simp
      | true => simpa using sum_ite_eq_countP parts (inPart · item)
    simp only [List.countP_cons, List.sum_map_add, hsum, hrest]
    cases hit item <;> simp at *
    omega

namespace Arena

variable {a : Arena} {root id part parent : NodeId} {node : Node}

/-- Whether a node is another one, or hangs below it with no function in between. -/
def isOwn (a : Arena) (root id : NodeId) : Bool :=
  id == root || (a.ancestors id).contains root &&
    ((a.ancestors id).takeWhile (· != root)).all fun outer => !a.isFunction outer

/-- Whether a node is a part, or own to a part that is no function. -/
def isOwnThrough (a : Arena) (part id : NodeId) : Bool :=
  part == id || !a.isFunction part && a.isOwn part id

/-- Whether a node returns from a closure. -/
def isReturn (a : Arena) (id : NodeId) : Bool :=
  match a.get? id with
  | some (.returnValue _) => true
  | _ => false

/-- The number of returns in the own body of a closure, or of a part of one. -/
def ownReturns (a : Arena) (root : NodeId) : Nat :=
  a.handles.countP fun id => a.isReturn id && a.isOwn root id

/-- The number of returns that belong to the closure around a part: none are in a further
function. -/
def returnsIn (a : Arena) (part : NodeId) : Nat :=
  if a.isFunction part then 0 else a.ownReturns part

/-- Whether a node is a statement. -/
def isStatement (a : Arena) (id : NodeId) : Bool := (a.get? id).any Node.isStatement

/-- Whether a closure is an expression, or a function whose body is one. -/
def returnsValue (a : Arena) (root : NodeId) : Bool :=
  match a.get? root with
  | some (.function _ body) => !a.isStatement body
  | _ => !a.isStatement root

theorem isStatement_eq (hn : a.get? id = some node) : a.isStatement id = node.isStatement := by
  rw [isStatement, hn, Option.any_some]

/-- A statement is a node of the arena. -/
theorem exists_of_isStatement (h : a.isStatement id = true) :
    ∃ node, a.get? id = some node ∧ node.isStatement = true := by
  rcases hn : a.get? id with _ | node
  · rw [isStatement, hn] at h
    cases h
  · exact ⟨node, rfl, by rwa [isStatement_eq hn] at h⟩

/-- A function is no return. -/
theorem not_isFunction_of_isReturn (h : a.isReturn id = true) : a.isFunction id = false := by
  unfold isReturn at h
  split at h
  · next hn => simp [isFunction, hn]
  · cases h

/-- Every node is among the handles once. -/
theorem countP_handles_eq (hid : root.index < a.size) (hit : NodeId → Bool) :
    (a.handles.countP fun id => hit id && id == root) = if hit root then 1 else 0 := by
  have hroot : ∀ id ∈ a.handles, ((hit id && id == root) = true ↔
      (id == root && hit root) = true) := by
    intro id hm
    cases hid : id == root with
    | true =>
      rw [beq_iff_eq] at hid
      simp [hid]
    | false => simp
  rw [List.countP_congr hroot]
  cases hit root with
  | true =>
    have hone := List.count_eq_one_of_mem a.nodup_handles (mem_handles_iff.mpr hid)
    rw [List.count_eq_countP] at hone
    simpa using hone
  | false => simp

/-- A statement is no function. -/
theorem isFunction_of_isStatement (hn : a.get? id = some node) (h : node.isStatement = true) :
    a.isFunction id = false := by
  unfold isFunction
  split
  · next hfunction =>
    cases hn.symm.trans hfunction
    cases h
  · rfl

/-- Only a return statement returns. -/
theorem isReturn_of_ne (hn : a.get? id = some node) (h : ∀ value, node ≠ .returnValue value) :
    a.isReturn id = false := by
  unfold isReturn
  split
  · next value hreturn =>
    cases hn.symm.trans hreturn
    exact absurd rfl (h value)
  · rfl

/-- Around what is no function there is one closure only. -/
theorem returnsIn_of_not_function (h : a.isFunction root = false) :
    a.returnsIn root = a.ownReturns root := by
  rw [returnsIn, h]
  rfl

/-- A function returns the value of its body unless that is a statement. -/
theorem returnsValue_of_function {parameters : List NodeId} {body : NodeId}
    (hn : a.get? root = some (.function parameters body)) :
    a.returnsValue root = !a.isStatement body := by
  rw [returnsValue, hn]

/-- Any other root returns its own value unless it is a statement. -/
theorem returnsValue_of_not_function (h : a.isFunction root = false) :
    a.returnsValue root = !a.isStatement root := by
  unfold returnsValue
  split
  · next parameters body hn =>
    rw [isFunction_iff.mpr ⟨parameters, body, hn⟩] at h
    cases h
  · rfl

/-! ### Towards the root -/

namespace Grown

theorem isOwn_self (a : Arena) (id : NodeId) : a.isOwn id id = true := by
  simp [isOwn]

/-- A node without parent belongs to no other body. -/
theorem isOwn_of_orphan (ha : a.Grown) (hp : a.parent? id = none) :
    a.isOwn root id = (id == root) := by
  rw [isOwn, ha.ancestors_of_orphan hp]
  simp

/-- Between a node and one around it stands the parent, unless that is the one. -/
theorem isOwn_of_parent? (ha : a.Grown) (hp : a.parent? id = some parent) (hne : id ≠ root) :
    a.isOwn root id = (parent == root || !a.isFunction parent && a.isOwn root parent) := by
  have hroot : (id == root) = false := beq_eq_false_iff_ne.mpr hne
  rw [isOwn, isOwn, ha.ancestors_of_parent? hp, hroot, Bool.false_or, List.contains_cons,
    List.takeWhile_cons, BEq.comm (a := root)]
  cases hparent : parent == root with
  | true => simp [bne, hparent]
  | false =>
    simp only [bne, hparent, Bool.not_false, if_true, List.all_cons, Bool.false_or]
    rw [← Bool.and_assoc, ← Bool.and_assoc, Bool.and_comm (List.contains _ _)]

/-- What is own to a node is within it. -/
theorem isWithin_of_isOwn (h : a.isOwn root id = true) : a.isWithin root id = true := by
  rw [isOwn, Bool.or_eq_true, Bool.and_eq_true] at h
  rw [isWithin, Bool.or_eq_true]
  exact h.imp_right And.left

/-! ### Parts -/

theorem isOwnThrough_of_orphan (ha : a.Grown) (hp : a.parent? id = none) :
    a.isOwnThrough part id = (part == id) := by
  rw [isOwnThrough, ha.isOwn_of_orphan hp, BEq.comm (a := id)]
  cases part == id <;> simp

/-- Behind a function nothing is own, neither to a part nor through it. -/
theorem isOwnThrough_of_parent? (ha : a.Grown) (hp : a.parent? id = some parent)
    (hne : part ≠ id) :
    a.isOwnThrough part id = (!a.isFunction parent && a.isOwnThrough part parent) := by
  have hpart : (part == id) = false := beq_eq_false_iff_ne.mpr hne
  rw [isOwnThrough, isOwnThrough, ha.isOwn_of_parent? hp hne.symm, hpart, Bool.false_or,
    BEq.comm (a := part)]
  cases hparent : parent == part with
  | true =>
    rw [beq_iff_eq] at hparent
    simp [hparent]
  | false => simp [Bool.and_left_comm]

/-- No node is own to one of its parts. -/
theorem isOwnThrough_part (ha : a.Grown) (hn : a.get? id = some node) (hm : part ∈ node.children) :
    a.isOwnThrough part id = false := by
  have hwithin : a.isWithin part id = false :=
    Bool.eq_false_of_not_eq_true (ha.not_isWithin_part hn hm)
  have hown : a.isOwn part id = false := by
    by_contra h
    rw [isWithin_of_isOwn (Bool.eq_true_of_not_eq_false h)] at hwithin
    cases hwithin
  have hne : (part == id) = false := by
    refine beq_eq_false_iff_ne.mpr ?_
    rintro rfl
    rw [isOwn_self] at hown
    cases hown
  rw [isOwnThrough, hown, hne, Bool.and_false, Bool.or_false]

/-- What is own to a node is the node, or is own to it through exactly one of its parts. -/
theorem isOwn_eq_countP (ha : a.Grown) (hn : a.get? root = some node) (hid : id.index < a.size) :
    (if a.isOwn root id then 1 else 0) =
      (if id == root then 1 else 0) + node.children.countP (a.isOwnThrough · id) := by
  -- on the way up from the node; at the root it meets the one part that it came through
  induction id using ha.induction_to_root with
  | root id hp =>
    have hcount := ha.count_children hn hid
    rw [if_neg (by simp [hp]), List.count_eq_countP] at hcount
    simp only [ha.isOwnThrough_of_orphan hp, ha.isOwn_of_orphan hp, hcount, Nat.add_zero]
  | step child parent hp ih =>
    have hcount := ha.count_children hn hid
    simp only [hp, List.count_eq_countP, Option.some.injEq] at hcount
    by_cases hchild : child = root
    · have hnone : node.children.countP (a.isOwnThrough · child) = 0 := by
        refine List.countP_eq_zero.mpr fun part hm => ?_
        rw [hchild, ha.isOwnThrough_part hn hm]
        decide
      rw [hnone, hchild, isOwn_self, beq_self_eq_true]
      rfl
    have hself : (child == root) = false := beq_eq_false_iff_ne.mpr hchild
    rw [ha.isOwn_of_parent? hp hchild, hself]
    by_cases hparent : parent = root
    · -- the node is a part itself, and own to no other one
      have hown : ∀ part ∈ node.children,
          (a.isOwnThrough part child = true ↔ (part == child) = true) := by
        intro part hm
        by_cases hpart : part = child
        · simp [hpart, isOwnThrough]
        · rw [ha.isOwnThrough_of_parent? hp hpart, hparent, ha.isOwnThrough_part hn hm]
          simp [hpart]
      rw [List.countP_congr hown, hcount, if_pos hparent, hparent]
      simp
    · have hparentNe : (parent == root) = false := beq_eq_false_iff_ne.mpr hparent
      have hthrough : ∀ part ∈ node.children, a.isOwnThrough part child =
          (!a.isFunction parent && a.isOwnThrough part parent) := by
        intro part hm
        refine ha.isOwnThrough_of_parent? hp ?_
        rintro rfl
        have hroot := ha.adopted ⟨node, hn, hm⟩ hid
        rw [hp, Option.some.injEq] at hroot
        exact hparent hroot
      have hup := ih (ha.parent_lt_size hp)
      rw [hparentNe] at hup ⊢
      rw [List.countP_congr fun part hm => by rw [hthrough part hm]]
      cases a.isFunction parent with
      | true => simp
      | false => simpa using hup

/-- The returns of a node are the node, if it is one, and the returns of its parts, of which
functions have their own. -/
theorem ownReturns_eq (ha : a.Grown) (hn : a.get? root = some node) :
    a.ownReturns root = (if a.isReturn root then 1 else 0) +
      (node.children.map a.returnsIn).sum := by
  have hsplit : (a.handles.countP fun id => a.isReturn id && a.isOwn root id) =
      (a.handles.countP fun id => a.isReturn id && id == root) +
        (node.children.map fun part =>
          a.handles.countP fun id => a.isReturn id && a.isOwnThrough part id).sum :=
    countP_eq_sum fun id hm => ha.isOwn_eq_countP hn (mem_handles_iff.mp hm)
  have hself : (a.handles.countP fun id => a.isReturn id && id == root) =
      if a.isReturn root then 1 else 0 := by
    rw [← countP_handles_eq (lt_size_of_get? hn) a.isReturn]
  -- through a function only the function itself can be reached, and that is no return
  have hparts : ∀ part, (a.handles.countP fun id => a.isReturn id && a.isOwnThrough part id) =
      a.returnsIn part := by
    intro part
    unfold returnsIn
    cases hfunction : a.isFunction part with
    | true =>
      refine List.countP_eq_zero.mpr fun id hm h => ?_
      simp only [isOwnThrough, hfunction, Bool.not_true, Bool.false_and, Bool.or_false,
        Bool.and_eq_true, beq_iff_eq] at h
      obtain ⟨hreturn, rfl⟩ := h
      rw [not_isFunction_of_isReturn hreturn] at hfunction
      cases hfunction
    | false =>
      refine List.countP_congr fun id hm => ?_
      rw [isOwnThrough, hfunction]
      cases hpart : part == id with
      | true =>
        rw [beq_iff_eq] at hpart
        simp [hpart, isOwn_self]
      | false => simp
  rw [ownReturns, hsplit, hself]
  simp only [hparts]

/-- The returns of a node are its own and those of its parts, as long as no function begins at
it. -/
theorem returnsIn_eq (ha : a.Grown) (hn : a.get? root = some node)
    (hfunction : a.isFunction root = false) :
    a.returnsIn root =
      (if a.isReturn root then 1 else 0) + (node.children.map a.returnsIn).sum := by
  rw [← ha.ownReturns_eq hn, returnsIn_of_not_function hfunction]

/-- Nothing is counted below a handle that leads nowhere. -/
theorem ownReturns_of_dangling (ha : a.Grown) (hn : a.get? root = none) :
    a.ownReturns root = 0 := by
  refine List.countP_eq_zero.mpr fun id hm h => ?_
  rw [Bool.and_eq_true] at h
  have hlt := ha.lt_size_of_isWithin (isWithin_of_isOwn h.2) (mem_handles_iff.mp hm)
  rw [get?_eq_none_iff] at hn
  omega

end Grown

end Arena

/-! ### Statements in their places -/

/-- The parts of a node that are no statements in the source text: all of them, unless the node
is a block, a branch, a loop or a function. -/
def Node.valueParts : Node → List NodeId
  | block _ => []
  | branch test _ _ => [test]
  | forOf _ iterable _ | forIn _ iterable _ => [iterable]
  | whileLoop test _ | doWhile _ test => [test]
  | forLoop _ test step _ => test.toList ++ step.toList
  | function parameters _ => parameters
  | node => node.children

/-- In an expression all parts are values. -/
theorem Node.valueParts_eq_children {node : Node} (h : node.isStatement = false)
    (hfunction : ∀ parameters body, node ≠ .function parameters body) :
    node.valueParts = node.children := by
  cases node with
  | function parameters body => exact absurd rfl (hfunction parameters body)
  | block _ | branch _ _ _ | forOf _ _ _ | forIn _ _ _ | whileLoop _ _ | doWhile _ _
  | forLoop _ _ _ _ => cases h
  | _ => rfl

namespace Arena

variable {a : Arena} {id part : NodeId} {node : Node}

/-- Whether statements are statements of blocks, sides of branches, bodies and bindings of loops
and bodies of functions, or hang below no node. -/
def StatementsInPlace (a : Arena) : Prop :=
  ∀ {id part : NodeId} {node inner : Node}, a.get? id = some node → part ∈ node.valueParts →
    a.get? part = some inner → inner.isStatement = false

/-- Where statements are in place, no value is one. -/
theorem StatementsInPlace.isStatement_part (hs : a.StatementsInPlace) (hn : a.get? id = some node)
    (hm : part ∈ node.valueParts) : a.isStatement part = false := by
  rcases hpart : a.get? part with _ | inner
  · simp [isStatement, hpart]
  · simpa [isStatement, hpart] using hs hn hm hpart

/-- Whether statements are in place can be checked node by node. -/
theorem statementsInPlace_iff :
    a.StatementsInPlace ↔ ∀ id ∈ a.handles, ∀ node ∈ a.get? id, ∀ part ∈ node.valueParts,
      ∀ inner ∈ a.get? part, inner.isStatement = false := by
  constructor
  · intro h id _ node hn part hm inner hinner
    exact h hn hm hinner
  · intro h id part node inner hn hm hinner
    exact h id (mem_handles_iff.mpr (lt_size_of_get? hn)) node hn part hm inner hinner

instance (a : Arena) : Decidable a.StatementsInPlace := decidable_of_iff' _ statementsInPlace_iff

namespace StatementsInPlace

/-- Below an expression there are no statements but those inside of functions, so no return
belongs to the closure around it. -/
theorem returnsIn_eq_zero (hs : a.StatementsInPlace) (ha : a.Grown)
    (h : a.isStatement id = false) : a.returnsIn id = 0 := by
  induction hk : id.index using Nat.strongRecOn generalizing id with
  | ind k ih =>
    cases hfunction : a.isFunction id with
    | true => rw [returnsIn, hfunction, if_pos rfl]
    | false =>
      rcases hn : a.get? id with _ | node
      · rw [returnsIn_of_not_function hfunction, ha.ownReturns_of_dangling hn]
      have hstatement : node.isStatement = false := by rwa [isStatement_eq hn] at h
      have hreturn : a.isReturn id = false := by
        refine isReturn_of_ne hn ?_
        rintro value rfl
        cases hstatement
      have hvalues : node.valueParts = node.children := by
        refine Node.valueParts_eq_children hstatement ?_
        rintro parameters body rfl
        simp [isFunction, hn] at hfunction
      have hparts : ∀ part ∈ node.children, a.returnsIn part = 0 := by
        intro part hm
        by_cases hpart : part.index < a.size
        · have holder : part.index < k := hk ▸ ha.older ⟨node, hn, hm⟩ hpart
          exact ih part.index holder (hs.isStatement_part hn (hvalues ▸ hm)) rfl
        · have hdangling : a.get? part = none := get?_eq_none_iff.mpr (Nat.le_of_not_lt hpart)
          rw [returnsIn, ha.ownReturns_of_dangling hdangling, ite_self]
      rw [ha.returnsIn_eq hn hfunction, hreturn, List.sum_eq_zero (by simpa using hparts)]
      rfl

/-- No return of a closure is in a part that is no statement. -/
theorem returnsIn_part (hs : a.StatementsInPlace) (ha : a.Grown) (hn : a.get? id = some node)
    (hm : part ∈ node.valueParts) : a.returnsIn part = 0 :=
  hs.returnsIn_eq_zero ha (hs.isStatement_part hn hm)

/-- So a node with no other parts has no returns but itself. -/
theorem returnsIn_of_values (hs : a.StatementsInPlace) (ha : a.Grown) (hn : a.get? id = some node)
    (hfunction : a.isFunction id = false) (hvalues : node.valueParts = node.children) :
    a.returnsIn id = if a.isReturn id then 1 else 0 := by
  have hparts : ∀ count ∈ node.children.map a.returnsIn, count = 0 := by
    intro count hm
    obtain ⟨part, hpart, rfl⟩ := List.mem_map.mp hm
    exact hs.returnsIn_part ha hn (hvalues ▸ hpart)
  rw [ha.returnsIn_eq hn hfunction, List.sum_eq_zero hparts, Nat.add_zero]

/-- The own returns of a function are those of its body. -/
theorem ownReturns_of_function (hs : a.StatementsInPlace) (ha : a.Grown)
    {parameters : List NodeId} {body : NodeId}
    (hn : a.get? id = some (.function parameters body)) : a.ownReturns id = a.returnsIn body := by
  have hparameters : (parameters.map a.returnsIn).sum = 0 := by
    refine List.sum_eq_zero fun count hm => ?_
    obtain ⟨parameter, hparameter, rfl⟩ := List.mem_map.mp hm
    exact hs.returnsIn_part ha hn hparameter
  rw [ha.ownReturns_eq hn]
  simp [isReturn, hn, Node.children, hparameters]

end StatementsInPlace

end Arena

end ClosureVtl
