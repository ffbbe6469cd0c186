/-
Module: ClosureVtl.Proofs.Render.OperatorText
Purpose: Which expressions of operators, accesses, names and literals are rendered alike.
Main exports:
  Declared, Arena.Operators, Storage.tree?, OperatorTree.placed, Arena.placed, Render.Gives,
  Program.gives_operators, operatorText_eq_iff
-/
import ClosureVtl.Proofs.Closure.Subtree
import ClosureVtl.Proofs.Render.AddressClash
import ClosureVtl.Proofs.Render.OperatorTree

namespace ClosureVtl

/-!
The text of an expression is that of a tree, but not of the tree that the source has: a name
is printed as its address, and some addresses are accesses themselves.  A parameter of the
outermost closure and a field of the runtime's context are the same if their accesses are, and
nothing in a text tells them apart.  So each name of the source tree is replaced by the tree
that its address is the text of, and two expressions are rendered alike if this makes their
trees the same.
-/

/-! ### Trees of the source -/

/-- A name and what it refers to. -/
structure Declared where
  name : PlainName
  declaration : NodeId
deriving DecidableEq

/-- The operator whose symbol stands between two operands.  Strict and loose comparison are
one. -/
def BinaryOp.inlineOp? : BinaryOp → Option InlineOp
  | add => some .add
  | sub => some .sub
  | mul => some .mul
  | div => some .div
  | mod => some .mod
  | eq | strictEq => some .eq
  | ne | strictNe => some .ne
  | lt => some .lt
  | le => some .le
  | gt => some .gt
  | ge => some .ge
  | and => some .and
  | or => some .or
  | _ => none

/-- An operator with a symbol of its own is composed inline. -/
theorem BinaryOp.form_of_inlineOp? {op : BinaryOp} {inline : InlineOp}
    (h : op.inlineOp? = some inline) : op.form = .inline inline.symbol := by
  cases op <;> cases h <;> rfl

def UnaryOp.sign? : UnaryOp → Option OperatorTree.Sign
  | not => some .not
  | neg => some .neg
  | _ => none

/-- The literal that a node is: a boolean, a string, or a finite number from zero on.  Both zeros
are the same number. -/
def Node.literal? : Node → Option OperatorTree.Literal
  | boolean value => some (.boolean value)
  | number value =>
    if value.isFinite && value.isNonnegative then some (.number ⟨value.unsigned, rfl⟩) else none
  | string text => some (.string text)
  | _ => none

/-- Whether an expression is a tree of declared names, literals, accesses and operators, all names
being plain.  Parentheses may stand anywhere, and leave no trace in the tree. -/
inductive Arena.Operators (a : Arena) : NodeId → OperatorTree Declared → Prop where
  | name {id declaration : NodeId} {plain : PlainName}
      (node : a.get? id = some (.identifier plain.text))
      (declared : a.lookup id = some declaration) :
      Operators a id (.name ⟨plain, declaration⟩)
  | literal {id : NodeId} {node : Node} {value : OperatorTree.Literal}
      (node_eq : a.get? id = some node) (value_eq : node.literal? = some value) :
      Operators a id (.literal value)
  | paren {id expr : NodeId} {tree : OperatorTree Declared}
      (node : a.get? id = some (.paren expr)) (inner : Operators a expr tree) :
      Operators a id tree
  | member {id base : NodeId} {plain : PlainName} {tree : OperatorTree Declared}
      (node : a.get? id = some (.member base plain.text)) (inner : Operators a base tree) :
      Operators a id (.access tree (.member plain))
  | element {id base key : NodeId} {tree : OperatorTree Declared}
      {value : OperatorTree.Literal} (node : a.get? id = some (.element base key))
      (inner : Operators a base tree) (literal : Operators a key (.literal value)) :
      Operators a id (.access tree (.element value))
  | unary {id operand : NodeId} {op : UnaryOp} {sign : OperatorTree.Sign}
      {tree : OperatorTree Declared} (node : a.get? id = some (.unary op operand))
      (sign_eq : op.sign? = some sign) (inner : Operators a operand tree) :
      Operators a id (.signed sign tree)
  | binary {id left right : NodeId} {op : BinaryOp} {inline : InlineOp}
      {leftTree rightTree : OperatorTree Declared}
      (node : a.get? id = some (.binary left op right)) (op_eq : op.inlineOp? = some inline)
      (leftInner : Operators a left leftTree) (rightInner : Operators a right rightTree) :
      Operators a id (.binary leftTree inline rightTree)

/-! ### Addresses as trees -/

/-- The variable of the resolver's runtime. -/
def contextTree : OperatorTree PlainName := .name ⟨"context", by decide⟩

/-- The accessor of a parameter of the outermost closure, as a tree. -/
def Dialect.accessor? : Dialect → Nat → Option (OperatorTree PlainName)
  | .resolver _, 0 => some (.access contextTree (.member ⟨"arguments", by decide⟩))
  | .mapping .., 0 =>
    some (.access (.access (.name ⟨"input", by decide⟩) (.member ⟨"path", by decide⟩)) .payload)
  | _, 1 => some contextTree
  | _, _ => none

/-- The address of a plain name in its storage, as a tree. -/
def Storage.tree? (dialect : Dialect) (name : PlainName) : Storage → Option (OperatorTree PlainName)
  | accessor index => dialect.accessor? index
  | stash => some (.access (.access contextTree (.member ⟨"stash", by decide⟩)) (.member name))
  | plain => some (.name name)
  | reserved => none

/-- The tree of a parameter's address has the address as its text. -/
theorem Dialect.text_accessor? (dialect : Dialect) (index : Nat) :
    (dialect.accessor? index).map OperatorTree.text = dialect.rootParameter? index := by
  rcases dialect with config | ⟨direction, config⟩ <;> rcases index with _ | _ | index <;> rfl

/-- Plain names are not reserved; those begin with a dollar sign. -/
theorem PlainName.not_isReservedName (plain : PlainName) : isReservedName plain.text = false := by
  obtain ⟨first, rest, htext, -, hchars⟩ := plain.exists_cons
  unfold isReservedName
  rw [htext, List.head?_cons]
  refine Bool.eq_false_of_not_eq_true fun hdollar => ?_
  obtain rfl : first = '$' := by simpa using hdollar
  exact absurd (hchars '$' List.mem_cons_self) (by decide)

/-- The tree of an address is printed as the address. -/
theorem Storage.text_tree? {storage : Storage} (hreserved : storage ≠ .reserved)
    (dialect : Dialect) (plain : PlainName) :
    (storage.tree? dialect plain).map OperatorTree.text = storage.address? dialect plain.text := by
  cases storage with
  | accessor index => exact dialect.text_accessor? index
  | stash =>
    have hfields : (OperatorTree.access (.access contextTree (.member ⟨"stash", by decide⟩))
        (.member plain)).text = "$context.stash." ++ plain.text := by
      apply String.toList_injective
      simp [OperatorTree.text, contextTree, OperatorTree.Access.text]
    exact congrArg some hfields
  | plain => rfl
  | reserved => exact absurd rfl hreserved

/-- An address has no operator in it. -/
theorem Storage.isGrouped_tree? {storage : Storage} {dialect : Dialect} {plain : PlainName}
    {tree : OperatorTree PlainName} (h : storage.tree? dialect plain = some tree) :
    tree.isGrouped = true ∧ tree.isSigned = false := by
  cases storage with
  | accessor index =>
    rcases dialect with config | ⟨direction, config⟩ <;> rcases index with _ | _ | index <;>
      cases h <;> exact ⟨rfl, rfl⟩
  | stash =>
    cases h
    exact ⟨rfl, rfl⟩
  | plain =>
    cases h
    exact ⟨rfl, rfl⟩
  | reserved => cases h

namespace OperatorTree

/-- A tree in which each name is replaced by the tree of its address; `none` if a name has no
address. -/
def placed {ν μ : Type} (address : ν → Option (OperatorTree μ)) :
    OperatorTree ν → Option (OperatorTree μ)
  | name declared => address declared
  | literal value => some (.literal value)
  | access base step => (base.placed address).map fun base => .access base step
  | signed sign operand => (operand.placed address).map fun operand => .signed sign operand
  | binary left op right =>
    (left.placed address).bind fun left =>
      (right.placed address).map fun right => .binary left op right

/-- Names are never replaced by a tree with a sign, so the signs stay outside of accesses. -/
theorem isGrouped_placed {ν μ : Type} {address : ν → Option (OperatorTree μ)}
    (haddress : ∀ declared tree, address declared = some tree →
      tree.isGrouped = true ∧ tree.isSigned = false)
    {tree : OperatorTree ν} {result : OperatorTree μ} (hgrouped : tree.isGrouped = true)
    (h : tree.placed address = some result) :
    result.isGrouped = true ∧ (tree.isSigned = false → result.isSigned = false) := by
  induction tree generalizing result with
  | name declared =>
    obtain ⟨hresult, hsigned⟩ := haddress declared result h
    exact ⟨hresult, fun _ => hsigned⟩
  | literal value =>
    cases h
    exact ⟨rfl, fun _ => rfl⟩
  | access base step ih =>
    obtain ⟨inner, hinner, rfl⟩ := Option.map_eq_some_iff.mp h
    rw [isGrouped, Bool.and_eq_true, Bool.not_eq_true'] at hgrouped
    obtain ⟨hbase, hsigned⟩ := ih hgrouped.2 hinner
    refine ⟨?_, fun _ => rfl⟩
    rw [isGrouped, hbase, hsigned hgrouped.1]
    rfl
  | signed sign operand ih =>
    obtain ⟨inner, hinner, rfl⟩ := Option.map_eq_some_iff.mp h
    exact ⟨(ih hgrouped hinner).1, fun hsigned => by cases hsigned⟩
  | binary left op right ihl ihr =>
    obtain ⟨leftTree, hleft, h⟩ := Option.bind_eq_some_iff.mp h
    obtain ⟨rightTree, hright, rfl⟩ := Option.map_eq_some_iff.mp h
    rw [isGrouped, Bool.and_eq_true] at hgrouped
    refine ⟨?_, fun _ => rfl⟩
    rw [isGrouped, (ihl hgrouped.1 hleft).1, (ihr hgrouped.2 hright).1]
    rfl

end OperatorTree

/-- A tree of the source in which each name is replaced by the tree of its address. -/
def Arena.placed (a : Arena) (dialect : Dialect) (tree : OperatorTree Declared) :
    Option (OperatorTree PlainName) :=
  tree.placed fun declared =>
    (a.storage dialect declared.name.text declared.declaration).tree? dialect declared.name

section

variable {a : Arena} {dialect : Dialect} {tree : OperatorTree Declared}

/-- An access is written behind what it is made on. -/
theorem Arena.text_placed_access (step : OperatorTree.Access) :
    (a.placed dialect (.access tree step)).map OperatorTree.text =
      (a.placed dialect tree).bind fun base => some (base.text ++ step.text) := by
  unfold placed
  rw [OperatorTree.placed, Option.map_map, Option.map_eq_bind]
  rfl

/-- A sign is written in front of its operand. -/
theorem Arena.text_placed_signed (sign : OperatorTree.Sign) :
    (a.placed dialect (.signed sign tree)).map OperatorTree.text =
      (a.placed dialect tree).bind fun operand =>
        some (String.singleton sign.mark ++ operand.text) := by
  unfold placed
  rw [OperatorTree.placed, Option.map_map, Option.map_eq_bind]
  rfl

/-- An operator is written between its operands, in parentheses. -/
theorem Arena.text_placed_binary (op : InlineOp) (right : OperatorTree Declared) :
    (a.placed dialect (.binary tree op right)).map OperatorTree.text =
      (a.placed dialect tree).bind fun left =>
        (a.placed dialect right).bind fun right =>
          some ("(" ++ left.text ++ " " ++ op.symbol ++ " " ++ right.text ++ ")") := by
  unfold placed
  rw [OperatorTree.placed, Option.map_bind]
  refine Option.bind_congr fun left _ => ?_
  rw [Function.comp_apply, Option.map_map, Option.map_eq_bind]
  rfl

end

/-! ### Rendering -/

/-- Whether a step returns a value, or faults if there is none, and leaves the template as it is
in both cases. -/
def Render.Gives {α : Type} (x : Render α) (result : Option α) : Prop :=
  ∀ out, ∃ answer, x.runOn out = (answer, out) ∧ answer.toOption = result

namespace Render.Gives

variable {α β : Type} {x : Render α} {f : α → Render β} {result : Option α}

theorem pure (value : α) : Gives (Pure.pure value : Render α) (some value) :=
  fun out => ⟨.ok value, runOn_pure value out, rfl⟩

theorem ofExcept (answer : Except Fault α) : Gives (Render.ofExcept answer) answer.toOption := by
  intro out
  refine ⟨answer, ?_, rfl⟩
  cases answer <;> rfl

/-- A step whose result comes from something else, in front of one that goes on from that. -/
theorem bind {γ : Type} {source : Option γ} {view : γ → α} {next : γ → Option β}
    (first : Gives x (source.map view)) (hnext : ∀ given, Gives (f (view given)) (next given)) :
    Gives (x >>= f) (source.bind next) := by
  intro out
  obtain ⟨answer, hrun, hanswer⟩ := first out
  rw [runOn_bind, hrun]
  cases source with
  | none =>
    cases answer with
    | error fault => exact ⟨.error fault, rfl, rfl⟩
    | ok value => cases hanswer
  | some given =>
    cases answer with
    | error fault => cases hanswer
    | ok value =>
      cases hanswer
      exact hnext given out

/-- Where the first part gives a value, the rest is all that counts. -/
theorem bind_some {value : α} {answer : Option β} (first : Gives x (some value))
    (hnext : Gives (f value) answer) : Gives (x >>= f) answer := by
  have hsource : Gives x ((some ()).map fun _ => value) := first
  exact hsource.bind fun _ => hnext

/-- What a step gives is unique. -/
theorem ok_iff (h : Gives x result) {out final : Output} {value : α} :
    x.runOn out = (.ok value, final) ↔ final = out ∧ result = some value := by
  obtain ⟨answer, hrun, rfl⟩ := h out
  rw [hrun]
  cases answer with
  | error fault => simp [Except.toOption]
  | ok given =>
    simp only [Except.toOption, Prod.mk.injEq, Except.ok.injEq, Option.some.injEq]
    rw [eq_comm (a := out), and_comm]

end Render.Gives

namespace Walker

variable {w : Walker} {id key : NodeId} {node : Node} {value : OperatorTree.Literal}

/-- A node of the arena is found. -/
theorem gives_node (hn : w.arena.get? id = some node) : (w.node id).Gives (some node) := by
  have hnode : w.arena.node id = .ok node := Arena.node_eq_ok_iff.mpr hn
  unfold Walker.node
  rw [hnode]
  exact .ofExcept (.ok node)

/-- A literal is rendered as its own text. -/
theorem gives_literal (hn : w.arena.get? id = some node) (hvalue : node.literal? = some value) :
    (w.renderExpression id).Gives (some value.text) := by
  unfold renderExpression
  refine .bind_some (gives_node hn) ?_
  cases node with
  | boolean truth =>
    cases hvalue
    exact .pure _
  | number number =>
    simp only [Node.literal?] at hvalue
    split at hvalue
    · next hnumber =>
      cases hvalue
      rw [Bool.and_eq_true] at hnumber
      show (Walker.number number).Gives (some number.unsigned.magnitudeText)
      unfold Walker.number
      rw [Binary64.literal_of_isNonnegative hnumber.1 hnumber.2]
      exact .ofExcept (.ok _)
    · cases hvalue
  | string text =>
    cases hvalue
    exact .pure _
  | _ => cases hvalue

end Walker

namespace Arena

variable {a : Arena} {id key : NodeId} {tree : OperatorTree Declared}
  {value : OperatorTree.Literal}

/-- The tree belongs to nodes of the arena. -/
theorem Operators.lt_size (h : a.Operators id tree) : id.index < a.size := by
  cases h with
  | name hn => exact lt_size_of_get? hn
  | literal hn => exact lt_size_of_get? hn
  | paren hn => exact lt_size_of_get? hn
  | member hn => exact lt_size_of_get? hn
  | element hn => exact lt_size_of_get? hn
  | unary hn => exact lt_size_of_get? hn
  | binary hn => exact lt_size_of_get? hn

/-- A part of an expression has a smaller handle. -/
theorem Operators.index_lt {parent : NodeId} {node : Node} (ha : a.Grown)
    (h : a.Operators id tree) (hnode : a.get? parent = some node) (hm : id ∈ node.children) :
    id.index < parent.index :=
  ha.lt_parent (ha.adopted ⟨_, hnode, hm⟩ h.lt_size)

/-- Parentheses around a literal are left to get to it. -/
theorem Operators.literal_unwrapParens (ha : a.Grown) (h : a.Operators id (.literal value)) :
    ∃ node, a.get? (a.unwrapParens id) = some node ∧ node.literal? = some value := by
  generalize htree : OperatorTree.literal value = tree at h
  induction h with
  | paren hn inner ih =>
    rw [ha.unwrapParens_of_paren hn]
    exact ih htree
  | @literal id node found hn hvalue =>
    cases htree
    refine ⟨node, ?_, hvalue⟩
    rw [unwrapParens_of_not_paren]
    · exact hn
    · intro expr hexpr
      rw [hn] at hexpr
      cases hexpr
      cases hvalue
  | _ => cases htree

/-- Only a node that is an argument hands on another expression. -/
theorem argumentExpr_of_not_argument {node : Node} (hn : a.get? id = some node)
    (hplain : ∀ expr name, node ≠ .argument expr name) :
    a.argumentExpr id = a.unwrapParens id := by
  unfold argumentExpr
  rw [hn]
  cases node <;> first | rfl | exact absurd rfl (hplain _ _)

/-- An operand is an argument without a name, so it stands for itself. -/
theorem Operators.argumentExpr_eq (h : a.Operators id tree) :
    a.argumentExpr id = a.unwrapParens id := by
  cases h with
  | name hn => exact argumentExpr_of_not_argument hn (by simp)
  | @literal _ node _ hn hvalue =>
    exact argumentExpr_of_not_argument hn (by rintro expr name rfl; cases hvalue)
  | paren hn => exact argumentExpr_of_not_argument hn (by simp)
  | member hn => exact argumentExpr_of_not_argument hn (by simp)
  | element hn => exact argumentExpr_of_not_argument hn (by simp)
  | unary hn => exact argumentExpr_of_not_argument hn (by simp)
  | binary hn => exact argumentExpr_of_not_argument hn (by simp)

end Arena

namespace Program

variable {p : Program} {dialect : Dialect} {id key : NodeId} {n : Nat}
  {tree : OperatorTree Declared} {value : OperatorTree.Literal}

theorem gives_node {node : Node} (hn : p.arena.get? id = some node) :
    ((p.walkerWithin dialect n).node id).Gives (some node) :=
  Walker.gives_node (by rw [p.arena_walkerWithin]; exact hn)

/-- A literal between brackets is no operator, so it needs no temporary. -/
theorem gives_argument (hp : p.BottomUp) (h : p.arena.Operators key (.literal value))
    (hn : key.index < n) : ((p.walkerWithin dialect n).argument key).Gives (some value.text) := by
  obtain ⟨node, hnode, hvalue⟩ := h.literal_unwrapParens hp.grown
  have hle := hp.grown.unwrapParens_le (Arena.lt_size_of_get? hnode)
  obtain ⟨m, rfl⟩ := Nat.exists_eq_succ_of_ne_zero (n := n) (by omega)
  have hexpression : ((p.walkerWithin dialect (m + 1)).expression (p.arena.unwrapParens key)).Gives
      (some value.text) :=
    Walker.gives_literal (by rw [p.arena_walkerWithin]; exact hnode) hvalue
  have hoperator : Walker.isOperator node = false := by
    cases node <;> first | rfl | cases hvalue
  unfold Walker.argument
  rw [p.arena_walkerWithin, h.argumentExpr_eq]
  refine hexpression.bind_some ((gives_node hnode).bind_some ?_)
  rw [hoperator]
  exact .pure _

/-- A tree of operators is rendered as the text of the tree in which names are replaced by their
addresses, and nothing is written.  If a name has no address, there is a fault. -/
theorem gives_operators (hp : p.BottomUp) (h : p.arena.Operators id tree) (hn : id.index < n) :
    ((p.walkerWithin dialect n).expression id).Gives
      ((p.arena.placed dialect tree).map OperatorTree.text) := by
  -- a part has a smaller handle, so one level less is enough for it
  induction h generalizing n with
  | @name id declaration plain hnode hl =>
    obtain ⟨m, rfl⟩ := Nat.exists_eq_succ_of_ne_zero (n := n) (by omega)
    -- the tree that a name is replaced by has the address as its text
    have haddress : (p.arena.addressIn dialect id).toOption =
        (p.arena.placed dialect (.name ⟨plain, declaration⟩)).map OperatorTree.text := by
      rw [Arena.addressIn_of_lookup hnode hl]
      exact (Storage.text_tree? (Arena.storage_ne_reserved plain.not_isReservedName) _ _).symm
    rw [← haddress]
    refine (gives_node hnode).bind_some ?_
    show ((p.walkerWithin dialect m).address id).Gives _
    unfold Walker.address
    rw [p.arena_walkerWithin, p.dialect_walkerWithin]
    exact .ofExcept _
  | @literal id node value hnode hvalue =>
    obtain ⟨m, rfl⟩ := Nat.exists_eq_succ_of_ne_zero (n := n) (by omega)
    exact Walker.gives_literal (by rw [p.arena_walkerWithin]; exact hnode) hvalue
  | @paren id expr tree hnode hinner ih =>
    have hlt := hinner.index_lt hp.grown hnode List.mem_cons_self
    obtain ⟨m, rfl⟩ := Nat.exists_eq_succ_of_ne_zero (n := n) (by omega)
    refine (gives_node hnode).bind_some ?_
    exact ih (by omega)
  | @member id base plain tree hnode hinner ih =>
    have hlt := hinner.index_lt hp.grown hnode List.mem_cons_self
    obtain ⟨m, rfl⟩ := Nat.exists_eq_succ_of_ne_zero (n := n) (by omega)
    rw [Arena.text_placed_access]
    refine (gives_node hnode).bind_some ?_
    refine (ih (by omega)).bind fun base => ?_
    rw [OperatorTree.Access.text, ← String.append_assoc]
    exact .pure _
  | @element id base key tree value hnode hinner hliteral ih =>
    have hlt := hinner.index_lt hp.grown hnode List.mem_cons_self
    have hlt' := hliteral.index_lt hp.grown hnode (List.mem_cons_of_mem _ List.mem_cons_self)
    obtain ⟨m, rfl⟩ := Nat.exists_eq_succ_of_ne_zero (n := n) (by omega)
    rw [Arena.text_placed_access]
    refine (gives_node hnode).bind_some ?_
    refine (ih (by omega)).bind fun base => ?_
    refine (gives_argument hp hliteral (by omega)).bind_some ?_
    rw [OperatorTree.Access.text, ← String.append_assoc, ← String.append_assoc]
    exact .pure _
  | @unary id operand op sign tree hnode hsign hinner ih =>
    have hlt := hinner.index_lt hp.grown hnode List.mem_cons_self
    obtain ⟨m, rfl⟩ := Nat.exists_eq_succ_of_ne_zero (n := n) (by omega)
    rw [Arena.text_placed_signed]
    refine (gives_node hnode).bind_some ?_
    cases op <;> cases hsign <;> exact (ih (by omega)).bind fun operand => .pure _
  | @binary id left right op inline leftTree rightTree hnode hop hleft hright ihl ihr =>
    have hlt := hleft.index_lt hp.grown hnode List.mem_cons_self
    have hlt' := hright.index_lt hp.grown hnode (List.mem_cons_of_mem _ List.mem_cons_self)
    obtain ⟨m, rfl⟩ := Nat.exists_eq_succ_of_ne_zero (n := n) (by omega)
    rw [Arena.text_placed_binary]
    refine (gives_node hnode).bind_some ?_
    show ((p.walkerWithin dialect m).binary left op right).Gives _
    unfold Walker.binary
    rw [BinaryOp.form_of_inlineOp? hop]
    refine (ihl (by omega)).bind fun left => ?_
    refine (ihr (by omega)).bind fun right => ?_
    exact .pure _

/-- One level for each node is enough, so the level of the program is. -/
theorem runOn_operators_iff (hp : p.BottomUp) (h : p.arena.Operators id tree) {text : String}
    {out final : Output} :
    ((p.walker dialect).expression id).runOn out = (.ok text, final) ↔
      final = out ∧ ∃ placed, p.arena.placed dialect tree = some placed ∧ placed.text = text := by
  have hsize := h.lt_size
  have hdepth : id.index < p.depth := by
    unfold Program.depth
    omega
  have hgives : ((p.walker dialect).expression id).Gives
      ((p.arena.placed dialect tree).map OperatorTree.text) := gives_operators hp h hdepth
  rw [hgives.ok_iff, Option.map_eq_some_iff]

end Program

/-! ### Expressions that are rendered alike -/

/-- Replacing names by their addresses keeps signs outside of accesses. -/
theorem Arena.isGrouped_placed {a : Arena} {dialect : Dialect} {tree : OperatorTree Declared}
    {result : OperatorTree PlainName} (hgrouped : tree.isGrouped = true)
    (h : a.placed dialect tree = some result) : result.isGrouped = true :=
  (OperatorTree.isGrouped_placed (fun _ _ => Storage.isGrouped_tree?) hgrouped h).1

/-- Expressions of operators, accesses, names and literals whose signs are outside of accesses.
Such an expression is rendered exactly if its names have addresses; nothing is written then, and
the text is that of its tree with the addresses in the places of the names.  Two of them have
one text exactly if these trees are the same: wherever the source has its parentheses, the text
keeps to its grouping. -/
theorem operatorText_eq_iff {p : Program} (hp : p.BottomUp) {dialect : Dialect} {id id' : NodeId}
    {tree tree' : OperatorTree Declared} (h : p.arena.Operators id tree)
    (h' : p.arena.Operators id' tree') (hgrouped : tree.isGrouped = true)
    (hgrouped' : tree'.isGrouped = true) :
    (∀ text out final, ((p.walker dialect).expression id).runOn out = (.ok text, final) ↔
        final = out ∧ ∃ placed, p.arena.placed dialect tree = some placed ∧ placed.text = text) ∧
      ((∃ text out out' final final',
          ((p.walker dialect).expression id).runOn out = (.ok text, final) ∧
          ((p.walker dialect).expression id').runOn out' = (.ok text, final')) ↔
        ∃ placed, p.arena.placed dialect tree = some placed ∧
          p.arena.placed dialect tree' = some placed) := by
  refine ⟨fun _ _ _ => Program.runOn_operators_iff hp h, ?_⟩
  constructor
  · rintro ⟨text, out, out', final, final', hleft, hright⟩
    obtain ⟨-, placed, hplaced, htext⟩ := (Program.runOn_operators_iff hp h).mp hleft
    obtain ⟨-, placed', hplaced', htext'⟩ := (Program.runOn_operators_iff hp h').mp hright
    have hsame : placed = placed' :=
      OperatorTree.eq_of_text_eq (Arena.isGrouped_placed hgrouped hplaced)
        (Arena.isGrouped_placed hgrouped' hplaced') (htext.trans htext'.symm)
    exact ⟨placed, hplaced, hsame ▸ hplaced'⟩
  · rintro ⟨placed, hplaced, hplaced'⟩
    exact ⟨placed.text, {}, {}, {}, {},
      (Program.runOn_operators_iff hp h).mpr ⟨rfl, placed, hplaced, rfl⟩,
      (Program.runOn_operators_iff hp h').mpr ⟨rfl, placed, hplaced', rfl⟩⟩

/-- The closure `x => [x - x - x, x - (x - x)]`. -/
def Program.differences : Program :=
  (Builder.of []
    [.identifier "x", .identifier "x", .binary ⟨0⟩ .sub ⟨1⟩, .identifier "x",
      .binary ⟨2⟩ .sub ⟨3⟩, .identifier "x", .identifier "x", .identifier "x",
      .binary ⟨6⟩ .sub ⟨7⟩, .paren ⟨8⟩, .binary ⟨5⟩ .sub ⟨9⟩, .array [⟨4⟩, ⟨10⟩],
      .identifier "x", .parameter ⟨12⟩ none, .function [⟨13⟩] ⟨11⟩]).program

/-- The parameter of that closure. -/
def Declared.minuend : Declared := ⟨⟨"x", by decide⟩, ⟨13⟩⟩

/-- The first difference. -/
def OperatorTree.leftDifference : OperatorTree Declared :=
  .binary (.binary (.name .minuend) .sub (.name .minuend)) .sub (.name .minuend)

/-- The second difference. -/
def OperatorTree.rightDifference : OperatorTree Declared :=
  .binary (.name .minuend) .sub (.binary (.name .minuend) .sub (.name .minuend))

/-- The parentheses of the second difference are kept, though they print nothing. -/
theorem operatorText_eq_iff_differences :
    Program.differences.arena.Operators ⟨4⟩ .leftDifference ∧
      Program.differences.arena.Operators ⟨10⟩ .rightDifference ∧
      ¬ ∃ text out out' final final',
        ((Program.differences.walker (.resolver {})).expression ⟨4⟩).runOn out =
          (.ok text, final) ∧
        ((Program.differences.walker (.resolver {})).expression ⟨10⟩).runOn out' =
          (.ok text, final') := by
  have hbottom : Program.differences.BottomUp := Builder.bottomUp_of (by decide) (by cbv)
  have hname : ∀ {id : NodeId},
      Program.differences.arena.get? id = some (.identifier Declared.minuend.name.text) →
      Program.differences.arena.lookup id = some Declared.minuend.declaration →
      Program.differences.arena.Operators id (.name .minuend) := fun hn hl => .name hn hl
  have hbinary : ∀ {id left right : NodeId} {leftTree rightTree : OperatorTree Declared},
      Program.differences.arena.get? id = some (.binary left .sub right) →
      Program.differences.arena.Operators left leftTree →
      Program.differences.arena.Operators right rightTree →
      Program.differences.arena.Operators id (.binary leftTree .sub rightTree) :=
    fun hn hleft hright => .binary hn rfl hleft hright
  have hfront : Program.differences.arena.Operators ⟨2⟩
      (.binary (.name .minuend) .sub (.name .minuend)) :=
    hbinary (by cbv) (hname (by cbv) (by cbv)) (hname (by cbv) (by cbv))
  have hbehind : Program.differences.arena.Operators ⟨8⟩
      (.binary (.name .minuend) .sub (.name .minuend)) :=
    hbinary (by cbv) (hname (by cbv) (by cbv)) (hname (by cbv) (by cbv))
  have hleft : Program.differences.arena.Operators ⟨4⟩ .leftDifference :=
    hbinary (by cbv) hfront (hname (by cbv) (by cbv))
  have hparen : Program.differences.arena.get? ⟨9⟩ = some (.paren ⟨8⟩) := by cbv
  have hright : Program.differences.arena.Operators ⟨10⟩ .rightDifference :=
    hbinary (by cbv) (hname (by cbv) (by cbv)) (.paren hparen hbehind)
  refine ⟨hleft, hright, ?_⟩
  rw [(operatorText_eq_iff hbottom hleft hright rfl rfl).2]
  rintro ⟨placed, hplaced, hplaced'⟩
  have hne : Program.differences.arena.placed (.resolver {}) .leftDifference ≠
      Program.differences.arena.placed (.resolver {}) .rightDifference := by decide +kernel
  exact hne (hplaced.trans hplaced'.symm)

/-- The closure `(input, ctx) => [input, ctx.arguments, (-input).a, -(input.a)]`. -/
def Program.sharedTexts : Program :=
  (Builder.of []
    [.identifier "input", .identifier "ctx", .member ⟨1⟩ "arguments", .identifier "input",
      .unary .neg ⟨3⟩, .paren ⟨4⟩, .member ⟨5⟩ "a", .identifier "input", .member ⟨7⟩ "a",
      .paren ⟨8⟩, .unary .neg ⟨9⟩, .array [⟨0⟩, ⟨2⟩, ⟨6⟩, ⟨10⟩], .identifier "input",
      .parameter ⟨12⟩ none, .identifier "ctx", .parameter ⟨14⟩ none,
      .function [⟨13⟩, ⟨15⟩] ⟨11⟩]).program

/-- The parameters of that closure. -/
def Declared.input : Declared := ⟨⟨"input", by decide⟩, ⟨13⟩⟩

def Declared.ctx : Declared := ⟨⟨"ctx", by decide⟩, ⟨15⟩⟩

/-- The tree of `ctx.arguments`. -/
def OperatorTree.ctxArguments : OperatorTree Declared :=
  .access (.name .ctx) (.member ⟨"arguments", by decide⟩)

/-- The tree of `(-input).a`. -/
def OperatorTree.signInside : OperatorTree Declared :=
  .access (.signed .neg (.name .input)) (.member ⟨"a", by decide⟩)

/-- The tree of `-(input.a)`. -/
def OperatorTree.signOutside : OperatorTree Declared :=
  .signed .neg (.access (.name .input) (.member ⟨"a", by decide⟩))

/-- The first parameter is a field of the second one, so the trees differ and the texts do not.
Neither does the text of a sign tell whether it is inside an access. -/
theorem not_tree_eq_sharedTexts :
    Program.sharedTexts.BottomUp ∧
      Program.sharedTexts.arena.Operators ⟨0⟩ (.name .input) ∧
      Program.sharedTexts.arena.Operators ⟨2⟩ .ctxArguments ∧
      .name .input ≠ OperatorTree.ctxArguments ∧
      (((Program.sharedTexts.walker (.resolver {})).expression ⟨0⟩).runOn {}).1 =
        .ok "$context.arguments" ∧
      (((Program.sharedTexts.walker (.resolver {})).expression ⟨2⟩).runOn {}).1 =
        .ok "$context.arguments" ∧
      Program.sharedTexts.arena.Operators ⟨6⟩ .signInside ∧
      Program.sharedTexts.arena.Operators ⟨10⟩ .signOutside ∧
      OperatorTree.signInside ≠ OperatorTree.signOutside ∧
      (((Program.sharedTexts.walker (.resolver {})).expression ⟨6⟩).runOn {}).1 =
        .ok "-$context.arguments.a" ∧
      (((Program.sharedTexts.walker (.resolver {})).expression ⟨10⟩).runOn {}).1 =
        .ok "-$context.arguments.a" := by
  have hname : ∀ {id : NodeId} {declared : Declared},
      Program.sharedTexts.arena.get? id = some (.identifier declared.name.text) →
      Program.sharedTexts.arena.lookup id = some declared.declaration →
      Program.sharedTexts.arena.Operators id (.name declared) := fun hn hl => .name hn hl
  have hctx : Program.sharedTexts.arena.Operators ⟨1⟩ (.name .ctx) := hname (by cbv) (by cbv)
  have hinput : Program.sharedTexts.arena.Operators ⟨0⟩ (.name .input) := hname (by cbv) (by cbv)
  have hinside : Program.sharedTexts.arena.Operators ⟨3⟩ (.name .input) :=
    hname (by cbv) (by cbv)
  have hbase : Program.sharedTexts.arena.Operators ⟨7⟩ (.name .input) := hname (by cbv) (by cbv)
  have harguments : Program.sharedTexts.arena.get? ⟨2⟩ = some (.member ⟨1⟩ "arguments") := by cbv
  have hneg : Program.sharedTexts.arena.get? ⟨4⟩ = some (.unary .neg ⟨3⟩) := by cbv
  have hparen : Program.sharedTexts.arena.get? ⟨5⟩ = some (.paren ⟨4⟩) := by cbv
  have hmember : Program.sharedTexts.arena.get? ⟨6⟩ = some (.member ⟨5⟩ "a") := by cbv
  have hmember' : Program.sharedTexts.arena.get? ⟨8⟩ = some (.member ⟨7⟩ "a") := by cbv
  have hparen' : Program.sharedTexts.arena.get? ⟨9⟩ = some (.paren ⟨8⟩) := by cbv
  have hneg' : Program.sharedTexts.arena.get? ⟨10⟩ = some (.unary .neg ⟨9⟩) := by cbv
  refine ⟨Builder.bottomUp_of (by decide) (by cbv), hinput, .member harguments hctx, by decide,
    by decide +kernel, by decide +kernel, ?_, ?_, by decide, by decide +kernel,
    by decide +kernel⟩
  · exact .member hmember (.paren hparen (.unary hneg rfl hinside))
  · exact .unary hneg' rfl (.paren hparen' (.member hmember' hbase))

end ClosureVtl
