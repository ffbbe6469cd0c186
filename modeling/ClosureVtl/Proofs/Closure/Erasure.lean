/-
Module: ClosureVtl.Proofs.Closure.Erasure
Purpose: Closures as trees, without parentheses and without the numbering of nodes.
Main exports:
  Node.rebuild, Node.blank, Node.isValueAt, Node.lifts_of_blank_eq, Tree, Program.tree,
  Program.Tidy, Program.Tidy.induction_through_parens, Builder.tidy_of
-/
import ClosureVtl.Proofs.Closure.Correspondence
import ClosureVtl.Proofs.Closure.Descent
import ClosureVtl.Render.Program

namespace ClosureVtl

/-!
What a closure means does not depend on where its nodes are stored, nor on pairs of
parentheses around expressions.  `Program.tree` forgets both: a node becomes its form,
with the handles left out, and the trees of its parts.  Trees are compared as values;
what equal trees say about the nodes is brought back by `Node.lifts_of_blank_eq`.
-/

namespace Node

/-! ### The form of a node -/

/-- A node of the same form with other parts, given by their position among the
children. -/
def rebuild (parts : Nat → NodeId) (integration : IntegrationId) : Node → Node
  | array items => array (items.mapIdx fun k _ => parts k)
  | spread _ => spread (parts 0)
  | object properties => object (properties.mapIdx fun k _ => parts k)
  | property _ _ => property (parts 0) (parts 1)
  | spreadProperty _ => spreadProperty (parts 0)
  | computedKey _ => computedKey (parts 0)
  | template head spans => template head (spans.mapIdx fun k span => ⟨parts k, span.literal⟩)
  | member _ name => member (parts 0) name
  | element _ _ => element (parts 0) (parts 1)
  | reference name called => reference name (called.map fun _ => integration)
  | binary _ op _ => binary (parts 0) op (parts 1)
  | unary op _ => unary op (parts 0)
  | stepAfter _ step => stepAfter (parts 0) step
  | conditional _ _ _ => conditional (parts 0) (parts 1) (parts 2)
  | paren _ => paren (parts 0)
  | typeOf _ => typeOf (parts 0)
  | branch _ _ no => branch (parts 0) (parts 1) (no.map fun _ => parts 2)
  | forOf _ _ _ => forOf (parts 0) (parts 1) (parts 2)
  | forIn _ _ _ => forIn (parts 0) (parts 1) (parts 2)
  | whileLoop _ _ => whileLoop (parts 0) (parts 1)
  | doWhile _ _ => doWhile (parts 0) (parts 1)
  | forLoop start test step _ =>
    forLoop (start.map fun _ => parts 0) (test.map fun _ => parts start.toList.length)
      (step.map fun _ => parts (start.toList.length + test.toList.length))
      (parts (start.toList.length + test.toList.length + step.toList.length))
  | tryCatch _ handler cleanup =>
    tryCatch (parts 0) (handler.map fun _ => parts 1)
      (cleanup.map fun _ => parts (handler.toList.length + 1))
  | block statements => block (statements.mapIdx fun k _ => parts k)
  | call _ args => call (parts 0) (args.mapIdx fun k _ => parts (k + 1))
  | construct _ args => construct (parts 0) (args.mapIdx fun k _ => parts (k + 1))
  | argument _ name => argument (parts 0) name
  | await _ => await (parts 0)
  | promise _ => promise (parts 0)
  | function parameters _ =>
    function (parameters.mapIdx fun k _ => parts k) (parts parameters.length)
  | parameter _ default => parameter (parts 0) (default.map fun _ => parts 1)
  | declaration kind _ value => declaration kind (parts 0) (value.map fun _ => parts 1)
  | arrayPattern elements => arrayPattern (elements.mapIdx fun k _ => parts k)
  | objectPattern elements => objectPattern (elements.mapIdx fun k _ => parts k)
  | binding _ key default rest =>
    binding (parts key.toList.length) (key.map fun _ => parts 0)
      (default.map fun _ => parts (key.toList.length + 1)) rest
  | returnValue expr => returnValue (expr.map fun _ => parts 0)
  | exprStatement _ => exprStatement (parts 0)
  | throw _ => throw (parts 0)
  | leaf => leaf

attribute [simp] rebuild

/-- The integration of a reference. -/
def integration? : Node → Option IntegrationId
  | reference _ integration => integration
  | _ => none

/-- The form of a node, without its handles. -/
def blank (node : Node) : Node := node.rebuild (fun _ => ⟨0⟩) ⟨0⟩

/-- Whether a part stands where an expression is evaluated, by its position among the
children.  The other positions are for statements, names, keys, patterns and
elements. -/
def isValueAt : Node → Nat → Bool
  | object _, _ | block _, _ | arrayPattern _, _ | objectPattern _, _ | tryCatch .., _ => false
  | property .., k | parameter .., k | declaration .., k => k == 1
  | branch .., k | whileLoop .., k => k == 0
  | forOf .., k | forIn .., k | doWhile .., k => k == 1
  | forLoop start test step _, k =>
    k != start.toList.length + test.toList.length + step.toList.length
  | function parameters _, k => k == parameters.length
  | binding _ key _ _, k => k == key.toList.length + 1
  | _, _ => true

/-- The position of the name or pattern that a node binds. -/
def boundAt? : Node → Option Nat
  | declaration .. | parameter .. => some 0
  | binding _ key _ _ => some key.toList.length
  | _ => none

variable {node node' : Node} {parts others : Nat → NodeId} {integration other : IntegrationId}

/-- Changing what there may be leaves as much of it. -/
private theorem length_toList_map {α β : Type} (f : α → β) (found : Option α) :
    (found.map f).toList.length = found.toList.length := by
  cases found <;> rfl

/-- Only the last parts that are put in count. -/
theorem rebuild_rebuild (node : Node) :
    (node.rebuild parts integration).rebuild others other = node.rebuild others other := by
  cases node <;> simp [Function.comp_def, length_toList_map]

/-- A reference that has an integration keeps having one. -/
theorem integration?_rebuild (node : Node) :
    (node.rebuild parts integration).integration? = node.integration?.map fun _ => integration := by
  cases node <;> rfl

/-- A node keeps the number of its parts. -/
theorem length_children_rebuild (node : Node) :
    (node.rebuild parts integration).children.length = node.children.length := by
  cases node <;> simp [children, length_toList_map]

/-- The positions of values depend on the form alone. -/
theorem isValueAt_rebuild (node : Node) (k : Nat) :
    (node.rebuild parts integration).isValueAt k = node.isValueAt k := by
  cases node <;> simp [isValueAt, length_toList_map]

/-- So does the position of the name that is bound. -/
theorem boundAt?_rebuild (node : Node) :
    (node.rebuild parts integration).boundAt? = node.boundAt? := by
  cases node <;> simp [boundAt?, length_toList_map]

/-- Items that are put back in their places are the same items. -/
private theorem mapIdx_eq_self {items : List NodeId} {f : Nat → NodeId}
    (h : ∀ k item, items[k]? = some item → f k = item) : (items.mapIdx fun k _ => f k) = items := by
  apply List.ext_getElem?
  intro k
  rw [List.getElem?_mapIdx]
  rcases hk : items[k]? with _ | item
  · rfl
  · rw [Option.map_some, h k item hk]

/-- A node is put together from its own parts. -/
theorem rebuild_self (node : Node) :
    node.rebuild (fun k => node.children[k]?.getD ⟨0⟩) (node.integration?.getD ⟨0⟩) = node := by
  cases node with
  | array items | object properties | block statements | arrayPattern elements
  | objectPattern elements =>
    simp only [rebuild, children]
    congr 1
    exact mapIdx_eq_self fun k item hk => by simp [hk]
  | template head spans =>
    simp only [rebuild, children]
    congr 1
    apply List.ext_getElem?
    intro k
    rw [List.getElem?_mapIdx, List.getElem?_map]
    rcases spans[k]? with _ | span <;> rfl
  | call callee args | construct callee args =>
    simp only [rebuild, children]
    congr 1
    exact mapIdx_eq_self fun k item hk => by simp [hk]
  | function parameters body =>
    simp only [rebuild, children]
    congr 1
    · refine mapIdx_eq_self fun k item hk => ?_
      obtain ⟨hlt, -⟩ := List.getElem?_eq_some_iff.mp hk
      rw [List.getElem?_append_left hlt, hk]
      rfl
    · simp
  | forLoop start test step body =>
    rcases start with _ | _ <;> rcases test with _ | _ <;> rcases step with _ | _ <;> rfl
  | tryCatch body handler cleanup => rcases handler with _ | _ <;> rcases cleanup with _ | _ <;> rfl
  | branch test yes no => cases no <;> rfl
  | parameter name default => cases default <;> rfl
  | declaration kind name value => cases value <;> rfl
  | binding name key default rest => rcases key with _ | _ <;> rcases default with _ | _ <;> rfl
  | returnValue expr => cases expr <;> rfl
  | reference name integration => cases integration <;> rfl
  | _ => rfl

/-- Nodes of one form differ in their parts only. -/
theorem eq_rebuild_of_blank_eq (h : node.blank = node'.blank) :
    node' = node.rebuild (fun k => node'.children[k]?.getD ⟨0⟩) (node'.integration?.getD ⟨0⟩) := by
  calc node'
      = node'.rebuild (fun k => node'.children[k]?.getD ⟨0⟩) (node'.integration?.getD ⟨0⟩) :=
        (rebuild_self node').symm
    _ = node'.blank.rebuild (fun k => node'.children[k]?.getD ⟨0⟩)
          (node'.integration?.getD ⟨0⟩) := (rebuild_rebuild node').symm
    _ = node.rebuild (fun k => node'.children[k]?.getD ⟨0⟩) (node'.integration?.getD ⟨0⟩) := by
        rw [← h]
        exact rebuild_rebuild node

/-- Nodes of one form have as many parts. -/
theorem length_children_of_blank_eq (h : node.blank = node'.blank) :
    node.children.length = node'.children.length := by
  have hlength := congrArg (fun node => node.children.length) h
  simpa only [blank, length_children_rebuild] using hlength

/-- Their values stand in the same positions. -/
theorem isValueAt_of_blank_eq (h : node.blank = node'.blank) (k : Nat) :
    node.isValueAt k = node'.isValueAt k := by
  have hposition := congrArg (fun node => node.isValueAt k) h
  simpa only [blank, isValueAt_rebuild] using hposition

/-- They bind at the same position. -/
theorem boundAt?_of_blank_eq (h : node.blank = node'.blank) : node.boundAt? = node'.boundAt? := by
  have hposition := congrArg boundAt? h
  simpa only [blank, boundAt?_rebuild] using hposition

/-! ### From forms to parts -/

section Lifts

variable {c : Correspondence}

/-- Items correspond if they do position by position. -/
private theorem forall₂_mapIdx {α β : Type} {R : α → β → Prop} {items : List α}
    {f : Nat → α → β} (h : ∀ k item, items[k]? = some item → R item (f k item)) :
    List.Forall₂ R items (items.mapIdx f) := by
  rw [List.forall₂_iff_get]
  refine ⟨List.length_mapIdx.symm, fun k hk hk' => ?_⟩
  simp only [List.get_eq_getElem, List.getElem_mapIdx]
  exact h k items[k] (List.getElem?_eq_getElem hk)

/-- What there may be corresponds if it does where there is something. -/
private theorem optionRel_map {R : NodeId → NodeId → Prop} {found : Option NodeId} {other : NodeId}
    (h : ∀ id, found = some id → R id other) :
    Option.Rel R found (found.map fun _ => other) := by
  cases found with
  | none => exact .none
  | some id => exact .some (h id rfl)

/-- A node lifts to a node of its form if the parts correspond to each other, each in
the way that its position asks for. -/
theorem lifts_rebuild (hvalue : ∀ k part, node.children[k]? = some part →
      node.isValueAt k = true → c.value part (parts k))
    (hnode : ∀ k part, node.children[k]? = some part → node.isValueAt k = false →
      c.node part (parts k))
    (hintegration : ∀ id, node.integration? = some id → c.integration id integration) :
    node.Lifts c (node.rebuild parts integration) := by
  cases node with
  | array items => exact .array (forall₂_mapIdx fun k item hk => hvalue k item hk rfl)
  | object properties => exact .object (forall₂_mapIdx fun k item hk => hnode k item hk rfl)
  | block statements => exact .block (forall₂_mapIdx fun k item hk => hnode k item hk rfl)
  | arrayPattern elements =>
    exact .arrayPattern (forall₂_mapIdx fun k item hk => hnode k item hk rfl)
  | objectPattern elements =>
    exact .objectPattern (forall₂_mapIdx fun k item hk => hnode k item hk rfl)
  | template head spans =>
    refine .template head (forall₂_mapIdx fun k span hk => ⟨hvalue k span.expr ?_ rfl, rfl⟩)
    simp [children, hk]
  | property name value => exact .property (hnode 0 _ rfl rfl) (hvalue 1 _ rfl rfl)
  | reference name called =>
    refine .reference name ?_
    cases called with
    | none => exact .none
    | some id => exact .some (hintegration id rfl)
  | branch test yes no =>
    refine .branch (hvalue 0 _ rfl rfl) (hnode 1 _ rfl rfl) (optionRel_map ?_)
    rintro id rfl
    exact hnode 2 _ rfl rfl
  | forOf target iterable body =>
    exact .forOf (hnode 0 _ rfl rfl) (hvalue 1 _ rfl rfl) (hnode 2 _ rfl rfl)
  | forIn target iterable body =>
    exact .forIn (hnode 0 _ rfl rfl) (hvalue 1 _ rfl rfl) (hnode 2 _ rfl rfl)
  | whileLoop test body => exact .whileLoop (hvalue 0 _ rfl rfl) (hnode 1 _ rfl rfl)
  | doWhile body test => exact .doWhile (hnode 0 _ rfl rfl) (hvalue 1 _ rfl rfl)
  | forLoop start test step body =>
    rcases start with _ | start <;> rcases test with _ | test <;> rcases step with _ | step <;>
      refine .forLoop (optionRel_map ?_) (optionRel_map ?_) (optionRel_map ?_)
        (hnode _ _ rfl rfl) <;>
      rintro id heq <;> cases heq <;> exact hvalue _ _ rfl rfl
  | tryCatch body handler cleanup =>
    rcases handler with _ | handler <;> rcases cleanup with _ | cleanup <;>
      refine .tryCatch (hnode _ _ rfl rfl) (optionRel_map ?_) (optionRel_map ?_) <;>
      rintro id heq <;> cases heq <;> exact hnode _ _ rfl rfl
  | call callee args =>
    refine .call (hvalue 0 _ rfl rfl) (forall₂_mapIdx fun k item hk => hvalue (k + 1) item ?_ rfl)
    simpa [children] using hk
  | construct callee args =>
    refine .construct (hvalue 0 _ rfl rfl)
      (forall₂_mapIdx fun k item hk => hvalue (k + 1) item ?_ rfl)
    simpa [children] using hk
  | function parameters body =>
    refine .function (forall₂_mapIdx fun k item hk => ?_) (hvalue _ _ ?_ ?_)
    · obtain ⟨hlt, -⟩ := List.getElem?_eq_some_iff.mp hk
      refine hnode k item ?_ ?_
      · rw [children, List.getElem?_append_left hlt, hk]
      · simp only [isValueAt, beq_eq_false_iff_ne]
        omega
    · simp [children]
    · simp [isValueAt]
  | parameter name default =>
    refine .parameter (hnode 0 _ rfl rfl) (optionRel_map ?_)
    rintro id rfl
    exact hvalue 1 _ rfl rfl
  | declaration kind name value =>
    refine .declaration kind (hnode 0 _ rfl rfl) (optionRel_map ?_)
    rintro id rfl
    exact hvalue 1 _ rfl rfl
  | binding name key default rest =>
    rcases key with _ | key <;> rcases default with _ | default <;>
      refine .binding (hnode _ _ rfl rfl) (optionRel_map ?_) (optionRel_map ?_) rest <;>
      rintro id heq <;> cases heq <;> first | exact hvalue _ _ rfl rfl | exact hnode _ _ rfl rfl
  | returnValue expr =>
    refine .returnValue (optionRel_map ?_)
    rintro id rfl
    exact hvalue 0 _ rfl rfl
  | element base key => exact .element (hvalue 0 _ rfl rfl) (hvalue 1 _ rfl rfl)
  | binary left op right => exact .binary (hvalue 0 _ rfl rfl) op (hvalue 1 _ rfl rfl)
  | conditional test yes no =>
    exact .conditional (hvalue 0 _ rfl rfl) (hvalue 1 _ rfl rfl) (hvalue 2 _ rfl rfl)
  | _ => constructor <;> exact hvalue 0 _ rfl rfl

/-- Nodes of one form lift if their parts correspond to each other position by
position. -/
theorem lifts_of_blank_eq (h : node.blank = node'.blank)
    (hvalue : ∀ k part part', node.children[k]? = some part → node'.children[k]? = some part' →
      node.isValueAt k = true → c.value part part')
    (hnode : ∀ k part part', node.children[k]? = some part → node'.children[k]? = some part' →
      node.isValueAt k = false → c.node part part')
    (hintegration : ∀ id id', node.integration? = some id → node'.integration? = some id' →
      c.integration id id') : node.Lifts c node' := by
  have hpart : ∀ {k : Nat} {part : NodeId}, node.children[k]? = some part →
      node'.children[k]? = some (node'.children[k]?.getD ⟨0⟩) := by
    intro k part hk
    obtain ⟨hlt, -⟩ := List.getElem?_eq_some_iff.mp hk
    rw [length_children_of_blank_eq h] at hlt
    rw [List.getElem?_eq_getElem hlt]
    rfl
  have hlifts : node.Lifts c (node.rebuild (fun k => node'.children[k]?.getD ⟨0⟩)
      (node'.integration?.getD ⟨0⟩)) := by
    apply lifts_rebuild
    · exact fun k part hk => hvalue k part _ hk (hpart hk)
    · exact fun k part hk => hnode k part _ hk (hpart hk)
    · intro id hid
      have hsome := congrArg integration? h
      simp only [blank, integration?_rebuild, hid] at hsome
      rcases hid' : node'.integration? with _ | id'
      · rw [hid'] at hsome
        cases hsome
      · exact hintegration id id' hid hid'
  rwa [← eq_rebuild_of_blank_eq h] at hlifts

end Lifts

end Node

/-! ### Trees -/

/-- A closure without the numbering of its nodes. -/
inductive Tree where
  /-- a handle that leads nowhere -/
  | missing
  /-- the form of a node, the kind of the integration it refers to, and its parts -/
  | node (form : Node) (kind : Option String) (parts : List Tree)

namespace Program

/-- The kind of an integration. -/
def kind? (p : Program) (id : IntegrationId) : Option String :=
  (p.integration? id).map Integration.kind

/-- The tree below a node to a depth of `n`.  Pairs of parentheses are left out. -/
def treeWithin (p : Program) : Nat → NodeId → Tree
  | 0, _ => .missing
  | n + 1, id =>
    match p.arena.get? (p.arena.unwrapParens id) with
    | none => .missing
    | some node =>
      .node node.blank (node.integration?.bind p.kind?) (node.children.map (p.treeWithin n))

/-- The tree of a closure.  Where each part is older than its node, no branch is longer
than there are nodes. -/
def tree (p : Program) (root : NodeId) : Tree := p.treeWithin (p.arena.size + 1) root

/-- A finished closure without handles that lead nowhere, in which pairs of parentheses
stand around expressions only, and only where an expression is evaluated. -/
structure Tidy (p : Program) (root : NodeId) : Prop where
  bottomUp : p.BottomUp
  parts : ∀ {parent child : NodeId}, p.arena.Lists parent child → child.index < p.arena.size
  integrations : ∀ {id : NodeId} {node : Node} {called : IntegrationId},
    p.arena.get? id = some node → node.integration? = some called → (p.kind? called).isSome = true
  root_lt : root.index < p.arena.size
  root_top : p.arena.parent? root = none
  root_plain : ∀ expr, p.arena.get? root ≠ some (.paren expr)
  inside : ∀ {id expr : NodeId}, p.arena.get? id = some (.paren expr) →
    (p.arena.get? expr).any Node.isOperand = true
  outside : ∀ {id part expr : NodeId} {node : Node} {k : Nat}, p.arena.get? id = some node →
    node.children[k]? = some part → p.arena.get? part = some (.paren expr) →
      node.isValueAt k = true

namespace Tidy

variable {p : Program} {root id part expr : NodeId} {node : Node} {k : Nat}

/-- Going through parentheses from outside to inside ends at a node that is none. -/
theorem induction_through_parens (h : p.Tidy root)
    {motive : ∀ id : NodeId, id.index < p.arena.size → Prop}
    (plain : ∀ id hid, (∀ expr, p.arena.get? id ≠ some (.paren expr)) → motive id hid)
    (paren : ∀ id hid expr hexpr, p.arena.get? id = some (.paren expr) →
      expr.index < id.index → motive expr hexpr → motive id hid)
    (id : NodeId) (hid : id.index < p.arena.size) : motive id hid := by
  induction id using h.bottomUp.grown.induction_through_parens with
  | plain id hplain => exact plain id hid hplain
  | paren id expr hn ih =>
    have hlists : p.arena.Lists id expr := ⟨_, hn, List.mem_singleton.mpr rfl⟩
    have hexpr := h.parts hlists
    exact paren id hid expr hexpr hn (h.bottomUp.older hlists hexpr) (ih hexpr)

/-- What is inside parentheses is older than they are. -/
theorem unwrapParens_le (h : p.Tidy root) (hid : id.index < p.arena.size) :
    (p.arena.unwrapParens id).index ≤ id.index := by
  have ha := h.bottomUp.grown
  induction id, hid using h.induction_through_parens with
  | plain id _ hplain =>
    exact Nat.le_of_eq (congrArg NodeId.index (Arena.unwrapParens_of_not_paren hplain))
  | paren id _ expr _ hn hlt ih =>
    rw [ha.unwrapParens_of_paren hn]
    omega

/-- Inside of parentheses there is a node of the arena. -/
theorem unwrapParens_lt_size (h : p.Tidy root) (hid : id.index < p.arena.size) :
    (p.arena.unwrapParens id).index < p.arena.size :=
  Nat.lt_of_le_of_lt (h.unwrapParens_le hid) hid

/-- And that is in no parentheses itself. -/
theorem unwrapParens_unwrapParens (h : p.Tidy root) (id : NodeId) :
    p.arena.unwrapParens (p.arena.unwrapParens id) = p.arena.unwrapParens id :=
  Arena.unwrapParens_of_not_paren (h.bottomUp.grown.get?_unwrapParens_ne_paren id)

/-- What is inside parentheses is an expression. -/
theorem isOperand_unwrapParens (h : p.Tidy root) (hn : p.arena.get? id = some (.paren expr)) :
    (p.arena.get? (p.arena.unwrapParens id)).any Node.isOperand = true := by
  have ha := h.bottomUp.grown
  rw [ha.unwrapParens_of_paren hn]
  have hinside := h.inside hn
  have hexpr : expr.index < p.arena.size := h.parts ⟨_, hn, List.mem_singleton.mpr rfl⟩
  clear hn
  induction expr, hexpr using h.induction_through_parens with
  | plain expr _ hplain => rwa [Arena.unwrapParens_of_not_paren hplain]
  | paren expr _ inner _ hn _ ih =>
    rw [ha.unwrapParens_of_paren hn]
    exact ih (h.inside hn)

/-- Where no expression is evaluated there are no parentheses. -/
theorem unwrapParens_part (h : p.Tidy root) (hn : p.arena.get? id = some node)
    (hk : node.children[k]? = some part) (hvalue : node.isValueAt k = false) :
    p.arena.unwrapParens part = part := by
  apply Arena.unwrapParens_of_not_paren
  intro expr hparen
  rw [h.outside hn hk hparen] at hvalue
  cases hvalue

/-- The parts of a node are nodes of the arena. -/
theorem part_lt_size (h : p.Tidy root) (hn : p.arena.get? id = some node)
    (hk : node.children[k]? = some part) : part.index < p.arena.size :=
  h.parts ⟨node, hn, List.mem_of_getElem? hk⟩

/-- They are older than the node. -/
theorem lists_lt (h : p.Tidy root) (hl : p.arena.Lists id part) : part.index < id.index :=
  h.bottomUp.older hl (h.parts hl)

/-- So is the part at each position. -/
theorem part_lt (h : p.Tidy root) (hn : p.arena.get? id = some node)
    (hk : node.children[k]? = some part) : part.index < id.index :=
  h.lists_lt ⟨node, hn, List.mem_of_getElem? hk⟩

/-- The tree of a node is that of what is inside its parentheses. -/
theorem treeWithin_unwrapParens (h : p.Tidy root) (n : Nat) (id : NodeId) :
    p.treeWithin n (p.arena.unwrapParens id) = p.treeWithin n id := by
  cases n with
  | zero => rfl
  | succ n => rw [treeWithin, treeWithin, h.unwrapParens_unwrapParens]

end Tidy

end Program

/-! ### Given nodes -/

namespace Builder

variable {integrations : List Integration} {nodes : List Node} {root : NodeId}

/-- Whether a node of a list refers to an integration that there is, and has parentheses
around and among its parts only where they may stand. -/
def isTidyNode (integrations : List Integration) (nodes : List Node) (node : Node) : Bool :=
  (node.integration?.all fun called => called.index < integrations.length) &&
    (node.children.zipIdx.all fun (part, k) =>
      match nodes[part.index]? with
      | some (.paren _) => node.isValueAt k
      | _ => true) &&
    match node with
    | .paren expr => (nodes[expr.index]?).any Node.isOperand
    | _ => true

/-- Nodes that list earlier nodes only, none of them twice, make a tidy closure if each of
them is tidy. -/
theorem tidy_of (hd : descending nodes = true) (hs : (of integrations nodes).shared = none)
    (htidy : nodes.all (isTidyNode integrations nodes) = true)
    (hroot : root.index < nodes.length) (htop : (of integrations nodes).arena.parent? root = none)
    (hplain : ∀ expr, nodes[root.index]? ≠ some (.paren expr)) :
    (of integrations nodes).program.Tidy root := by
  have hget : ∀ {id : NodeId}, (of integrations nodes).program.arena.get? id = nodes[id.index]? :=
    fun {_} => get?_of
  have hsize : ∀ {id : NodeId}, id.index < (of integrations nodes).program.arena.size ↔
      id.index < nodes.length := by
    intro id
    rw [← Arena.get?_isSome_iff, hget, isSome_getElem?]
  have hnode : ∀ {id : NodeId} {node : Node},
      (of integrations nodes).program.arena.get? id = some node →
        isTidyNode integrations nodes node = true := by
    intro id node hn
    rw [hget] at hn
    exact List.all_eq_true.mp htidy node (List.mem_of_getElem? hn)
  have hbottom := bottomUp_of hd hs
  -- the conditions on single nodes are checked in the list, the others hold of any list of this
  -- kind
  refine ⟨hbottom, ?_, ?_, hsize.mpr hroot, htop, fun expr => hget ▸ hplain expr, ?_, ?_⟩
  · rintro parent child ⟨node, hn, hm⟩
    have hlt := hsize.mp (Arena.lt_size_of_get? hn)
    rw [hget] at hn
    have hpair : (node, parent.index) ∈ nodes.zipIdx := List.mk_mem_zipIdx_iff_getElem?.mpr hn
    have hall := List.all_eq_true.mp hd _ hpair
    have hchild : child.index < parent.index :=
      of_decide_eq_true (List.all_eq_true.mp hall child hm)
    exact hsize.mpr (Nat.lt_trans hchild hlt)
  · intro id node called hn hcalled
    have hthere := hnode hn
    simp only [isTidyNode, hcalled, Bool.and_eq_true, Option.all_some, decide_eq_true_eq] at hthere
    show ((of integrations nodes).integrations[called.index]?.map Integration.kind).isSome = true
    rw [integrations_of, Option.isSome_map]
    simpa using hthere.1.1
  · intro id expr hn
    have hthere := hnode hn
    simp only [isTidyNode, Bool.and_eq_true] at hthere
    rw [hget]
    exact hthere.2
  · intro id part expr node k hn hk hparen
    have hthere := hnode hn
    simp only [isTidyNode, Bool.and_eq_true] at hthere
    have hpair : (part, k) ∈ node.children.zipIdx := List.mk_mem_zipIdx_iff_getElem?.mpr hk
    have hpart := List.all_eq_true.mp hthere.1.2 _ hpair
    rw [hget] at hparen
    simpa only [hparen] using hpart

end Builder

end ClosureVtl
