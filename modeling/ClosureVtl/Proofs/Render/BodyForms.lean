/-
Module: ClosureVtl.Proofs.Render.BodyForms
Purpose: When a closure with an expression as body compiles like one with a block that
  returns the expression.
Main exports:
  Arena.PromisesCall, Arena.IsPlainParameter, BodyForms.alikeBelow, compile_eq_of_bodyForms
-/
import ClosureVtl.Proofs.Closure.BodyForms
import ClosureVtl.Proofs.Render.Levels

namespace ClosureVtl

/-!
Both forms of a closure return the same expression, and all that is asked about the nodes of
that expression has the same answer in both, but for one question.  A promise of what an
integration returns has to be consumed on the spot, and only a return in a block counts as a
consumer; that the closure itself returns the expression does not.

So nodes are set apart by the parentheses around the expression.  Below them both forms agree
altogether.  The node in them is asked whether it is consumed if it is a promise of a call,
and then the form without block is refused.
-/

namespace Arena

/-- Whether a value is a promise of what an integration returns, in any number of
parentheses. -/
def PromisesCall (a : Arena) (id : NodeId) : Prop :=
  ∃ expr, a.get? (a.unwrapParens id) = some (.promise expr) ∧
    (a.calledIntegration expr).isSome = true

/-- Whether the outermost closure can take a parameter: it has a name, and no pattern. -/
def IsPlainParameter (a : Arena) (id : NodeId) : Prop :=
  ∃ node, a.get? id = some node ∧
    ∀ name default, node = .parameter name default → ∃ text, a.get? name = some (.identifier text)

/-- Whether there are only parentheses between a node and one inside. -/
def Wraps (a : Arena) : NodeId → NodeId → Prop :=
  Relation.ReflTransGen fun id expr => a.get? id = some (.paren expr)

/-- Whether a node consumes its value, or passes it on to a consumer. -/
def consumes (a : Arena) (id : NodeId) : Bool :=
  if Walker.isParen a id then Walker.isConsumed a id
  else
    match a.get? id with
    | some (.await _) | some (.returnValue _) => true
    | _ => false

variable {a a' : Arena} {parameters : List NodeId} {body root block root' id part expr : NodeId}

/-- Whether a value is consumed is told by its parent, or by what consumes that if it is a pair
of parentheses. -/
theorem Grown.isConsumed_eq (ha : a.Grown) (id : NodeId) :
    Walker.isConsumed a id = (a.parent? id).any a.consumes := by
  unfold Walker.isConsumed
  cases hp : a.parent? id with
  | none =>
    rw [ha.ancestors_of_orphan hp]
    rfl
  | some parent =>
    rw [ha.ancestors_of_parent? hp, List.find?_cons, Option.any_some]
    unfold consumes
    cases Walker.isParen a parent <;> rfl

/-- Only parentheses lie between a node and what is inside them. -/
theorem Grown.wraps_unwrapParens (ha : a.Grown) (id : NodeId) : a.Wraps id (a.unwrapParens id) := by
  induction id using ha.induction_through_parens with
  | plain id hplain =>
    rw [unwrapParens_of_not_paren hplain]
    exact .refl
  | paren id expr hn ih =>
    rw [ha.unwrapParens_of_paren hn]
    exact ih.head hn

/-- From anywhere on the way in, the way ends at the same node. -/
theorem unwrapParens_of_wraps (ha : a.Grown) (h : a.Wraps id expr) :
    a.unwrapParens expr = a.unwrapParens id := by
  induction h with
  | refl => rfl
  | tail _ hn ih => rw [← ih, ha.unwrapParens_of_paren hn]

namespace BodyForms

/-- Whether a common node is not one of the parentheses around the body, nor the node in
them. -/
def Inner (a : Arena) (body root block root' id : NodeId) : Prop :=
  Common root block root' id ∧ ¬ (id.index < a.size ∧ a.Wraps body id)

section

variable (h : a.BodyForms a' parameters body root block root')

include h

/-- What is in the parentheses around the body is common to both forms. -/
theorem common_of_wraps (hw : a.Wraps body id) : Common root block root' id := by
  induction hw with
  | refl => exact h.common_body
  | tail _ hn ih => exact h.common_part ih ⟨_, hn, List.mem_singleton.mpr rfl⟩

/-- Only parentheses around the body list what is in them. -/
theorem wraps_of_lists (hid : Common root block root' id) (hl : a.Lists id part)
    (hpart : part.index < a.size) (hw : a.Wraps body part) :
    a.Wraps body id ∧ a.get? id = some (.paren part) := by
  have hp := h.grown.adopted hl hpart
  rcases hw.cases_tail with rfl | ⟨outer, hw, hn⟩
  · rw [h.grown.adopted ⟨_, h.expressionForm, by simp [Node.children]⟩ hpart] at hp
    exact absurd (Option.some.inj hp).symm hid.1
  · rw [h.grown.adopted ⟨_, hn, List.mem_singleton.mpr rfl⟩ hpart] at hp
    cases hp
    exact ⟨hw, hn⟩

/-- A part that is not just inside those parentheses is an inner node. -/
theorem inner_of_lists (hid : Common root block root' id) (hl : a.Lists id part)
    (hno : ¬ (a.Wraps body id ∧ a.get? id = some (.paren part))) :
    Inner a body root block root' part :=
  ⟨h.common_part hid hl, fun hpart => hno (h.wraps_of_lists hid hl hpart.1 hpart.2)⟩

/-- Parts of inner nodes are inner nodes. -/
theorem inner_part (hid : Inner a body root block root' id) (hl : a.Lists id part) :
    Inner a body root block root' part :=
  h.inner_of_lists hid.1 hl fun hwraps => hid.2 ⟨hl.lt_size, hwraps.1⟩

/-- A common node is a pair of parentheses in both forms or in neither. -/
theorem isParen (hid : Common root block root' id) :
    Walker.isParen a id = Walker.isParen a' id := by
  unfold Walker.isParen
  rw [h.get? hid]

/-- Values below the parentheses around the body are consumed in both forms or in neither. -/
theorem isConsumed (hid : Inner a body root block root' id) :
    Walker.isConsumed a id = Walker.isConsumed a' id := by
  obtain ⟨hcommon, houtside⟩ := hid
  induction hcommon using h.induction_outward with
  | @inside id parent hid hparent hp hp' ih =>
    rw [h.grown.isConsumed_eq, h.grown'.isConsumed_eq, hp, hp', Option.any_some, Option.any_some]
    unfold consumes
    rw [← h.isParen hparent, ← h.get? hparent]
    split
    · next hparen =>
      apply ih
      intro hwraps
      unfold Walker.isParen at hparen
      split at hparen
      · next expr hn =>
        obtain rfl := List.mem_singleton.mp ((h.grown.lists hp).mem_children hn)
        exact houtside ⟨lt_size_of_parent? hp, hwraps.2.tail hn⟩
      · cases hparen
    · rfl
  | alone hid hp hp' => rw [h.grown.isConsumed_eq, h.grown'.isConsumed_eq, hp, hp']; rfl
  | body hp hp' => exact absurd ⟨lt_size_of_parent? hp, .refl⟩ houtside
  | parameter hid hp hp' =>
    rw [h.grown.isConsumed_eq, h.grown'.isConsumed_eq, hp, hp']
    simp [consumes, Walker.isParen, h.expressionForm, h.blockForm]

/-- The body and what is in its parentheses is not consumed in the form without block. -/
theorem isConsumed_eq_false (hw : a.Wraps body id) (hid : id.index < a.size) :
    Walker.isConsumed a id = false := by
  induction hw with
  | refl =>
    have hp : a.parent? body = some root :=
      h.grown.adopted ⟨_, h.expressionForm, by simp [Node.children]⟩ hid
    rw [h.grown.isConsumed_eq, hp]
    simp [consumes, Walker.isParen, h.expressionForm]
  | @tail outer id _ hn ih =>
    have hp : a.parent? id = some outer := h.grown.adopted ⟨_, hn, List.mem_singleton.mpr rfl⟩ hid
    rw [h.grown.isConsumed_eq, hp]
    simp [consumes, Walker.isParen, hn, ih (lt_size_of_get? hn)]

/-- Unless the body is a promise of a call, both forms look alike to a walker that is called
for the body. -/
theorem alikeBelow (hbody : ∀ statements, a.get? body ≠ some (.block statements))
    (hpromise : ¬ a.PromisesCall body) :
    a.AlikeBelow a' (Common root block root') (Inner a body root block root')
      fun id => Inner a body root block root' id ∨ a.Wraps body id where
  toAlikeOn := h.alikeOn hbody
  inner_parts := h.inner_part
  isConsumed := h.isConsumed
  entered_of_inner := .inl
  known_of_entered hid := hid.elim And.left h.common_of_wraps
  inside hid hn := hid.imp (fun hid => h.inner_part hid ⟨_, hn, List.mem_singleton.mpr rfl⟩)
    fun hw => hw.tail hn
  content hid hparen hl :=
    h.inner_of_lists (hid.elim And.left h.common_of_wraps) hl fun hwraps => hparen _ hwraps.2
  promised := by
    intro id hid
    rcases hid with hid | hw
    · exact .inl (h.isConsumed hid)
    · refine .inr fun expr hn => ?_
      have hself : a.unwrapParens id = id := unwrapParens_of_not_paren (by simp [hn])
      by_contra hcalled
      refine hpromise ⟨expr, ?_, Option.isSome_iff_ne_none.mpr hcalled⟩
      rw [← unwrapParens_of_wraps h.grown hw, hself, hn]

end

end BodyForms

end Arena

/-! ### What a closure returns -/

namespace Walker

variable {w w' : Walker} {table : Array Integration} {id root body block : NodeId}
  {parameters : List NodeId}

/-- A parameter of the root is checked in the arena alone. -/
theorem checkRootParameter_congr (h : w.arena = w'.arena) :
    w.checkRootParameter = w'.checkRootParameter := by
  funext parameter
  unfold checkRootParameter Walker.node
  rw [h]

/-- Both forms check their parameters alike. -/
theorem forM_checkRootParameter_eq {a a' : Arena} {root' : NodeId}
    (h : a.BodyForms a' parameters body root block root') (hw : w.arena = a)
    (hw' : w'.arena = a') :
    parameters.forM w.checkRootParameter = parameters.forM w'.checkRootParameter := by
  subst hw hw'
  have hnode : ∀ {id}, Arena.BodyForms.Common root block root' id → w.node id = w'.node id := by
    intro id hid
    unfold Walker.node Arena.node
    rw [h.get? hid]
  -- a parameter and its name are nodes that both forms have
  have hcheck : ∀ id ∈ parameters, w.checkRootParameter id = w'.checkRootParameter id := by
    intro id hm
    have hid := h.common_parameter hm
    unfold checkRootParameter
    rw [← hnode hid]
    cases hn : w.arena.get? id with
    | none =>
      rw [node_of_dangling hn]
      rfl
    | some node =>
      rw [node_eq_pure hn, pure_bind, pure_bind]
      cases node with
      | parameter name default =>
        have hname : Arena.BodyForms.Common root block root' name :=
          h.common_part hid ⟨_, hn, by simp [Node.children]⟩
        simp only [hnode hname]
      | _ => rfl
  have hall : ∀ ids : List NodeId, (∀ id ∈ ids, id ∈ parameters) →
      ids.forM w.checkRootParameter = ids.forM w'.checkRootParameter := by
    intro ids hids
    induction ids with
    | nil => rfl
    | cons first rest ih =>
      show (w.checkRootParameter first >>= fun _ => rest.forM w.checkRootParameter) =
        (w'.checkRootParameter first >>= fun _ => rest.forM w'.checkRootParameter)
      rw [hcheck first (hids first List.mem_cons_self),
        ih fun id hm => hids id (List.mem_cons_of_mem _ hm)]
  exact hall parameters fun _ => id

/-- A plain parameter passes the check. -/
theorem checkRootParameter_of_plain (h : w.arena.IsPlainParameter id) :
    w.checkRootParameter id = pure () := by
  obtain ⟨node, hn, hplain⟩ := h
  unfold checkRootParameter
  rw [node_eq_pure hn, pure_bind]
  cases node with
  | parameter name default =>
    obtain ⟨text, hname⟩ := hplain name default rfl
    simp only [node_eq_pure hname, pure_bind]
  | _ => rfl

/-- Any other fails it. -/
theorem checkRootParameter_of_not_plain (h : ¬ w.arena.IsPlainParameter id) :
    ∃ f, w.checkRootParameter id = Render.fault f := by
  unfold checkRootParameter
  cases hn : w.arena.get? id with
  | none => exact ⟨_, by rw [node_of_dangling hn]; rfl⟩
  | some node =>
    rw [node_eq_pure hn, pure_bind]
    by_cases hparameter : ∃ name default, node = .parameter name default
    · obtain ⟨name, default, rfl⟩ := hparameter
      cases hname : w.arena.get? name with
      | none => exact ⟨_, by simp only [node_of_dangling hname]; rfl⟩
      | some bound =>
        simp only [node_eq_pure hname, pure_bind]
        cases bound with
        | identifier text =>
          refine absurd ⟨_, hn, fun other default' heq => ?_⟩ h
          cases heq
          exact ⟨text, hname⟩
        | _ => exact ⟨_, rfl⟩
    · exact absurd ⟨node, hn, fun name default heq => absurd ⟨name, default, heq⟩ hparameter⟩ h

/-- So do plain parameters all together. -/
theorem forM_checkRootParameter_of_plain (h : ∀ id ∈ parameters, w.arena.IsPlainParameter id) :
    parameters.forM w.checkRootParameter = pure () := by
  induction parameters with
  | nil => rfl
  | cons first rest ih =>
    show (w.checkRootParameter first >>= fun _ => rest.forM w.checkRootParameter) = _
    rw [checkRootParameter_of_plain (h first List.mem_cons_self), pure_bind]
    exact ih fun id hm => h id (List.mem_cons_of_mem _ hm)

/-- Among parameters that are not all plain one fails. -/
theorem forM_checkRootParameter_of_not_plain
    (h : ¬ ∀ id ∈ parameters, w.arena.IsPlainParameter id) :
    ∃ f, parameters.forM w.checkRootParameter = Render.fault f := by
  induction parameters with
  | nil => simp at h
  | cons first rest ih =>
    show ∃ f, (w.checkRootParameter first >>= fun _ => rest.forM w.checkRootParameter) = _
    by_cases hfirst : w.arena.IsPlainParameter first
    · rw [checkRootParameter_of_plain hfirst, pure_bind]
      refine ih fun hrest => h fun id hm => ?_
      rcases List.mem_cons.mp hm with rfl | hm
      · exact hfirst
      · exact hrest id hm
    · obtain ⟨f, hf⟩ := checkRootParameter_of_not_plain hfirst
      exact ⟨f, by rw [hf]; rfl⟩

/-- A value that faults at once cannot be returned. -/
theorem returned_of_fault {f : Fault} (hexpression : w.expression id = Render.fault f)
    (hfragment : w.fragment id = Render.fault f) : w.returned (some id) = Render.fault f := by
  unfold returned
  cases w.dialect with
  | resolver config =>
    dsimp only
    rw [hexpression]
    rfl
  | mapping direction config =>
    dsimp only
    rw [hfragment]
    rfl

/-- Walkers that may be called for a value return it alike. -/
theorem inStep_returned_of_calls {c : Correspondence} (hdialect : w.dialect = w'.dialect)
    (hexpression : c.calls .expression id id) (hfragment : c.calls .fragment id id) :
    InStep w w' c Eq (w.returned (some id)) (w'.returned (some id)) := by
  unfold returned
  rw [← hdialect]
  cases w.dialect with
  | resolver config => exact .bindEq (.expression hexpression) fun _ => .emit _
  | mapping direction config => exact .bindEq (.fragment hfragment) fun _ => .emit _

/-- A closure whose body is no block checks its parameters and returns the body. -/
theorem renderRoot_of_expressionForm (hroot : w.arena.get? root = some (.function parameters body))
    (hbody : ∀ statements, w.arena.get? body ≠ some (.block statements)) :
    (w.above table).renderRoot root = (do
      parameters.forM (w.above table).checkRootParameter
      (w.above table).returned (some body)) := by
  unfold renderRoot
  rw [node_eq_pure (w := w.above table) hroot, pure_bind]
  dsimp only
  congr 1
  funext _
  cases hn : w.arena.get? body with
  | none =>
    rw [node_of_dangling (w := w.above table) hn]
    exact (returned_of_fault (renderExpression_dangling hn) (renderFragment_dangling hn)).symm
  | some node =>
    rw [node_eq_pure (w := w.above table) hn, pure_bind]
    cases node with
    | block statements => exact absurd hn (hbody statements)
    | _ => rfl

/-- A closure with a block that returns a value does so two levels below. -/
theorem renderRoot_of_blockForm
    (hroot : w.arena.get? id = some (.function parameters block))
    (hblock : w.arena.get? block = some (.block [root]))
    (hreturn : w.arena.get? root = some (.returnValue (some body))) :
    ((w.above table).above table).renderRoot id = (do
      parameters.forM w.checkRootParameter
      w.returned (some body)) := by
  have hstatement : ((w.above table).above table).statement block none = w.returned (some body) := by
    show (w.above table).renderStatement block none = _
    unfold renderStatement
    rw [node_eq_pure (w := w.above table) hblock, pure_bind]
    show [root].forM (fun statement => w.renderStatement statement none) = _
    show (w.renderStatement root none >>= fun _ => pure ()) = _
    rw [bind_pure_unit]
    unfold renderStatement
    rw [node_eq_pure hreturn, pure_bind]
    rfl
  unfold renderRoot
  rw [node_eq_pure (w := (w.above table).above table) hroot, pure_bind]
  have hcheck : ((w.above table).above table).checkRootParameter = w.checkRootParameter :=
    checkRootParameter_congr rfl
  dsimp only
  rw [hcheck]
  congr 1
  funext _
  rw [node_eq_pure (w := (w.above table).above table) hblock, pure_bind]
  exact hstatement

/-- A promise of a call that nothing consumes is refused, in any number of parentheses that
the levels of the walker suffice for. -/
theorem expression_of_unconsumed (ha : w.arena.Grown) {n : Nat} {expr : NodeId}
    (hage : w.arena.age id ≤ n)
    (hpromise : w.arena.get? (w.arena.unwrapParens id) = some (.promise expr))
    (hcalled : (w.arena.calledIntegration expr).isSome = true)
    (hconsumed : isConsumed w.arena (w.arena.unwrapParens id) = false) :
    (w.over table n).expression id = Render.fault (.illegalCall .unconsumed) := by
  have harena := w.arena_over table
  induction n generalizing id with
  | zero =>
    have hn := Arena.get?_eq_none_of_age (Nat.le_zero.mp hage)
    rw [Arena.unwrapParens_of_not_paren (by simp [hn]), hn] at hpromise
    cases hpromise
  | succ n ih =>
    rw [over_succ]
    show (w.over table n).renderExpression id = _
    by_cases hparen : ∃ inner, w.arena.get? id = some (.paren inner)
    · obtain ⟨inner, hn⟩ := hparen
      have hlt := ha.age_lt ⟨_, hn, List.mem_singleton.mpr rfl⟩
      rw [ha.unwrapParens_of_paren hn] at hpromise hconsumed
      rw [renderExpression_paren (by rw [harena, hn])]
      exact ih (by omega) hpromise hconsumed
    · rw [Arena.unwrapParens_of_not_paren fun inner hn => hparen ⟨inner, hn⟩] at hpromise hconsumed
      unfold renderExpression
      rw [node_eq_pure (by rw [harena, hpromise]), pure_bind]
      show (w.over table n).promised id expr = _
      unfold promised
      rw [harena, if_pos ⟨hconsumed, hcalled⟩]

/-- So is the return of one. -/
theorem returned_of_unconsumed (ha : w.arena.Grown) {n : Nat} {expr : NodeId}
    (hage : w.arena.age id ≤ n)
    (hpromise : w.arena.get? (w.arena.unwrapParens id) = some (.promise expr))
    (hcalled : (w.arena.calledIntegration expr).isSome = true)
    (hconsumed : isConsumed w.arena (w.arena.unwrapParens id) = false) :
    (w.over table (n + 1)).returned (some id) = Render.fault (.illegalCall .unconsumed) := by
  have harena := w.arena_over table n
  have hself : w.arena.unwrapParens (w.arena.unwrapParens id) = w.arena.unwrapParens id :=
    Arena.unwrapParens_of_not_paren fun inner hn => ha.get?_unwrapParens_ne_paren id inner hn
  apply returned_of_fault
  · exact expression_of_unconsumed ha (by omega) hpromise hcalled hconsumed
  · rw [over_succ]
    show (w.over table n).renderFragment id = _
    have hpath : w.arena.jsonPath (w.arena.unwrapParens id) = none := by
      simp [Arena.jsonPath, Arena.jsonPathWithin, hself, hpromise]
    unfold renderFragment
    rw [harena]
    dsimp only
    rw [hpath]
    dsimp only
    rw [node_eq_pure (by rw [harena, hpromise]), pure_bind]
    show (if ((w.over table n).arena.calledIntegration expr).isSome then _ else _) = _
    rw [harena, if_pos hcalled]
    exact expression_of_unconsumed ha ((ha.age_unwrapParens id).trans hage) (by rw [hself, hpromise])
      hcalled (by rw [hself, hconsumed])

end Walker

namespace Builder

variable {b : Builder} {parameters : List NodeId} {body : NodeId}

/-- The levels that are left for the body. -/
def bodyLevels (b : Builder) : Nat := 3 * b.next.index + 5 + 1

/-- The levels that are left suffice to go through the body. -/
theorem age_body_le_bodyLevels (b : Builder) (parameters : List NodeId) (body : NodeId) :
    3 * (b.expressionForm parameters body).arena.age body + 2 ≤ b.bodyLevels := by
  have hage := (b.expressionForm parameters body).arena.age_le_size body
  rw [size_expressionForm] at hage
  unfold bodyLevels
  omega

section

variable (h : (b.expressionForm parameters body).arena.BodyForms (b.blockForm parameters body).arena
  parameters body b.next ⟨b.next.index + 1⟩ ⟨b.next.index + 2⟩)

include h

/-- What the form without block has to do: check the parameters and return the body. -/
theorem renderRoot_expressionForm
    (hbody : ∀ statements, (b.expressionForm parameters body).arena.get? body ≠
      some (.block statements)) (dialect : Dialect) :
    ∃ w : Walker, w.arena = (b.expressionForm parameters body).arena ∧ w.dialect = dialect ∧
      ((b.expressionForm parameters body).program.walker dialect).renderRoot b.next = (do
        parameters.forM (w.over b.integrations b.bodyLevels).checkRootParameter
        (w.over b.integrations b.bodyLevels).returned (some body)) := by
  have hdepth : (b.expressionForm parameters body).program.depth = b.bodyLevels := by
    show 3 * ((b.expressionForm parameters body).arena.size + 1) = 3 * b.next.index + 5 + 1
    rw [size_expressionForm]
    omega
  have htable : (b.expressionForm parameters body).program.integrations = b.integrations :=
    integrations_push
  obtain ⟨w, hw, hdialect, hwalker⟩ : ∃ w : Walker,
      w.arena = (b.expressionForm parameters body).arena ∧ w.dialect = dialect ∧
        (b.expressionForm parameters body).program.walker dialect =
          w.over b.integrations b.bodyLevels := by
    refine ⟨.exhausted (b.expressionForm parameters body).arena dialect, rfl, rfl, ?_⟩
    rw [Program.walker, Program.walkerWithin_eq_over, hdepth, htable]
    rfl
  have harena := (w.arena_over b.integrations (3 * b.next.index + 5)).trans hw
  refine ⟨w, hw, hdialect, ?_⟩
  rw [hwalker, bodyLevels, Walker.over_succ]
  exact Walker.renderRoot_of_expressionForm (by rw [harena, h.expressionForm]) (by rwa [harena])

/-- The form with a block does the same.  It has two nodes more, and so six levels; two are
for the block. -/
theorem renderRoot_blockForm (dialect : Dialect) :
    ∃ w : Walker, w.arena = (b.blockForm parameters body).arena ∧ w.dialect = dialect ∧
      ((b.blockForm parameters body).program.walker dialect).renderRoot ⟨b.next.index + 2⟩ = (do
        parameters.forM (w.over b.integrations b.bodyLevels).checkRootParameter
        (w.over b.integrations b.bodyLevels).returned (some body)) := by
  have hdepth : (b.blockForm parameters body).program.depth = b.bodyLevels + 4 + 1 + 1 := by
    show 3 * ((b.blockForm parameters body).arena.size + 1) = 3 * b.next.index + 5 + 1 + 4 + 1 + 1
    rw [size_blockForm]
    omega
  have htable : (b.blockForm parameters body).program.integrations = b.integrations := by
    show (push _ _).integrations = _
    rw [integrations_push, integrations_push, integrations_push]
  obtain ⟨w, hw, hdialect, hwalker⟩ : ∃ w : Walker,
      w.arena = (b.blockForm parameters body).arena ∧ w.dialect = dialect ∧
        (b.blockForm parameters body).program.walker dialect =
          ((w.over b.integrations b.bodyLevels).above b.integrations).above b.integrations := by
    refine ⟨(Walker.exhausted (b.blockForm parameters body).arena dialect).over b.integrations 4,
      Walker.arena_over _ _ 4, Walker.dialect_over _ _ 4, ?_⟩
    rw [Program.walker, Program.walkerWithin_eq_over, hdepth, htable, Walker.over_succ,
      Walker.over_succ, ← Walker.over_add]
    rfl
  have harena := (w.arena_over b.integrations b.bodyLevels).trans hw
  refine ⟨w, hw, hdialect, ?_⟩
  rw [hwalker]
  exact Walker.renderRoot_of_blockForm (by rw [harena, h.blockForm])
    (by rw [harena, h.statements]) (by rw [harena, h.returned])

end

/-- A closure with an expression as body is rendered like one with a block that returns the
expression, unless that is a promise of a call. -/
theorem render_eq_of_forms (hp : (b.expressionForm parameters body).program.BottomUp)
    (hp' : (b.blockForm parameters body).program.BottomUp)
    (htable : ∀ integration ∈ b.integrations, integration.Alike integration)
    (hbody : ∀ statements, (b.expressionForm parameters body).arena.get? body ≠
      some (.block statements))
    (hunlike : ¬ ((b.expressionForm parameters body).arena.PromisesCall body ∧
      ∀ id ∈ parameters, (b.expressionForm parameters body).arena.IsPlainParameter id))
    (dialect : Dialect) :
    (b.expressionForm parameters body).program.render dialect b.next =
      (b.blockForm parameters body).program.render dialect ⟨b.next.index + 2⟩ := by
  have h := bodyForms hp hp'
  obtain ⟨w, hw, hd, hroot⟩ := renderRoot_expressionForm h hbody dialect
  obtain ⟨w', hw', hd', hroot'⟩ := renderRoot_blockForm h dialect
  have harena := (w.arena_over b.integrations b.bodyLevels).trans hw
  have harena' := (w'.arena_over b.integrations b.bodyLevels).trans hw'
  have hlevels := b.age_body_le_bodyLevels parameters body
  have hrun : (((b.expressionForm parameters body).program.walker dialect).renderRoot
        b.next).runOn {} =
      (((b.blockForm parameters body).program.walker dialect).renderRoot
        ⟨b.next.index + 2⟩).runOn {} := by
    rw [hroot, hroot', ← Walker.forM_checkRootParameter_eq h harena harena']
    by_cases hplain : ∀ id ∈ parameters,
        (b.expressionForm parameters body).arena.IsPlainParameter id
    · have hpromise := fun hpromise => hunlike ⟨hpromise, hplain⟩
      rw [Walker.forM_checkRootParameter_of_plain (by rwa [harena]), pure_bind, pure_bind]
      have hbelow := h.alikeBelow hbody hpromise
      have hagrees := Walker.agrees_over hbelow h.grown h.grown' htable hw hw' (hd.trans hd'.symm)
        b.bodyLevels
      apply Render.Agree.runOn_eq
      refine Walker.InStep.agree hagrees (Walker.inStep_returned_of_calls ?_ ?_ ?_)
      · rw [Walker.dialect_over, Walker.dialect_over, hd, hd']
      · exact ⟨rfl, .inr .refl, by omega, (Nat.le_succ _).trans hlevels⟩
      · exact ⟨rfl, .inr .refl, by omega, hlevels⟩
    · obtain ⟨f, hf⟩ := Walker.forM_checkRootParameter_of_not_plain (by rwa [harena])
      rw [hf]
      rfl
  unfold Program.render
  rw [hrun]

/-- The form without block is refused if it is. -/
theorem render_of_promisesCall (hp : (b.expressionForm parameters body).program.BottomUp)
    (hp' : (b.blockForm parameters body).program.BottomUp)
    (hbody : ∀ statements, (b.expressionForm parameters body).arena.get? body ≠
      some (.block statements))
    (hpromise : (b.expressionForm parameters body).arena.PromisesCall body)
    (hplain : ∀ id ∈ parameters, (b.expressionForm parameters body).arena.IsPlainParameter id)
    (dialect : Dialect) :
    (b.expressionForm parameters body).program.render dialect b.next =
      .error (.illegalCall .unconsumed) := by
  have h := bodyForms hp hp'
  obtain ⟨w, hw, -, hroot⟩ := renderRoot_expressionForm h hbody dialect
  obtain ⟨expr, hget, hcalled⟩ := hpromise
  have harena := w.arena_over b.integrations b.bodyLevels
  have hlevels := b.age_body_le_bodyLevels parameters body
  have hconsumed : Walker.isConsumed w.arena (w.arena.unwrapParens body) = false := by
    rw [hw]
    exact h.isConsumed_eq_false (h.grown.wraps_unwrapParens body) (Arena.lt_size_of_get? hget)
  rw [← hw] at hget hcalled hplain hlevels
  obtain ⟨m, hm⟩ : ∃ m, b.bodyLevels = m + 1 := ⟨b.bodyLevels - 1, by omega⟩
  rw [hm] at hroot harena
  have hrun : (((b.expressionForm parameters body).program.walker dialect).renderRoot
        b.next).runOn {} = (.error (.illegalCall .unconsumed), {}) := by
    rw [hroot, Walker.forM_checkRootParameter_of_plain (by rwa [harena]), pure_bind,
      Walker.returned_of_unconsumed (hw ▸ h.grown) (by omega) hget hcalled hconsumed]
    rfl
  unfold Program.render
  rw [hrun]

/-- A finished builder is its program. -/
theorem eq_program_of_finish {p : Program} (h : b.finish = .ok p) : p = b.program := by
  unfold finish at h
  split at h
  · exact (Except.ok.inj h).symm
  · cases h

end Builder

/-- The closures `(parameters) => body` and `(parameters) => { return body; }`, finished over
the same nodes, compile to the same template or fail for the same reason in every target and
under every configuration, unless the body is a promise of a call.

If it is one, the return in the block consumes it, but the return of the closure itself does
not: the closure without block is refused, once its parameters have been accepted. -/
theorem compile_eq_of_bodyForms {b : Builder} {parameters : List NodeId} {body : NodeId}
    {p p' : Program} (hf : (b.expressionForm parameters body).finish = .ok p)
    (hf' : (b.blockForm parameters body).finish = .ok p') (hp : p.BottomUp) (hp' : p'.BottomUp)
    (htable : ∀ integration ∈ b.integrations, integration.Alike integration)
    (hbody : ∀ statements, b.arena.get? body ≠ some (.block statements)) :
    (¬ (p.arena.PromisesCall body ∧ ∀ id ∈ parameters, p.arena.IsPlainParameter id) →
      (∀ config, p.compileResolver b.next config =
        p'.compileResolver ⟨b.next.index + 2⟩ config) ∧
      ∀ direction config, p.compileMapping b.next direction config =
        p'.compileMapping ⟨b.next.index + 2⟩ direction config) ∧
    (p.arena.PromisesCall body → (∀ id ∈ parameters, p.arena.IsPlainParameter id) →
      (∀ config, p.compileResolver b.next config = .error (.illegalCall .unconsumed)) ∧
      ∀ direction config,
        p.compileMapping b.next direction config = .error (.illegalCall .unconsumed)) := by
  obtain rfl := Builder.eq_program_of_finish hf
  obtain rfl := Builder.eq_program_of_finish hf'
  have hbody' : ∀ statements, (b.expressionForm parameters body).arena.get? body ≠
      some (.block statements) := by
    intro statements hn
    rw [Builder.get?_expressionForm] at hn
    split at hn
    · cases hn
    · exact hbody statements hn
  -- the forms add nodes and register nothing, so calls have the same kinds
  have hkinds : (b.expressionForm parameters body).program.integrations =
      (b.blockForm parameters body).program.integrations := by
    show (Builder.push _ _).integrations = (Builder.push _ _).integrations
    rw [Builder.integrations_push, Builder.integrations_push, Builder.integrations_push,
      Builder.integrations_push]
  constructor
  · intro hunlike
    have hrender := Builder.render_eq_of_forms hp hp' htable hbody' hunlike
    constructor
    · intro config
      unfold Program.compileResolver
      simp only [hrender, Program.integration?, hkinds]
    · intro direction config
      unfold Program.compileMapping
      rw [hrender]
  · intro hpromise hplain
    have hrefused := Builder.render_of_promisesCall hp hp' hbody' hpromise hplain
    constructor
    · intro config
      unfold Program.compileResolver
      rw [hrefused]
      rfl
    · intro direction config
      unfold Program.compileMapping
      rw [hrefused]
      rfl

/-- What the closures around `promise(get())` consist of, where `get` is an integration: the
expression `#2` and the parameter `#4`. -/
def Builder.pending : Builder :=
  .of [.ofStyle "table.get" .invoke]
    [.reference "get" (some ⟨0⟩), .call ⟨0⟩ [], .promise ⟨1⟩, .identifier "input",
      .parameter ⟨3⟩ none]

/-- The closure `input => promise(get())`. -/
def Program.promiseBody : Program :=
  (Builder.of [.ofStyle "table.get" .invoke]
    [.reference "get" (some ⟨0⟩), .call ⟨0⟩ [], .promise ⟨1⟩, .identifier "input",
      .parameter ⟨3⟩ none, .function [⟨4⟩] ⟨2⟩]).program

/-- The closure `input => { return promise(get()); }`. -/
def Program.promiseReturned : Program :=
  (Builder.of [.ofStyle "table.get" .invoke]
    [.reference "get" (some ⟨0⟩), .call ⟨0⟩ [], .promise ⟨1⟩, .identifier "input",
      .parameter ⟨3⟩ none, .returnValue (some ⟨2⟩), .block [⟨5⟩], .function [⟨4⟩] ⟨6⟩]).program

/-- Both closures are finished over the same nodes. -/
theorem Builder.finish_pending :
    (Builder.pending.expressionForm [⟨4⟩] ⟨2⟩).finish = .ok Program.promiseBody ∧
      (Builder.pending.blockForm [⟨4⟩] ⟨2⟩).finish = .ok Program.promiseReturned :=
  ⟨rfl, rfl⟩

/-- Its one integration is of a style that works the same in both. -/
theorem Builder.alike_pending :
    ∀ integration ∈ Builder.pending.integrations, integration.Alike integration := by
  rw [Builder.pending, Builder.integrations_of]
  intro integration hm
  rw [List.mem_singleton.mp (List.mem_toArray.mp hm)]
  exact Integration.alike_ofStyle _ _

/-- The body of both is a promise and no block. -/
theorem Builder.body_pending (statements : List NodeId) :
    Builder.pending.arena.get? ⟨2⟩ ≠ some (.block statements) := by
  have hn : Builder.pending.arena.get? ⟨2⟩ = some (.promise ⟨1⟩) := by cbv
  simp [hn]

/-- Both closures list parts before what they are parts of. -/
theorem Program.bottomUp_promise :
    Program.promiseBody.BottomUp ∧ Program.promiseReturned.BottomUp :=
  ⟨Builder.bottomUp_of (by decide) (by cbv), Builder.bottomUp_of (by decide) (by cbv)⟩

/-- Of the two closures around `promise(get())`, the one without block is refused. -/
theorem compile_eq_of_bodyForms_pending :
    Program.promiseBody.arena.PromisesCall ⟨2⟩ ∧
      (∀ statements, Builder.pending.arena.get? ⟨2⟩ ≠ some (.block statements)) ∧
      Program.promiseBody.compileResolver ⟨5⟩ {} = .error (.illegalCall .unconsumed) := by
  have hpromise : Program.promiseBody.arena.PromisesCall ⟨2⟩ := ⟨⟨1⟩, by cbv, by cbv⟩
  have hplain : ∀ id ∈ [(⟨4⟩ : NodeId)], Program.promiseBody.arena.IsPlainParameter id := by
    intro id hm
    obtain rfl := List.mem_singleton.mp hm
    refine ⟨.parameter ⟨3⟩ none, by cbv, fun name default heq => ?_⟩
    cases heq
    exact ⟨"input", by cbv⟩
  exact ⟨hpromise, Builder.body_pending,
    ((compile_eq_of_bodyForms Builder.finish_pending.1 Builder.finish_pending.2
      Program.bottomUp_promise.1 Program.bottomUp_promise.2 Builder.alike_pending
      Builder.body_pending).2 hpromise hplain).1 {}⟩

/-- The two forms of a closure do not always compile alike: the expression `promise(get())` is
accepted in the block only. -/
theorem not_compile_eq_promise :
    ¬ ∀ (b : Builder) (parameters : List NodeId) (body : NodeId) (p p' : Program)
      (config : ResolverConfig), (b.expressionForm parameters body).finish = .ok p →
      (b.blockForm parameters body).finish = .ok p' → p.BottomUp → p'.BottomUp →
      (∀ integration ∈ b.integrations, integration.Alike integration) →
      (∀ statements, b.arena.get? body ≠ some (.block statements)) →
      p.compileResolver b.next config = p'.compileResolver ⟨b.next.index + 2⟩ config := by
  intro hall
  have heq := hall .pending [⟨4⟩] ⟨2⟩ .promiseBody .promiseReturned {} Builder.finish_pending.1
    Builder.finish_pending.2 Program.bottomUp_promise.1 Program.bottomUp_promise.2
    Builder.alike_pending Builder.body_pending
  have hrefused : Program.promiseBody.compileResolver ⟨5⟩ {} =
      .error (.illegalCall .unconsumed) := by decide +kernel
  have haccepted : Program.promiseReturned.compileResolver ⟨7⟩ {} = .ok
      { template := "#set($context.stash.request = \x7b\"function\": \"table.get\", " ++
          "\"payload\": $null\x7d)\n#return($context.prev.result)"
        integrations := ["table.get"] } := by decide +kernel
  have hsame := hrefused.symm.trans (heq.trans haccepted)
  cases hsame

end ClosureVtl
