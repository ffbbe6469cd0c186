/-
Module: ClosureVtl.Proofs.Render.MirroredRules
Purpose: The rules of rendering under two walkers that write different addresses.
Main exports:
  Walker.Mirrored, Walker.resembles_reference, Walker.mirrors_expandPattern,
  Walker.resembles_renderExpression, Walker.mirrors_renderStatement, Walker.mirrors_renderRoot
-/
import ClosureVtl.Integration
import ClosureVtl.Proofs.Render.Mirroring
import ClosureVtl.Render.Statement

namespace ClosureVtl

/-!
Two walkers of one closure write resolver templates.  They may address names differently, as
long as an address is a reference for both or for neither.  Then the texts that they return for
one node have one form, and each rule takes the same temporaries and records the same calls
under both; there is one lemma for each rule, in the order of the rules.

Most texts have a character that no reference has: a parenthesis, a bracket, a quotation mark.
The others are addresses, members and what a rule hands on.  Twice a rule looks at a text in
another way, at its last character and at whether it is the text of another name; there it
decides only whether a line is written.
-/

/-- Whether two walkers render one closure to resolver templates, with results that have one
form. -/
structure Walker.Mirrored (w w' : Walker) : Prop where
  arena : w'.arena = w.arena
  resolver : ∃ config config', w.dialect = .resolver config ∧ w'.dialect = .resolver config' ∧
    config.singleIntegration = config'.singleIntegration
  address : ∀ id, Render.Resembles (w.address id) (w'.address id)
  expression : ∀ id, Render.Resembles (w.expression id) (w'.expression id)
  statement : ∀ id slot, Render.Mirrors Eq (w.statement id slot) (w'.statement id slot)
  expand : ∀ id {target target'}, Text.Alike target target' →
    Render.Mirrors Eq (w.expand id target) (w'.expand id target')
  integrate : ∀ integration call,
    Render.Resembles (w.integrate integration call) (w'.integrate integration call)

namespace Walker

open Render

variable {w w' : Walker}

/-! ### Steps built on the entry points -/

/-- Both walkers read the same arena, so they find the same node or fail to. -/
theorem mirrors_node (h : w.Mirrored w') (id : NodeId) : Mirrors Eq (w.node id) (w'.node id) := by
  unfold Walker.node
  rw [h.arena]
  exact .ofExcept _

/-- A number literal is its own text; no address is in it. -/
theorem mirrors_number (value : Binary64) : Mirrors Eq (number value) (number value) :=
  .ofExcept _

/-- Assigned to two targets, a node is one line for each walker. -/
theorem mirrors_assignNode (h : w.Mirrored w') (target target' : String) (id : NodeId) :
    Mirrors Eq (w.assignNode target id) (w'.assignNode target' id) := by
  refine .bind (h.expression id) fun value value' _ => ?_
  exact .assign _ _ _ _

/-- A value moved to a temporary leaves the same temporary behind, whatever its text is. -/
theorem mirrors_materializeNode (h : w.Mirrored w') (id : NodeId) :
    Mirrors Eq (w.materializeNode id) (w'.materializeNode id) := by
  refine .bind (h.expression id) fun value value' _ => ?_
  exact .materialize _ _

/-- A temporary is the same text for both walkers. -/
theorem resembles_of_eq {x x' : Render String} (h : Mirrors Eq x x') : Resembles x x' :=
  h.imp fun _ _ heq => heq ▸ .refl _

/-- Values of one form are references both, or both are moved to the same temporary. -/
theorem resembles_toReference {value value' : String} (h : Text.Alike value value') :
    Resembles (toReference value) (toReference value') := by
  refine .ite ?_ (.pure h) (resembles_of_eq (.materialize _ _))
  rw [Text.isReference_eq, Text.isReference_eq, show Text.form value = Text.form value' from h]

/-- A node needs a temporary under one walker if it needs one under the other. -/
theorem resembles_reference (h : w.Mirrored w') (id : NodeId) :
    Resembles (w.reference id) (w'.reference id) := by
  refine .bind (h.expression id) fun value value' hvalue => ?_
  exact resembles_toReference hvalue

/-- Whether an argument is moved to a temporary is seen from its node, not from its text. -/
theorem resembles_argument (h : w.Mirrored w') (id : NodeId) :
    Resembles (w.argument id) (w'.argument id) := by
  unfold argument
  rw [h.arena]
  refine .bind (h.expression _) fun value value' hvalue => ?_
  refine .bindEq (mirrors_node h _) fun node => ?_
  exact .ite Iff.rfl (resembles_of_eq (.materialize _ _)) (.pure hvalue)

/-- The arguments of a call take the same temporaries; their joined text is of no interest, since
it stands between parentheses. -/
theorem mirrors_arguments (h : w.Mirrored w') (ids : List NodeId) :
    Mirrors (fun _ _ => True) (w.arguments ids) (w'.arguments ids) := by
  refine .bind (.mapM ids fun id => resembles_argument h id) fun _ _ _ => ?_
  exact .pure trivial

/-- Resolver templates have loops, whatever their configuration is. -/
theorem mirrors_requireLoops (h : w.Mirrored w') (what : String) :
    Mirrors Eq (w.requireLoops what) (w'.requireLoops what) := by
  obtain ⟨config, config', hd, hd', -⟩ := h.resolver
  unfold requireLoops
  rw [hd, hd']
  exact .pure rfl

/-! ### Patterns -/

/-- A value with a default is itself, or a temporary that is the same for both walkers. -/
theorem resembles_withDefault (h : w.Mirrored w') {value value' : String}
    (hvalue : Text.Alike value value') (default : Option NodeId) :
    Resembles (w.withDefault value default) (w'.withDefault value' default) := by
  cases default with
  | none => exact .pure hvalue
  | some default =>
    refine .bindEq (.materialize _ _) fun slot => ?_
    refine .bindEq (.ifNull _ _ (mirrors_assignNode h _ _ default)) fun _ => ?_
    exact .pure (.refl _)

/-- One element of a pattern: a name is assigned, a pattern is expanded from a reference. -/
theorem mirrors_bindElement (h : w.Mirrored w') (name : NodeId) {value value' : String}
    (hvalue : Text.Alike value value') (default : Option NodeId) :
    Mirrors Eq (w.bindElement name value default) (w'.bindElement name value' default) := by
  refine .bind (resembles_withDefault h hvalue default) fun source source' hsource => ?_
  refine .bindEq (mirrors_node h name) fun node => ?_
  have hexpand : Mirrors Eq (toReference source >>= w.expand name)
      (toReference source' >>= w'.expand name) :=
    .bind (resembles_toReference hsource) fun _ _ htarget => h.expand name htarget
  cases node with
  | identifier _ => exact .bind (h.address name) fun _ _ _ => .assign _ _ _ _
  | objectPattern _ => exact hexpand
  | arrayPattern _ => exact hexpand
  | _ => exact .breach _

/-- Accessors of one element have one form; what the key of the element is does not matter. -/
theorem mirrors_propertyAccess (h : w.Mirrored w') {target twin : String}
    (htarget : Text.Alike target twin) (name : NodeId) (key : Option NodeId) :
    Mirrors (fun access access' => Text.Alike access.1 access'.1)
      (w.propertyAccess target name key) (w'.propertyAccess twin name key) := by
  have hbracket (key other : String) : Text.Alike s!"{target}[{key}]" s!"{twin}[{other}]" :=
    .of_closed (by decide) _ _
  cases key with
  | none =>
    refine .bindEq (mirrors_node h name) fun node => ?_
    cases node with
    | identifier name => exact .pure (htarget.member name)
    | _ => exact .fault _
  | some key =>
    refine .bindEq (mirrors_node h key) fun node => ?_
    cases node with
    | identifier name => exact .pure (htarget.member name)
    | string key => exact .pure (hbracket _ _)
    | number value => exact .bindEq (mirrors_number value) fun _ => .pure (hbracket _ _)
    | computedKey expr =>
      exact .bind (resembles_reference h expr) fun _ _ _ => .pure (hbracket _ _)
    | _ => exact .fault _

/-- The names of the keys do not matter for the remainder of an object; whether there are any
does, for without a key nothing is tested. -/
theorem mirrors_objectRest (source source' : String) {keys keys' : List String}
    (hkeys : keys.length = keys'.length) :
    Mirrors Eq (objectRest source keys) (objectRest source' keys') := by
  refine .bindEq .freshTemp fun rest => ?_
  refine .bindEq (.assign _ _ _ _) fun _ => ?_
  refine .bindEq .freshTemp fun key => ?_
  refine .bindEq (.openLoop _ _ _ _) fun _ => ?_
  cases keys with
  | nil =>
    rw [List.eq_nil_of_length_eq_zero hkeys.symm]
    refine .bindEq (.discard _ _) fun _ => ?_
    exact .bindEq .close fun _ => .pure rfl
  | cons first others =>
    obtain ⟨first', others', rfl⟩ := List.exists_cons_of_length_eq_add_one hkeys.symm
    refine .bindEq (.guarded _ _ (.discard _ _)) fun _ => ?_
    exact .bindEq .close fun _ => .pure rfl

/-- The states of two runs over the elements of an object pattern. -/
def ElementsMatch (state state' : List String × Option NodeId) : Prop :=
  state.1.length = state'.1.length ∧ state.2 = state'.2

/-- A step over an object pattern extends the keys by one for both walkers, or meets the rest
element. -/
theorem mirrors_bindObjectElement (h : w.Mirrored w') {target target' : String}
    (htarget : Text.Alike target target') {state state' : List String × Option NodeId}
    (hstate : ElementsMatch state state') (element : NodeId) :
    Mirrors ElementsMatch (w.bindObjectElement target state element)
      (w'.bindObjectElement target' state' element) := by
  refine .bindEq (mirrors_node h element) fun node => ?_
  cases node with
  | binding name key default rest =>
    cases rest with
    | true => exact .pure ⟨hstate.1, rfl⟩
    | false =>
      refine .bind (mirrors_propertyAccess h htarget name key) fun access access' haccess => ?_
      refine .bindEq (mirrors_bindElement h name haccess default) fun _ => ?_
      refine .pure ⟨?_, hstate.2⟩
      rw [List.length_append, List.length_append, hstate.1]
      rfl
  | _ => exact .breach _

/-- An object pattern is expanded alike: the elements first and the remainder, if there is one,
last. -/
theorem mirrors_expandObject (h : w.Mirrored w') (elements : List NodeId) {target target' : String}
    (htarget : Text.Alike target target') :
    Mirrors Eq (w.expandObject elements target) (w'.expandObject elements target') := by
  refine .bind (.foldlM elements (fun state state' element hstate =>
    mirrors_bindObjectElement h htarget hstate element) ⟨rfl, rfl⟩) ?_
  rintro ⟨keys, rest⟩ ⟨keys', rest'⟩ ⟨hkeys, hrest⟩
  cases (show rest = rest' from hrest)
  cases rest with
  | none => exact .pure rfl
  | some name =>
    refine .bindEq (mirrors_objectRest _ _ hkeys) fun remainder => ?_
    exact mirrors_bindElement h name (.refl _) none

/-- An element of an array pattern is read by its position, which is no reference for either
walker. -/
theorem mirrors_bindArrayElement (h : w.Mirrored w') (target target' : String)
    (rest : Option (Nat × NodeId)) (element : NodeId × Nat) :
    Mirrors Eq (w.bindArrayElement target rest element)
      (w'.bindArrayElement target' rest element) := by
  refine .bindEq (mirrors_node h element.1) fun node => ?_
  cases node with
  | hole => exact .pure rfl
  | binding name key default rest =>
    cases rest with
    | true => exact .pure rfl
    | false =>
      refine .bindEq (mirrors_bindElement h name (.of_closed (by decide) _ _) default) fun _ => ?_
      exact .pure rfl
  | _ => exact .breach _

/-- An array pattern is expanded alike, with the rest element from the position where it stands.
-/
theorem mirrors_expandArray (h : w.Mirrored w') (elements : List NodeId)
    (target target' : String) :
    Mirrors Eq (w.expandArray elements target) (w'.expandArray elements target') := by
  have helement : ∀ rest rest' element, rest = rest' →
      Mirrors Eq (w.bindArrayElement target rest element)
        (w'.bindArrayElement target' rest' element) := by
    rintro rest _ element rfl
    exact mirrors_bindArrayElement h target target' rest element
  refine .bindEq (.foldlM _ helement rfl) fun rest => ?_
  cases rest with
  | none => exact .pure rfl
  | some rest => exact mirrors_bindElement h rest.2 (.of_closed (by decide) _ _) none

/-- A pattern is expanded alike from two references of one form. -/
theorem mirrors_expandPattern (h : w.Mirrored w') (pattern : NodeId) {target target' : String}
    (htarget : Text.Alike target target') :
    Mirrors Eq (w.expandPattern pattern target) (w'.expandPattern pattern target') := by
  refine .bindEq (mirrors_node h pattern) fun node => ?_
  cases node with
  | objectPattern elements => exact mirrors_expandObject h elements htarget
  | arrayPattern elements => exact mirrors_expandArray h elements target target'
  | _ => exact .breach _

/-- Whether a name is the loop variable itself decides only whether it is assigned. -/
theorem mirrors_bindParameter (h : w.Mirrored w') (parameter : NodeId) {source source' : String}
    (hsource : Text.Alike source source') :
    Mirrors Eq (w.bindParameter parameter source) (w'.bindParameter parameter source') := by
  refine .bindEq (mirrors_node h parameter) fun node => ?_
  cases node with
  | parameter name default =>
    refine .bindEq (mirrors_node h name) fun node => ?_
    cases node with
    | identifier _ =>
      refine .bind (h.address name) fun target target' _ => ?_
      refine .optionalFirst _ _ ?_
      cases default with
      | none => exact .pure rfl
      | some default => exact .ifNull _ _ (mirrors_assignNode h _ _ default)
    | _ => exact mirrors_bindElement h name hsource default
  | _ => exact .breach _

/-! ### Loops of list operations -/

/-- The variable of a loop is the address of a plain parameter, and a new temporary in every
other case. -/
theorem resembles_loopVariable (h : w.Mirrored w') (parameter : Option NodeId) :
    Resembles (w.loopVariable parameter) (w'.loopVariable parameter) := by
  have hfresh : Resembles Render.freshTemp Render.freshTemp := resembles_of_eq .freshTemp
  cases parameter with
  | none => exact hfresh
  | some parameter =>
    refine .bindEq (mirrors_node h parameter) fun node => ?_
    cases node with
    | parameter name default =>
      cases default with
      | none =>
        refine .bindEq (mirrors_node h name) fun node => ?_
        cases node with
        | identifier _ => exact h.address name
        | _ => exact hfresh
      | some _ => exact hfresh
    | _ => exact hfresh

/-- Parameters are bound to the values that a round has for them. -/
theorem mirrors_bindParameters (h : w.Mirrored w') (parameters : List NodeId)
    {values values' : List String} (hvalues : List.Forall₂ Text.Alike values values') :
    Mirrors Eq
      ((parameters.zip values).forM fun (parameter, source) =>
        w.bindParameter parameter source)
      ((parameters.zip values').forM fun (parameter, source) =>
        w'.bindParameter parameter source) := by
  induction parameters generalizing values values' with
  | nil => exact .pure rfl
  | cons parameter rest ih =>
    cases hvalues with
    | nil => exact .pure rfl
    | cons hfirst hrest =>
      refine .bindEq (mirrors_bindParameter h parameter hfirst) fun _ => ?_
      exact ih hrest

/-- The parameters of a callback are the item, the position and the list; the position has one
text. -/
theorem mirrors_bindItemParameters (h : w.Mirrored w') (parameters : List NodeId)
    {item item' list list' : String} (hitem : Text.Alike item item')
    (hlist : Text.Alike list list') :
    Mirrors Eq (w.bindItemParameters parameters item list)
      (w'.bindItemParameters parameters item' list') :=
  mirrors_bindParameters h parameters (.cons hitem (.cons (.refl _) (.cons hlist .nil)))

/-- A callback with a block for a body takes one slot, any other is a value moved to a temporary.
-/
theorem mirrors_callbackBody (h : w.Mirrored w') (body : NodeId) :
    Mirrors Eq (w.callbackBody body) (w'.callbackBody body) := by
  refine .bindEq (mirrors_node h body) fun node => ?_
  cases node with
  | block _ =>
    refine .bindEq .freshTemp fun slot => ?_
    refine .bindEq (.assign _ _ _ _) fun _ => ?_
    refine .bindEq (h.statement body (some slot)) fun _ => ?_
    exact .pure rfl
  | _ => exact mirrors_materializeNode h body

/-- Lines that open a loop are written by both walkers. -/
abbrev HeadersMatch (header header' : String → String → Render Unit) : Prop :=
  ∀ item item' list list', Mirrors Eq (header item list) (header' item' list')

variable {header header' : String → String → Render Unit}

/-- The induction is on the stages of a fused loop, whose innermost opens it. -/
theorem resembles_renderStages (h : w.Mirrored w') (source : NodeId)
    (hheader : HeadersMatch header header') (stages : List ListCall) {item item' : String}
    (hitem : Text.Alike item item') :
    Resembles (w.renderStages source header stages item)
      (w'.renderStages source header' stages item') := by
  induction stages generalizing item item' with
  | nil =>
    refine .bind (resembles_reference h source) fun list list' hlist => ?_
    exact .bindEq (hheader _ _ _ _) fun _ => .pure hlist
  | cons stage inner ih =>
    refine .bind (resembles_loopVariable h _) fun stageItem stageItem' hstageItem => ?_
    refine .bind (ih hstageItem) fun list list' hlist => ?_
    refine .bindEq (mirrors_bindItemParameters h _ hstageItem hlist) fun _ => ?_
    refine .bindEq (mirrors_callbackBody h _) fun value => ?_
    exact .bindEq (.assign _ _ _ _) fun _ => .pure hlist

/-- The stages that a loop fuses are found in the arena, so both walkers fuse the same ones. -/
theorem resembles_loopOver (h : w.Mirrored w') (receiver : NodeId) {item item' : String}
    (hitem : Text.Alike item item') (readsList : Bool) (hheader : HeadersMatch header header') :
    Resembles (w.loopOver receiver item readsList header)
      (w'.loopOver receiver item' readsList header') := by
  unfold loopOver
  rw [h.arena]
  exact resembles_renderStages h _ hheader _ hitem

/-- The item of a loop over a list has one form under both walkers. -/
theorem resembles_itemLoop (h : w.Mirrored w') (c : ListCall) :
    Resembles (w.itemLoop c) (w'.itemLoop c) := by
  unfold itemLoop
  rw [h.arena]
  refine .bind (resembles_loopVariable h _) fun item item' hitem => ?_
  refine .bind (resembles_loopOver h _ hitem _ fun _ _ _ _ => .openLoop _ _ _ _)
    fun list list' hlist => ?_
  exact .bindEq (mirrors_bindItemParameters h _ hitem hlist) fun _ => .pure hitem

/-- The result of a mapping loop is a temporary, taken before the loop is opened. -/
theorem resembles_mapLoop (h : w.Mirrored w') (c : ListCall) :
    Resembles (w.mapLoop c) (w'.mapLoop c) := by
  refine .bindEq .freshTemp fun out => ?_
  refine .bindEq (.assign _ _ _ _) fun _ => ?_
  refine .bind (resembles_itemLoop h c) fun _ _ _ => ?_
  refine .bindEq (mirrors_callbackBody h _) fun value => ?_
  refine .bindEq (.discard _ _) fun _ => ?_
  exact .bindEq .close fun _ => .pure (.refl _)

/-- The text of a loop that is run for its effects is null. -/
theorem resembles_forEachLoop (h : w.Mirrored w') (c : ListCall) :
    Resembles (w.forEachLoop c) (w'.forEachLoop c) := by
  refine .bind (resembles_itemLoop h c) fun _ _ _ => ?_
  refine .bindEq (mirrors_callbackBody h _) fun _ => ?_
  exact .bindEq .close fun _ => .pure (.refl _)

/-- A filtering loop keeps an item under the same condition and returns a temporary. -/
theorem resembles_filterLoop (h : w.Mirrored w') (c : ListCall) :
    Resembles (w.filterLoop c) (w'.filterLoop c) := by
  refine .bindEq .freshTemp fun out => ?_
  refine .bindEq (.assign _ _ _ _) fun _ => ?_
  refine .bind (resembles_itemLoop h c) fun _ _ _ => ?_
  refine .bindEq (mirrors_callbackBody h _) fun keep => ?_
  refine .bindEq (.guarded _ _ (.discard _ _)) fun _ => ?_
  exact .bindEq .close fun _ => .pure (.refl _)

/-- One round of a reduction: the accumulator is bound before the item, and the body is assigned
to it. -/
theorem mirrors_reduceStep (h : w.Mirrored w') (c : ListCall) (acc : String)
    {item item' list list' : String} (hitem : Text.Alike item item')
    (hlist : Text.Alike list list') :
    Mirrors Eq (w.reduceStep c acc item list) (w'.reduceStep c acc item' list') := by
  have hvalues : List.Forall₂ Text.Alike [acc, item, loopIndex, list]
      [acc, item', loopIndex, list'] :=
    .cons (.refl _) (.cons hitem (.cons (.refl _) (.cons hlist .nil)))
  refine .bindEq (mirrors_bindParameters h _ hvalues) fun _ => ?_
  refine .bindEq (mirrors_callbackBody h _) fun _ => ?_
  exact .assign _ _ _ _

/-- Without a seed the length of the list is tested, which is one line for either text. -/
theorem mirrors_emptyReduceGuard (list list' : String) :
    Mirrors Eq (emptyReduceGuard list) (emptyReduceGuard list') :=
  .guarded _ _ (.emit _ _)

/-- A reduction returns its accumulator, a temporary, with a seed or without one. -/
theorem resembles_reduceLoop (h : w.Mirrored w') (c : ListCall) (initial : Option NodeId) :
    Resembles (w.reduceLoop c initial) (w'.reduceLoop c initial) := by
  unfold reduceLoop
  rw [h.arena]
  refine .bindEq .freshTemp fun acc => ?_
  cases initial with
  | none =>
    have hheader : HeadersMatch (fun item list => do
        emptyReduceGuard list
        Render.openLoop item list) (fun item list => do
        emptyReduceGuard list
        Render.openLoop item list) :=
      fun _ _ _ _ => .bindEq (mirrors_emptyReduceGuard _ _) fun _ => .openLoop _ _ _ _
    refine .bind (resembles_loopVariable h _) fun item item' hitem => ?_
    refine .bind (resembles_loopOver h _ hitem _ hheader) fun list list' hlist => ?_
    have hstep := mirrors_reduceStep h c acc hitem hlist
    refine .bindEq (.choice _ _ (.assign _ _ _ _) hstep) fun _ => ?_
    exact .bindEq .close fun _ => .pure (.refl _)
  | some initial =>
    refine .bindEq (mirrors_assignNode h _ _ initial) fun _ => ?_
    refine .bind (resembles_loopVariable h _) fun item item' hitem => ?_
    refine .bind (resembles_loopOver h _ hitem _ fun _ _ _ _ => .openLoop _ _ _ _)
      fun list list' hlist => ?_
    refine .bindEq (mirrors_reduceStep h c acc hitem hlist) fun _ => ?_
    exact .bindEq .close fun _ => .pure (.refl _)

/-! ### Calls -/

/-- A helper of the runtime puts its argument between brackets, so what it is applied to does not
count. -/
theorem mirrors_helperCall? (h : w.Mirrored w') (base : NodeId) (name : String)
    (args : List NodeId) :
    Mirrors (Option.Rel Text.Alike) (w.helperCall? base name args)
      (w'.helperCall? base name args) := by
  unfold helperCall?
  rw [h.arena]
  refine .bindEq (mirrors_node h _) fun node => ?_
  cases globalName? w.arena (w.arena.unwrapParens base) node with
  | none => exact .pure .none
  | some global =>
    dsimp only
    have hhelper : ∀ helper, globalHelper? global name = some helper → ∀ value value',
        Text.Alike (helper value) (helper value') := by
      unfold globalHelper?
      split <;> rintro helper ⟨⟩ value value' <;> exact .of_closed (by decide) _ _
    revert hhelper
    cases globalHelper? global name with
    | none => exact fun _ => .pure .none
    | some helper =>
      intro hhelper
      match args with
      | [arg] =>
        exact .bind (resembles_argument h arg) fun _ _ _ => .pure (.some (hhelper _ rfl _ _))
      | [] => exact .unsupported _
      | _ :: _ :: _ => exact .unsupported _

/-- There is one loop for each operation on lists. -/
theorem resembles_listOperation (h : w.Mirrored w') (operation : ListOperation) (c : ListCall)
    (args : List NodeId) :
    Resembles (w.listOperation operation c args) (w'.listOperation operation c args) := by
  cases operation with
  | map => exact resembles_mapLoop h c
  | forEach => exact resembles_forEachLoop h c
  | filter => exact resembles_filterLoop h c
  | reduce =>
    unfold listOperation
    rw [h.arena]
    exact resembles_reduceLoop h c _

/-- A push is a call, whether its argument is spread or added as it stands. -/
theorem resembles_push (h : w.Mirrored w') (base : NodeId) (args : List NodeId) :
    Resembles (w.push base args) (w'.push base args) := by
  match args with
  | [arg] =>
    unfold push
    rw [h.arena]
    refine .bind (h.expression base) fun list twin _ => ?_
    refine .bindEq (mirrors_node h _) fun node => ?_
    have hadd : Resembles (do
        let value ← w.argument arg
        return s!"{list}.add({value})") (do
        let value ← w'.argument arg
        return s!"{twin}.add({value})") :=
      .bind (resembles_argument h arg) fun _ _ _ => .pure (.of_closed (by decide) _ _)
    cases node with
    | spread expr =>
      exact .bind (h.expression expr) fun _ _ _ => .pure (.of_closed (by decide) _ _)
    | _ => exact hadd
  | [] => exact .unsupported _
  | _ :: _ :: _ => exact .unsupported _

/-- A method that no rule knows is a call on its receiver. -/
theorem resembles_plainMethod (h : w.Mirrored w') (base : NodeId) (name : String)
    (args : List NodeId) :
    Resembles (w.plainMethod base name args) (w'.plainMethod base name args) := by
  refine .bind (h.expression base) fun _ _ _ => ?_
  exact .bind (mirrors_arguments h args) fun _ _ _ => .pure (.of_closed (by decide) _ _)

/-- The name of a method selects the rule, and both walkers read the same name. -/
theorem resembles_method (h : w.Mirrored w') (base : NodeId) (name : String)
    (args : List NodeId) :
    Resembles (w.method base name args) (w'.method base name args) := by
  unfold method
  rw [h.arena]
  cases ListOperation.ofName? name with
  | some operation =>
    dsimp only
    cases w.arena.callback? args with
    | some callback =>
      refine .bindEq (mirrors_requireLoops h _) fun _ => ?_
      exact resembles_listOperation h operation _ args
    | none => exact .unsupported _
  | none =>
    refine .ite Iff.rfl (resembles_push h base args) ?_
    refine .bind (mirrors_helperCall? h base name args) fun text text' htext => ?_
    cases htext with
    | some htext => exact .pure htext
    | none => exact resembles_plainMethod h base name args

/-- Only reserved names may be called as functions, and a call is no reference. -/
theorem resembles_namedFunction (h : w.Mirrored w') (callee : NodeId) (name : String)
    (args : List NodeId) :
    Resembles (w.namedFunction callee name args) (w'.namedFunction callee name args) := by
  refine .ite Iff.rfl ?_ (.unsupported _)
  refine .bind (h.address callee) fun _ _ _ => ?_
  exact .bind (mirrors_arguments h args) fun _ _ _ => .pure (.of_closed (by decide) _ _)

/-- An integration is called through its handler, everything else by the shape of the callee. -/
theorem resembles_call (h : w.Mirrored w') (id callee : NodeId) (args : List NodeId) :
    Resembles (w.call id callee args) (w'.call id callee args) := by
  unfold call
  rw [h.arena]
  cases w.arena.resolveIntegration callee with
  | some integration => exact h.integrate integration id
  | none =>
    refine .bindEq (mirrors_node h _) fun node => ?_
    cases node with
    | member base name => exact resembles_method h base name args
    | identifier name => exact resembles_namedFunction h _ name args
    | reference name _ => exact resembles_namedFunction h _ name args
    | _ => exact .unsupported _

/-- A promise is its value where it is consumed, and a fault elsewhere. -/
theorem resembles_promised (h : w.Mirrored w') (id expr : NodeId) :
    Resembles (w.promised id expr) (w'.promised id expr) := by
  unfold promised
  rw [h.arena]
  exact .ite Iff.rfl (.fault _) (h.expression expr)

/-! ### Operators -/

/-- A step in front of its operand returns the operand after it is changed. -/
theorem resembles_stepped (h : w.Mirrored w') (operand : NodeId) (step : Step) :
    Resembles (w.stepped operand step) (w'.stepped operand step) := by
  refine .bind (h.expression operand) fun target target' htarget => ?_
  exact .bindEq (.assign _ _ _ _) fun _ => .pure htarget

/-- A step behind its operand returns the temporary that holds the value from before. -/
theorem resembles_steppedAfter (h : w.Mirrored w') (operand : NodeId) (step : Step) :
    Resembles (w.steppedAfter operand step) (w'.steppedAfter operand step) := by
  refine .bind (h.expression operand) fun target target' _ => ?_
  refine .bindEq (.materialize _ _) fun before => ?_
  exact .bindEq (.assign _ _ _ _) fun _ => .pure (.refl _)

/-- One case for each form of operators; the assigning ones return their target, the inline ones
a text with blanks in it. -/
theorem resembles_binary (h : w.Mirrored w') (left : NodeId) (op : BinaryOp) (right : NodeId) :
    Resembles (w.binary left op right) (w'.binary left op right) := by
  unfold binary
  cases op.form with
  | store =>
    refine .bind (h.expression left) fun target target' htarget => ?_
    exact .bindEq (mirrors_assignNode h _ _ right) fun _ => .pure htarget
  | storeIfNull =>
    refine .bind (h.expression left) fun target target' htarget => ?_
    exact .bindEq (.ifNull _ _ (mirrors_assignNode h _ _ right)) fun _ => .pure htarget
  | coalesce =>
    refine .bindEq (mirrors_materializeNode h left) fun result => ?_
    exact .bindEq (.ifNull _ _ (mirrors_assignNode h _ _ right)) fun _ => .pure (.refl _)
  | membership =>
    refine .bind (resembles_argument h left) fun _ _ _ => ?_
    exact .bind (h.expression right) fun _ _ _ => .pure (.of_closed (by decide) _ _)
  | update symbol =>
    refine .bind (h.expression left) fun target target' htarget => ?_
    refine .bind (h.expression right) fun _ _ _ => ?_
    exact .bindEq (.assign _ _ _ _) fun _ => .pure htarget
  | inline symbol =>
    refine .bind (h.expression left) fun _ _ _ => ?_
    exact .bind (h.expression right) fun _ _ _ => .pure (.of_closed (by decide) _ _)

/-- A negation begins with a character that no reference has. -/
theorem resembles_unary (h : w.Mirrored w') (op : UnaryOp) (operand : NodeId) :
    Resembles (w.unary op operand) (w'.unary op operand) := by
  cases op with
  | not => exact .bind (h.expression operand) fun _ _ _ => .pure (.of_opened (by decide) _ _)
  | neg => exact .bind (h.expression operand) fun _ _ _ => .pure (.of_opened (by decide) _ _)
  | plus => exact h.expression operand
  | step direction => exact resembles_stepped h operand direction

/-- A conditional returns the temporary to which its branches are assigned. -/
theorem resembles_conditional (h : w.Mirrored w') (test yes no : NodeId) :
    Resembles (w.conditional test yes no) (w'.conditional test yes no) := by
  refine .bind (h.expression test) fun _ _ _ => ?_
  refine .bindEq .freshTemp fun result => ?_
  refine .bindEq (.choice _ _ (mirrors_assignNode h _ _ yes) (mirrors_assignNode h _ _ no))
    fun _ => ?_
  exact .pure (.refl _)

/-! ### Literals with parts -/

/-- An item of a list is added by a call, which is discarded. -/
theorem mirrors_addItem (h : w.Mirrored w') (list twin : String) (item : NodeId) :
    Mirrors Eq (w.addItem list item) (w'.addItem twin item) := by
  refine .bindEq (mirrors_node h item) fun node => ?_
  have hadd : Mirrors Eq (do
      let value ← w.argument item
      Render.discard s!"{list}.add({value})") (do
      let value ← w'.argument item
      Render.discard s!"{twin}.add({value})") :=
    .bind (resembles_argument h item) fun _ _ _ => .discard _ _
  cases node with
  | spread expr => exact .bind (h.expression expr) fun _ _ _ => .discard _ _
  | _ => exact hadd

/-- A list that has a spread item is built in a temporary, any other is written between brackets.
-/
theorem resembles_arrayLiteral (h : w.Mirrored w') (items : List NodeId) :
    Resembles (w.arrayLiteral items) (w'.arrayLiteral items) := by
  unfold arrayLiteral
  rw [h.arena]
  refine .ite Iff.rfl ?_ ?_
  · refine .bindEq .freshTemp fun list => ?_
    refine .bindEq (.assign _ _ _ _) fun _ => ?_
    exact .bindEq (.forM items fun item => mirrors_addItem h _ _ item) fun _ => .pure (.refl _)
  · exact .bind (mirrors_arguments h items) fun _ _ _ => .pure (.of_closed (by decide) _ _)

/-- The text of a key is the same for both walkers, unless it is computed. -/
theorem resembles_propertyKey (h : w.Mirrored w') (name : NodeId) :
    Resembles (w.propertyKey name) (w'.propertyKey name) := by
  refine .bindEq (mirrors_node h name) fun node => ?_
  cases node with
  | identifier name => exact .pure (.refl _)
  | string text => exact .pure (.refl _)
  | number value => exact .bindEq (mirrors_number value) fun _ => .pure (.refl _)
  | computedKey expr => exact resembles_argument h expr
  | _ => exact .breach _

/-- A property is put by a call, which is discarded. -/
theorem mirrors_addProperty (h : w.Mirrored w') (object object' : String) (property : NodeId) :
    Mirrors Eq (w.addProperty object property) (w'.addProperty object' property) := by
  refine .bindEq (mirrors_node h property) fun node => ?_
  cases node with
  | property name value =>
    refine .bind (resembles_propertyKey h name) fun _ _ _ => ?_
    exact .bind (resembles_argument h value) fun _ _ _ => .discard _ _
  | spreadProperty expr => exact .bind (h.expression expr) fun _ _ _ => .discard _ _
  | _ => exact .breach _

/-- An object is built in a temporary, property by property. -/
theorem resembles_objectLiteral (h : w.Mirrored w') (properties : List NodeId) :
    Resembles (w.objectLiteral properties) (w'.objectLiteral properties) := by
  refine .bindEq .freshTemp fun object => ?_
  refine .bindEq (.assign _ _ _ _) fun _ => ?_
  exact .bindEq (.forM properties fun property => mirrors_addProperty h _ _ property)
    fun _ => .pure (.refl _)

/-- The text between two values of a template has nothing from the closure's names in it. -/
theorem mirrors_templateText (text : String) :
    Mirrors Eq (templateText text) (templateText text) :=
  .ite Iff.rfl (.bindEq (.materialize _ _) fun _ => .pure rfl) (.pure rfl)

/-- A span is a reference and the text behind it. -/
theorem mirrors_templateSpan (h : w.Mirrored w') (span : TemplateSpan) :
    Mirrors (fun _ _ => True) (w.templateSpan span) (w'.templateSpan span) := by
  refine .bind (resembles_reference h span.expr) fun _ _ _ => ?_
  exact .bindEq (mirrors_templateText span.literal) fun _ => .pure trivial

/-- A template literal is a text in quotation marks, so it is no reference. -/
theorem resembles_templateLiteral (h : w.Mirrored w') (head : String)
    (spans : List TemplateSpan) :
    Resembles (w.templateLiteral head spans) (w'.templateLiteral head spans) := by
  refine .bindEq (mirrors_templateText head) fun _ => ?_
  exact .bind (.mapM spans fun span => mirrors_templateSpan h span) fun _ _ _ =>
    .pure (.of_closed (by decide) _ _)

/-! ### Expressions -/

/-- One case for each kind of node; the entry points stand for the nodes below. -/
theorem resembles_renderExpression (h : w.Mirrored w') (id : NodeId) :
    Resembles (w.renderExpression id) (w'.renderExpression id) := by
  refine .bindEq (mirrors_node h id) fun node => ?_
  cases node with
  | null => exact .pure (.refl _)
  | undefined => exact .pure (.refl _)
  | boolean value => exact .pure (.refl _)
  | number value => exact resembles_of_eq (mirrors_number value)
  | string value => exact .pure (.refl _)
  | array items => exact resembles_arrayLiteral h items
  | object properties => exact resembles_objectLiteral h properties
  | template head spans => exact resembles_templateLiteral h head spans
  | identifier _ => exact h.address id
  | reference _ _ => exact h.address id
  | member base name => exact .bind (h.expression base) fun _ _ hbase => .pure (hbase.member name)
  | element base key =>
    refine .bind (h.expression base) fun _ _ _ => ?_
    exact .bind (resembles_argument h key) fun _ _ _ => .pure (.of_closed (by decide) _ _)
  | binary left op right => exact resembles_binary h left op right
  | unary op operand => exact resembles_unary h op operand
  | stepAfter operand step => exact resembles_steppedAfter h operand step
  | conditional test yes no => exact resembles_conditional h test yes no
  | paren expr => exact h.expression expr
  | argument expr _ => exact h.expression expr
  | await expr => exact h.expression expr
  | promise expr => exact resembles_promised h id expr
  | call callee args => exact resembles_call h id callee args
  | typeOf _ => exact .unsupported _
  | construct _ _ => exact .unsupported _
  | function _ _ => exact .unsupported _
  | spread _ => exact .unsupported _
  | _ => exact .breach _

/-! ### Statements -/

/-- What a resolver returns is one line for each walker. -/
theorem mirrors_returned (h : w.Mirrored w') (value : Option NodeId) :
    Mirrors Eq (w.returned value) (w'.returned value) := by
  obtain ⟨config, config', hd, hd', -⟩ := h.resolver
  unfold returned
  rw [hd, hd']
  cases value with
  | none => exact .emit _ _
  | some value => exact .bind (h.expression value) fun _ _ _ => .emit _ _

/-- A loop over a list opens with its name, or with a temporary that is then expanded. -/
theorem mirrors_loop (h : w.Mirrored w') (target : NodeId) (list list' : String)
    {body body' : Render Unit} (hbody : Mirrors Eq body body') :
    Mirrors Eq (w.loop target list body) (w'.loop target list' body') := by
  refine .bindEq (mirrors_requireLoops h _) fun _ => ?_
  refine .bindEq (mirrors_node h target) fun node => ?_
  have hrest : Mirrors Eq (do body; Render.close) (do body'; Render.close) :=
    .bindEq hbody fun _ => .close
  have hpattern : Mirrors Eq (do
      let item ← Render.freshTemp
      Render.openLoop item list
      w.expand target item
      body
      Render.close) (do
      let item ← Render.freshTemp
      Render.openLoop item list'
      w'.expand target item
      body'
      Render.close) := by
    refine .bindEq .freshTemp fun item => ?_
    refine .bindEq (.openLoop _ _ _ _) fun _ => ?_
    exact .bindEq (h.expand target (.refl _)) fun _ => hrest
  cases node with
  | identifier _ =>
    refine .bind (h.address target) fun _ _ _ => ?_
    exact .bindEq (.openLoop _ _ _ _) fun _ => hrest
  | objectPattern _ => exact hpattern
  | arrayPattern _ => exact hpattern
  | _ => exact .breach _

/-- What a loop declares is read from the arena. -/
theorem mirrors_loopTarget (h : w.Mirrored w') (binding : NodeId) :
    Mirrors Eq (w.loopTarget binding) (w'.loopTarget binding) := by
  refine .bindEq (mirrors_node h binding) fun node => ?_
  cases node with
  | declaration _ name _ => exact .pure rfl
  | _ => exact .pure rfl

/-- A loop statement renders its list first and its body last, with the same slot for returns. -/
theorem mirrors_loopStatement (h : w.Mirrored w') (kind : String) (view : String → String)
    (binding iterable body : NodeId) (slot : Option String) :
    Mirrors Eq (w.loopStatement kind view binding iterable body slot)
      (w'.loopStatement kind view binding iterable body slot) := by
  refine .bindEq (mirrors_requireLoops h _) fun _ => ?_
  refine .bind (h.expression iterable) fun _ _ _ => ?_
  refine .bindEq (mirrors_loopTarget h binding) fun target => ?_
  exact mirrors_loop h target _ _ (h.statement body slot)

/-- Whether a value ends in a call decides only whether it is written out. -/
theorem mirrors_expressionStatement (h : w.Mirrored w') (expr : NodeId) :
    Mirrors Eq (w.expressionStatement expr) (w'.expressionStatement expr) := by
  unfold expressionStatement
  rw [h.arena]
  refine .bindEq (mirrors_node h _) fun node => ?_
  have hvalue : Mirrors Eq (do
      let value ← w.expression (w.arena.unwrapParens expr)
      if value.toList.getLast? = some ')' then Render.discard value) (do
      let value ← w'.expression (w.arena.unwrapParens expr)
      if value.toList.getLast? = some ')' then Render.discard value) :=
    .bind (h.expression _) fun _ _ _ => .optional _ _
  cases node with
  | stepAfter operand step =>
    exact .bind (resembles_stepped h operand step) fun _ _ _ => .pure rfl
  | _ => exact hvalue

/-- A declared name is assigned, an absent value as null; a pattern is expanded from its value.
-/
theorem mirrors_declare (h : w.Mirrored w') (name : NodeId) (value : Option NodeId) :
    Mirrors Eq (w.declare name value) (w'.declare name value) := by
  refine .bindEq (mirrors_node h name) fun node => ?_
  have hpattern : ∀ value, Mirrors Eq (w.reference value >>= w.expand name)
      (w'.reference value >>= w'.expand name) :=
    fun value => .bind (resembles_reference h value) fun _ _ hsource => h.expand name hsource
  cases node with
  | identifier _ =>
    refine .bind (h.address name) fun _ _ _ => ?_
    cases value with
    | none => exact .assign _ _ _ _
    | some value => exact mirrors_assignNode h _ _ value
  | objectPattern _ =>
    cases value with
    | none => exact .breach _
    | some value => exact hpattern value
  | arrayPattern _ =>
    cases value with
    | none => exact .breach _
    | some value => exact hpattern value
  | _ => exact .breach _

/-- Both branches of a condition return to the same slot. -/
theorem mirrors_branch (h : w.Mirrored w') (test yes : NodeId) (no : Option NodeId)
    (slot : Option String) :
    Mirrors Eq (w.branch test yes no slot) (w'.branch test yes no slot) := by
  refine .bind (h.expression test) fun _ _ _ => ?_
  cases no with
  | none => exact .guarded _ _ (h.statement yes slot)
  | some no => exact .choice _ _ (h.statement yes slot) (h.statement no slot)

/-- Behind a slot a return is an assignment; without one it ends the template. -/
theorem mirrors_returnTo (h : w.Mirrored w') (expr : Option NodeId) (slot : Option String) :
    Mirrors Eq (w.returnTo expr slot) (w'.returnTo expr slot) := by
  cases slot with
  | none => exact mirrors_returned h expr
  | some slot =>
    cases expr with
    | none => exact .assign _ _ _ _
    | some expr => exact mirrors_assignNode h _ _ expr

/-- One case for each kind of statement; what is no statement is an expression with an effect. -/
theorem mirrors_renderStatement (h : w.Mirrored w') (id : NodeId) (slot : Option String) :
    Mirrors Eq (w.renderStatement id slot) (w'.renderStatement id slot) := by
  refine .bindEq (mirrors_node h id) fun node => ?_
  cases node with
  | block statements => exact .forM statements fun statement => h.statement statement slot
  | exprStatement expr => exact mirrors_expressionStatement h expr
  | declaration _ name value => exact mirrors_declare h name value
  | branch test yes no => exact mirrors_branch h test yes no slot
  | forOf binding iterable body => exact mirrors_loopStatement h _ _ binding iterable body slot
  | forIn binding iterable body => exact mirrors_loopStatement h _ _ binding iterable body slot
  | returnValue expr => exact mirrors_returnTo h expr slot
  | breakLoop => exact .bindEq (mirrors_requireLoops h _) fun _ => .emit _ _
  | continueLoop => exact .unsupported _
  | throw _ => exact .unsupported _
  | whileLoop _ _ => exact .unsupported _
  | doWhile _ _ => exact .unsupported _
  | forLoop _ _ _ _ => exact .unsupported _
  | tryCatch _ _ _ => exact .unsupported _
  | _ => exact .breach _

/-! ### Closures -/

/-- The parameter of a root must be a name or nothing, which is read from the arena. -/
theorem mirrors_checkRootParameter (h : w.Mirrored w') (parameter : NodeId) :
    Mirrors Eq (w.checkRootParameter parameter) (w'.checkRootParameter parameter) := by
  refine .bindEq (mirrors_node h parameter) fun node => ?_
  cases node with
  | parameter name _ =>
    refine .bindEq (mirrors_node h name) fun node => ?_
    cases node with
    | identifier _ => exact .pure rfl
    | _ => exact .unsupported _
  | _ => exact .pure rfl

/-- A root is checked first, then its statements or its value are rendered and returned. -/
theorem mirrors_renderRoot (h : w.Mirrored w') (root : NodeId) :
    Mirrors Eq (w.renderRoot root) (w'.renderRoot root) := by
  refine .bindEq (mirrors_node h root) fun node => ?_
  have hother : ∀ node : Node, Mirrors Eq
      (if node.isStatement then w.statement root none else w.returned (some root))
      (if node.isStatement then w'.statement root none else w'.returned (some root)) :=
    fun node => .ite Iff.rfl (h.statement root none) (mirrors_returned h _)
  cases node with
  | function parameters body =>
    refine .bindEq (.forM parameters fun parameter => mirrors_checkRootParameter h parameter)
      fun _ => ?_
    refine .bindEq (mirrors_node h body) fun node => ?_
    exact .ite Iff.rfl (h.statement body none) (mirrors_returned h _)
  | _ => exact hother _

end Walker

end ClosureVtl
