/-
Module: ClosureVtl.Proofs.Closure.Abreast
Purpose: What two arenas have to agree on for rendering to treat them alike.
Main exports:
  ListCall.Lifts, Arena.Abreast, Node.Meets, Arena.Alongside, Alongside.argumentExpr,
  Alongside.mapStage?
-/
import ClosureVtl.Closure.ListCall
import ClosureVtl.Proofs.Closure.Correspondence

namespace ClosureVtl

/-!
Which integration a callee is, and whether a callback uses a parameter, is decided by
looking around in the closure.  `Arena.Abreast` says that two closures give the same
answers for nodes that correspond to each other; calls of list operations are then
recognized alike.

What follows from it needs less.  A call that is handed to an integration is not looked at
for its callee again, and a block is looked at for its statements in one rule only.
`Arena.Alongside` leaves both open, and asks each question only about the nodes that the
rules ask it about.
-/

/-- Whether two list operations correspond part by part. -/
structure ListCall.Lifts (c : Correspondence) (call call' : ListCall) : Prop where
  receiver : c.value call.receiver call'.receiver
  parameters : List.Forall₂ c.node call.parameters call'.parameters
  body : c.value call.body call'.body

/-- Whether two arenas look alike from corresponding nodes. -/
structure Arena.Abreast (a a' : Arena) (c : Correspondence) : Prop where
  own : ∀ {id id' : NodeId}, c.node id id' → c.own id id'
  lifts : ∀ {id id' : NodeId}, c.own id id' →
    Option.Rel (Node.Lifts c) (a.get? id) (a'.get? id')
  value : ∀ {id id' : NodeId}, c.node id id' → c.value id id'
  unwrap : ∀ {id id' : NodeId}, c.value id id' → c.node (a.unwrapParens id) (a'.unwrapParens id')
  /-- parentheses stand around expressions only -/
  plain : ∀ {id id' : NodeId}, c.value id id' → c.node id id' ∨
    ((a.get? id).any Node.isOperand = true ∧ (a'.get? id').any Node.isOperand = true)
  resolveIntegration : ∀ {callee callee' : NodeId}, c.value callee callee' →
    Option.Rel c.integration (a.resolveIntegration callee) (a'.resolveIntegration callee')
  references : ∀ {body body' parameter parameter' : NodeId}, c.value body body' →
    c.node parameter parameter' → a.references body parameter = a'.references body' parameter'

/-! ### Calls and blocks apart -/

/-- Whether two nodes are of one form, with parts that correspond to each other, except that
of calls that are handed to integrations the callees, and of blocks the statements, may be
any. -/
inductive Node.Meets (a a' : Arena) (c : Correspondence) : Node → Node → Prop where
  | lifts {node node' : Node} (h : node.Lifts c node') : Meets a a' c node node'
  | handed {callee callee' : NodeId} {args args' : List NodeId}
      {integration integration' : IntegrationId}
      (h : a.resolveIntegration callee = some integration)
      (h' : a'.resolveIntegration callee' = some integration')
      (hi : c.integration integration integration') (ha : List.Forall₂ c.value args args') :
      Meets a a' c (.call callee args) (.call callee' args')
  | block (statements statements' : List NodeId) :
      Meets a a' c (.block statements) (.block statements')

theorem Node.Meets.of_lifts {a a' : Arena} {c : Correspondence} {found found' : Option Node}
    (h : Option.Rel (Node.Lifts c) found found') : Option.Rel (Node.Meets a a' c) found found' := by
  cases h with
  | none => exact .none
  | some hlifts => exact .some (.lifts hlifts)

/-- Whether two arenas look alike from corresponding nodes, as far as rules look. -/
structure Arena.Alongside (a a' : Arena) (c : Correspondence) : Prop where
  own : ∀ {id id' : NodeId}, c.node id id' → c.own id id'
  meets : ∀ {id id' : NodeId}, c.own id id' →
    Option.Rel (Node.Meets a a' c) (a.get? id) (a'.get? id')
  unwrap : ∀ {id id' : NodeId}, c.value id id' → c.node (a.unwrapParens id) (a'.unwrapParens id')
  inside : ∀ {id id' : NodeId}, c.value id id' → c.value (a.unwrapParens id) (a'.unwrapParens id')
  plain : ∀ {id id' : NodeId}, c.value id id' → c.node id id' ∨
    ((a.get? id).any Node.isOperand = true ∧ (a'.get? id').any Node.isOperand = true)
  resolveIntegration : ∀ {callee callee' : NodeId}, c.value callee callee' →
    Option.Rel c.integration (a.resolveIntegration callee) (a'.resolveIntegration callee')
  references : ∀ {body body' parameter parameter' name : NodeId} {default : Option NodeId},
    c.value body body' → c.node parameter parameter' →
      a.get? parameter = some (.parameter name default) →
        a.references body parameter = a'.references body' parameter'

theorem Arena.Abreast.alongside {a a' : Arena} {c : Correspondence} (h : a.Abreast a' c) :
    a.Alongside a' c where
  own := h.own
  meets hid := Node.Meets.of_lifts (h.lifts hid)
  unwrap := h.unwrap
  inside hid := h.value (h.unwrap hid)
  plain := h.plain
  resolveIntegration := h.resolveIntegration
  references hbody hparameter _ := h.references hbody hparameter

/-- Corresponding blocks list corresponding statements. -/
theorem Arena.Abreast.statements {a a' : Arena} {c : Correspondence} (h : a.Abreast a' c)
    {id id' : NodeId} (hid : c.own id id') {statements statements' : List NodeId}
    (hn : a.get? id = some (.block statements)) (hn' : a'.get? id' = some (.block statements')) :
    List.Forall₂ c.node statements statements' := by
  have hlifts := h.lifts hid
  rw [hn, hn'] at hlifts
  cases hlifts with
  | some hlifts =>
    cases hlifts with
    | block hs => exact hs

/-- The receiver of a method with a given name, if a callee is one. -/
def Arena.receiver? (a : Arena) (method : String) (callee : NodeId) : Option NodeId :=
  match a.get? (a.unwrapParens callee) with
  | some (.member receiver name) => if name = method then some receiver else none
  | _ => none

namespace Arena.Alongside

variable {a a' : Arena} {c : Correspondence} {id id' : NodeId}

/-- Corresponding handles lead nowhere, or to nodes that meet. -/
theorem found (h : a.Alongside a' c) (hid : c.own id id') :
    (a.get? id = none ∧ a'.get? id' = none) ∨
      ∃ node node', a.get? id = some node ∧ a'.get? id' = some node' ∧ node.Meets a a' c node' := by
  have hmeets := h.meets hid
  rcases hn : a.get? id with _ | node <;> rcases hn' : a'.get? id' with _ | node' <;>
    rw [hn, hn'] at hmeets <;> cases hmeets
  · exact .inl ⟨rfl, rfl⟩
  · next hmeets => exact .inr ⟨node, node', rfl, rfl, hmeets⟩

/-- An argument wrapper is seen through on both sides. -/
theorem argumentExpr (h : a.Alongside a' c) (hid : c.value id id') :
    c.node (a.argumentExpr id) (a'.argumentExpr id') ∧
      c.value (a.argumentExpr id) (a'.argumentExpr id') := by
  have hplain : ∀ {a : Arena} {id : NodeId}, (∀ expr name, a.get? id ≠ some (.argument expr name)) →
      a.argumentExpr id = a.unwrapParens id := by
    intro a id hno
    unfold Arena.argumentExpr
    split
    · next expr name he => exact absurd he (hno expr name)
    · rfl
  have hoperand : ∀ {a : Arena} {id : NodeId}, (a.get? id).any Node.isOperand = true →
      a.argumentExpr id = a.unwrapParens id := by
    intro a id hoperand
    apply hplain
    intro expr name he
    rw [he] at hoperand
    cases hoperand
  have hother : ∀ {node node' : Node}, a.get? id = some node → a'.get? id' = some node' →
      (∀ expr name, node ≠ .argument expr name) → (∀ expr name, node' ≠ .argument expr name) →
      c.node (a.argumentExpr id) (a'.argumentExpr id') ∧
        c.value (a.argumentExpr id) (a'.argumentExpr id') := by
    intro node node' hn hn' hno hno'
    rw [hplain (by simpa [hn] using hno), hplain (by simpa [hn'] using hno')]
    exact ⟨h.unwrap hid, h.inside hid⟩
  rcases h.plain hid with hnode | ⟨hleft, hright⟩
  · rcases h.found (h.own hnode) with ⟨hn, hn'⟩ | ⟨node, node', hn, hn', hmeets⟩
    · rw [hplain (by simp [hn]), hplain (by simp [hn'])]
      exact ⟨h.unwrap hid, h.inside hid⟩
    · cases hmeets with
      | lifts hlifts =>
        cases hlifts with
        | argument hexpr name =>
          simp only [Arena.argumentExpr, hn, hn']
          exact ⟨h.unwrap hexpr, h.inside hexpr⟩
        | _ => exact hother hn hn' nofun nofun
      | handed _ _ _ _ => exact hother hn hn' nofun nofun
      | block _ _ => exact hother hn hn' nofun nofun
  · rw [hoperand hleft, hoperand hright]
    exact ⟨h.unwrap hid, h.inside hid⟩

/-- Both sides take the same callback, or none. -/
theorem callback? (h : a.Alongside a' c) {args args' : List NodeId}
    (hargs : List.Forall₂ c.value args args') :
    Option.Rel (fun callback callback' => List.Forall₂ c.node callback.1 callback'.1 ∧
      c.value callback.2 callback'.2) (a.callback? args) (a'.callback? args') := by
  cases hargs with
  | nil => exact .none
  | cons hfirst _ =>
    simp only [Arena.callback?]
    rcases h.found (h.own (h.argumentExpr hfirst).1) with ⟨hn, hn'⟩ | ⟨node, node', hn, hn', hmeets⟩
    · rw [hn, hn']
      exact .none
    · rw [hn, hn']
      cases hmeets with
      | lifts hlifts =>
        cases hlifts with
        | function hp hb => exact .some ⟨hp, hb⟩
        | _ => exact .none
      | handed _ _ _ _ => exact .none
      | block _ _ => exact .none

/-- A parameter is used on both sides or on neither. -/
theorem parameterUsed (h : a.Alongside a' c) {parameters parameters' : List NodeId}
    {body body' : NodeId} (hp : List.Forall₂ c.node parameters parameters')
    (hb : c.value body body') (position : Nat) :
    a.parameterUsed parameters position body = a'.parameterUsed parameters' position body' := by
  unfold Arena.parameterUsed
  have hat := optionRel_getElem? hp position
  rcases hfound : parameters[position]? with _ | parameter <;>
    rcases hfound' : parameters'[position]? with _ | parameter' <;>
    rw [hfound, hfound'] at hat <;> cases hat
  next hparameter =>
    rcases h.found (h.own hparameter) with ⟨hn, hn'⟩ | ⟨node, node', hn, hn', hmeets⟩
    · simp only [hn, hn']
    have hreferences := fun {name : NodeId} {default : Option NodeId}
      (heq : node = .parameter name default) =>
        h.references hb hparameter (hn.trans (congrArg some heq))
    simp only [hn, hn']
    cases hmeets with
    | handed _ _ _ _ => rfl
    | block _ _ => rfl
    | lifts hlifts =>
      cases hlifts with
      | parameter hname _ =>
        rcases h.found (h.own hname) with ⟨hn, hn'⟩ | ⟨name, name', hn, hn', hmeets⟩
        · simp only [hn, hn']
        simp only [hn, hn']
        cases hmeets with
        | handed _ _ _ _ => rfl
        | block _ _ => rfl
        | lifts hlifts =>
          cases hlifts with
          | identifier name => exact hreferences rfl
          | _ => rfl
      | _ => rfl

/-- A call that is handed to an integration is no stage of a chain. -/
theorem mapStage?_of_resolveIntegration {callee : NodeId} {args : List NodeId}
    {integration : IntegrationId} (hn : a.get? (a.unwrapParens id) = some (.call callee args))
    (hi : a.resolveIntegration callee = some integration) : a.mapStage? id = none := by
  unfold Arena.mapStage?
  rw [hn]
  simp only [hi, Option.isSome_some, if_true]

/-- Any other call is one if its callee is the method and there is a callback. -/
theorem mapStage?_of_call {callee : NodeId} {args : List NodeId}
    (hn : a.get? (a.unwrapParens id) = some (.call callee args))
    (hi : a.resolveIntegration callee = none) :
    a.mapStage? id = (a.receiver? "map" callee).bind fun receiver =>
      (a.callback? args).map fun callback => ⟨receiver, callback.1, callback.2⟩ := by
  unfold Arena.mapStage? Arena.receiver?
  rw [hn]
  simp only [hi, Option.isSome_none, Bool.false_eq_true, if_false]
  split
  · next base parameters body hmember hcallback =>
    simp [hmember, hcallback]
  · next hother =>
    split
    · next base name hmember =>
      by_cases hname : name = "map"
      · cases hcallback : a.callback? args with
        | none => simp [hname]
        | some found => exact absurd hcallback (hother base _ _ (hname ▸ hmember))
      · simp [hname]
    · rfl

/-- Both sides are a call of a method with the same name on nodes that correspond, or neither
is. -/
theorem receiver? (h : a.Alongside a' c) {callee callee' : NodeId}
    (hcallee : c.value callee callee') (method : String) :
    Option.Rel c.value (a.receiver? method callee) (a'.receiver? method callee') := by
  unfold Arena.receiver?
  rcases h.found (h.own (h.unwrap hcallee)) with ⟨hn, hn'⟩ | ⟨node, node', hn, hn', hmeets⟩
  · rw [hn, hn']
    exact .none
  rw [hn, hn']
  cases hmeets with
  | handed _ _ _ _ => exact .none
  | block _ _ => exact .none
  | lifts hlifts =>
    cases hlifts with
    | member hbase name =>
      by_cases hname : name = method
      · simp only [hname, if_true]
        exact .some hbase
      · simp only [hname, if_false]
        exact .none
    | _ => exact .none

/-- Both sides are a stage of a chain, with parts that correspond, or neither is. -/
theorem mapStage? (h : a.Alongside a' c) (hid : c.value id id') :
    Option.Rel (ListCall.Lifts c) (a.mapStage? id) (a'.mapStage? id') := by
  rcases h.found (h.own (h.unwrap hid)) with ⟨hn, hn'⟩ | ⟨node, node', hn, hn', hmeets⟩
  · unfold Arena.mapStage?
    rw [hn, hn']
    exact .none
  cases hmeets with
  | handed hi hi' _ _ =>
    rw [mapStage?_of_resolveIntegration hn hi, mapStage?_of_resolveIntegration hn' hi']
    exact .none
  | block _ _ =>
    unfold Arena.mapStage?
    rw [hn, hn']
    exact .none
  | lifts hlifts =>
    cases hlifts with
    | @call callee callee' args args' hcallee hargs =>
      rcases hi : a.resolveIntegration callee with _ | integration <;>
        rcases hi' : a'.resolveIntegration callee' with _ | integration' <;>
        have hresolve := h.resolveIntegration hcallee <;>
        rw [hi, hi'] at hresolve <;> cases hresolve
      · rw [mapStage?_of_call hn hi, mapStage?_of_call hn' hi']
        match a.receiver? "map" callee, a'.receiver? "map" callee', h.receiver? hcallee "map" with
        | none, none, .none => exact .none
        | some _, some _, .some hreceiver =>
          match a.callback? args, a'.callback? args', h.callback? hargs with
          | some _, some _, .some hcallback => exact .some ⟨hreceiver, hcallback.1, hcallback.2⟩
          | none, none, .none => exact .none
      · rw [mapStage?_of_resolveIntegration hn hi, mapStage?_of_resolveIntegration hn' hi']
        exact .none
    | _ =>
      unfold Arena.mapStage?
      rw [hn, hn']
      exact .none

end Arena.Alongside

end ClosureVtl
