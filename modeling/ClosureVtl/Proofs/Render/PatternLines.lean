/-
Module: ClosureVtl.Proofs.Render.PatternLines
Purpose: The lines that take a value apart by a pattern, one by one.
Main exports:
  Arena.PlainTarget, Arena.PlainElements, PatternPart, NameBinding, Arena.Accesses, restLines,
  Program.Expands, Program.expanded_of_expand
-/
import ClosureVtl.Proofs.Render.LiteralLines
import ClosureVtl.Render.Program

namespace ClosureVtl

/-!
A pattern is a tree, and the lines that it is expanded to lie in the order of the tree.
`Program.Expands` reads them off: for every form that a part of a pattern may have there is one
rule, which says what the lines of the part are, from which text each name in it is bound, and
where the temporaries go on behind it.  The rules mention neither the template so far nor the
order in which rendering comes to the parts; in particular the keys that a rest element leaves
out are those of the elements in front of it, and nothing else.

A successful expansion follows these rules.  The induction is on the levels of rendering, and in
each level on the elements of the pattern.
-/

/-! ### Plain patterns -/

/-- Whether the key of an element, if it has one, is written out. -/
def Arena.HasPlainKey (a : Arena) (key : Option NodeId) : Prop :=
  ∀ id, key = some id → ∃ node, a.get? id = some node ∧ node.isPlainKey = true

mutual

/-- Whether a binding target is a name, or a pattern with plain elements. -/
inductive Arena.PlainTarget (a : Arena) : NodeId → Prop where
  | name {id : NodeId} {text : String} (get : a.get? id = some (.identifier text)) :
      PlainTarget a id
  | object {id : NodeId} {elements : List NodeId} (get : a.get? id = some (.objectPattern elements))
      (inner : PlainElements a false elements) : PlainTarget a id
  | array {id : NodeId} {elements : List NodeId} (get : a.get? id = some (.arrayPattern elements))
      (inner : PlainElements a true elements) : PlainTarget a id

/-- Whether the elements of a pattern have plain keys, literal defaults and plain targets, and a
rest element comes last and is a name.  Only an array pattern has holes. -/
inductive Arena.PlainElements (a : Arena) : Bool → List NodeId → Prop where
  | nil {holes : Bool} : PlainElements a holes []
  | hole {element : NodeId} {later : List NodeId} (get : a.get? element = some .hole)
      (rest : PlainElements a true later) : PlainElements a true (element :: later)
  | fixed {holes : Bool} {element name : NodeId} {key default : Option NodeId}
      {later : List NodeId} (get : a.get? element = some (.binding name key default false))
      (plain : a.HasPlainKey key) (literal : ∀ id, default = some id → a.IsLiteral id)
      (inner : PlainTarget a name) (rest : PlainElements a holes later) :
      PlainElements a holes (element :: later)
  | rest {holes : Bool} {element name : NodeId} {key default : Option NodeId} {text : String}
      (get : a.get? element = some (.binding name key default true))
      (name : a.get? name = some (.identifier text)) : PlainElements a holes [element]

end

/-! ### The lines of a pattern -/

/-- What is bound: an element from its accessor, the target of an element from a value, a
pattern from a reference, and further elements of a pattern over its source; those of an object
pattern behind elements with these keys, those of an array pattern from a position on. -/
inductive PatternPart where
  | element (declaration name : NodeId) (default : Option NodeId) (accessor : String)
  | target (declaration name : NodeId) (value : String)
  | pattern (id : NodeId) (source : String)
  | fields (source : String) (keys : List String) (elements : List NodeId)
  | items (source : String) (position : Nat) (elements : List NodeId)

/-- A name that is bound: the element that declares it, the node where it stands, its address,
and the text of the value. -/
structure NameBinding where
  declaration : NodeId
  node : NodeId
  name : String
  address : String
  value : String

/-- The assignment that binds a name. -/
def NameBinding.made (b : NameBinding) : Assignment := ⟨b.address, b.value⟩

/-- The accessor by which an element with this target and key reads a source, and the key as a
literal.  Without a key the target is the key. -/
inductive Arena.Accesses (a : Arena) (source : String) (name : NodeId) :
    Option NodeId → String → String → Prop where
  | shorthand {text : String} (get : a.get? name = some (.identifier text)) :
      Accesses a source name none s!"{source}.{text}" (Text.quote text)
  | named {key : NodeId} {text : String} (get : a.get? key = some (.identifier text)) :
      Accesses a source name (some key) s!"{source}.{text}" (Text.quote text)
  | string {key : NodeId} {text : String} (get : a.get? key = some (.string text)) :
      Accesses a source name (some key) s!"{source}[{Text.quote text}]" (Text.quote text)
  | number {key : NodeId} {value : Binary64} {text : String}
      (get : a.get? key = some (.number value)) (literal : value.literal = .ok text) :
      Accesses a source name (some key) s!"{source}[{Text.quote text}]" (Text.quote text)

/-- The lines that copy a map to a fresh one but for some keys: without condition if there are
none. -/
def restLines (source : String) (keys : List String) (rest key : String) : List Directive :=
  let copy := Directive.discard s!"{rest}.put({key}, {source}.get({key}))"
  [.set rest "\x7b\x7d", .loop key s!"{source}.keySet()"] ++
    (match keys with
      | [] => [copy]
      | _ => [.branch (" && ".intercalate (keys.map fun k => s!"{key} != {k}")), copy, .close]) ++
    [.close]

/-- Whether an expression is rendered to a text with these lines, which store nothing but the
temporaries between two numbers. -/
def Program.RendersOwn (p : Program) (dialect : Dialect) (id : NodeId) (before after : Nat)
    (ds : List Directive) (text : String) : Prop :=
  (∀ d ∈ ds, d.IsOwn before after) ∧
    ∃ n out final, ((p.walkerWithin dialect n).expression id).runOn out = (.ok text, final) ∧
      out.temps = before ∧ final.temps = after ∧ out.Appends ds final

/-- The lines of a part of a pattern and the names that they bind, with the number of
temporaries before and behind them. -/
inductive Program.Expands (p : Program) (dialect : Dialect) :
    PatternPart → Nat → Nat → List Directive → List NameBinding → Prop where
  /-- a name is assigned its value -/
  | name {declaration node : NodeId} {key default : Option NodeId} {rest : Bool}
      {name address value : String} {temps : Nat}
      (bound : p.arena.get? declaration = some (.binding node key default rest))
      (get : p.arena.get? node = some (.identifier name))
      (addressed : p.arena.addressIn dialect node = .ok address) :
      Expands p dialect (.target declaration node value) temps temps [.set address value]
        [⟨declaration, node, name, address, value⟩]
  /-- a nested pattern is bound from a value that is a reference -/
  | reference {declaration id : NodeId} {value : String} {before after : Nat}
      {ds : List Directive} {bs : List NameBinding} (reference : Text.isReference value = true)
      (inner : Expands p dialect (.pattern id value) before after ds bs) :
      Expands p dialect (.target declaration id value) before after ds bs
  /-- and any other value is stored in a temporary first -/
  | stored {declaration id : NodeId} {value : String} {before after : Nat} {ds : List Directive}
      {bs : List NameBinding} (reference : Text.isReference value = false)
      (inner : Expands p dialect (.pattern id (Render.tempName (before + 1))) (before + 1) after
        ds bs) :
      Expands p dialect (.target declaration id value) before after
        (.set (Render.tempName (before + 1)) value :: ds) bs
  /-- without a default the value is the accessor -/
  | required {declaration name : NodeId} {accessor : String} {before after : Nat}
      {ds : List Directive} {bs : List NameBinding}
      (inner : Expands p dialect (.target declaration name accessor) before after ds bs) :
      Expands p dialect (.element declaration name none accessor) before after ds bs
  /-- with a default it is a temporary that is set to the accessor and, if it is null, to the
  default -/
  | defaulted {declaration name default : NodeId} {accessor text : String}
      {before middle after : Nat} {lines ds : List Directive} {bs : List NameBinding}
      (rendered : p.RendersOwn dialect default (before + 1) middle lines text)
      (inner : Expands p dialect (.target declaration name (Render.tempName (before + 1))) middle
        after ds bs) :
      Expands p dialect (.element declaration name (some default) accessor) before after
        ([.set (Render.tempName (before + 1)) accessor,
            .branch s!"{Render.tempName (before + 1)} == {Text.nullText}"] ++ lines ++
          [.set (Render.tempName (before + 1)) text, .close] ++ ds) bs
  | object {id : NodeId} {elements : List NodeId} {source : String} {before after : Nat}
      {ds : List Directive} {bs : List NameBinding}
      (get : p.arena.get? id = some (.objectPattern elements))
      (inner : Expands p dialect (.fields source [] elements) before after ds bs) :
      Expands p dialect (.pattern id source) before after ds bs
  | array {id : NodeId} {elements : List NodeId} {source : String} {before after : Nat}
      {ds : List Directive} {bs : List NameBinding}
      (get : p.arena.get? id = some (.arrayPattern elements))
      (inner : Expands p dialect (.items source 0 elements) before after ds bs) :
      Expands p dialect (.pattern id source) before after ds bs
  | fieldsNil {source : String} {keys : List String} {temps : Nat} :
      Expands p dialect (.fields source keys []) temps temps [] []
  /-- an element of an object pattern is read by its key -/
  | field {element name : NodeId} {key default : Option NodeId} {later : List NodeId}
      {source accessor text : String} {keys : List String} {before middle after : Nat}
      {ds more : List Directive} {bs others : List NameBinding}
      (get : p.arena.get? element = some (.binding name key default false))
      (accesses : p.arena.Accesses source name key accessor text)
      (first : Expands p dialect (.element element name default accessor) before middle ds bs)
      (rest : Expands p dialect (.fields source (keys ++ [text]) later) middle after more others) :
      Expands p dialect (.fields source keys (element :: later)) before after (ds ++ more)
        (bs ++ others)
  /-- and what is left is copied to a temporary -/
  | fieldsRest {element name : NodeId} {key default : Option NodeId} {source : String}
      {keys : List String} {before after : Nat} {ds : List Directive} {bs : List NameBinding}
      (get : p.arena.get? element = some (.binding name key default true))
      (inner : Expands p dialect (.target element name (Render.tempName (before + 1)))
        (before + 2) after ds bs) :
      Expands p dialect (.fields source keys [element]) before after
        (restLines source keys (Render.tempName (before + 1)) (Render.tempName (before + 2)) ++ ds)
        bs
  | itemsNil {source : String} {position temps : Nat} :
      Expands p dialect (.items source position []) temps temps [] []
  /-- a hole takes a position and binds nothing -/
  | hole {element : NodeId} {later : List NodeId} {source : String} {position before after : Nat}
      {ds : List Directive} {bs : List NameBinding} (get : p.arena.get? element = some .hole)
      (rest : Expands p dialect (.items source (position + 1) later) before after ds bs) :
      Expands p dialect (.items source position (element :: later)) before after ds bs
  /-- an element of an array pattern is read by its position -/
  | item {element name : NodeId} {key default : Option NodeId} {later : List NodeId}
      {source : String} {position before middle after : Nat} {ds more : List Directive}
      {bs others : List NameBinding}
      (get : p.arena.get? element = some (.binding name key default false))
      (first : Expands p dialect (.element element name default s!"{source}[{position}]") before
        middle ds bs)
      (rest : Expands p dialect (.items source (position + 1) later) middle after more others) :
      Expands p dialect (.items source position (element :: later)) before after (ds ++ more)
        (bs ++ others)
  /-- and what is left is the list from there on -/
  | itemsRest {element name : NodeId} {key default : Option NodeId} {source : String}
      {position before after : Nat} {ds : List Directive} {bs : List NameBinding}
      (get : p.arena.get? element = some (.binding name key default true))
      (inner : Expands p dialect
        (.target element name s!"{source}.subList({position}, {source}.size())") before after
        ds bs) :
      Expands p dialect (.items source position [element]) before after ds bs

/-- Whether a run appends the lines of a part of a pattern. -/
def Program.Expanded (p : Program) (dialect : Dialect) (part : PatternPart) (out final : Output) :
    Prop :=
  ∃ ds bs, out.Appends ds final ∧ p.Expands dialect part out.temps final.temps ds bs

/-! ### Runs follow the rules -/

namespace Walker

variable {w : Walker} {name : NodeId} {value source accessor text : String}
  {key default : Option NodeId} {out final : Output}

/-- The default comes first. -/
theorem bindElement_eq (w : Walker) (name : NodeId) (value : String) (default : Option NodeId) :
    w.bindElement name value default =
      w.withDefault value default >>= fun value => w.bindElement name value none := by
  unfold bindElement
  congr 1

/-- What is done behind the fixed elements of an object pattern. -/
def bindObjectRest (w : Walker) (source : String) (state : List String × Option NodeId) :
    Render Unit :=
  match state.2 with
  | none => pure ()
  | some name => do
    let rest ← objectRest source state.1
    w.bindElement name rest none

theorem expandObject_eq (w : Walker) (elements : List NodeId) (source : String) :
    w.expandObject elements source =
      elements.foldlM (w.bindObjectElement source) ([], none) >>= w.bindObjectRest source := rfl

/-- What is done behind the fixed elements of an array pattern. -/
def bindArrayRest (w : Walker) (source : String) (rest : Option (Nat × NodeId)) : Render Unit :=
  match rest with
  | none => pure ()
  | some (start, name) =>
    w.bindElement name s!"{source}.subList({start}, {source}.size())" none

theorem expandArray_eq (w : Walker) (elements : List NodeId) (source : String) :
    w.expandArray elements source =
      elements.zipIdx.foldlM (w.bindArrayElement source) none >>= w.bindArrayRest source := rfl

/-- A plain key needs no lines. -/
theorem accesses_of_propertyAccess (hplain : w.arena.HasPlainKey key)
    (h : (w.propertyAccess source name key).runOn out = (.ok (accessor, text), final)) :
    w.arena.Accesses source name key accessor text ∧ final = out := by
  unfold propertyAccess at h
  cases key with
  | none =>
    obtain ⟨node, middle, hnode, h⟩ := Render.runOn_bind_eq_ok_iff.mp h
    obtain ⟨hfound, rfl⟩ := Render.runOn_ofExcept_eq_ok_iff.mp hnode
    cases node with
    | identifier name =>
      cases h
      exact ⟨.shorthand (Arena.node_eq_ok_iff.mp hfound), rfl⟩
    | _ => exact absurd ⟨_, _, h⟩ Render.not_yields_fault
  | some key =>
    obtain ⟨node, hget, hplain⟩ := hplain key rfl
    dsimp only at h
    rw [node_eq_pure hget, pure_bind] at h
    cases node with
    | identifier name =>
      cases h
      exact ⟨.named hget, rfl⟩
    | string text =>
      cases h
      exact ⟨.string hget, rfl⟩
    | number value =>
      obtain ⟨literal, middle, hliteral, hdone⟩ := Render.runOn_bind_eq_ok_iff.mp h
      obtain ⟨hvalue, rfl⟩ := Render.runOn_ofExcept_eq_ok_iff.mp hliteral
      cases hdone
      exact ⟨.number hget hvalue, rfl⟩
    | _ => cases hplain

/-- What is left of a map is copied to the next temporary, its keys run through the one behind
that. -/
theorem emits_objectRest (source : String) (keys : List String) (out : Output) :
    (objectRest source keys).Emits out (Render.tempName (out.temps + 1))
      ((restLines source keys (Render.tempName (out.temps + 1))
        (Render.tempName (out.temps + 2))).map Directive.text) 2 out.integrations := by
  unfold Render.Emits objectRest
  rw [(Render.emits_freshTemp out).runOn_bind, (Render.emits_assign _ _ _).runOn_bind,
    (Render.emits_freshTemp _).runOn_bind, (Render.emits_openLoop _ _ _).runOn_bind]
  cases keys with
  | nil =>
    dsimp only
    rw [(Render.emits_discard _ _).runOn_bind, (Render.emits_close _).runOn_bind, Render.runOn_pure]
    simp [Output.extend_extend, restLines, Directive.text]
  | cons key keys =>
    dsimp only
    rw [(Render.emits_discard _ _).guarded.runOn_bind, (Render.emits_close _).runOn_bind,
      Render.runOn_pure]
    simp [Output.extend_extend, restLines, Directive.text]

end Walker

namespace Program

variable {p : Program} {dialect : Dialect} {n : Nat} {declaration name id : NodeId}
  {value accessor source : String} {default : Option NodeId} {elements : List NodeId}
  {out final : Output}

section

variable
  (hinner : ∀ {id : NodeId} {source : String} {out final : Output}, p.arena.PlainTarget id →
    ((p.walkerWithin dialect n).expand id source).runOn out = (.ok (), final) →
      p.Expanded dialect (.pattern id source) out final)

include hinner

theorem expanded_target {key default : Option NodeId} {rest : Bool}
    (hbound : p.arena.get? declaration = some (.binding name key default rest))
    (hplain : p.arena.PlainTarget name)
    (h : ((p.walkerWithin dialect n).bindElement name value none).runOn out = (.ok (), final)) :
    p.Expanded dialect (.target declaration name value) out final := by
  unfold Walker.bindElement Walker.withDefault at h
  rw [pure_bind] at h
  -- a nested pattern is expanded from the value or from a temporary
  have hnested : (Walker.toReference value >>= (p.walkerWithin dialect n).expand name).runOn out =
      (.ok (), final) → p.Expanded dialect (.target declaration name value) out final := by
    intro hrun
    obtain ⟨reference, middle, hreference, hexpand⟩ := Render.runOn_bind_eq_ok_iff.mp hrun
    obtain ⟨ds, bs, hds, hexpands⟩ := hinner hplain hexpand
    unfold Walker.toReference at hreference
    split at hreference
    · next his =>
      rw [Render.runOn_pure] at hreference
      cases hreference
      exact ⟨ds, bs, hds, .reference his hexpands⟩
    · next hnot =>
      rw [Render.emits_materialize value out] at hreference
      cases hreference
      have hline := out.appends_extend [.set (Render.tempName (out.temps + 1)) value] 1
        out.integrations
      exact ⟨_, bs, hline.trans hds, .stored (Bool.eq_false_iff.mpr hnot) hexpands⟩
  cases hplain with
  | @name _ text get =>
    rw [node_of_get? get, pure_bind] at h
    obtain ⟨address, middle, haddress, hassign⟩ := Render.runOn_bind_eq_ok_iff.mp h
    obtain ⟨haddressed, rfl⟩ := Render.runOn_ofExcept_eq_ok_iff.mp haddress
    rw [p.arena_walkerWithin, p.dialect_walkerWithin] at haddressed
    obtain ⟨hline, htemps⟩ := Render.appends_of_emit (d := .set address value) hassign
    refine ⟨_, [⟨declaration, name, text, address, value⟩], hline, ?_⟩
    rw [htemps]
    exact .name hbound get haddressed
  | object get inner =>
    rw [node_of_get? get, pure_bind] at h
    exact hnested h
  | array get inner =>
    rw [node_of_get? get, pure_bind] at h
    exact hnested h

theorem expanded_element {key : Option NodeId} {rest : Bool}
    (hbound : p.arena.get? declaration = some (.binding name key default rest))
    (hplain : p.arena.PlainTarget name) (hliteral : ∀ id, default = some id → p.arena.IsLiteral id)
    (h : ((p.walkerWithin dialect n).bindElement name accessor default).runOn out =
      (.ok (), final)) :
    p.Expanded dialect (.element declaration name default accessor) out final := by
  rw [Walker.bindElement_eq] at h
  obtain ⟨value, middle, hvalue, htarget⟩ := Render.runOn_bind_eq_ok_iff.mp h
  obtain ⟨ds, bs, hds, hexpands⟩ := expanded_target hinner hbound hplain htarget
  cases default with
  | none =>
    cases hvalue
    exact ⟨ds, bs, hds, .required hexpands⟩
  | some default =>
    obtain ⟨slot, stored, hslot, hguarded⟩ := Render.runOn_bind_eq_ok_iff.mp hvalue
    rw [Render.emits_materialize accessor out] at hslot
    cases hslot
    obtain ⟨_, closed, hguard, hdone⟩ := Render.runOn_bind_eq_ok_iff.mp hguarded
    cases hdone
    obtain ⟨_, opened, hopened, hbody⟩ := Render.runOn_bind_eq_ok_iff.mp hguard
    obtain ⟨_, assigned, hassigned, hclosed⟩ := Render.runOn_bind_eq_ok_iff.mp hbody
    obtain ⟨text, rendered, hrendered, hassign⟩ := Render.runOn_bind_eq_ok_iff.mp hassigned
    have hset := out.appends_extend [.set (Render.tempName (out.temps + 1)) accessor] 1
      out.integrations
    obtain ⟨hbranch, hbranchTemps⟩ := Render.appends_of_emit
      (d := .branch s!"{Render.tempName (out.temps + 1)} == {Text.nullText}") hopened
    obtain ⟨-, lines, hlines, hown⟩ :=
      writesOwn_of_isLiteral n (hliteral default rfl) opened text rendered hrendered
    obtain ⟨hstored, hstoredTemps⟩ := Render.appends_of_emit
      (d := .set (Render.tempName (out.temps + 1)) text) hassign
    obtain ⟨hclose, hcloseTemps⟩ := Render.appends_of_emit (d := .close) hclosed
    have hopenedTemps : opened.temps = out.temps + 1 := hbranchTemps
    have hmiddleTemps : middle.temps = rendered.temps := hcloseTemps.trans hstoredTemps
    have hall := ((((hset.trans hbranch).trans hlines).trans hstored).trans hclose).trans hds
    have hdefault : p.RendersOwn dialect default (out.temps + 1) rendered.temps lines text :=
      ⟨hopenedTemps ▸ hown, n, opened, rendered, hrendered, hopenedTemps, rfl, hlines⟩
    refine ⟨_, bs, ?_, .defaulted hdefault (hmiddleTemps ▸ hexpands)⟩
    simpa using hall

theorem expanded_fields (helements : p.arena.PlainElements false elements) (keys : List String)
    (h : (elements.foldlM ((p.walkerWithin dialect n).bindObjectElement source) (keys, none) >>=
      (p.walkerWithin dialect n).bindObjectRest source).runOn out = (.ok (), final)) :
    p.Expanded dialect (.fields source keys elements) out final := by
  induction elements generalizing keys out with
  | nil =>
    cases h
    exact ⟨[], [], .refl _, .fieldsNil⟩
  | cons element later ih =>
    rw [List.foldlM_cons, bind_assoc] at h
    obtain ⟨state, middle, hstate, hlater⟩ := Render.runOn_bind_eq_ok_iff.mp h
    unfold Walker.bindObjectElement at hstate
    cases helements with
    | @fixed _ _ name key default _ get plain literal inner rest =>
      rw [node_of_get? get, pure_bind] at hstate
      obtain ⟨⟨accessor, text⟩, start, haccess, hbind⟩ := Render.runOn_bind_eq_ok_iff.mp hstate
      rw [← p.arena_walkerWithin dialect n] at plain
      obtain ⟨haccesses, rfl⟩ := Walker.accesses_of_propertyAccess plain haccess
      rw [p.arena_walkerWithin] at haccesses
      obtain ⟨_, bound, helement, hdone⟩ := Render.runOn_bind_eq_ok_iff.mp hbind
      cases hdone
      obtain ⟨ds, bs, hds, hfirst⟩ := expanded_element hinner get inner literal helement
      obtain ⟨more, others, hmore, hrest⟩ := ih rest _ hlater
      exact ⟨ds ++ more, bs ++ others, hds.trans hmore, .field get haccesses hfirst hrest⟩
    | @rest _ _ name key default text get plain =>
      rw [node_of_get? get, pure_bind] at hstate
      cases hstate
      rw [List.foldlM_nil, pure_bind] at hlater
      obtain ⟨remainder, copied, hcopied, hbind⟩ := Render.runOn_bind_eq_ok_iff.mp hlater
      rw [Walker.emits_objectRest source keys out] at hcopied
      cases hcopied
      obtain ⟨ds, bs, hds, htarget⟩ := expanded_target hinner get (.name plain) hbind
      exact ⟨_, bs, (out.appends_extend _ 2 _).trans hds, .fieldsRest get htarget⟩

theorem expanded_items (helements : p.arena.PlainElements true elements) (position : Nat)
    (h : ((elements.zipIdx position).foldlM ((p.walkerWithin dialect n).bindArrayElement source)
      none >>= (p.walkerWithin dialect n).bindArrayRest source).runOn out = (.ok (), final)) :
    p.Expanded dialect (.items source position elements) out final := by
  induction elements generalizing position out with
  | nil =>
    cases h
    exact ⟨[], [], .refl _, .itemsNil⟩
  | cons element later ih =>
    rw [List.zipIdx_cons, List.foldlM_cons, bind_assoc] at h
    obtain ⟨state, middle, hstate, hlater⟩ := Render.runOn_bind_eq_ok_iff.mp h
    unfold Walker.bindArrayElement at hstate
    cases helements with
    | hole get rest =>
      rw [node_of_get? get, pure_bind] at hstate
      cases hstate
      obtain ⟨ds, bs, hds, hrest⟩ := ih rest _ hlater
      exact ⟨ds, bs, hds, .hole get hrest⟩
    | @fixed _ _ name key default _ get plain literal inner rest =>
      rw [node_of_get? get, pure_bind] at hstate
      obtain ⟨_, bound, helement, hdone⟩ := Render.runOn_bind_eq_ok_iff.mp hstate
      cases hdone
      obtain ⟨ds, bs, hds, hfirst⟩ := expanded_element hinner get inner literal helement
      obtain ⟨more, others, hmore, hrest⟩ := ih rest _ hlater
      exact ⟨ds ++ more, bs ++ others, hds.trans hmore, .item get hfirst hrest⟩
    | @rest _ _ name key default text get plain =>
      rw [node_of_get? get, pure_bind] at hstate
      cases hstate
      rw [List.zipIdx_nil, List.foldlM_nil, pure_bind] at hlater
      obtain ⟨ds, bs, hds, htarget⟩ := expanded_target hinner get (.name plain) hlater
      exact ⟨ds, bs, hds, .itemsRest get htarget⟩

end

/-- A plain pattern that is expanded successfully is expanded by the rules. -/
theorem expanded_of_expand (n : Nat) (hplain : p.arena.PlainTarget id)
    (h : ((p.walkerWithin dialect n).expand id source).runOn out = (.ok (), final)) :
    p.Expanded dialect (.pattern id source) out final := by
  induction n generalizing id source out final with
  | zero => exact absurd ⟨_, _, h⟩ Render.not_yields_fault
  | succ n ih =>
    change ((p.walkerWithin dialect n).expandPattern id source).runOn out = _ at h
    unfold Walker.expandPattern at h
    cases hplain with
    | name get =>
      rw [node_of_get? get, pure_bind] at h
      exact absurd ⟨_, _, h⟩ Render.not_yields_fault
    | @object _ elements get inner =>
      rw [node_of_get? get, pure_bind] at h
      dsimp only at h
      rw [Walker.expandObject_eq] at h
      obtain ⟨ds, bs, hds, hexpands⟩ := expanded_fields ih inner [] h
      exact ⟨ds, bs, hds, .object get hexpands⟩
    | @array _ elements get inner =>
      rw [node_of_get? get, pure_bind] at h
      dsimp only at h
      rw [Walker.expandArray_eq] at h
      obtain ⟨ds, bs, hds, hexpands⟩ := expanded_items ih inner 0 h
      exact ⟨ds, bs, hds, .array get hexpands⟩

end Program

end ClosureVtl
