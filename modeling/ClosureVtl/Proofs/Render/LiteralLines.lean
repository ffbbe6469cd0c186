/-
Module: ClosureVtl.Proofs.Render.LiteralLines
Purpose: Literals store nothing but temporaries of their own.
Main exports:
  Directive, Directive.IsOwn, Output.Appends, Render.WritesOwn, Arena.IsLiteral,
  Program.writesOwn_of_isLiteral
-/
import ClosureVtl.Proofs.Render.Emission
import ClosureVtl.Proofs.Render.Inversion
import ClosureVtl.Proofs.Template.Execution

namespace ClosureVtl

/-!
A literal that is built step by step, such as an object, is built in a temporary.  Where a
literal is the default of something else, its lines stand between the lines that matter, and all
that has to be known of them is that they leave every other variable alone.

`Render.WritesOwn` says so of a step of rendering: whatever it stores, it stores in a temporary
that it allocates.  The temporaries are counted upwards, so the property is kept by steps in a
row, each of which has a range of numbers to itself.
-/

/-! ### Lines by their directives -/

/-- A line of a template. -/
inductive Directive where
  | set (target value : String)
  | branch (condition : String)
  | loop (item list : String)
  | discard (value : String)
  | close
deriving DecidableEq, Repr

namespace Directive

/-- The text of a line. -/
def text : Directive → String
  | set target value => setLine target value
  | branch condition => ifLine condition
  | loop item list => foreachLine item list
  | discard value => discardLine value
  | close => "#end"

/-- The assignment that a line makes. -/
def made? : Directive → Option Assignment
  | set target value => some ⟨target, value⟩
  | branch _ | loop .. | discard _ | close => none

/-- Whether a line stores nothing, or one of the temporaries with these numbers: behind the
first, and up to the second. -/
def IsOwn (before after : Nat) (d : Directive) : Prop :=
  ∀ made, d.made? = some made →
    ∃ number, before < number ∧ number ≤ after ∧ made.target = Render.tempName number

/-- A line that belongs to a range of temporaries belongs to any wider one. -/
theorem IsOwn.mono {before after before' after' : Nat} {d : Directive} (h : d.IsOwn before after)
    (hbefore : before' ≤ before) (hafter : after ≤ after') : d.IsOwn before' after' := by
  intro made hmade
  obtain ⟨number, hlt, hle, htarget⟩ := h made hmade
  exact ⟨number, by omega, by omega, htarget⟩

end Directive

/-- Whether a template is another one with these lines behind. -/
def Output.Appends (out : Output) (ds : List Directive) (final : Output) : Prop :=
  final.lines.toList = out.lines.toList ++ ds.map Directive.text

/-- A template appends nothing to itself. -/
theorem Output.Appends.refl (out : Output) : out.Appends [] out := (List.append_nil _).symm

/-- What is appended twice is appended in a row. -/
theorem Output.Appends.trans {out middle final : Output} {ds later : List Directive}
    (h : out.Appends ds middle) (h' : middle.Appends later final) :
    out.Appends (ds ++ later) final := by
  unfold Appends at *
  rw [h', h, List.map_append, List.append_assoc]

/-- Extending a template by the texts of lines appends these lines. -/
theorem Output.appends_extend (out : Output) (ds : List Directive) (temps : Nat)
    (calls : Array IntegrationId) :
    out.Appends ds (out.extend (ds.map Directive.text) temps calls) :=
  Array.toList_append

/-! ### Steps that store their own temporaries -/

namespace Render

variable {α β : Type} {x : Render α} {f : α → Render β}

/-- Whether every run of a step that ends well stores nothing but temporaries that it
allocates. -/
def WritesOwn (x : Render α) : Prop :=
  ∀ out value final, x.runOn out = (.ok value, final) → out.temps ≤ final.temps ∧
    ∃ ds, out.Appends ds final ∧ ∀ d ∈ ds, d.IsOwn out.temps final.temps

/-- A line that is written is appended, and no temporary is taken. -/
theorem appends_of_emit {d : Directive} {out final : Output}
    (h : (emit d.text).runOn out = (.ok (), final)) :
    out.Appends [d] final ∧ final.temps = out.temps := by
  rw [runOn_emit_eq_ok_iff.mp h]
  exact ⟨Array.toList_push, rfl⟩

namespace WritesOwn

/-- Returning a value writes nothing. -/
theorem pure (value : α) : (pure value : Render α).WritesOwn := by
  rintro out result final h
  rw [runOn_pure] at h
  cases h
  exact ⟨Nat.le_refl _, [], .refl out, by simp⟩

/-- A step that fails leaves nothing to look at. -/
theorem fault (f : Fault) : (fault f : Render α).WritesOwn :=
  fun out _ final h => absurd ⟨out, final, h⟩ not_yields_fault

/-- A result writes nothing. -/
theorem ofExcept (result : Except Fault α) : (ofExcept result).WritesOwn := by
  cases result with
  | error f => exact fault f
  | ok value => exact pure value

/-- Two steps in a row write lines of their own if both do, for the second takes temporaries
behind those of the first. -/
theorem bind (first : x.WritesOwn) (next : ∀ value, (f value).WritesOwn) :
    (x >>= f).WritesOwn := by
  intro out result final h
  obtain ⟨value, middle, hx, hf⟩ := runOn_bind_eq_ok_iff.mp h
  obtain ⟨hfirst, ds, hds, hown⟩ := first out value middle hx
  obtain ⟨hnext, later, hlater, hown'⟩ := next value middle result final hf
  refine ⟨Nat.le_trans hfirst hnext, ds ++ later, hds.trans hlater, fun d hd => ?_⟩
  rcases List.mem_append.mp hd with hd | hd
  · exact (hown d hd).mono (Nat.le_refl _) hnext
  · exact (hown' d hd).mono hfirst (Nat.le_refl _)

/-- A line that stores nothing. -/
theorem emit {d : Directive} (h : d.made? = none) : (emit d.text).WritesOwn := by
  rintro out ⟨⟩ final hrun
  obtain ⟨hlines, htemps⟩ := appends_of_emit hrun
  refine ⟨Nat.le_of_eq htemps.symm, [d], hlines, fun found hd made hmade => ?_⟩
  rw [List.mem_singleton.mp hd, h] at hmade
  cases hmade

/-- A value that is thrown away names no target. -/
theorem discard (value : String) : (discard value).WritesOwn := emit (d := .discard value) rfl

/-- A temporary is assigned where it is taken. -/
theorem materialize (value : String) : (materialize value).WritesOwn := by
  intro out result final h
  rw [emits_materialize value out] at h
  cases h
  refine ⟨Nat.le_succ _, [.set (tempName (out.temps + 1)) value], out.appends_extend _ 1 _,
    fun d hd made hmade => ?_⟩
  rw [List.mem_singleton.mp hd] at hmade
  cases hmade
  exact ⟨out.temps + 1, Nat.lt_succ_self _, Nat.le_refl _, rfl⟩

/-- Whichever of two alternatives is taken writes lines of its own. -/
theorem ite {c : Prop} [Decidable c] {yes no : Render α} (hyes : yes.WritesOwn)
    (hno : no.WritesOwn) : (if c then yes else no).WritesOwn := by
  split
  · exact hyes
  · exact hno

/-- Collecting values, by induction on the items. -/
theorem mapM {items : List α} (h : ∀ item ∈ items, (f item).WritesOwn) :
    (items.mapM f).WritesOwn := by
  induction items with
  | nil => exact pure _
  | cons item rest ih =>
    rw [List.mapM_cons]
    refine (h item List.mem_cons_self).bind fun _ => ?_
    exact (ih fun item hm => h item (List.mem_cons_of_mem _ hm)).bind fun _ => pure _

/-- Steps for the items of a list, in the same way. -/
theorem forM {items : List α} {f : α → Render PUnit} (h : ∀ item ∈ items, (f item).WritesOwn) :
    (items.forM f).WritesOwn := by
  induction items with
  | nil => exact pure _
  | cons item rest ih =>
    exact (h item List.mem_cons_self).bind fun _ =>
      ih fun item hm => h item (List.mem_cons_of_mem _ hm)

end WritesOwn

end Render

/-! ### Literals -/

/-- Whether a node is a literal without parts. -/
def Node.isScalar : Node → Bool
  | .null | .undefined | .boolean _ | .number _ | .string _ => true
  | _ => false

/-- Whether a key is written out: a name, a string or a number. -/
def Node.isPlainKey : Node → Bool
  | .identifier _ | .string _ | .number _ => true
  | _ => false

/-- Whether an expression is a literal: a scalar, also behind a sign, a text without
interpolations, or an array or object whose parts are literals. -/
inductive Arena.IsLiteral (a : Arena) : NodeId → Prop where
  | scalar {id : NodeId} {node : Node} (get : a.get? id = some node)
      (scalar : node.isScalar = true) : IsLiteral a id
  | signed {id operand : NodeId} {op : UnaryOp} (get : a.get? id = some (.unary op operand))
      (sign : op = .neg ∨ op = .plus) (inner : IsLiteral a operand) : IsLiteral a id
  | paren {id expr : NodeId} (get : a.get? id = some (.paren expr)) (inner : IsLiteral a expr) :
      IsLiteral a id
  | template {id : NodeId} {head : String} (get : a.get? id = some (.template head [])) :
      IsLiteral a id
  | array {id : NodeId} {items : List NodeId} (get : a.get? id = some (.array items))
      (parts : ∀ item ∈ items, IsLiteral a item) : IsLiteral a id
  | object {id : NodeId} {properties : List NodeId} (get : a.get? id = some (.object properties))
      (members : ∀ property ∈ properties, ∃ name value key,
        a.get? property = some (.property name value) ∧ a.get? name = some key ∧
          key.isPlainKey = true)
      (values : ∀ property ∈ properties, ∀ name value,
        a.get? property = some (.property name value) → IsLiteral a value) : IsLiteral a id

namespace Arena.IsLiteral

variable {a : Arena} {id expr : NodeId}

/-- A literal is neither wrapped as an argument nor spread. -/
theorem ne_wrapped (h : a.IsLiteral id) {node : Node} (hn : a.get? id = some node) :
    (∀ expr name, node ≠ .argument expr name) ∧ ∀ expr, node ≠ .spread expr := by
  cases h with
  | scalar get scalar =>
    rw [hn] at get
    cases get
    constructor <;> rintro _ <;> intros <;> rintro rfl <;> cases scalar
  | signed get | paren get | template get | array get | object get =>
    rw [hn] at get
    cases get
    simp

/-- What is in parentheses is part of the literal. -/
theorem of_paren (h : a.IsLiteral id) (hn : a.get? id = some (.paren expr)) :
    a.IsLiteral expr := by
  cases h with
  | paren get inner =>
    rw [hn] at get
    cases get
    exact inner
  | scalar get scalar =>
    rw [hn] at get
    cases get
    cases scalar
  | signed get | template get | array get | object get =>
    rw [hn] at get
    cases get

/-- Inside the parentheses around a literal there is a literal. -/
theorem unwrapParens (h : a.IsLiteral id) : a.IsLiteral (a.unwrapParens id) := by
  have hwithin : ∀ n {id : NodeId}, a.IsLiteral id → a.IsLiteral (a.unwrapParensWithin n id) := by
    intro n
    induction n with
    | zero => exact fun h => h
    | succ n ih =>
      intro id h
      rw [unwrapParensWithin]
      split
      · next expr hparen => exact ih (h.of_paren hparen)
      · exact h
  exact hwithin _ h

/-- So is what an argument stands for. -/
theorem argumentExpr (h : a.IsLiteral id) : a.IsLiteral (a.argumentExpr id) := by
  unfold Arena.argumentExpr
  split
  · next expr name hargument => exact absurd rfl ((h.ne_wrapped hargument).1 expr name)
  · exact h.unwrapParens

/-- No item of a literal is spread. -/
theorem not_isSpread (h : a.IsLiteral id) : Walker.isSpread a id = false := by
  unfold Walker.isSpread
  split
  · next expr hspread => exact absurd rfl ((h.ne_wrapped hspread).2 expr)
  · rfl

end Arena.IsLiteral

namespace Walker

variable {w : Walker} {id : NodeId} {items : List NodeId}

/-- A node is looked up without a line. -/
theorem writesOwn_node (id : NodeId) : (w.node id).WritesOwn := .ofExcept _

/-- Text that is moved has a temporary of its own. -/
theorem writesOwn_templateText (text : String) : (templateText text).WritesOwn :=
  .ite ((Render.WritesOwn.materialize _).bind fun _ => .pure _) (.pure _)

/-- A plain key has no lines at all. -/
theorem writesOwn_propertyKey {key : Node} (hget : w.arena.get? id = some key)
    (hplain : key.isPlainKey = true) : (w.propertyKey id).WritesOwn := by
  unfold propertyKey
  rw [node_eq_pure hget, pure_bind]
  cases key with
  | identifier name | string name => exact .pure _
  | number value => exact (Render.WritesOwn.ofExcept _).bind fun _ => .pure _
  | _ => cases hplain

/-- What an object is built in is a temporary of its own. -/
theorem writesOwn_objectLiteral {properties : List NodeId}
    (h : ∀ object, ∀ property ∈ properties, (w.addProperty object property).WritesOwn) :
    (w.objectLiteral properties).WritesOwn := by
  have hbuilt : w.objectLiteral properties =
      Render.materialize "\x7b\x7d" >>= fun object => do
        properties.forM (w.addProperty object)
        return object := by
    simp [objectLiteral, Render.materialize]
  rw [hbuilt]
  refine (Render.WritesOwn.materialize _).bind fun object => ?_
  exact (Render.WritesOwn.forM (h object)).bind fun _ => .pure _

section

variable (hw : ∀ {id : NodeId}, w.arena.IsLiteral id → (w.expression id).WritesOwn)

include hw

/-- An argument is a part of the literal itself, or a temporary that holds it. -/
theorem writesOwn_argument (h : w.arena.IsLiteral id) : (w.argument id).WritesOwn := by
  refine (hw h.argumentExpr).bind fun value => (writesOwn_node _).bind fun node => ?_
  exact .ite (.materialize value) (.pure value)

/-- A list of literals is inline. -/
theorem writesOwn_arrayLiteral (h : ∀ item ∈ items, w.arena.IsLiteral item) :
    (w.arrayLiteral items).WritesOwn := by
  have hnone : items.any (isSpread w.arena) = false :=
    List.any_eq_false.mpr fun item hm => by simp [(h item hm).not_isSpread]
  unfold arrayLiteral
  rw [hnone, if_neg Bool.false_ne_true]
  have harguments : (w.arguments items).WritesOwn :=
    (Render.WritesOwn.mapM fun item hm => writesOwn_argument hw (h item hm)).bind fun _ => .pure _
  exact harguments.bind fun _ => .pure _

/-- A property is added by a line that names the object alone. -/
theorem writesOwn_addProperty {object : String} {property name value : NodeId} {key : Node}
    (hproperty : w.arena.get? property = some (.property name value))
    (hkey : w.arena.get? name = some key) (hplain : key.isPlainKey = true)
    (hvalue : w.arena.IsLiteral value) : (w.addProperty object property).WritesOwn := by
  unfold addProperty
  rw [node_eq_pure hproperty, pure_bind]
  refine (writesOwn_propertyKey hkey hplain).bind fun key => ?_
  exact (writesOwn_argument hw hvalue).bind fun value => .discard _

/-- A literal stores its own temporaries if its parts do. -/
theorem writesOwn_renderExpression (h : w.arena.IsLiteral id) :
    (w.renderExpression id).WritesOwn := by
  unfold renderExpression
  cases h with
  | scalar get scalar =>
    rw [node_eq_pure get, pure_bind]
    rename_i node
    cases node with
    | null | undefined | boolean value | string value => exact .pure _
    | number value => exact .ofExcept _
    | _ => cases scalar
  | signed get sign inner =>
    rw [node_eq_pure get, pure_bind]
    rcases sign with rfl | rfl
    · exact (hw inner).bind fun _ => .pure _
    · exact hw inner
  | paren get inner =>
    rw [node_eq_pure get, pure_bind]
    exact hw inner
  | template get =>
    rw [node_eq_pure get, pure_bind]
    exact (writesOwn_templateText _).bind fun _ => (Render.WritesOwn.pure _).bind fun _ => .pure _
  | array get parts =>
    rw [node_eq_pure get, pure_bind]
    exact writesOwn_arrayLiteral hw parts
  | object get members values =>
    rw [node_eq_pure get, pure_bind]
    refine writesOwn_objectLiteral fun object property hm => ?_
    obtain ⟨name, value, key, hproperty, hkey, hplain⟩ := members property hm
    exact writesOwn_addProperty hw hproperty hkey hplain (values property hm name value hproperty)

end

end Walker

/-- Rendering a literal stores nothing but temporaries that the literal allocates. -/
theorem Program.writesOwn_of_isLiteral {p : Program} {dialect : Dialect} (n : Nat) {id : NodeId}
    (h : p.arena.IsLiteral id) : ((p.walkerWithin dialect n).expression id).WritesOwn := by
  induction n generalizing id with
  | zero => exact .fault _
  | succ n ih =>
    rw [← p.arena_walkerWithin dialect n] at h
    refine Walker.writesOwn_renderExpression (fun {part} hpart => ?_) h
    rw [p.arena_walkerWithin] at hpart
    exact ih hpart

end ClosureVtl
