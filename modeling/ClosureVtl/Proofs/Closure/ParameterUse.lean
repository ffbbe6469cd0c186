/-
Module: ClosureVtl.Proofs.Closure.ParameterUse
Purpose: When the callback of a list operation counts as reading the whole list.
Main exports:
  Arena.isPlainKey, Arena.ReadIn, Arena.KeyedIn, ListCall.Names,
  Arena.Grown.references_iff, Arena.fusedChain_eq_nil_iff, references_iff_readIn_or_keyedIn
-/
import ClosureVtl.Proofs.Closure.KnownNodes
import ClosureVtl.Proofs.Closure.SubtreeSearch

namespace ClosureVtl

/-!
An identifier stands for a variable, for the name that a declaration introduces, or for the
literal text of a key.  Only the first is evaluated.  The search for the uses of a parameter
passes over the names of declarations, but not over keys: a key is looked up like a variable,
and counts as a use if its text is the name of a parameter in scope.
-/

namespace Arena

/-- Whether a node is the key of its parent, and the key is not computed. -/
def isPlainKey (a : Arena) (id : NodeId) : Bool :=
  match (a.parent? id).bind a.get?, a.get? id with
  | some owner, some (.identifier _) => owner.key? == some id
  | _, _ => false

/-- Whether a variable in a subtree refers to a declaration. -/
def ReadIn (a : Arena) (root declaration : NodeId) : Prop :=
  ∃ use, a.Below root use ∧ a.lookup use = some declaration ∧
    a.isBindingName use = false ∧ a.isPlainKey use = false

/-- Whether a key in a subtree reads like a variable that refers to a declaration. -/
def KeyedIn (a : Arena) (root declaration : NodeId) : Prop :=
  ∃ key, a.Below root key ∧ a.lookup key = some declaration ∧ a.isPlainKey key = true

end Arena

/-- Whether a callback has a plain name as parameter at a position. -/
structure ListCall.Names (c : ListCall) (a : Arena) (position : Nat) (parameter : NodeId) :
    Prop where
  taken : c.parameters[position]? = some parameter
  plain : ∃ name default text, a.get? parameter = some (.parameter name default) ∧
    a.get? name = some (.identifier text)

namespace Arena

variable {a : Arena} {id root declaration parameter expr : NodeId} {name : String}
  {c stage : ListCall} {position : Nat}

namespace Grown

/-! ### Keys are not bound -/

/-- A node lists its key and the name that it binds as two children, so the key is not the
name that is bound. -/
theorem isBindingName_of_isPlainKey (ha : a.Grown) (h : a.isPlainKey id = true) :
    a.isBindingName id = false := by
  rw [Bool.eq_false_iff, ne_eq, isBindingName_iff]
  rintro ⟨owner, hp, hbound⟩
  unfold isPlainKey at h
  split at h
  · next node _ hparent hid =>
    rw [hp, Option.bind_some] at hparent
    rw [hparent, Option.bind_some] at hbound
    rw [beq_iff_eq] at h
    cases node with
    | binding target key default rest =>
      cases hbound
      cases h
      have honce := ha.once hparent (Node.mem_children_of_key? rfl) (lt_size_of_get? hid)
      simp only [Node.children, Option.toList_some, List.singleton_append,
        List.count_cons_self] at honce
      omega
    | _ => cases hbound <;> cases h
  · cases h

/-! ### What the search finds -/

/-- The search for uses finds the variables and the keys. -/
theorem references_iff (ha : a.Grown) :
    a.references root declaration = true ↔
      a.ReadIn root declaration ∨ a.KeyedIn root declaration := by
  rw [references, ha.anyDescendant_iff]
  constructor
  · rintro ⟨use, node, hbelow, -, hhit⟩
    split at hhit
    · rw [Bool.and_eq_true, Bool.not_eq_true', beq_iff_eq] at hhit
      cases hkey : a.isPlainKey use with
      | false => exact .inl ⟨use, hbelow, hhit.2, hhit.1, hkey⟩
      | true => exact .inr ⟨use, hbelow, hhit.2, hkey⟩
    · cases hhit
  · intro h
    obtain ⟨use, hbelow, hlookup, hbound⟩ : ∃ use, a.Below root use ∧
        a.lookup use = some declaration ∧ a.isBindingName use = false := by
      rcases h with ⟨use, hbelow, hlookup, hbound, -⟩ | ⟨key, hbelow, hlookup, hkey⟩
      · exact ⟨use, hbelow, hlookup, hbound⟩
      · exact ⟨key, hbelow, hlookup, ha.isBindingName_of_isPlainKey hkey⟩
    obtain ⟨name, hn⟩ := exists_identifier_of_lookup hlookup
    exact ⟨use, _, hbelow, hn, by simp [hlookup, hbound]⟩

/-- Whether a declaration is read can be told by a search. -/
theorem readIn_iff_anyDescendant (ha : a.Grown) :
    a.ReadIn root declaration ↔
      a.anyDescendant root (fun id _ => a.lookup id == some declaration &&
        !a.isBindingName id && !a.isPlainKey id) = true := by
  rw [ha.anyDescendant_iff]
  constructor
  · rintro ⟨use, hbelow, hlookup, hbound, hkey⟩
    obtain ⟨name, hn⟩ := exists_identifier_of_lookup hlookup
    exact ⟨use, _, hbelow, hn, by simp [hlookup, hbound, hkey]⟩
  · rintro ⟨use, node, hbelow, -, hhit⟩
    simp only [Bool.and_eq_true, Bool.not_eq_true', beq_iff_eq] at hhit
    exact ⟨use, hbelow, hhit.1.1, hhit.1.2, hhit.2⟩

end Grown

/-! ### What follows for the sharing of loops -/

theorem parameterUsed_eq_references (h : c.Names a position parameter) :
    a.parameterUsed c.parameters position c.body = a.references c.body parameter := by
  obtain ⟨name, default, text, hparameter, hname⟩ := h.plain
  simp only [parameterUsed, h.taken, hparameter, hname]

/-- A stage shares the loop of its consumer unless its callback counts as reading the list. -/
theorem fusedChain_eq_nil_iff (hs : a.mapStage? expr = some stage) :
    (a.fusedChain expr false).1 = [] ↔
      a.parameterUsed stage.parameters mapListPosition stage.body = true := by
  have hpos : 0 < a.size := by
    unfold mapStage? at hs
    split at hs
    · next hn => exact Nat.zero_lt_of_lt (lt_size_of_get? hn)
    · cases hs
  obtain ⟨n, hn⟩ := Nat.exists_eq_add_one_of_ne_zero hpos.ne'
  simp only [fusedChain, Bool.false_eq_true, if_false, hn, fusedChainWithin, hs]
  split <;> simp_all

end Arena

/-- A parameter counts as used if it is read or if a key in scope has its name; so it counts
as used exactly if it is read where no key has its name unless it is read as well.  The
callback of a list operation gives up the loop that it could share on the same terms. -/
theorem references_iff_readIn_or_keyedIn {p : Program} (hp : p.BottomUp)
    (root declaration : NodeId) :
    (p.arena.references root declaration = true ↔
        p.arena.ReadIn root declaration ∨ p.arena.KeyedIn root declaration) ∧
      ((p.arena.references root declaration = true ↔ p.arena.ReadIn root declaration) ↔
        (p.arena.KeyedIn root declaration → p.arena.ReadIn root declaration)) ∧
      (∀ (c : ListCall) (position : Nat), c.Names p.arena position declaration →
        (p.arena.parameterUsed c.parameters position c.body = true ↔
          p.arena.ReadIn c.body declaration ∨ p.arena.KeyedIn c.body declaration)) ∧
      ∀ (expr : NodeId) (stage : ListCall), p.arena.mapStage? expr = some stage →
        stage.Names p.arena mapListPosition declaration →
        ((p.arena.fusedChain expr false).1 = [] ↔
          p.arena.ReadIn stage.body declaration ∨ p.arena.KeyedIn stage.body declaration) := by
  have hfound : ∀ root, p.arena.references root declaration = true ↔
      p.arena.ReadIn root declaration ∨ p.arena.KeyedIn root declaration := fun _ =>
    hp.grown.references_iff
  have hused : ∀ (c : ListCall) (position : Nat), c.Names p.arena position declaration →
      (p.arena.parameterUsed c.parameters position c.body = true ↔
        p.arena.ReadIn c.body declaration ∨ p.arena.KeyedIn c.body declaration) := by
    intro c position hnames
    rw [Arena.parameterUsed_eq_references hnames]
    exact hfound c.body
  refine ⟨hfound root, ?_, hused, ?_⟩
  · rw [hfound root]
    exact or_iff_left_iff_imp
  · intro expr stage hs hnames
    rw [Arena.fusedChain_eq_nil_iff hs]
    exact hused stage mapListPosition hnames

/-- The closure `input => input.map(x => x).map((y, i, all) => ({all: y}))`. -/
def Program.keyLikeList : Program :=
  (Builder.of []
    [.identifier "x", .parameter ⟨0⟩ none, .identifier "x", .function [⟨1⟩] ⟨2⟩,
      .identifier "y", .parameter ⟨4⟩ none, .identifier "i", .parameter ⟨6⟩ none,
      .identifier "all", .parameter ⟨8⟩ none,
      .identifier "y", .identifier "all", .property ⟨11⟩ ⟨10⟩, .object [⟨12⟩],
      .function [⟨5⟩, ⟨7⟩, ⟨9⟩] ⟨13⟩,
      .identifier "input", .parameter ⟨15⟩ none, .identifier "input",
      .member ⟨17⟩ "map", .argument ⟨3⟩ none, .call ⟨18⟩ [⟨19⟩],
      .member ⟨20⟩ "map", .argument ⟨14⟩ none, .call ⟨21⟩ [⟨22⟩],
      .returnValue (some ⟨23⟩), .block [⟨24⟩], .function [⟨16⟩] ⟨25⟩]).program

theorem Program.bottomUp_keyLikeList : Program.keyLikeList.BottomUp :=
  Builder.bottomUp_of (by decide) (by cbv)

theorem references_iff_readIn_or_keyedIn_keyLikeList :
    Program.keyLikeList.BottomUp ∧
      Program.keyLikeList.arena.mapStage? ⟨23⟩ = some ⟨⟨20⟩, [⟨5⟩, ⟨7⟩, ⟨9⟩], ⟨13⟩⟩ ∧
      (Program.keyLikeList.arena.references ⟨13⟩ ⟨9⟩ = true ↔
        Program.keyLikeList.arena.ReadIn ⟨13⟩ ⟨9⟩ ∨ Program.keyLikeList.arena.KeyedIn ⟨13⟩ ⟨9⟩) ∧
      ((Program.keyLikeList.arena.fusedChain ⟨23⟩ false).1 = [] ↔
        Program.keyLikeList.arena.ReadIn ⟨13⟩ ⟨9⟩ ∨
          Program.keyLikeList.arena.KeyedIn ⟨13⟩ ⟨9⟩) := by
  have hstage : Program.keyLikeList.arena.mapStage? ⟨23⟩ =
      some ⟨⟨20⟩, [⟨5⟩, ⟨7⟩, ⟨9⟩], ⟨13⟩⟩ := by decide +kernel
  have hnames : ListCall.Names ⟨⟨20⟩, [⟨5⟩, ⟨7⟩, ⟨9⟩], ⟨13⟩⟩ Program.keyLikeList.arena
      mapListPosition ⟨9⟩ := ⟨rfl, ⟨8⟩, none, "all", by cbv, by cbv⟩
  obtain ⟨hread, -, -, hshared⟩ :=
    references_iff_readIn_or_keyedIn Program.bottomUp_keyLikeList ⟨13⟩ ⟨9⟩
  exact ⟨Program.bottomUp_keyLikeList, hstage, hread, hshared ⟨23⟩ _ hstage hnames⟩

/-- The second callback does not read the list, which its result has a field named after; still
the list counts as used, and the two operations have a loop each. -/
theorem not_readIn_keyLikeList :
    Program.keyLikeList.BottomUp ∧
      Program.keyLikeList.arena.references ⟨13⟩ ⟨9⟩ = true ∧
      ¬ Program.keyLikeList.arena.ReadIn ⟨13⟩ ⟨9⟩ ∧
      Program.keyLikeList.arena.mapStage? ⟨23⟩ = some ⟨⟨20⟩, [⟨5⟩, ⟨7⟩, ⟨9⟩], ⟨13⟩⟩ ∧
      (Program.keyLikeList.arena.fusedChain ⟨23⟩ false).1 = [] := by
  refine ⟨Program.bottomUp_keyLikeList, by decide +kernel, ?_, by decide +kernel,
    by decide +kernel⟩
  rw [Program.bottomUp_keyLikeList.grown.readIn_iff_anyDescendant]
  decide +kernel

end ClosureVtl
