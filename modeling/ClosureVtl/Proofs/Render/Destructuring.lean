/-
Module: ClosureVtl.Proofs.Render.Destructuring
Purpose: A pattern binds each of its names once, in source order.
Main exports:
  Arena.Grown.boundNames_eq, PatternPart.names, assignmentsTo, Program.Expands.names_eq,
  Program.Expands.assignmentsTo_eq, Arena.patternStorage, expand_binds_once
-/
import ClosureVtl.Proofs.Closure.Environment
import ClosureVtl.Proofs.Render.AddressClash
import ClosureVtl.Proofs.Render.PatternLines

namespace ClosureVtl

/-!
The lines of a pattern assign its names and temporaries, and nothing else.  The names come in
the order in which `Arena.boundNames` lists them, which is the order of the source.  What keeps
their assignments apart is where the names are stored: all names of a pattern belong to one
declaration, so they are stored alike, and names that are stored alike are told apart by their
spelling; temporaries are spelled apart from all of them.
-/

/-! ### Names in source order -/

namespace Arena

/-- The names that an element of a pattern binds. -/
def elementNames (a : Arena) (element : NodeId) : Environment :=
  match a.get? element with
  | some (.binding inner ..) => a.boundNames element inner
  | _ => []

namespace Grown

variable {a : Arena} {declaration target : NodeId} {n m : Nat}

/-- The walk goes down in the arena, so two bounds that suffice give the same names. -/
private theorem boundNamesWithin_eq (ha : a.Grown) (hn : a.Suffices n target)
    (hm : a.Suffices m target) :
    a.boundNamesWithin n declaration target = a.boundNamesWithin m declaration target := by
  have hnone : ∀ {declaration target : NodeId} (k : Nat), a.size ≤ target.index →
      a.boundNamesWithin k declaration target = [] := by
    intro declaration target k hk
    cases k with
    | zero => rfl
    | succ k => rw [boundNamesWithin, get?_eq_none_iff.mpr hk]
  induction n generalizing m declaration target with
  | zero =>
    have htarget : a.size ≤ target.index := hn.resolve_left (Nat.not_lt_zero _)
    rw [hnone 0 htarget, hnone m htarget]
  | succ n ih =>
    cases m with
    | zero =>
      have htarget : a.size ≤ target.index := hm.resolve_left (Nat.not_lt_zero _)
      rw [hnone 0 htarget, hnone (n + 1) htarget]
    | succ m =>
      -- the target of an element is two steps below the pattern
      have helements : ∀ {node : Node}, a.get? target = some node → ∀ element ∈ node.children,
          (match a.get? element with
            | some (.binding inner ..) => a.boundNamesWithin n element inner
            | _ => []) =
          match a.get? element with
            | some (.binding inner ..) => a.boundNamesWithin m element inner
            | _ => [] := by
        intro node hn' element hm'
        have hl : a.Lists target element := ⟨node, hn', hm'⟩
        split
        · next inner key default rest he =>
          have hinner : a.Lists element inner := ⟨_, he, by simp [Node.children]⟩
          exact ih (((hn.descend ha hl).mono (Nat.le_succ _)).descend ha hinner)
            (((hm.descend ha hl).mono (Nat.le_succ _)).descend ha hinner)
        · rfl
      simp only [boundNamesWithin]
      cases ht : a.get? target with
      | none => rfl
      | some node =>
        cases node with
        | objectPattern elements | arrayPattern elements =>
          exact List.flatMap_congr (helements ht)
        | _ => rfl

/-- A name binds itself, and a pattern the names of its elements. -/
theorem boundNames_eq (ha : a.Grown) (declaration target : NodeId) :
    a.boundNames declaration target =
      match a.get? target with
      | some (.identifier name) => [(name, declaration)]
      | some (.objectPattern elements) | some (.arrayPattern elements) =>
        elements.flatMap a.elementNames
      | _ => [] := by
  have hone : a.boundNames declaration target =
      a.boundNamesWithin (a.size + 2) declaration target :=
    ha.boundNamesWithin_eq ((a.suffices_size _).mono (by omega))
      ((a.suffices_size _).mono (by omega))
  rw [hone, boundNamesWithin]
  rfl

/-- Where names are distinct each one is found. -/
private theorem lookup_of_mem {env : Environment} {name : String} (h : (name, declaration) ∈ env)
    (hnodup : (env.map Prod.fst).Nodup) : env.lookup name = some declaration := by
  induction env with
  | nil => cases h
  | cons entry rest ih =>
    rw [List.map_cons, List.nodup_cons] at hnodup
    rcases List.mem_cons.mp h with rfl | hrest
    · simp
    · have hne : name ≠ entry.1 :=
        fun heq => hnodup.1 (heq ▸ List.mem_map_of_mem (f := Prod.fst) hrest)
      rw [List.lookup_cons, beq_eq_false_iff_ne.mpr hne]
      exact ih hrest hnodup.2

/-- All names of a pattern belong to what the pattern belongs to. -/
theorem patternOwner_of_mem_boundNames (ha : a.Grown) {id : NodeId} {name : String}
    (hnodup : ((a.boundNames id id).map Prod.fst).Nodup)
    (hm : (name, declaration) ∈ a.boundNames id id) :
    a.patternOwner declaration = a.patternOwner id := by
  -- an element belongs to its pattern, and its names belong to the element
  have helements : ∀ {node : Node} {elements : List NodeId}, a.get? id = some node →
      isPatternPart node = true → node.children = elements →
      ((elements.flatMap a.elementNames).map Prod.fst).Nodup →
      (name, declaration) ∈ elements.flatMap a.elementNames →
      a.patternOwner declaration = a.patternOwner id := by
    intro node elements hn hpart hchildren hnodup hm
    obtain ⟨element, helement, hfound⟩ := List.mem_flatMap.mp hm
    have hnames : ((a.elementNames element).map Prod.fst).Nodup := by
      rw [List.map_flatMap] at hnodup
      exact (List.nodup_flatMap.mp hnodup).1 element helement
    unfold elementNames at hfound hnames
    split at hfound
    · next inner key default rest he =>
      rw [he] at hnames
      have hbound : (a.get? element).bind Node.bound? = some inner := by
        rw [he]
        rfl
      have hsearch : a.findBinding inner name = some declaration := by
        rw [findBinding, ← ha.lookup_boundNamesWithin hbound]
        exact lookup_of_mem hfound hnames
      have hparent := ha.adopted ⟨node, hn, hchildren ▸ helement⟩ (lt_size_of_get? he)
      rw [ha.patternOwner_of_findBindingWithin hbound hsearch,
        ha.patternOwner_of_parent? he rfl hparent]
    · cases hfound
  rw [ha.boundNames_eq] at hm hnodup
  cases hn : a.get? id with
  | none =>
    rw [hn] at hm
    cases hm
  | some node =>
    rw [hn] at hm hnodup
    cases node with
    | objectPattern elements | arrayPattern elements => exact helements hn rfl rfl hnodup hm
    | identifier text =>
      cases List.mem_singleton.mp hm
      rfl
    | _ => cases hm

end Grown

end Arena

/-- The names that a part of a pattern binds, in source order. -/
def PatternPart.names (a : Arena) : PatternPart → Environment
  | element declaration name _ _ | target declaration name _ => a.boundNames declaration name
  | pattern id _ => a.boundNames id id
  | fields _ _ elements | items _ _ elements => elements.flatMap a.elementNames

/-! ### Assignments among the lines -/

/-- The assignments to some addresses that lines make, in order. -/
def assignmentsTo (addresses : List String) (ds : List Directive) : List Assignment :=
  (ds.filterMap Directive.made?).filter fun made => made.target ∈ addresses

section

variable {addresses : List String} {ds later : List Directive} {d : Directive}

/-- Assignments of two parts are counted part by part. -/
theorem assignmentsTo_append :
    assignmentsTo addresses (ds ++ later) =
      assignmentsTo addresses ds ++ assignmentsTo addresses later := by
  rw [assignmentsTo, List.filterMap_append, List.filter_append]
  rfl

/-- A line that makes no assignment does not count. -/
theorem assignmentsTo_cons_of_none (h : d.made? = none) :
    assignmentsTo addresses (d :: ds) = assignmentsTo addresses ds := by
  rw [assignmentsTo, List.filterMap_cons_none h]
  rfl

section

variable (hapart : ∀ number, Render.tempName number ∉ addresses)

include hapart

/-- Neither does an assignment to a temporary; no name has such an address here. -/
theorem assignmentsTo_cons_temp (number : Nat) (value : String) :
    assignmentsTo addresses (.set (Render.tempName number) value :: ds) =
      assignmentsTo addresses ds := by
  have hmade : (Directive.set (Render.tempName number) value).made? =
      some ⟨Render.tempName number, value⟩ := rfl
  rw [assignmentsTo, List.filterMap_cons_some hmade,
    List.filter_cons_of_neg (by simpa using hapart number)]
  rfl

/-- Lines that store temporaries of their own assign nothing else. -/
theorem assignmentsTo_own {before after : Nat} (h : ∀ d ∈ ds, d.IsOwn before after) :
    assignmentsTo addresses ds = [] := by
  refine List.filter_eq_nil_iff.mpr fun made hm => ?_
  obtain ⟨d, hd, hmade⟩ := List.mem_filterMap.mp hm
  obtain ⟨number, -, -, htarget⟩ := h d hd made hmade
  rw [htarget]
  simpa using hapart number

/-- Neither does copying what is left of a map to a temporary. -/
theorem assignmentsTo_restLines (source key : String) (keys : List String) (number : Nat) :
    assignmentsTo addresses (restLines source keys (Render.tempName number) key ++ ds) =
      assignmentsTo addresses ds := by
  unfold restLines
  rw [List.append_assoc, List.append_assoc, List.cons_append, assignmentsTo_cons_temp hapart]
  cases keys <;> rfl

end

end

namespace Program.Expands

variable {p : Program} {dialect : Dialect} {part : PatternPart} {before after : Nat}
  {ds : List Directive} {bs : List NameBinding}

/-- A nested pattern declares its names itself. -/
theorem boundNames_eq (ha : p.arena.Grown) {id : NodeId} {source : String}
    (h : p.Expands dialect (.pattern id source) before after ds bs) (declaration : NodeId) :
    p.arena.boundNames declaration id = p.arena.boundNames id id := by
  rw [ha.boundNames_eq declaration, ha.boundNames_eq id]
  cases h with
  | object get | array get => rw [get]

/-- The names are bound in source order, each for the element that declares it. -/
theorem names_eq (ha : p.arena.Grown) (h : p.Expands dialect part before after ds bs) :
    bs.map (fun b => (b.name, b.declaration)) = part.names p.arena := by
  have helement : ∀ {element inner : NodeId} {key default : Option NodeId} {rest : Bool},
      p.arena.get? element = some (.binding inner key default rest) →
      p.arena.elementNames element = p.arena.boundNames element inner := by
    intro element inner key default rest he
    rw [Arena.elementNames, he]
  induction h with
  | name bound get addressed =>
    rw [PatternPart.names, ha.boundNames_eq, get]
    rfl
  | reference _ inner ih | stored _ inner ih => exact ih.trans (inner.boundNames_eq ha _).symm
  | required inner ih | defaulted _ inner ih => exact ih
  | object get inner ih | array get inner ih =>
    rw [PatternPart.names, ha.boundNames_eq, get]
    exact ih
  | fieldsNil | itemsNil => rfl
  | field get accesses first rest ihFirst ihRest =>
    rw [List.map_append, ihFirst, ihRest, PatternPart.names, PatternPart.names, PatternPart.names,
      List.flatMap_cons, helement get]
  | item get first rest ihFirst ihRest =>
    rw [List.map_append, ihFirst, ihRest, PatternPart.names, PatternPart.names, PatternPart.names,
      List.flatMap_cons, helement get]
  | fieldsRest get inner ih | itemsRest get inner ih =>
    rw [ih, PatternPart.names, PatternPart.names, List.flatMap_cons, helement get, List.flatMap_nil,
      List.append_nil]
  | hole get rest ih =>
    rw [ih, PatternPart.names, PatternPart.names, List.flatMap_cons, Arena.elementNames, get]
    rfl

/-- Each name is declared by an element of a pattern, and has the address that it has there. -/
theorem binds (ha : p.arena.Grown) (h : p.Expands dialect part before after ds bs) :
    ∀ b ∈ bs, p.arena.Binds b.declaration b.node b.name ∧
      (∃ key default rest, p.arena.get? b.declaration = some (.binding b.node key default rest)) ∧
      p.arena.addressIn dialect b.node = .ok b.address := by
  induction h with
  | @name declaration node _ _ _ _ _ _ _ bound get addressed =>
    intro b hb
    cases List.mem_singleton.mp hb
    have hbound : (p.arena.get? declaration).bind Node.bound? = some node := by
      rw [bound]
      rfl
    have hparent := ha.parent?_of_bound hbound (Arena.lt_size_of_get? get)
    exact ⟨⟨get, hbound, hparent⟩, ⟨_, _, _, bound⟩, addressed⟩
  | reference _ _ ih | stored _ _ ih | required _ ih | defaulted _ _ ih | object _ _ ih
  | array _ _ ih | fieldsRest _ _ ih | hole _ _ ih | itemsRest _ _ ih => exact ih
  | fieldsNil | itemsNil => simp
  | field _ _ _ _ ihFirst ihRest | item _ _ _ ihFirst ihRest =>
    intro b hb
    exact (List.mem_append.mp hb).elim (ihFirst b) (ihRest b)

/-- Among addresses that no temporary has, the lines assign those of the names, in order. -/
theorem assignmentsTo_eq (h : p.Expands dialect part before after ds bs)
    {addresses : List String} (hbound : ∀ b ∈ bs, b.address ∈ addresses)
    (hapart : ∀ number, Render.tempName number ∉ addresses) :
    assignmentsTo addresses ds = bs.map NameBinding.made := by
  induction h with
  | @name declaration node _ _ _ name address value _ bound get addressed =>
    have hm : address ∈ addresses := hbound _ (List.mem_singleton.mpr rfl)
    simp [assignmentsTo, Directive.made?, NameBinding.made, hm]
  | stored _ inner ih =>
    rw [assignmentsTo_cons_temp hapart, ih hbound]
  | defaulted rendered inner ih =>
    rw [List.append_assoc, List.append_assoc, List.cons_append, assignmentsTo_cons_temp hapart,
      List.singleton_append, assignmentsTo_cons_of_none rfl, assignmentsTo_append,
      assignmentsTo_own hapart rendered.1, List.nil_append, List.cons_append,
      assignmentsTo_cons_temp hapart, List.singleton_append, assignmentsTo_cons_of_none rfl,
      ih hbound]
  | reference _ _ ih | required _ ih | object _ _ ih | array _ _ ih | hole _ _ ih
  | itemsRest _ _ ih => exact ih hbound
  | fieldsRest _ _ ih =>
    rw [assignmentsTo_restLines hapart, ih hbound]
  | fieldsNil | itemsNil => rfl
  | field _ _ _ _ ihFirst ihRest | item _ _ _ ihFirst ihRest =>
    rw [assignmentsTo_append, ihFirst fun b hb => hbound b (List.mem_append_left _ hb),
      ihRest fun b hb => hbound b (List.mem_append_right _ hb), List.map_append]

end Program.Expands

/-! ### Where the names of a pattern are stored

Where a name is stored is decided by the declaration that its pattern belongs to, unless the
name is reserved.  So the address of a name is the name behind a text that the whole pattern
shares, and different names have different addresses.
-/

/-- Where the names of a pattern are stored: top-level ones in the stash, if it is in use. -/
def Arena.patternStorage (a : Arena) (dialect : Dialect) (pattern : NodeId) : Storage :=
  if dialect.stashes && a.isTopLevelDeclaration pattern then .stash else .plain

/-- An element stores its name where the pattern it belongs to does. -/
theorem Arena.storage_eq_patternStorage {a : Arena} {dialect : Dialect} {name : String}
    {declaration pattern inner : NodeId} {key default : Option NodeId} {rest : Bool}
    (hd : a.get? declaration = some (.binding inner key default rest))
    (howner : a.patternOwner declaration = a.patternOwner pattern)
    (hname : isReservedName name = false) :
    a.storage dialect name declaration = a.patternStorage dialect pattern := by
  have hindex : a.rootParameterIndex declaration = none := by
    unfold rootParameterIndex
    rw [hd]
  have htop : a.isTopLevelDeclaration declaration = a.isTopLevelDeclaration pattern := by
    unfold isTopLevelDeclaration
    rw [howner]
  unfold storage patternStorage
  rw [hindex, hname, htop, if_neg Bool.false_ne_true]

/-- The addresses of a pattern are its names behind the same text. -/
theorem Arena.exists_address?_patternStorage (a : Arena) (dialect : Dialect) (pattern : NodeId) :
    ∃ front, ∀ name, (a.patternStorage dialect pattern).address? dialect name =
      some (front ++ name) := by
  unfold patternStorage
  split
  · exact ⟨"$context.stash.", fun name => rfl⟩
  · exact ⟨"$", fun name => rfl⟩

namespace Program.Expands

variable {p : Program} {dialect : Dialect} {pattern : NodeId} {source : String}
  {before after : Nat} {ds : List Directive} {bs : List NameBinding}

/-- A name of a pattern has its address in the storage of the pattern. -/
theorem address?_eq (ha : p.arena.Grown)
    (h : p.Expands dialect (.pattern pattern source) before after ds bs)
    (hnodup : (bs.map NameBinding.name).Nodup)
    (hreserved : ∀ b ∈ bs, isReservedName b.name = false) {b : NameBinding} (hb : b ∈ bs) :
    (p.arena.patternStorage dialect pattern).address? dialect b.name = some b.address := by
  have hlisted : bs.map (fun b => (b.name, b.declaration)) = p.arena.boundNames pattern pattern :=
    h.names_eq ha
  obtain ⟨hbinds, ⟨key, default, rest, hd⟩, haddress⟩ := h.binds ha b hb
  have hm : (b.name, b.declaration) ∈ p.arena.boundNames pattern pattern := by
    rw [← hlisted]
    exact List.mem_map_of_mem (f := fun b : NameBinding => (b.name, b.declaration)) hb
  have hfst : ((p.arena.boundNames pattern pattern).map Prod.fst).Nodup := by
    rw [← hlisted, List.map_map]
    exact hnodup
  have howner := ha.patternOwner_of_mem_boundNames hfst hm
  rw [← Arena.storage_eq_patternStorage hd howner (hreserved b hb)]
  exact (Arena.addressIn_eq_ok_iff hbinds.name_eq (Arena.Grown.lookup_of_binds hbinds)).mp haddress

end Program.Expands

/-- A successful expansion of a plain pattern appends the lines of the pattern and binds each of
its names once, in source order: the assignments to the addresses of the names are one for each
name, with the value that its element has.  Where the values come from is said by
`Program.Expands`.  The names differ, and none of them is reserved or spells a temporary. -/
theorem expand_binds_once {p : Program} (hp : p.BottomUp) {dialect : Dialect} {n : Nat}
    {pattern : NodeId} {target : String} {out final : Output}
    (hplain : p.arena.PlainTarget pattern)
    (hnodup : ((p.arena.boundNames pattern pattern).map Prod.fst).Nodup)
    (hnames : ∀ name ∈ (p.arena.boundNames pattern pattern).map Prod.fst,
      isReservedName name = false ∧ ∀ number : Nat, name ≠ "v" ++ toString number)
    (hrun : ((p.walkerWithin dialect n).expand pattern target).runOn out = (.ok (), final)) :
    ∃ ds bs, out.Appends ds final ∧
      p.Expands dialect (.pattern pattern target) out.temps final.temps ds bs ∧
      bs.map (fun b => (b.name, b.declaration)) = p.arena.boundNames pattern pattern ∧
      (∀ b ∈ bs, p.arena.Binds b.declaration b.node b.name ∧
        p.arena.addressIn dialect b.node = .ok b.address) ∧
      (bs.map NameBinding.address).Nodup ∧
      assignmentsTo (bs.map NameBinding.address) ds = bs.map NameBinding.made := by
  have ha := hp.grown
  obtain ⟨ds, bs, hlines, hexpands⟩ := Program.expanded_of_expand n hplain hrun
  have hlisted : bs.map (fun b => (b.name, b.declaration)) = p.arena.boundNames pattern pattern :=
    hexpands.names_eq ha
  have hfst : (p.arena.boundNames pattern pattern).map Prod.fst = bs.map NameBinding.name := by
    rw [← hlisted, List.map_map]
    rfl
  rw [hfst] at hnodup hnames
  have hname : ∀ b ∈ bs,
      isReservedName b.name = false ∧ ∀ number : Nat, b.name ≠ "v" ++ toString number :=
    fun b hb => hnames b.name (List.mem_map_of_mem hb)
  have haddress : ∀ b ∈ bs,
      (p.arena.patternStorage dialect pattern).address? dialect b.name = some b.address :=
    fun b hb => hexpands.address?_eq ha hnodup (fun b hb => (hname b hb).1) hb
  refine ⟨ds, bs, hlines, hexpands, hlisted, fun b hb => ?_, ?_, ?_⟩
  · obtain ⟨hbinds, -, haddressed⟩ := hexpands.binds ha b hb
    exact ⟨hbinds, haddressed⟩
  -- the addresses of one pattern differ from the names by a common front
  · obtain ⟨front, hfront⟩ := p.arena.exists_address?_patternStorage dialect pattern
    have heq : bs.map NameBinding.address = (bs.map NameBinding.name).map (front ++ ·) := by
      rw [List.map_map]
      refine List.map_congr_left fun b hb => ?_
      have := haddress b hb
      rw [hfront] at this
      exact (Option.some.inj this).symm
    rw [heq]
    refine hnodup.map fun first second hsame => ?_
    simpa using hsame
  · refine hexpands.assignmentsTo_eq (fun b hb => List.mem_map_of_mem hb) fun number hm => ?_
    -- an address that spells a temporary would come from a name that does
    obtain ⟨b, hb, htemp⟩ := List.mem_map.mp hm
    have haddressed := haddress b hb
    rw [htemp, Storage.address?_eq_tempName_iff] at haddressed
    rcases haddressed with ⟨-, hspelled⟩ | ⟨hstorage, -⟩
    · exact (hname b hb).2 number hspelled
    · unfold Arena.patternStorage at hstorage
      split at hstorage <;> cases hstorage

/-- The nodes of the closure `input => { const { id, user: { name = "?", "full name": full },
list: [first, , [inner], ...others], ...rest } = input; }`. -/
def Program.unpackNodes : List Node :=
  [.identifier "id", .binding ⟨0⟩ none none false, .identifier "name", .string "?",
    .binding ⟨2⟩ none (some ⟨3⟩) false, .string "full name", .identifier "full",
    .binding ⟨6⟩ (some ⟨5⟩) none false, .objectPattern [⟨4⟩, ⟨7⟩], .identifier "user",
    .binding ⟨8⟩ (some ⟨9⟩) none false, .identifier "first", .binding ⟨11⟩ none none false, .hole,
    .identifier "inner", .binding ⟨14⟩ none none false, .arrayPattern [⟨15⟩],
    .binding ⟨16⟩ none none false, .identifier "others", .binding ⟨18⟩ none none true,
    .arrayPattern [⟨12⟩, ⟨13⟩, ⟨17⟩, ⟨19⟩], .identifier "list",
    .binding ⟨20⟩ (some ⟨21⟩) none false, .identifier "rest", .binding ⟨23⟩ none none true,
    .objectPattern [⟨1⟩, ⟨10⟩, ⟨22⟩, ⟨24⟩], .identifier "input",
    .declaration .const ⟨25⟩ (some ⟨26⟩), .block [⟨27⟩], .identifier "input", .parameter ⟨29⟩ none,
    .function [⟨30⟩] ⟨28⟩]

def Program.unpack : Program := (Builder.of [] Program.unpackNodes).program

/-- The lines that take `$src` apart. -/
def Program.unpackLines : List String :=
  ["#set($context.stash.id = $src.id)",
    "#set($v1 = $src.user.name)",
    "#if($v1 == $null)",
    "#set($v1 = \"?\")",
    "#end",
    "#set($context.stash.name = $v1)",
    "#set($context.stash.full = $src.user[\"full name\"])",
    "#set($context.stash.first = $src.list[0])",
    "#set($v2 = $src.list[2])",
    "#set($context.stash.inner = $v2[0])",
    "#set($context.stash.others = $src.list.subList(3, $src.list.size()))",
    "#set($v3 = \x7b\x7d)",
    "#foreach($v4 in $src.keySet())",
    "#if($v4 != \"id\" && $v4 != \"user\" && $v4 != \"list\")",
    "$util.qr($v3.put($v4, $src.get($v4)))",
    "#end",
    "#end",
    "#set($context.stash.rest = $v3)"]

theorem Program.runOn_unpack :
    ((Program.unpack.walkerWithin (.resolver {}) 5).expand ⟨25⟩ "$src").runOn {} =
      (.ok (), { lines := Program.unpackLines.toArray, temps := 4 }) := by
  decide +kernel

theorem Program.plainTarget_unpack : Program.unpack.arena.PlainTarget ⟨25⟩ := by
  have hget : ∀ id : NodeId, Program.unpack.arena.get? id = Program.unpackNodes[id.index]? :=
    fun id => Builder.get?_of
  have hnone : Program.unpack.arena.HasPlainKey none := fun id h => by cases h
  have hkey : ∀ {id : NodeId} {node : Node}, Program.unpack.arena.get? id = some node →
      node.isPlainKey = true → Program.unpack.arena.HasPlainKey (some id) := by
    rintro id node hn hplain _ ⟨⟩
    exact ⟨node, hn, hplain⟩
  have hfixed : ∀ {holes : Bool} {element name : NodeId} {key : Option NodeId}
      {later : List NodeId},
      Program.unpack.arena.get? element = some (.binding name key none false) →
      Program.unpack.arena.HasPlainKey key → Program.unpack.arena.PlainTarget name →
      Program.unpack.arena.PlainElements holes later →
      Program.unpack.arena.PlainElements holes (element :: later) :=
    fun get key name later => .fixed get key (fun id h => by cases h) name later
  have huser : Program.unpack.arena.PlainElements false [⟨4⟩, ⟨7⟩] := by
    refine .fixed (hget _) hnone ?_ (.name (hget _))
      (hfixed (hget _) (hkey (hget _) rfl) (.name (hget _)) .nil)
    rintro _ ⟨⟩
    exact .scalar (hget _) rfl
  have hlist : Program.unpack.arena.PlainElements true [⟨12⟩, ⟨13⟩, ⟨17⟩, ⟨19⟩] :=
    hfixed (hget _) hnone (.name (hget _)) (.hole (hget _)
      (hfixed (hget _) hnone (.array (hget _) (hfixed (hget _) hnone (.name (hget _)) .nil))
        (.rest (hget _) (hget _))))
  exact .object (hget _) (hfixed (hget _) hnone (.name (hget _))
    (hfixed (hget _) (hkey (hget _) rfl) (.object (hget _) huser)
      (hfixed (hget _) (hkey (hget _) rfl) (.array (hget _) hlist) (.rest (hget _) (hget _)))))

theorem Program.boundNames_unpack :
    Program.unpack.arena.boundNames ⟨25⟩ ⟨25⟩ = [("id", ⟨1⟩), ("name", ⟨4⟩), ("full", ⟨7⟩),
      ("first", ⟨12⟩), ("inner", ⟨15⟩), ("others", ⟨19⟩), ("rest", ⟨24⟩)] := by
  decide +kernel

theorem expand_binds_once_unpack :
    ∃ ds bs, Program.unpackLines = ds.map Directive.text ∧
      Program.unpack.Expands (.resolver {}) (.pattern ⟨25⟩ "$src") 0 4 ds bs ∧
      bs.map NameBinding.name = ["id", "name", "full", "first", "inner", "others", "rest"] ∧
      (bs.map NameBinding.address).Nodup ∧
      assignmentsTo (bs.map NameBinding.address) ds = bs.map NameBinding.made := by
  have hbottom : Program.unpack.BottomUp := Builder.bottomUp_of (by decide) (by cbv)
  have hnames : (Program.unpack.arena.boundNames ⟨25⟩ ⟨25⟩).map Prod.fst =
      ["id", "name", "full", "first", "inner", "others", "rest"] := by
    rw [Program.boundNames_unpack]
    rfl
  have hspelled : ∀ name ∈ (Program.unpack.arena.boundNames ⟨25⟩ ⟨25⟩).map Prod.fst,
      isReservedName name = false ∧ name.toList.head? ≠ some 'v' := by
    rw [hnames]
    decide
  have hapart : ∀ name ∈ (Program.unpack.arena.boundNames ⟨25⟩ ⟨25⟩).map Prod.fst,
      isReservedName name = false ∧ ∀ number : Nat, name ≠ "v" ++ toString number := by
    intro name hm
    obtain ⟨hreserved, hfirst⟩ := hspelled name hm
    refine ⟨hreserved, fun number heq => hfirst ?_⟩
    rw [heq, String.toList_append]
    rfl
  obtain ⟨ds, bs, hlines, hexpands, hlisted, -, hdistinct, honce⟩ :=
    expand_binds_once hbottom Program.plainTarget_unpack (by rw [hnames]; decide) hapart
      Program.runOn_unpack
  refine ⟨ds, bs, hlines, hexpands, ?_, hdistinct, honce⟩
  rw [← hnames, ← hlisted, List.map_map]
  rfl

end ClosureVtl
