/-
Module: ClosureVtl.Proofs.Closure.InlinedNames
Purpose: What names refer to once aliases are taken away.
Main exports:
  OnlyCalled.lookup_inlined, OnlyCalled.classify_inlined, OnlyCalled.isConsumed_inlined,
  OnlyCalled.alikeAlong, OnlyCalled.kept_of_statement, OnlyCalled.kept_of_root
-/
import ClosureVtl.Proofs.Closure.Inlining
import ClosureVtl.Proofs.Closure.SubtreeSearch

namespace ClosureVtl.Arena

/-!
An arena and the same one without aliases are compared on the nodes that are kept.  The scopes
around such a node are the same, and offer the same declarations but for the aliases, so what
a name refers to stays what it was if it was no alias.  The names that a kept node lists are
kept again, or are called and then handed to one integration on both sides, or are keys.  That
is what `Arena.AlikeAlong` asks for.
-/

variable {a : Arena} {aliases : List NodeId} {id part parent callee declaration : NodeId}
  {node : Node}

/-! ### What names refer to

The way outward leads through the same scopes.  In a block the statements in front of the
one that is left are the same but for aliases, and a name that refers to no alias finds none
of them.
-/

/-- Nodes bind the same names, since a called name binds none. -/
theorem bound?_inlined (a : Arena) (aliases : List NodeId) (id : NodeId) :
    ((a.inlined aliases).get? id).bind Node.bound? = (a.get? id).bind Node.bound? :=
  a.apply_inlined aliases id (·.bind Node.bound?) (fun _ _ => rfl) fun _ _ _ => rfl

/-- A name in binding position stays in one, as its parent stays. -/
theorem isBindingName_inlined (hnot : id ∉ aliases) :
    (a.inlined aliases).isBindingName id = a.isBindingName id := by
  rw [Bool.eq_iff_iff, Grown.isBindingName_iff, Grown.isBindingName_iff, parent?_inlined,
    if_neg hnot]
  simp only [bound?_inlined]

/-- A part of a node that is no callee stays what it is but for the statements of a block. -/
theorem Grown.found_part (ha : a.Grown) (hn : a.get? parent = some node)
    (hm : part ∈ node.children) (hparen : ∀ expr, node ≠ .paren expr)
    (hcall : ∀ args, node ≠ .call part args) (aliases : List NodeId) :
    (∃ statements statements', a.get? part = some (.block statements) ∧
      (a.inlined aliases).get? part = some (.block statements')) ∨
    (a.inlined aliases).get? part = a.get? part := by
  rcases a.found_inlined aliases part with ⟨statements, hp, hp'⟩ |
    ⟨name, _, _, hp, -, hcallee, -⟩ | hsame
  · exact .inl ⟨statements, _, hp, hp'⟩
  · obtain ⟨call, callee, args, hcalled, hinside⟩ := isCallee_iff.mp hcallee
    have hsize := lt_size_of_get? hp
    have hself : a.unwrapParens part = part := unwrapParens_of_not_paren (by simp [hp])
    have hsize' := lt_size_of_unwrapParens (hinside.symm ▸ hsize)
    obtain rfl : callee = part := by
      apply ha.eq_of_unwrapParens_eq (hinside.trans hself.symm) (hself.symm ▸ hsize)
      · exact ha.not_paren_of_lists hcalled List.mem_cons_self hsize' (by simp)
      · exact ha.not_paren_of_lists hn hm hsize hparen
    have hparent := ha.adopted ⟨node, hn, hm⟩ hsize
    rw [ha.adopted ⟨_, hcalled, List.mem_cons_self⟩ hsize] at hparent
    cases hparent
    exact absurd (Option.some.inj (hn.symm.trans hcalled)) (hcall args)
  · exact .inr hsame

/-- What a node binds is no callee, so it stays what it is. -/
theorem Grown.found_bound (ha : a.Grown) (hb : (a.get? declaration).bind Node.bound? = some part)
    (aliases : List NodeId) :
    (∃ statements statements', a.get? part = some (.block statements) ∧
      (a.inlined aliases).get? part = some (.block statements')) ∨
    (a.inlined aliases).get? part = a.get? part := by
  obtain ⟨node, hd, hbound⟩ := Option.bind_eq_some_iff.mp hb
  apply ha.found_part hd (Node.mem_children_of_bound? hbound)
  · rintro expr rfl
    cases hbound
  · rintro args rfl
    cases hbound

namespace OnlyCalled

section

variable (h : a.OnlyCalled aliases) (ha : a.Grown)

include h ha

/-- The names that a pattern declares are found alike at every depth; the induction is on the
depth. -/
theorem findBindingWithin_inlined {name : String} {n : Nat} {target : NodeId}
    (hb : (a.get? declaration).bind Node.bound? = some target) :
    (a.inlined aliases).findBindingWithin name n target = a.findBindingWithin name n target := by
  induction n generalizing declaration target with
  | zero => rfl
  | succ n ih =>
    have helements : ∀ elements : List NodeId,
        elements.findSome? ((a.inlined aliases).declaredByElement name n) =
          elements.findSome? (a.declaredByElement name n) := by
      intro elements
      congr 1
      funext element
      unfold declaredByElement
      rcases a.found_inlined aliases element with ⟨statements, hn, hn'⟩ | ⟨_, _, _, hn, hn', -⟩ |
        hsame
      · rw [hn, hn']
      · rw [hn, hn']
      · rw [hsame]
        split
        · next inner key default rest hn =>
          exact ih (show (a.get? element).bind Node.bound? = some inner by rw [hn]; rfl)
        · rfl
    rw [findBindingWithin, findBindingWithin]
    rcases ha.found_bound hb aliases with ⟨statements, statements', hn, hn'⟩ | hsame
    · rw [hn, hn']
    · rw [hsame]
      split
      · next declared hn => rw [parent?_inlined, if_neg (h.not_mem_of_get? hn (by simp))]
      · exact helements _
      · exact helements _
      · rfl

/-- A statement declares the same names. -/
theorem declaredBy_inlined (name : String) (statement : NodeId) :
    (a.inlined aliases).declaredBy name statement = a.declaredBy name statement := by
  unfold declaredBy
  rcases a.found_inlined aliases statement with ⟨_, hn, hn'⟩ | ⟨_, _, _, hn, hn', -⟩ | hsame
  · rw [hn, hn']
  · rw [hn, hn']
  · rw [hsame]
    split
    · next kind target value hn =>
      unfold findBinding
      rw [size_inlined]
      exact h.findBindingWithin_inlined ha
        (show (a.get? statement).bind Node.bound? = some target by rw [hn]; rfl)
    · rfl

/-- So does a parameter. -/
theorem declaredByParameter_inlined (name : String) (parameter : NodeId) :
    (a.inlined aliases).declaredByParameter name parameter =
      a.declaredByParameter name parameter := by
  unfold declaredByParameter
  rcases a.found_inlined aliases parameter with ⟨_, hn, hn'⟩ | ⟨_, _, _, hn, hn', -⟩ | hsame
  · rw [hn, hn']
  · rw [hn, hn']
  · rw [hsame]
    split
    · next target default hn =>
      unfold findBinding
      rw [size_inlined]
      exact h.findBindingWithin_inlined ha
        (show (a.get? parameter).bind Node.bound? = some target by rw [hn]; rfl)
    · rfl

/-- An alias declares itself, or not the name that is looked for. -/
theorem declaredBy_alias (hd : declaration ∈ aliases) (name : String) :
    a.declaredBy name declaration = none ∨ a.declaredBy name declaration = some declaration := by
  obtain ⟨kind, target, value, text, hn, htarget, -⟩ := (h.isAlias hd).declares
  have hparent := ha.adopted ⟨_, hn, List.mem_cons_self⟩ (lt_size_of_get? htarget)
  simp only [declaredBy, hn, findBinding, findBindingWithin, htarget, hparent]
  split
  · exact .inr rfl
  · exact .inl rfl

end

end OnlyCalled

/-- Items that yield nothing or themselves may be dropped where none of them is found last. -/
theorem getLast?_filterMap_filter {α : Type} {items : List α} (drop : α → Bool) {f : α → Option α}
    (hf : ∀ item, drop item = true → f item = none ∨ f item = some item)
    (hlast : ∀ item, drop item = true → (items.filterMap f).getLast? ≠ some item) :
    ((items.filter fun item => !drop item).filterMap f).getLast? =
      (items.filterMap f).getLast? := by
  induction items using List.reverseRecOn with
  | nil => rfl
  | append_singleton items item ih =>
    rw [List.filter_append, List.filterMap_append, List.filterMap_append] at *
    -- the last item decides, unless it yields nothing
    cases hitem : f item with
    | none =>
      have hnone : [item].filterMap f = [] := by simp [hitem]
      have hnone' : ([item].filter fun item => !drop item).filterMap f = [] := by
        cases hdrop : drop item <;> simp [hdrop, hitem]
      rw [hnone, List.append_nil] at hlast ⊢
      rw [hnone', List.append_nil]
      exact ih hlast
    | some found =>
      have hsome : [item].filterMap f = [found] := by simp [hitem]
      rw [hsome, List.getLast?_concat] at hlast ⊢
      cases hdrop : drop item with
      | true =>
        rcases hf item hdrop with hnone | hself
        · rw [hnone] at hitem
          cases hitem
        · rw [hself] at hitem
          cases hitem
          exact absurd rfl (hlast item hdrop)
      | false =>
        have hsome' : ([item].filter fun item => !drop item).filterMap f = [found] := by
          simp [hdrop, hitem]
        rw [hsome', List.getLast?_concat]

/-- Dropping items first changes nothing about where the first ones end, if the end itself is
kept. -/
theorem takeWhile_filter_of_kept {α : Type} (items : List α) {keep go : α → Bool}
    (hstop : ∀ item, go item = false → keep item = true) :
    (items.filter keep).takeWhile go = (items.takeWhile go).filter keep := by
  induction items with
  | nil => rfl
  | cons item rest ih =>
    cases hgo : go item with
    | false => simp [hstop item hgo, hgo]
    | true => cases hkeep : keep item <;> simp [hkeep, hgo, ih]

namespace OnlyCalled

section

variable (h : a.OnlyCalled aliases) (ha : a.Grown)

include h ha

/-- A scope offers the same declarations unless it is an alias that is found. -/
theorem declaredIn_inlined {scope inner : NodeId} {name : String} (hinner : inner ∉ aliases)
    (hfound : ∀ declaration ∈ aliases, a.declaredIn scope inner name ≠ some declaration) :
    (a.inlined aliases).declaredIn scope inner name = a.declaredIn scope inner name := by
  unfold declaredIn at *
  rcases a.found_inlined aliases scope with ⟨statements, hn, hn'⟩ | ⟨_, _, _, hn, hn', -⟩ | hsame
  · rw [hn] at hfound ⊢
    rw [hn']
    dsimp only at hfound ⊢
    have hdeclared : (a.inlined aliases).declaredBy name = a.declaredBy name :=
      funext (h.declaredBy_inlined ha name)
    rw [hdeclared, takeWhile_filter_of_kept]
    · have hlast := getLast?_filterMap_filter (fun statement => decide (statement ∈ aliases))
        (fun statement hd => h.declaredBy_alias ha (of_decide_eq_true hd) name)
        (fun statement hd => hfound statement (of_decide_eq_true hd))
      simpa using hlast
    · intro statement hstop
      obtain rfl : statement = inner := by simpa using hstop
      simpa using hinner
  · rw [hn, hn']
  · rw [hsame]
    split
    · congr 2
      exact funext (h.declaredBy_inlined ha name)
    · congr 1
      exact funext (h.declaredByParameter_inlined ha name)
    · rw [h.declaredBy_inlined ha]
    · rw [h.declaredBy_inlined ha]
    · rfl

/-- Scope by scope the same declaration is found; the induction is on the scopes. -/
theorem lookupOutward_inlined {name : String} {inner : NodeId} {scopes : List NodeId}
    (hinner : inner ∉ aliases) (hscopes : ∀ scope ∈ scopes, scope ∉ aliases)
    (hfound : ∀ declaration ∈ aliases, a.lookupOutward name inner scopes ≠ some declaration) :
    (a.inlined aliases).lookupOutward name inner scopes = a.lookupOutward name inner scopes := by
  induction scopes generalizing inner with
  | nil => rfl
  | cons scope outer ih =>
    rw [lookupOutward] at hfound
    rw [lookupOutward, lookupOutward]
    have hdeclared : (a.inlined aliases).declaredIn scope inner name =
        a.declaredIn scope inner name := by
      apply h.declaredIn_inlined ha hinner
      intro declaration hd heq
      rw [heq] at hfound
      exact hfound declaration hd rfl
    rw [hdeclared]
    split
    · rfl
    · next hnone =>
      rw [hnone] at hfound
      exact ih (hscopes scope List.mem_cons_self)
        (fun other hm => hscopes other (List.mem_cons_of_mem _ hm)) hfound

/-- A name outside of aliases that refers to none keeps its declaration. -/
theorem lookup_inlined (hid : a.Outside aliases id) (hrefers : a.refersTo aliases id = false) :
    (a.inlined aliases).lookup id = a.lookup id := by
  have hfound : ∀ declaration ∈ aliases, a.lookup id ≠ some declaration := by
    intro declaration hd hl
    rw [refersTo_iff.mpr ⟨declaration, hd, hl⟩] at hrefers
    cases hrefers
  unfold lookup at *
  rcases a.found_inlined aliases id with ⟨statements, hn, hn'⟩ | ⟨_, _, _, hn, hn', -, hr⟩ | hsame
  · rw [hn, hn']
  · rw [hr] at hrefers
    cases hrefers
  · rw [hsame]
    split
    · next name hn =>
      rw [hn] at hfound
      dsimp only at hfound
      rw [isBindingName_inlined hid.not_mem, parent?_inlined, if_neg hid.not_mem]
      split
      · rfl
      · next hb =>
        rw [if_neg hb] at hfound
        rw [h.ancestors_inlined ha hid]
        refine h.lookupOutward_inlined ha hid.not_mem (fun scope hm => ?_) hfound
        intro hd
        have hwithin := hid scope hd
        simp [isWithin, hm] at hwithin
    · rfl

end

end OnlyCalled

/-! ### What names are classed by -/

/-- Functions stay functions. -/
theorem isFunction_inlined (a : Arena) (aliases : List NodeId) :
    (a.inlined aliases).isFunction = a.isFunction := by
  funext id
  unfold isFunction
  rcases a.found_inlined aliases id with ⟨_, hn, hn'⟩ | ⟨_, _, _, hn, hn', -⟩ | hsame
  · rw [hn, hn']
  · rw [hn, hn']
  · rw [hsame]

/-- Parentheses stay parentheses. -/
theorem isParen_inlined (a : Arena) (aliases : List NodeId) :
    Walker.isParen (a.inlined aliases) = Walker.isParen a := by
  funext id
  unfold Walker.isParen
  rcases a.found_inlined aliases id with ⟨_, hn, hn'⟩ | ⟨_, _, _, hn, hn', -⟩ | hsame
  · rw [hn, hn']
  · rw [hn, hn']
  · rw [hsame]

namespace OnlyCalled

section

variable (h : a.OnlyCalled aliases) (ha : a.Grown)

include h ha

/-- The function around a node outside of aliases stays. -/
theorem enclosingFunction_inlined (hid : a.Outside aliases id) :
    (a.inlined aliases).enclosingFunction id = a.enclosingFunction id := by
  unfold enclosingFunction
  rw [h.ancestors_inlined ha hid, isFunction_inlined]

/-- Whether a value is consumed is told by the nodes around it, which stay. -/
theorem isConsumed_inlined (hid : a.Outside aliases id) :
    Walker.isConsumed (a.inlined aliases) id = Walker.isConsumed a id := by
  unfold Walker.isConsumed
  rw [h.ancestors_inlined ha hid, isParen_inlined]
  cases (a.ancestors id).find? fun parent => !Walker.isParen a parent with
  | none => rfl
  | some parent =>
    simp only [Option.bind_some]
    rcases a.found_inlined aliases parent with ⟨_, hn, hn'⟩ | ⟨_, _, _, hn, hn', -⟩ | hsame
    · rw [hn, hn']
    · rw [hn, hn']
    · rw [hsame]

/-- A parameter of the outermost closure keeps its position. -/
theorem rootParameterIndex_inlined (hid : a.Outside aliases id) :
    (a.inlined aliases).rootParameterIndex id = a.rootParameterIndex id := by
  unfold rootParameterIndex
  rw [parent?_inlined, if_neg hid.not_mem]
  rcases a.found_inlined aliases id with ⟨_, hn, hn'⟩ | ⟨_, _, _, hn, hn', -⟩ | hsame
  · rw [hn, hn']
  · rw [hn, hn']
  · rw [hsame]
    split
    · next function _ hp =>
      rw [h.enclosingFunction_inlined ha (hid.of_parent? ha hp)]
      rcases a.found_inlined aliases function with ⟨_, hn, hn'⟩ | ⟨_, _, _, hn, hn', -⟩ | hsame
      · rw [hn, hn']
      · rw [hn, hn']
      · rw [hsame]
    · rfl

omit h in
/-- The owner of a pattern is outside of aliases too. -/
theorem patternOwner_inlined (hid : a.Outside aliases id) :
    (a.inlined aliases).patternOwner id = a.patternOwner id ∧
      ∀ owner ∈ a.patternOwner id, a.Outside aliases owner := by
  have hwithin : ∀ (n : Nat) {id : NodeId}, a.Outside aliases id →
      (a.inlined aliases).patternOwnerWithin n id = a.patternOwnerWithin n id ∧
        ∀ owner ∈ a.patternOwnerWithin n id, a.Outside aliases owner := by
    intro n
    induction n with
    | zero =>
      intro id hid
      refine ⟨rfl, fun owner howner => ?_⟩
      cases howner
      exact hid
    | succ n ih =>
      intro id hid
      have hpart := a.apply_inlined aliases id (·.any isPatternPart) (fun _ _ => rfl)
        fun _ _ _ => rfl
      simp only [patternOwnerWithin, hpart, parent?_inlined, if_neg hid.not_mem]
      split
      · cases hp : a.parent? id with
        | none => exact ⟨rfl, fun _ howner => by cases howner⟩
        | some parent => exact ih (hid.of_parent? ha hp)
      · refine ⟨rfl, fun owner howner => ?_⟩
        cases howner
        exact hid
  have howner := hwithin a.size hid
  unfold patternOwner
  rwa [size_inlined]

/-- The outermost block stays the outermost one. -/
theorem isRootBlock_inlined (hid : a.Outside aliases id) :
    (a.inlined aliases).isRootBlock id = a.isRootBlock id := by
  have henclosing : ∀ function ∈ a.parent? id,
      (a.inlined aliases).enclosingFunction function = a.enclosingFunction function :=
    fun function hp => h.enclosingFunction_inlined ha (hid.of_parent? ha hp)
  unfold isRootBlock
  rw [parent?_inlined, if_neg hid.not_mem, isFunction_inlined]
  cases hp : a.parent? id with
  | none =>
    rcases a.found_inlined aliases id with ⟨_, hn, hn'⟩ | ⟨_, _, _, hn, hn', -⟩ | hsame
    · rw [hn, hn']
    · rw [hn, hn']
    · rw [hsame]
  | some function =>
    simp only [henclosing function hp]
    rcases a.found_inlined aliases id with ⟨_, hn, hn'⟩ | ⟨_, _, _, hn, hn', -⟩ | hsame
    · rw [hn, hn']
    · rw [hn, hn']
    · rw [hsame]

/-- A declaration at the top stays at the top. -/
theorem isTopLevelDeclaration_inlined (hid : a.Outside aliases id) :
    (a.inlined aliases).isTopLevelDeclaration id = a.isTopLevelDeclaration id := by
  obtain ⟨hsame, howners⟩ := patternOwner_inlined ha hid
  unfold isTopLevelDeclaration
  rw [hsame]
  split
  · rfl
  · next owner howner =>
    have hout := howners owner howner
    rw [parent?_inlined, if_neg hout.not_mem]
    have hparent : (a.parent? owner).any (a.inlined aliases).isRootBlock =
        (a.parent? owner).any a.isRootBlock := by
      cases hp : a.parent? owner with
      | none => rfl
      | some parent => exact h.isRootBlock_inlined ha (hout.of_parent? ha hp)
    rw [hparent]
    rcases a.found_inlined aliases owner with ⟨_, hn, hn'⟩ | ⟨_, _, _, hn, hn', -⟩ | hsame
    · rw [hn, hn']
    · rw [hn, hn']
    · rw [hsame]

/-- A name outside of aliases has the same class. -/
theorem classify_inlined (hid : a.Outside aliases id) (hrefers : a.refersTo aliases id = false) :
    (a.inlined aliases).classify id = a.classify id := by
  have hlookup := h.lookup_inlined ha hid hrefers
  unfold classify node
  rcases a.found_inlined aliases id with ⟨_, hn, hn'⟩ | ⟨_, _, _, _, _, -, hr⟩ | hsame
  · rw [hn, hn']
    rfl
  · rw [hr] at hrefers
    cases hrefers
  · rw [hsame, hlookup]
    have hclass : ∀ name, (a.inlined aliases).classifyDeclared name (a.lookup id) =
        a.classifyDeclared name (a.lookup id) := by
      intro name
      unfold classifyDeclared
      cases hl : a.lookup id with
      | none => rfl
      | some declaration =>
        obtain ⟨_, _, -, hbinds⟩ := ha.binds_of_lookup hl
        have hout : a.Outside aliases declaration := by
          refine h.outside_of_bound ha hbinds.bound fun hd => ?_
          rw [refersTo_iff.mpr ⟨declaration, hd, hl⟩] at hrefers
          cases hrefers
        simp only [Option.bind_some, h.rootParameterIndex_inlined ha hout,
          h.isTopLevelDeclaration_inlined ha hout]
    simp only [hclass]

end

end OnlyCalled

/-! ### Known nodes

What is kept is known.  A kept node lists nodes that are kept again, statements of blocks
and names of aliases apart; a name of an alias is called, and is then handed to the same
integration on both sides, or it is a key.
-/

/-- Parentheses are the same, so there is the same inside of them. -/
theorem Grown.unwrapParens_inlined (ha : a.Grown) (ha' : (a.inlined aliases).Grown)
    (id : NodeId) : (a.inlined aliases).unwrapParens id = a.unwrapParens id := by
  induction id using ha.induction_through_parens with
  | plain id hplain =>
    rw [unwrapParens_of_not_paren hplain, unwrapParens_of_not_paren]
    exact fun expr hn => hplain expr ((get?_inlined_iff rfl).mp hn)
  | paren id expr hn ih =>
    rw [ha.unwrapParens_of_paren hn, ha'.unwrapParens_of_paren ((get?_inlined_iff rfl).mpr hn), ih]

/-- A kept node is no name of an alias, without its parentheses or with them. -/
theorem Kept.refersTo (ha : a.Grown) (hid : a.Kept aliases id) : a.refersTo aliases id = false := by
  by_contra hrefers
  obtain ⟨declaration, -, hl⟩ := refersTo_iff.mp (eq_true_of_ne_false hrefers)
  obtain ⟨name, _, hn, -⟩ := ha.binds_of_lookup hl
  have hself : a.unwrapParens id = id := unwrapParens_of_not_paren (by simp [hn])
  rw [← hself, hid.plain] at hrefers
  exact hrefers rfl

namespace OnlyCalled

section

variable (h : a.OnlyCalled aliases) (ha : a.Grown)

include h ha

/-- A part of a kept node is kept, unless it is an alias or, as callee or key, may be the name
of one. -/
theorem kept_of_lists (hid : a.Kept aliases id) (hn : a.get? id = some node)
    (hm : part ∈ node.children) (hnot : part ∉ aliases)
    (haside : part.index < a.size → node.aside? ≠ some part) : a.Kept aliases part := by
  have hout := hid.outside.of_lists ha ⟨node, hn, hm⟩ hnot
  refine ⟨hout, ?_⟩
  by_contra hrefers
  have hrefers := eq_true_of_ne_false hrefers
  have hsize := lt_size_of_unwrapParens (lt_size_of_refersTo hrefers)
  have hparent := ha.adopted ⟨node, hn, hm⟩ hsize
  by_cases hparen : ∃ expr, node = .paren expr
  · obtain ⟨expr, rfl⟩ := hparen
    obtain rfl := List.mem_singleton.mp hm
    have hplain := hid.plain
    rw [ha.unwrapParens_of_paren hn, hrefers] at hplain
    cases hplain
  · have htop := ha.not_paren_of_lists hn hm hsize (not_exists.mp hparen)
    rcases h.position ha hout hrefers htop with
      ⟨call, args, hcall⟩ | ⟨other, found, hother, hkey, -⟩
    · rw [ha.adopted ⟨_, hcall, List.mem_cons_self⟩ hsize] at hparent
      cases hparent
      exact haside hsize (Option.some.inj (hn.symm.trans hcall) ▸ rfl)
    · rw [ha.adopted ⟨_, hother, Node.mem_children_of_key? hkey⟩ hsize] at hparent
      cases hparent
      cases Option.some.inj (hn.symm.trans hother)
      apply haside hsize
      cases node <;> first | exact hkey | cases hkey

/-- The parts that follow the callee or the key are kept. -/
theorem kept_of_followed (hid : a.Kept aliases id) (hn : a.get? id = some node)
    (hm : part ∈ node.followed) : a.Kept aliases part := by
  have hchild := node.followed_subset_children hm
  apply h.kept_of_lists ha hid hn hchild
  · intro hd
    obtain ⟨statements, hblock⟩ := h.block_of_lists ha hd ⟨node, hn, hchild⟩
    cases Option.some.inj (hn.symm.trans hblock)
    cases hm
  · -- no part is listed twice
    intro hsize haside
    have hcount := ha.once hn hchild hsize
    rw [Node.children_of_aside? haside, List.count_cons_self] at hcount
    have hpos := List.count_pos_iff.mpr hm
    omega

/-- A callee is kept, or it is the name of an alias and handed to one integration on both
sides. -/
theorem kept_or_called (hid : a.Kept aliases id) {args : List NodeId}
    (hn : a.get? id = some (.call callee args)) :
    a.Kept aliases callee ∨ ∃ integration, a.resolveIntegration callee = some integration ∧
      (a.inlined aliases).resolveIntegration callee = some integration := by
  have ha' := h.grown_inlined ha
  by_cases hrefers : a.refersTo aliases (a.unwrapParens callee) = true
  · obtain ⟨name, integration, hreference, hresolved⟩ :=
      h.called_inlined ha (isCallee_iff.mpr ⟨id, callee, args, hn, rfl⟩) hrefers
    refine .inr ⟨integration, (ha.resolveIntegration_unwrapParens callee).symm.trans hresolved, ?_⟩
    rw [ha'.resolveIntegration_eq, resolveIntegrationRound, ha.unwrapParens_inlined ha', hreference]
  · refine .inl ⟨hid.outside.of_lists ha ⟨_, hn, List.mem_cons_self⟩ fun hd => ?_,
      eq_false_of_ne_true hrefers⟩
    obtain ⟨statements, hblock⟩ := h.block_of_lists ha hd ⟨_, hn, List.mem_cons_self⟩
    cases Option.some.inj (hn.symm.trans hblock)

/-- A key is kept, or it is the same name on both sides. -/
theorem kept_or_key (hid : a.Kept aliases id) {key : NodeId} (hn : a.get? id = some node)
    (hkey : node.key? = some key) :
    a.Kept aliases key ∨ ∃ name, a.get? key = some (.identifier name) ∧
      (a.inlined aliases).get? key = some (.identifier name) := by
  have hm := Node.mem_children_of_key? hkey
  have hparen : ∀ expr, node ≠ .paren expr := by
    rintro expr rfl
    cases hkey
  have hcall : ∀ callee args, node ≠ .call callee args := by
    rintro callee args rfl
    cases hkey
  by_cases hname : ∃ name, a.get? key = some (.identifier name)
  · obtain ⟨name, hname⟩ := hname
    refine .inr ⟨name, hname, ?_⟩
    rcases ha.found_part hn hm hparen (hcall key) aliases with ⟨_, _, hblock, -⟩ | hsame
    · cases hblock.symm.trans hname
    · rw [hsame, hname]
  -- a key that is no name cannot refer to an alias, since names of aliases are called or are
  -- keys
  · have hnot : key ∉ aliases := by
      intro hd
      obtain ⟨statements, hblock⟩ := h.block_of_lists ha hd ⟨node, hn, hm⟩
      cases Option.some.inj (hn.symm.trans hblock)
      cases hkey
    have hout := hid.outside.of_lists ha ⟨node, hn, hm⟩ hnot
    refine .inl ⟨hout, ?_⟩
    by_contra hrefers
    have hrefers := eq_true_of_ne_false hrefers
    have hsize := lt_size_of_unwrapParens (lt_size_of_refersTo hrefers)
    rcases h.position ha hout hrefers (ha.not_paren_of_lists hn hm hsize hparen) with
      ⟨call, args, hcalled⟩ | ⟨_, _, -, -, hself, -⟩
    · have hparent := ha.adopted ⟨node, hn, hm⟩ hsize
      rw [ha.adopted ⟨_, hcalled, List.mem_cons_self⟩ hsize] at hparent
      cases hparent
      exact hcall key args (Option.some.inj (hn.symm.trans hcalled))
    · obtain ⟨declaration, -, hl⟩ := refersTo_iff.mp hrefers
      obtain ⟨name, _, hidentifier, -⟩ := ha.binds_of_lookup hl
      rw [hself] at hidentifier
      exact hname ⟨name, hidentifier⟩

/-- The declaration of a kept name is kept. -/
theorem kept_of_lookup (hid : a.Kept aliases id) (hl : a.lookup id = some declaration) :
    a.Kept aliases declaration := by
  obtain ⟨_, _, -, hbinds⟩ := ha.binds_of_lookup hl
  obtain ⟨node, hn, hbound⟩ := Option.bind_eq_some_iff.mp hbinds.bound
  have hnot : declaration ∉ aliases := by
    intro hd
    have hrefers := hid.refersTo ha
    rw [refersTo_iff.mpr ⟨declaration, hd, hl⟩] at hrefers
    cases hrefers
  refine ⟨h.outside_of_bound ha hbinds.bound hnot, ?_⟩
  have hself : a.unwrapParens declaration = declaration := by
    apply unwrapParens_of_not_paren
    intro expr hparen
    cases Option.some.inj (hn.symm.trans hparen)
    cases hbound
  have hnone : a.lookup declaration = none := by
    apply lookup_of_not_identifier
    intro name hname
    cases Option.some.inj (hn.symm.trans hname)
    cases hbound
  rw [hself, Arena.refersTo, hnone]
  rfl

/-- A parameter that is used below a node is still used there. -/
private theorem references_inlined_of {parameter name : NodeId} {default : Option NodeId}
    (hp : a.get? parameter = some (.parameter name default))
    (hused : a.references id parameter = true) :
    (a.inlined aliases).references id parameter = true := by
  obtain ⟨use, node, hbelow, hn, hhit⟩ := ha.anyDescendant_iff.mp hused
  cases node with
  | identifier text =>
    simp only [Bool.and_eq_true, Bool.not_eq_eq_eq_not, Bool.not_true, beq_iff_eq] at hhit
    obtain ⟨hbinding, hl⟩ := hhit
    have hrefers : a.refersTo aliases use = false := by
      rw [refersTo, hl, Option.any_some]
      exact decide_eq_false (h.not_mem_of_get? hp (by simp))
    have hout : a.Outside aliases use := by
      intro declaration hd
      by_contra hwithin
      rcases (h.isAlias hd).within_cases ha (eq_true_of_ne_false hwithin) hn with
        rfl | ⟨_, heq⟩ | ⟨_, _, heq⟩ | ⟨_, -, hself | ⟨_, _, _, hdeclared⟩⟩
      · exact h.not_mem_of_get? hn (by simp) hd
      · cases heq
      · cases heq
      · rw [hl] at hself
        cases hself
        exact h.not_mem_of_get? hp (by simp) hd
      · rw [hl, Option.bind_some, hp] at hdeclared
        cases hdeclared
    refine (h.grown_inlined ha).anyDescendant_iff.mpr
      ⟨use, .identifier text, hout.below_inlined h ha hbelow (lt_size_of_get? hn), ?_, ?_⟩
    · rcases a.found_inlined aliases use with ⟨_, hblock, -⟩ | ⟨_, _, _, -, -, -, hr⟩ | hsame
      · cases hblock.symm.trans hn
      · rw [hr] at hrefers
        cases hrefers
      · rw [hsame, hn]
    · simp only [isBindingName_inlined hout.not_mem, hbinding, h.lookup_inlined ha hout hrefers, hl,
        Bool.not_false, beq_self_eq_true, Bool.and_self]
  | _ => cases hhit

/-- And one that is used where aliases are taken away was used before. -/
private theorem references_of_inlined (hid : a.Outside aliases id) {parameter name : NodeId}
    {default : Option NodeId} (hp : a.get? parameter = some (.parameter name default))
    (hused : (a.inlined aliases).references id parameter = true) :
    a.references id parameter = true := by
  have ha' := h.grown_inlined ha
  obtain ⟨use, node, hbelow', hn', hhit⟩ := ha'.anyDescendant_iff.mp hused
  cases node with
  | identifier text =>
    simp only [Bool.and_eq_true, Bool.not_eq_eq_eq_not, Bool.not_true, beq_iff_eq] at hhit
    obtain ⟨hbinding, hl⟩ := hhit
    obtain ⟨hout, hbelow⟩ := hid.of_below_inlined h ha hbelow'
    rw [isBindingName_inlined hout.not_mem] at hbinding
    -- an identifier was one before; only names of aliases were replaced, and not by identifiers
    have hn : a.get? use = some (.identifier text) := by
      rcases a.found_inlined aliases use with ⟨_, -, hother⟩ | ⟨_, _, _, -, hother, -⟩ | hsame
      · cases hother.symm.trans hn'
      · cases hother.symm.trans hn'
      · rw [← hsame, hn']
    -- a name of an alias is bound, called, inside an alias or a key, and none of these is a use
    -- of the parameter
    have hrefers : a.refersTo aliases use = false := by
      by_contra hrefers
      have hrefers := eq_true_of_ne_false hrefers
      rcases mayName_iff.mp (h.uses hrefers) with
        hb | hcallee | ⟨declaration, hd, hinitial⟩ | ⟨-, hnames⟩
      · rw [hb] at hbinding
        cases hbinding
      · obtain ⟨_, _, hreference, -⟩ := h.called_inlined ha hcallee hrefers
        cases hreference.symm.trans hn'
      · -- the value of an alias stands in the alias
        unfold initial? at hinitial
        split at hinitial
        · next kind target value hdeclaration =>
          obtain ⟨value, rfl, rfl⟩ := Option.map_eq_some_iff.mp hinitial
          have hvalue : a.Lists declaration value := ⟨_, hdeclaration, by simp [Node.children]⟩
          have hwithin := ha.isWithin_of_below (.part hvalue (below_unwrapParens _ value))
            (lt_size_of_get? hn) (Grown.isWithin_self a declaration)
          rw [hout declaration hd] at hwithin
          cases hwithin
        · cases hinitial
      · simp [namesParameter, hl, (get?_inlined_iff rfl).mpr hp] at hnames
    refine ha.anyDescendant_iff.mpr ⟨use, .identifier text, hbelow, hn, ?_⟩
    rw [h.lookup_inlined ha hout hrefers] at hl
    simp only [hbinding, hl, Bool.not_false, beq_self_eq_true, Bool.and_self]
  | _ => cases hhit

/-- Without aliases an arena looks alike along the nodes that are kept. -/
theorem alikeAlong : a.AlikeAlong (a.inlined aliases) (a.Kept aliases) where
  grown := ha
  grown' := h.grown_inlined ha
  get? {id} hid hblock := by
    rcases a.found_inlined aliases id with ⟨_, hn, -⟩ | ⟨_, _, _, -, -, -, hrefers⟩ | hsame
    · exact absurd hn (hblock _)
    · rw [hid.refersTo ha] at hrefers
      cases hrefers
    · exact hsame.symm
  block {id statements} _ hn := by
    rw [get?_inlined, hn]
    exact ⟨_, rfl⟩
  followed hid hn hm := h.kept_of_followed ha hid hn hm
  callee hid hn := h.kept_or_called ha hid hn
  key hid hn hkey := h.kept_or_key ha hid hn hkey
  lookup hid := (h.lookup_inlined ha hid.outside (hid.refersTo ha)).symm
  declared hid hl := h.kept_of_lookup ha hid hl
  classify hid := (h.classify_inlined ha hid.outside (hid.refersTo ha)).symm
  references hid hp := Bool.eq_iff_iff.mpr
    ⟨h.references_inlined_of ha hp, h.references_of_inlined ha hid.outside hp⟩

/-- Statements other than aliases are kept, in both blocks. -/
theorem kept_of_statement (hid : a.Kept aliases id) {statements : List NodeId}
    (hn : a.get? id = some (.block statements)) (hm : part ∈ statements) (hnot : part ∉ aliases) :
    a.Kept aliases part :=
  h.kept_of_lists ha hid hn hm hnot fun _ haside => nomatch haside

/-- A closure is kept, and so is whatever else may stand for one. -/
theorem kept_of_root {root : NodeId}
    (hroot : a.isFunction root = true ∨ a.parent? root = none) : a.Kept aliases root := by
  rcases hroot with hfunction | horphan
  · unfold isFunction at hfunction
    split at hfunction
    · next parameters body hn =>
      refine ⟨h.outside_of_get? ha hn (h.not_mem_of_get? hn (by simp)) (by simp) (by simp)
        (by simp), ?_⟩
      rw [unwrapParens_of_not_paren (by simp [hn]), refersTo,
        lookup_of_not_identifier (by simp [hn])]
      rfl
    · cases hfunction
  · have hlisted : ∀ {parent : NodeId}, root.index < a.size → ¬ a.Lists parent root := by
      intro parent hsize hl
      rw [ha.adopted hl hsize] at horphan
      cases horphan
    have hout : a.Outside aliases root := by
      intro declaration hd
      rw [ha.isWithin_of_orphan horphan]
      refine beq_eq_false_iff_ne.mpr ?_
      rintro rfl
      obtain ⟨block, statements, hblock, hm⟩ := (h.isAlias hd).listed
      obtain ⟨_, _, _, _, hn, -⟩ := (h.isAlias hd).declares
      exact hlisted (lt_size_of_get? hn) ⟨_, hblock, hm⟩
    refine ⟨hout, ?_⟩
    by_contra hrefers
    have hrefers := eq_true_of_ne_false hrefers
    have hsize := lt_size_of_unwrapParens (lt_size_of_refersTo hrefers)
    rcases h.position ha hout hrefers
      (fun around hn => hlisted hsize ⟨_, hn, List.mem_singleton.mpr rfl⟩) with
      ⟨call, args, hn⟩ | ⟨parent, node, hn, hkey, -⟩
    · exact hlisted hsize ⟨_, hn, List.mem_cons_self⟩
    · exact hlisted hsize ⟨_, hn, Node.mem_children_of_key? hkey⟩

end

end OnlyCalled

end ClosureVtl.Arena
