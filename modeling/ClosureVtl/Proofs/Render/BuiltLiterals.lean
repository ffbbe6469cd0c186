/-
Module: ClosureVtl.Proofs.Render.BuiltLiterals
Purpose: Objects, and arrays with spreads, are built member by member in source order.
Main exports:
  Discipline.beyond, Output.WritesBeyond, BuiltLiteral, Arena.BuildsLiteral, Walker.BuildsMember,
  Walker.BuildsMembers, builtLiteral_lines
-/
import ClosureVtl.Proofs.Render.Emission
import ClosureVtl.Proofs.Render.TemporaryOrder

namespace ClosureVtl

/-!
An object is built in a fresh temporary, and so is an array that has a spread.  Each member adds
to it by one call, behind the lines that its key and its value need.  These may be any lines,
with loops and further literals in them; but they leave the temporary alone.

That is so because rendering names no temporaries but those that it has allocated itself, if the
closure has no text that looks like one.  `Discipline.beyond` is the invariant: whatever is
written behind some point has numbers beyond those that were in use there, and only such numbers
are due to be stored.
-/

/-! ### Numbers beyond those in use -/

/-- Whether digits are a number beyond the temporaries of a template. -/
def Output.Beyond (out : Output) (digits : List Char) : Prop :=
  ∃ number, digits = (toString number).toList ∧ out.temps < number

namespace Output.Beyond

variable {out : Output} {number : Nat} {text : String}

theorem iff_lt : out.Beyond (toString number).toList ↔ out.temps < number := by
  constructor
  · rintro ⟨other, hdigits, hlt⟩
    cases toList_toString_injective hdigits
    exact hlt
  · exact fun hlt => ⟨number, rfl, hlt⟩

theorem usesOnly_tempName :
    Text.UsesOnly out.Beyond (Render.tempName number) ↔ out.temps < number := by
  unfold Text.UsesOnly
  rw [Text.counters_tempName, List.forall_mem_singleton]
  exact iff_lt

/-- A text whose numbers are beyond those in use mentions none that is in use. -/
theorem not_mentions (h : Text.UsesOnly out.Beyond text) (hle : number ≤ out.temps) :
    ¬ Text.Mentions text number := by
  intro hmentions
  have hlt := iff_lt.mp (h _ (Text.mem_counters_of_mentions hmentions))
  omega

end Output.Beyond

/-- Behind some point all numbers are beyond those that were in use there: those in the lines,
and those of the temporaries that are due to be stored. -/
def Discipline.beyond (start : Output) : Discipline where
  Holds due out := start.temps ≤ out.temps ∧
    (∀ number, Render.tempName number ∈ due → start.temps < number) ∧
    ∃ new, out.lines.toList = start.lines.toList ++ new ∧
      ∀ line ∈ new, Text.UsesOnly start.Beyond line
  Allows _ digits := start.Beyond digits
  Permits _ := True
  free := True
  allows_later _ h := h
  weaken := by
    rintro due out name ⟨htemps, hdue, hnew⟩ hname
    refine ⟨htemps, fun number hm => ?_, hnew⟩
    rcases hm with rfl | hm
    · exact Output.Beyond.usesOnly_tempName.mp hname
    · exact hdue number hm
  settle := by
    rintro due out name ⟨htemps, hdue, hnew⟩ -
    exact ⟨htemps, fun number hm => hdue number (Set.mem_insert_of_mem _ hm), hnew⟩
  allocate := by
    rintro due out ⟨htemps, hdue, hnew⟩
    refine ⟨Nat.le_succ_of_le htemps, fun number hm => ?_, hnew⟩
    rcases hm with hsame | hm
    · rw [Render.tempName_injective hsame]
      omega
    · exact hdue number hm
  record _ h := h
  write := by
    rintro due out line - hline ⟨htemps, hdue, new, hnew, hall⟩
    refine ⟨htemps, hdue, new ++ [line], ?_, ?_⟩
    · rw [Array.toList_push, hnew, List.append_assoc]
    · exact List.forall_mem_append.mpr ⟨hall, List.forall_mem_singleton.mpr hline⟩
  store := by
    rintro due out number value line - hstores hvalue ⟨htemps, hdue, new, hnew, hall⟩
    have hnumber : start.temps < number := hdue number (Set.mem_insert _ _)
    have htemp : Text.UsesOnly start.Beyond (Render.tempName number) :=
      Output.Beyond.usesOnly_tempName.mpr hnumber
    have hline : Text.UsesOnly start.Beyond line := by
      cases hstores with
      | assign => exact ((htemp.front (by decide)).between (by decide) hvalue).back (by decide)
      | loop => exact ((htemp.front (by decide)).between (by decide) hvalue).back (by decide)
    have hothers : ∀ other, Render.tempName other ∈ due → start.temps < other :=
      fun other hm => hdue other (Set.mem_insert_of_mem _ hm)
    refine ⟨⟨htemps, hothers, new ++ [line], ?_, ?_⟩, Output.Beyond.iff_lt.mpr hnumber⟩
    · rw [Array.toList_push, hnew, List.append_assoc]
    · exact List.forall_mem_append.mpr ⟨hall, List.forall_mem_singleton.mpr hline⟩
  permits_of_free _ _ := trivial
  permits_assign _ _ := trivial
  permits_discard _ := trivial
  permits_branch _ := trivial
  permits_alternative := trivial
  permits_close := trivial

/-- Whether the lines between two points of a run mention no temporary that was in use at the
first. -/
structure Output.WritesBeyond (out final : Output) (lines : List String) : Prop where
  written : final.lines.toList = out.lines.toList ++ lines
  temps : out.temps ≤ final.temps
  apart : ∀ line ∈ lines, ∀ number ≤ out.temps, ¬ Text.Mentions line number

theorem Output.WritesBeyond.trans {out middle final : Output} {lines more : List String}
    (first : out.WritesBeyond middle lines) (second : middle.WritesBeyond final more) :
    out.WritesBeyond final (lines ++ more) where
  written := by rw [second.written, first.written, List.append_assoc]
  temps := Nat.le_trans first.temps second.temps
  apart := List.forall_mem_append.mpr ⟨first.apart, fun line hm number hle =>
    second.apart line hm number (Nat.le_trans hle first.temps)⟩

/-- What a step that respects the invariant writes is beyond the point where it starts. -/
theorem Discipline.Keeps.exists_writesBeyond {α : Type} {x : Render α} {out final : Output}
    {value : α} (hx : (Discipline.beyond out).Keeps x out)
    (h : x.runOn out = (.ok value, final)) : ∃ lines, out.WritesBeyond final lines := by
  have hstart : (Discipline.beyond out).Holds ∅ out :=
    ⟨Nat.le_refl _, fun _ hm => absurd hm (Set.notMem_empty _), [], (List.append_nil _).symm,
      List.forall_mem_nil _⟩
  obtain ⟨-, htemps, -, lines, hlines, hall⟩ := hx ∅ hstart value final h
  exact ⟨lines, hlines, htemps,
    fun line hm number hle => Output.Beyond.not_mentions (hall line hm) hle⟩

/-! ### Literals under construction -/

/-- What is built member by member. -/
inductive BuiltLiteral where
  | object
  | list
deriving DecidableEq, Repr

/-- The literal without members. -/
def BuiltLiteral.opening : BuiltLiteral → String
  | object => "\x7b\x7d"
  | list => "[]"

/-- Whether a node is a literal that is built member by member: any object, and an array that has
a spread. -/
inductive Arena.BuildsLiteral (a : Arena) (id : NodeId) : BuiltLiteral → List NodeId → Prop where
  | object {properties : List NodeId} (node : a.get? id = some (.object properties)) :
      BuildsLiteral a id .object properties
  | list {items : List NodeId} {item expr : NodeId} (node : a.get? id = some (.array items))
      (among : item ∈ items) (spread : a.get? item = some (.spread expr)) :
      BuildsLiteral a id .list items

/-- What a member is rendered to: the lines that its key and its value need, and the call that
adds it. -/
structure MemberOutput where
  needed : List String
  call : String
deriving DecidableEq, Repr

/-- The lines of a member. -/
def MemberOutput.lines (output : MemberOutput) : List String :=
  output.needed ++ [discardLine output.call]

namespace Walker

/-- Whether a run of a member renders its key and its value and then writes one call. -/
inductive BuildsMember (w : Walker) (container : String) :
    BuiltLiteral → NodeId → Output → MemberOutput → Output → Prop where
  | put {member name value : NodeId} {key text : String} {out middle last : Output}
      {needed : List String} (node : w.arena.get? member = some (.property name value))
      (first : (w.propertyKey name).runOn out = (.ok key, middle))
      (second : (w.argument value).runOn middle = (.ok text, last))
      (written : last.lines.toList = out.lines.toList ++ needed) :
      BuildsMember w container .object member out ⟨needed, s!"{container}.put({key}, {text})"⟩
        (last.extend [discardLine s!"{container}.put({key}, {text})"] 0 last.integrations)
  | putAll {member expr : NodeId} {text : String} {out last : Output} {needed : List String}
      (node : w.arena.get? member = some (.spreadProperty expr))
      (run : (w.expression expr).runOn out = (.ok text, last))
      (written : last.lines.toList = out.lines.toList ++ needed) :
      BuildsMember w container .object member out ⟨needed, s!"{container}.putAll({text})"⟩
        (last.extend [discardLine s!"{container}.putAll({text})"] 0 last.integrations)
  | add {member : NodeId} {text : String} {out last : Output} {needed : List String}
      (plain : ∀ expr, w.arena.get? member ≠ some (.spread expr))
      (run : (w.argument member).runOn out = (.ok text, last))
      (written : last.lines.toList = out.lines.toList ++ needed) :
      BuildsMember w container .list member out ⟨needed, s!"{container}.add({text})"⟩
        (last.extend [discardLine s!"{container}.add({text})"] 0 last.integrations)
  | addAll {member expr : NodeId} {text : String} {out last : Output} {needed : List String}
      (node : w.arena.get? member = some (.spread expr))
      (run : (w.expression expr).runOn out = (.ok text, last))
      (written : last.lines.toList = out.lines.toList ++ needed) :
      BuildsMember w container .list member out ⟨needed, s!"{container}.addAll({text})"⟩
        (last.extend [discardLine s!"{container}.addAll({text})"] 0 last.integrations)

/-- Whether a run is made of runs of members, one after the other. -/
inductive BuildsMembers (w : Walker) (container : String) (literal : BuiltLiteral) :
    List NodeId → Output → List MemberOutput → Output → Prop where
  | nil {out : Output} : BuildsMembers w container literal [] out [] out
  | cons {member : NodeId} {members : List NodeId} {out middle final : Output}
      {output : MemberOutput} {outputs : List MemberOutput}
      (first : w.BuildsMember container literal member out output middle)
      (rest : w.BuildsMembers container literal members middle outputs final) :
      BuildsMembers w container literal (member :: members) out (output :: outputs) final

variable {w : Walker} {container : String} {literal : BuiltLiteral} {member : NodeId}
  {members : List NodeId} {out final : Output} {output : MemberOutput}
  {outputs : List MemberOutput}

theorem BuildsMember.lines (h : w.BuildsMember container literal member out output final) :
    final.lines.toList = out.lines.toList ++ output.lines := by
  cases h with
  | put _ _ _ written => simp [Output.extend, MemberOutput.lines, written]
  | putAll _ _ written => simp [Output.extend, MemberOutput.lines, written]
  | add _ _ written => simp [Output.extend, MemberOutput.lines, written]
  | addAll _ _ written => simp [Output.extend, MemberOutput.lines, written]

theorem BuildsMembers.lines (h : w.BuildsMembers container literal members out outputs final) :
    final.lines.toList = out.lines.toList ++ outputs.flatMap MemberOutput.lines := by
  induction h with
  | nil => exact (List.append_nil _).symm
  | cons first _ ih => rw [ih, first.lines, List.flatMap_cons, List.append_assoc]

/-! ### Runs of members -/

/-- Whether a run of a member builds it and leaves the temporaries alone that were in use. -/
def BuildsBeyond (w : Walker) (container : String) (literal : BuiltLiteral) (member : NodeId)
    (out final : Output) : Prop :=
  ∃ output, w.BuildsMember container literal member out output final ∧
    out.temps ≤ final.temps ∧ ∀ line ∈ output.needed, ∀ number ≤ out.temps,
      ¬ Text.Mentions line number

variable (hw : ∀ start, w.Follows (Discipline.beyond start))
include hw

theorem buildsBeyond_of_addProperty
    (h : (w.addProperty container member).runOn out = (.ok (), final)) :
    w.BuildsBeyond container .object member out final := by
  obtain ⟨node, start, hlookup, hrun⟩ := Render.runOn_bind_eq_ok_iff.mp h
  obtain ⟨hnode, rfl⟩ := Render.runOn_ofExcept_eq_ok_iff.mp hlookup
  have hget := Arena.node_eq_ok_iff.mp hnode
  split at hrun
  · next name value =>
    obtain ⟨key, middle, hkey, hrun⟩ := Render.runOn_bind_eq_ok_iff.mp hrun
    obtain ⟨text, last, htext, hrun⟩ := Render.runOn_bind_eq_ok_iff.mp hrun
    cases (Render.emits_discard _ last).symm.trans hrun
    obtain ⟨front, hfront⟩ := ((hw start).propertyKey name start).keeps.exists_writesBeyond hkey
    obtain ⟨back, hback⟩ := ((hw middle).argument value middle).keeps.exists_writesBeyond htext
    have hneeded := hfront.trans hback
    exact ⟨_, .put hget hkey htext hneeded.written, hneeded.temps, hneeded.apart⟩
  · next expr =>
    obtain ⟨text, last, htext, hrun⟩ := Render.runOn_bind_eq_ok_iff.mp hrun
    cases (Render.emits_discard _ last).symm.trans hrun
    obtain ⟨needed, hneeded⟩ := ((hw start).expression expr start).keeps.exists_writesBeyond htext
    exact ⟨_, .putAll hget htext hneeded.written, hneeded.temps, hneeded.apart⟩
  · cases hrun

theorem buildsBeyond_of_addItem
    (h : (w.addItem container member).runOn out = (.ok (), final)) :
    w.BuildsBeyond container .list member out final := by
  obtain ⟨node, start, hlookup, hrun⟩ := Render.runOn_bind_eq_ok_iff.mp h
  obtain ⟨hnode, rfl⟩ := Render.runOn_ofExcept_eq_ok_iff.mp hlookup
  have hget := Arena.node_eq_ok_iff.mp hnode
  split at hrun
  · next expr =>
    obtain ⟨text, last, htext, hrun⟩ := Render.runOn_bind_eq_ok_iff.mp hrun
    cases (Render.emits_discard _ last).symm.trans hrun
    obtain ⟨needed, hneeded⟩ := ((hw start).expression expr start).keeps.exists_writesBeyond htext
    exact ⟨_, .addAll hget htext hneeded.written, hneeded.temps, hneeded.apart⟩
  · next hplain =>
    obtain ⟨text, last, htext, hrun⟩ := Render.runOn_bind_eq_ok_iff.mp hrun
    cases (Render.emits_discard _ last).symm.trans hrun
    obtain ⟨needed, hneeded⟩ := ((hw start).argument member start).keeps.exists_writesBeyond htext
    have hnone : ∀ expr, w.arena.get? member ≠ some (.spread expr) := by
      intro expr hspread
      exact hplain expr (Option.some.inj (hget.symm.trans hspread))
    exact ⟨_, .add hnone htext hneeded.written, hneeded.temps, hneeded.apart⟩

omit hw in
/-- Members are built in order, and none mentions a temporary that was in use before all of
them. -/
theorem exists_buildsMembers_of_forM {f : NodeId → Render PUnit}
    (hf : ∀ member {out final}, (f member).runOn out = (.ok (), final) →
      w.BuildsBeyond container literal member out final)
    (h : (members.forM f).runOn out = (.ok (), final)) :
    ∃ outputs, w.BuildsMembers container literal members out outputs final ∧
      ∀ output ∈ outputs, ∀ line ∈ output.needed, ∀ number ≤ out.temps,
        ¬ Text.Mentions line number := by
  induction members generalizing out with
  | nil =>
    cases (Render.runOn_pure _ _).symm.trans h
    exact ⟨[], .nil, List.forall_mem_nil _⟩
  | cons member rest ih =>
    obtain ⟨_, middle, hfirst, h⟩ := Render.runOn_bind_eq_ok_iff.mp h
    obtain ⟨output, hbuilds, htemps, hapart⟩ := hf member hfirst
    obtain ⟨outputs, hrest, hothers⟩ := ih h
    refine ⟨output :: outputs, .cons hbuilds hrest, List.forall_mem_cons.mpr ⟨hapart, ?_⟩⟩
    intro other hm line hline number hle
    exact hothers other hm line hline number (Nat.le_trans hle htemps)

/-- An object in its temporary. -/
theorem exists_buildsMembers_of_objectLiteral {text : String}
    (h : (w.objectLiteral members).runOn out = (.ok text, final)) :
    text = Render.tempName (out.temps + 1) ∧
      ∃ outputs, w.BuildsMembers text .object members
          (out.extend [setLine text BuiltLiteral.object.opening] 1 out.integrations) outputs final ∧
        ∀ output ∈ outputs, ∀ line ∈ output.needed, ∀ number ≤ out.temps + 1,
          ¬ Text.Mentions line number := by
  unfold objectLiteral at h
  rw [(Render.emits_freshTemp out).runOn_bind, (Render.emits_assign _ _ _).runOn_bind,
    Output.extend_extend] at h
  obtain ⟨_, last, hmembers, h⟩ := Render.runOn_bind_eq_ok_iff.mp h
  cases (Render.runOn_pure _ _).symm.trans h
  exact ⟨rfl, exists_buildsMembers_of_forM (fun _ => buildsBeyond_of_addProperty hw) hmembers⟩

/-- A list in its temporary. -/
theorem exists_buildsMembers_of_arrayLiteral {text : String}
    (hspread : members.any (isSpread w.arena) = true)
    (h : (w.arrayLiteral members).runOn out = (.ok text, final)) :
    text = Render.tempName (out.temps + 1) ∧
      ∃ outputs, w.BuildsMembers text .list members
          (out.extend [setLine text BuiltLiteral.list.opening] 1 out.integrations) outputs final ∧
        ∀ output ∈ outputs, ∀ line ∈ output.needed, ∀ number ≤ out.temps + 1,
          ¬ Text.Mentions line number := by
  unfold arrayLiteral at h
  rw [if_pos hspread, (Render.emits_freshTemp out).runOn_bind,
    (Render.emits_assign _ _ _).runOn_bind, Output.extend_extend] at h
  obtain ⟨_, last, hmembers, h⟩ := Render.runOn_bind_eq_ok_iff.mp h
  cases (Render.runOn_pure _ _).symm.trans h
  exact ⟨rfl, exists_buildsMembers_of_forM (fun _ => buildsBeyond_of_addItem hw) hmembers⟩

end Walker

/-! ### Programs -/

/-- Whether the handlers of an integration name no temporaries but those that they have allocated
themselves, under walkers that do so. -/
def Integration.NamesOwn (integration : Integration) : Prop :=
  ∀ start, (Discipline.beyond start).Admits integration

/-- Integrations of the common styles are of this kind if their kinds name no temporary. -/
theorem Integration.namesOwn_ofStyle {kind : String} (h : Text.Unnumbered kind) (style : Style) :
    (ofStyle kind style).NamesOwn :=
  fun _ => admits_ofStyle (fun _ => h.usesOnly) style

/-- An object, or an array with a spread, is built in a fresh temporary, which is what stands for
it.  Behind its allocation the members follow in source order: the lines that the key and the
value need, and then one call.  The lines in between do not mention the temporary. -/
theorem builtLiteral_lines {p : Program}
    (htexts : ∀ {id node text}, p.arena.get? id = some node → text ∈ node.texts →
      Text.Unnumbered text)
    (hhandlers : ∀ integration ∈ p.integrations, integration.NamesOwn) {dialect : Dialect}
    {id : NodeId} {literal : BuiltLiteral} {members : List NodeId}
    (hb : p.arena.BuildsLiteral id literal members) {n : Nat} {out final : Output} {text : String}
    (h : ((p.walkerWithin dialect (n + 1)).expression id).runOn out = (.ok text, final)) :
    ∃ outputs,
      text = Render.tempName (out.temps + 1) ∧
      (p.walkerWithin dialect n).BuildsMembers text literal members
        (out.extend [setLine text literal.opening] 1 out.integrations) outputs final ∧
      final.lines.toList = out.lines.toList ++ setLine text literal.opening ::
        outputs.flatMap MemberOutput.lines ∧
      ∀ output ∈ outputs, ∀ line ∈ output.needed, ¬ Text.Mentions line (out.temps + 1) := by
  -- texts name only temporaries beyond any number that is chosen beforehand, so also beyond the
  -- new one
  have hw : ∀ start, (p.walkerWithin dialect n).Follows (Discipline.beyond start) := fun start =>
    Program.follows_walkerWithin (fun _ => trivial) (fun hnode hm _ => (htexts hnode hm).usesOnly)
      (fun integration hm => hhandlers integration hm start) n
  have harena := p.arena_walkerWithin dialect n
  have hrun : ((p.walkerWithin dialect n).renderExpression id).runOn out = (.ok text, final) := h
  have hmembers : text = Render.tempName (out.temps + 1) ∧
      ∃ outputs, (p.walkerWithin dialect n).BuildsMembers text literal members
          (out.extend [setLine text literal.opening] 1 out.integrations) outputs final ∧
        ∀ output ∈ outputs, ∀ line ∈ output.needed, ∀ number ≤ out.temps + 1,
          ¬ Text.Mentions line number := by
    cases hb with
    | object node =>
      rw [Walker.renderExpression, Walker.node_eq_pure (by rw [harena, node]), pure_bind] at hrun
      exact Walker.exists_buildsMembers_of_objectLiteral hw hrun
    | list node among spread =>
      rw [Walker.renderExpression, Walker.node_eq_pure (by rw [harena, node]), pure_bind] at hrun
      have hspread : members.any (Walker.isSpread (p.walkerWithin dialect n).arena) = true := by
        refine List.any_eq_true.mpr ⟨_, among, ?_⟩
        rw [harena, Walker.isSpread, spread]
      exact Walker.exists_buildsMembers_of_arrayLiteral hw hspread hrun
  obtain ⟨htext, outputs, hbuilds, hapart⟩ := hmembers
  refine ⟨outputs, htext, hbuilds, ?_, fun output hm line hline =>
    hapart output hm line hline _ (Nat.le_refl _)⟩
  rw [hbuilds.lines]
  simp [Output.extend]

/-- The closure `input => ({ ...input.base, [input.key]: { a: [...input.list] }, b: get(input) })`,
where `get` is an integration. -/
def Program.patch : Program :=
  (Builder.of [.ofStyle "table.get" .invoke]
    [.identifier "input", .member ⟨0⟩ "base", .spreadProperty ⟨1⟩, .identifier "input",
      .member ⟨3⟩ "key", .computedKey ⟨4⟩, .identifier "a", .identifier "input",
      .member ⟨7⟩ "list", .spread ⟨8⟩, .array [⟨9⟩], .property ⟨6⟩ ⟨10⟩, .object [⟨11⟩],
      .property ⟨5⟩ ⟨12⟩, .identifier "b", .reference "get" (some ⟨0⟩), .identifier "input",
      .argument ⟨16⟩ none, .call ⟨15⟩ [⟨17⟩], .property ⟨14⟩ ⟨18⟩, .object [⟨2⟩, ⟨13⟩, ⟨19⟩],
      .identifier "input", .parameter ⟨21⟩ none, .function [⟨22⟩] ⟨20⟩]).program

/-- The object inside and the list in it have temporaries of their own, which are filled before
the object inside is put.  The request of the call precedes the line that puts its result. -/
theorem builtLiteral_lines_patch :
    ∃ outputs final,
      ((Program.patch.walkerWithin (.resolver {}) 8).expression ⟨20⟩).runOn {} =
        (.ok "$v1", final) ∧
      (Program.patch.walkerWithin (.resolver {}) 7).BuildsMembers "$v1" .object [⟨2⟩, ⟨13⟩, ⟨19⟩]
        ⟨#["#set($v1 = \x7b\x7d)"], 1, #[]⟩ outputs final ∧
      "#set($v1 = \x7b\x7d)" :: outputs.flatMap MemberOutput.lines =
        ["#set($v1 = \x7b\x7d)", "$util.qr($v1.putAll($context.arguments.base))",
          "#set($v2 = \x7b\x7d)", "#set($v3 = [])",
          "$util.qr($v3.addAll($context.arguments.list))", "$util.qr($v2.put(\"a\", $v3))",
          "$util.qr($v1.put($context.arguments.key, $v2))",
          "#set($context.stash.request = \x7b\"function\": \"table.get\", " ++
            "\"payload\": $context.arguments\x7d)",
          "$util.qr($v1.put(\"b\", $context.prev.result))"] ∧
      ∀ output ∈ outputs, ∀ line ∈ output.needed, ¬ Text.Mentions line 1 := by
  have htable : Program.patch.integrations = #[.ofStyle "table.get" .invoke] := by cbv
  have hall : Program.patch.arena.entries.all (fun entry =>
      entry.node.texts.all fun text => Text.counters text.toList == []) = true := by
    decide +kernel
  have hkind : Text.Unnumbered "table.get" := Text.counters_eq_nil_iff.mp (by decide)
  have hhandlers : ∀ integration ∈ Program.patch.integrations, integration.NamesOwn := by
    rw [htable]
    intro integration hm
    rw [List.mem_singleton.mp (List.mem_toArray.mp hm)]
    exact Integration.namesOwn_ofStyle hkind _
  have hb : Program.patch.arena.BuildsLiteral ⟨20⟩ .object [⟨2⟩, ⟨13⟩, ⟨19⟩] := .object (by cbv)
  have hrun : ((Program.patch.walkerWithin (.resolver {}) 8).expression ⟨20⟩).runOn {} =
      (.ok "$v1", ⟨#["#set($v1 = \x7b\x7d)", "$util.qr($v1.putAll($context.arguments.base))",
        "#set($v2 = \x7b\x7d)", "#set($v3 = [])",
        "$util.qr($v3.addAll($context.arguments.list))", "$util.qr($v2.put(\"a\", $v3))",
        "$util.qr($v1.put($context.arguments.key, $v2))",
        "#set($context.stash.request = \x7b\"function\": \"table.get\", " ++
          "\"payload\": $context.arguments\x7d)",
        "$util.qr($v1.put(\"b\", $context.prev.result))"], 3, #[⟨0⟩]⟩) := by
    decide +kernel
  obtain ⟨outputs, -, hbuilds, hlines, hapart⟩ :=
    builtLiteral_lines (Arena.unnumbered_of_all hall) hhandlers hb hrun
  exact ⟨outputs, _, hrun, hbuilds, hlines.symm, hapart⟩

end ClosureVtl
