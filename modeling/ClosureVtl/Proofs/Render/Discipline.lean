/-
Module: ClosureVtl.Proofs.Render.Discipline
Purpose: Invariants of rendering that know which names are still to be stored, and what
  the elementary steps do to them.
Main exports:
  Output.Extends, Render.Leads, Discipline, Discipline.Says, Discipline.Keeps,
  Discipline.keeps_assign, Discipline.stores_assign, Discipline.keeps_choice,
  Walker.Follows
-/
import ClosureVtl.Proofs.Render.Inversion
import ClosureVtl.Proofs.Template.Numbered
import Mathlib.Data.Set.Insert

namespace ClosureVtl

/-!
Rendering allocates a name first and stores a value in it later, with any other rendering
in between.  A *discipline* is an invariant of the template that says which names are still
due to be stored, together with the texts that may be written already.  What a discipline
has to respect are the elementary steps; that the rules respect it follows once and for
all.

Two kinds of discipline are of interest: those that every line respects, and those that
only hold as long as no loop is opened.  The latter are not `free`, and the rules for
statements and for loops are then out of question.
-/

/-! ### Runs and what they lead to -/

/-- A template that goes on where another one stops. -/
structure Output.Extends (out later : Output) : Prop where
  lines : out.lines.toList <+: later.lines.toList
  temps : out.temps ≤ later.temps

namespace Output.Extends

variable {out middle later : Output}

/-- A template goes on where it stops itself. -/
theorem refl (out : Output) : out.Extends out := ⟨List.prefix_rfl, Nat.le_refl _⟩

/-- A continuation of a continuation goes on where the first one stops. -/
theorem trans (h : out.Extends middle) (h' : middle.Extends later) : out.Extends later :=
  ⟨h.lines.trans h'.lines, Nat.le_trans h.temps h'.temps⟩

/-- A line more goes on where the template stops. -/
theorem push (out : Output) (line : String) :
    out.Extends { out with lines := out.lines.push line } := by
  refine ⟨?_, Nat.le_refl _⟩
  rw [Array.toList_push]
  exact List.prefix_append _ _

end Output.Extends

namespace Render

variable {α β σ : Type} {x : Render α} {f : α → Render β} {out : Output}

/-- Whether every run of a step that ends well extends the template and ends as told. -/
def Leads (x : Render α) (out : Output) (post : α → Output → Prop) : Prop :=
  ∀ value final, x.runOn out = (.ok value, final) → out.Extends final ∧ post value final

namespace Leads

/-- A value is returned without touching the template. -/
theorem pure {value : α} {post : α → Output → Prop} (h : post value out) :
    (pure value : Render α).Leads out post := by
  intro result final hrun
  rw [runOn_pure] at hrun
  cases hrun
  exact ⟨.refl out, h⟩

/-- A fault ends no run well. -/
theorem fault {post : α → Output → Prop} (f : Fault) : (fault f : Render α).Leads out post := by
  intro result final hrun
  rw [runOn_fault] at hrun
  cases hrun

/-- Two steps lead to what the second leads to from wherever the first has led. -/
theorem bind {between : α → Output → Prop} {post : β → Output → Prop}
    (first : x.Leads out between)
    (next : ∀ value middle, out.Extends middle → between value middle →
      (f value).Leads middle post) : (x >>= f).Leads out post := by
  intro result final hrun
  obtain ⟨value, middle, hx, hf⟩ := runOn_bind_eq_ok_iff.mp hrun
  obtain ⟨hmiddle, hbetween⟩ := first value middle hx
  obtain ⟨hfinal, hpost⟩ := next value middle hmiddle hbetween result final hf
  exact ⟨hmiddle.trans hfinal, hpost⟩

/-- A weaker condition may use that the template has been extended. -/
theorem mono {post more : α → Output → Prop} (h : x.Leads out post)
    (himp : ∀ value final, out.Extends final → post value final → more value final) :
    x.Leads out more := by
  intro value final hrun
  obtain ⟨hfinal, hpost⟩ := h value final hrun
  exact ⟨hfinal, himp value final hfinal hpost⟩

/-- A known result is returned as it is, and an error ends the run. -/
theorem ofExcept {result : Except Fault α} {post : α → Output → Prop}
    (h : ∀ value, result = .ok value → post value out) :
    (Render.ofExcept result).Leads out post := by
  cases result with
  | error f => exact fault f
  | ok value => exact pure (h value rfl)

/-- A result that is looked up leaves the template as it is. -/
theorem bindOfExcept {result : Except Fault α} {post : β → Output → Prop}
    (h : ∀ value, result = .ok value → (f value).Leads out post) :
    (Render.ofExcept result >>= f).Leads out post := by
  intro final value hrun
  obtain ⟨found, middle, hfound, hf⟩ := runOn_bind_eq_ok_iff.mp hrun
  obtain ⟨hresult, rfl⟩ := runOn_ofExcept_eq_ok_iff.mp hfound
  exact h found hresult final value hf

/-- An emitted line is the last one. -/
theorem emit {line : String} {post : Unit → Output → Prop}
    (h : post () { out with lines := out.lines.push line }) : (emit line).Leads out post := by
  intro value final hrun
  rw [runOn_emit] at hrun
  cases hrun
  exact ⟨.push out line, h⟩

/-- What is read off the template is the template itself. -/
theorem get {f : Output → Render β} {post : β → Output → Prop} (h : (f out).Leads out post) :
    (MonadState.get >>= f).Leads out post :=
  fun result final hrun => h result final hrun

/-- A choice leads where both sides lead, each with what decides for it. -/
theorem ite {c : Prop} [Decidable c] {yes no : Render α} {post : α → Output → Prop}
    (hyes : c → yes.Leads out post) (hno : ¬ c → no.Leads out post) :
    (if c then yes else no).Leads out post := by
  split
  · next h => exact hyes h
  · next h => exact hno h

/-- Steps in a row keep what each of them keeps. -/
theorem forM {items : List α} {f : α → Render PUnit} {inv : Output → Prop}
    (h : ∀ item ∈ items, ∀ middle, out.Extends middle → inv middle →
      (f item).Leads middle fun _ final => inv final) (hout : inv out) :
    (items.forM f).Leads out fun _ final => inv final := by
  induction items generalizing out with
  | nil => exact pure hout
  | cons item rest ih =>
    refine bind (h item List.mem_cons_self out (.refl out) hout) ?_
    intro _ middle hmiddle hinv
    exact ih (fun item hm later hlater =>
      h item (List.mem_cons_of_mem _ hm) later (hmiddle.trans hlater)) hinv

/-- A fold keeps a condition on its state and the template if each step does. -/
theorem foldlM {items : List α} {f : σ → α → Render σ} {inv : σ → Output → Prop} {start : σ}
    (h : ∀ state, ∀ item ∈ items, ∀ middle, out.Extends middle → inv state middle →
      (f state item).Leads middle inv) (hout : inv start out) :
    (items.foldlM f start).Leads out inv := by
  induction items generalizing out start with
  | nil => exact pure hout
  | cons item rest ih =>
    rw [List.foldlM_cons]
    refine bind (h start item List.mem_cons_self out (.refl out) hout) ?_
    intro state middle hmiddle hinv
    exact ih (fun state item hm later hlater =>
      h state item (List.mem_cons_of_mem _ hm) later (hmiddle.trans hlater)) hinv

/-- Results of steps in a row keep what holds of each, if it does not get lost. -/
theorem mapM {items : List α} {inv : Output → Prop} {good : Output → β → Prop}
    (hgood : ∀ {out later : Output} {value}, out.Extends later → good out value →
      good later value)
    (h : ∀ item ∈ items, ∀ middle, out.Extends middle → inv middle →
      (f item).Leads middle fun value final => inv final ∧ good final value) (hout : inv out) :
    (items.mapM f).Leads out fun values final => inv final ∧ ∀ value ∈ values, good final value := by
  induction items generalizing out with
  | nil => exact pure ⟨hout, by simp⟩
  | cons item rest ih =>
    rw [List.mapM_cons]
    refine bind (h item List.mem_cons_self out (.refl out) hout) ?_
    rintro value middle hmiddle ⟨hinv, hvalue⟩
    refine bind (ih (fun item hm later hlater =>
      h item (List.mem_cons_of_mem _ hm) later (hmiddle.trans hlater)) hinv) ?_
    rintro values final hfinal ⟨hinv, hvalues⟩
    exact pure ⟨hinv, List.forall_mem_cons.mpr ⟨hgood hfinal hvalue, hvalues⟩⟩

end Leads

/-- The lines that store a text in a temporary. -/
inductive Stores (number : Nat) (value : String) : String → Prop where
  | assign : Stores number value s!"#set({tempName number} = {value})"
  | loop : Stores number value s!"#foreach({tempName number} in {value})"

end Render

/-! ### Disciplines -/

/-- An invariant of the template in the making. -/
structure Discipline where
  /-- what holds of a template as long as some names are due to be stored -/
  Holds : Set String → Output → Prop
  /-- which counters may be written -/
  Allows : Output → List Char → Prop
  /-- which lines may be written -/
  Permits : String → Prop
  /-- whether all lines may be -/
  free : Prop
  allows_later : ∀ {out later : Output} {digits}, out.Extends later → Allows out digits →
    Allows later digits
  /-- a name that may be written may be due as well -/
  weaken : ∀ {due out name}, Holds due out → Text.UsesOnly (Allows out) name →
    Holds (insert name due) out
  /-- a name that may be written is not due -/
  settle : ∀ {due out name}, Holds (insert name due) out → Text.UsesOnly (Allows out) name →
    Holds due out
  allocate : ∀ {due out}, Holds due out →
    Holds (insert (Render.tempName (out.temps + 1)) due) { out with temps := out.temps + 1 }
  record : ∀ {due out} (id : IntegrationId), Holds due out →
    Holds due { out with integrations := out.integrations.push id }
  write : ∀ {due out line}, Permits line → Text.UsesOnly (Allows out) line → Holds due out →
    Holds due { out with lines := out.lines.push line }
  store : ∀ {due out number value line}, Permits line → Render.Stores number value line →
    Text.UsesOnly (Allows out) value → Holds (insert (Render.tempName number) due) out →
    Holds due { out with lines := out.lines.push line } ∧
      Allows { out with lines := out.lines.push line } (toString number).toList
  permits_of_free : free → ∀ line, Permits line
  permits_assign : ∀ target value : String, Permits s!"#set({target} = {value})"
  permits_discard : ∀ value : String, Permits s!"$util.qr({value})"
  permits_branch : ∀ condition : String, Permits s!"#if({condition})"
  permits_alternative : Permits "#else"
  permits_close : Permits "#end"

namespace Discipline

variable (D : Discipline) {α β : Type} {due : Set String} {out final : Output}
  {text value name target : String}

/-- Whether a text may be written. -/
def Knows (out : Output) (text : String) : Prop := Text.UsesOnly (D.Allows out) text

/-- Whether a value may be stored under a name. -/
def Slot (out : Output) (name : String) : Prop :=
  D.Knows out name ∨ ∃ number, name = Render.tempName number

/-- Whether a step respects the discipline. -/
def Keeps (x : Render α) (out : Output) : Prop :=
  ∀ due, D.Holds due out → x.Leads out fun _ final => D.Holds due final

/-- Whether a step respects the discipline and yields a text that may be written. -/
def Says (x : Render String) (out : Output) : Prop :=
  ∀ due, D.Holds due out → x.Leads out fun text final => D.Holds due final ∧ D.Knows final text

variable {D}

/-- What may be written once may be written for the rest of the template. -/
theorem Knows.later (h : D.Knows out text) (hfinal : out.Extends final) : D.Knows final text :=
  Text.UsesOnly.mono h fun _ => D.allows_later hfinal

/-- A name that may be stored stays one. -/
theorem Slot.later (h : D.Slot out name) (hfinal : out.Extends final) : D.Slot final name :=
  h.imp_left fun h => h.later hfinal

/-- A fixed text that mentions no temporary and is put behind others may always be written. -/
theorem knows_tail (h : Text.isTail text = true) : D.Knows out text := Text.usesOnly_tail h

/-- What says something keeps the discipline in particular. -/
theorem Says.keeps {x : Render String} (h : D.Says x out) : D.Keeps x out := by
  intro due hdue
  refine (h due hdue).mono ?_
  intro text final _ hfinal
  exact hfinal.1

/-- A text that may be written is said by returning it. -/
theorem says_pure (h : D.Knows out text) : D.Says (pure text) out :=
  fun _ hdue => .pure ⟨hdue, h⟩

/-- Returning a value writes nothing. -/
theorem keeps_pure (value : α) : D.Keeps (pure value) out := fun _ hdue => .pure hdue

/-- A fault ends the run, and the discipline is about runs that end well. -/
theorem keeps_fault (f : Fault) : D.Keeps (Render.fault f : Render α) out := fun _ _ => .fault f

/-- The same for a step that would have said a text. -/
theorem says_fault (f : Fault) : D.Says (Render.fault f) out := fun _ _ => .fault f

/-- Steps in a row keep the discipline, the second from wherever the first has ended. -/
theorem Keeps.bind {x : Render α} {f : α → Render β} (first : D.Keeps x out)
    (next : ∀ value middle, out.Extends middle → D.Keeps (f value) middle) :
    D.Keeps (x >>= f) out := by
  intro due hdue
  refine .bind (first due hdue) ?_
  intro value middle hmiddle hholds
  exact next value middle hmiddle due hholds

/-- A text that may be written still may be when the rest is rendered. -/
theorem Says.bind {x : Render String} {f : String → Render String} (first : D.Says x out)
    (next : ∀ text middle, out.Extends middle → D.Knows middle text → D.Says (f text) middle) :
    D.Says (x >>= f) out := by
  intro due hdue
  refine .bind (first due hdue) ?_
  rintro text middle hmiddle ⟨hholds, htext⟩
  exact next text middle hmiddle htext due hholds

/-- The second step may write the text that the first has said. -/
theorem Says.then {x : Render String} {f : String → Render α} (first : D.Says x out)
    (next : ∀ text middle, out.Extends middle → D.Knows middle text → D.Keeps (f text) middle) :
    D.Keeps (x >>= f) out := by
  intro due hdue
  refine .bind (first due hdue) ?_
  rintro text middle hmiddle ⟨hholds, htext⟩
  exact next text middle hmiddle htext due hholds

/-- The second step may say a text after the first has been carried out. -/
theorem Keeps.saying {x : Render α} {f : α → Render String} (first : D.Keeps x out)
    (next : ∀ value middle, out.Extends middle → D.Says (f value) middle) :
    D.Says (x >>= f) out := by
  intro due hdue
  refine .bind (first due hdue) ?_
  intro value middle hmiddle hholds
  exact next value middle hmiddle due hholds

/-- A choice between texts is settled on each side. -/
theorem says_ite {c : Prop} [Decidable c] {yes no : Render String} (hyes : c → D.Says yes out)
    (hno : ¬ c → D.Says no out) : D.Says (if c then yes else no) out :=
  fun due hdue => .ite (fun h => hyes h due hdue) fun h => hno h due hdue

/-- A choice between steps is settled on each side. -/
theorem keeps_ite {c : Prop} [Decidable c] {yes no : Render α} (hyes : c → D.Keeps yes out)
    (hno : ¬ c → D.Keeps no out) : D.Keeps (if c then yes else no) out :=
  fun due hdue => .ite (fun h => hyes h due hdue) fun h => hno h due hdue

/-- A known result writes nothing. -/
theorem keeps_ofExcept {result : Except Fault α} : D.Keeps (Render.ofExcept result) out :=
  fun _ hdue => .ofExcept fun _ _ => hdue

/-- A known text may be written if it is one that may. -/
theorem says_ofExcept {result : Except Fault String}
    (h : ∀ text, result = .ok text → D.Knows out text) : D.Says (Render.ofExcept result) out :=
  fun _ hdue => .ofExcept fun text heq => ⟨hdue, h text heq⟩

/-- A loop over items keeps what each of its steps keeps. -/
theorem keeps_forM {items : List α} {f : α → Render PUnit}
    (h : ∀ item ∈ items, ∀ middle, out.Extends middle → D.Keeps (f item) middle) :
    D.Keeps (items.forM f) out :=
  fun due hdue => .forM (fun item hm middle hmiddle => h item hm middle hmiddle due) hdue

/-- Texts in a row may be written at the end. -/
theorem leads_mapM {items : List α} {f : α → Render String}
    (h : ∀ item ∈ items, ∀ middle, out.Extends middle → D.Says (f item) middle)
    (hdue : D.Holds due out) :
    (items.mapM f).Leads out fun texts final =>
      D.Holds due final ∧ ∀ text ∈ texts, D.Knows final text :=
  .mapM (fun hlater htext => Knows.later htext hlater)
    (fun item hm middle hmiddle => h item hm middle hmiddle due) hdue

/-- Texts in a row may be written between fixed pieces. -/
theorem says_mapM {items : List α} {f : α → Render String} {g : List String → Render String}
    (h : ∀ item ∈ items, ∀ middle, out.Extends middle → D.Says (f item) middle)
    (next : ∀ texts middle, (∀ text ∈ texts, D.Knows middle text) → D.Says (g texts) middle) :
    D.Says (items.mapM f >>= g) out := by
  intro due hdue
  refine .bind (leads_mapM h hdue) ?_
  rintro texts middle - ⟨hholds, htexts⟩
  exact next texts middle htexts due hholds

/-! ### Lines -/

/-- A line that is permitted may be written if its text may. -/
theorem keeps_emit {line : String} (hp : D.Permits line) (h : D.Knows out line) :
    D.Keeps (Render.emit line) out :=
  fun _ hdue => .emit (D.write hp h hdue)

/-- A discarded value is a line with the value in it. -/
theorem keeps_discard (h : D.Knows out value) : D.Keeps (Render.discard value) out :=
  keeps_emit (D.permits_discard value) ((Text.UsesOnly.front (by decide) h).back (by decide))

/-- An assignment to a name that may be written leaves what is due as it was. -/
theorem keeps_assign (ht : D.Knows out target) (h : D.Knows out value) :
    D.Keeps (Render.assign target value) out :=
  keeps_emit (D.permits_assign target value)
    (((Text.UsesOnly.front (by decide) ht).between (by decide) h).back (by decide))

/-- The line that closes a block mentions no name. -/
theorem keeps_close : D.Keeps Render.close out :=
  keeps_emit D.permits_close (knows_tail (by decide))

/-- A name that is due may be written once a value is stored in it. -/
theorem stores_assign (hs : D.Slot out target) (h : D.Knows out value)
    (hdue : D.Holds (insert target due) out) :
    (Render.assign target value).Leads out fun _ final =>
      D.Holds due final ∧ D.Knows final target := by
  rcases hs with hknown | ⟨number, rfl⟩
  · refine (keeps_assign hknown h due (D.settle hdue hknown)).mono ?_
    intro _ final hfinal hholds
    exact ⟨hholds, hknown.later hfinal⟩
  · obtain ⟨hholds, hallowed⟩ := D.store (D.permits_assign _ value) .assign h hdue
    refine .emit ⟨hholds, ?_⟩
    unfold Knows Text.UsesOnly
    rw [Text.counters_tempName]
    exact List.forall_mem_singleton.mpr hallowed

/-- So is the item of a loop. -/
theorem stores_openLoop (hfree : D.free) {list : String} (hs : D.Slot out target)
    (h : D.Knows out list) (hdue : D.Holds (insert target due) out) :
    (Render.openLoop target list).Leads out fun _ final =>
      D.Holds due final ∧ D.Knows final target := by
  rcases hs with hknown | ⟨number, rfl⟩
  · have hline : D.Knows out s!"#foreach({target} in {list})" :=
      ((Text.UsesOnly.front (by decide) hknown).between (by decide) h).back (by decide)
    refine (keeps_emit (D.permits_of_free hfree _) hline due (D.settle hdue hknown)).mono ?_
    intro _ final hfinal hholds
    exact ⟨hholds, hknown.later hfinal⟩
  · obtain ⟨hholds, hallowed⟩ := D.store (D.permits_of_free hfree _) .loop h hdue
    refine .emit ⟨hholds, ?_⟩
    unfold Knows Text.UsesOnly
    rw [Text.counters_tempName]
    exact List.forall_mem_singleton.mpr hallowed

/-- Whether a header stores the item of the loop that it opens. -/
def OpensLoop (D : Discipline) (header : String → String → Render Unit) : Prop :=
  ∀ item list due out, D.Slot out item → D.Knows out list → D.Holds (insert item due) out →
    (header item list).Leads out fun _ final => D.Holds due final ∧ D.Knows final item

/-- A new temporary is due from now on, and a value may be stored under its name. -/
theorem leads_freshTemp (hdue : D.Holds due out) :
    Render.freshTemp.Leads out fun temp final =>
      D.Holds (insert temp due) final ∧ D.Slot final temp := by
  intro temp final hrun
  rw [Render.runOn_freshTemp] at hrun
  cases hrun
  exact ⟨⟨List.prefix_rfl, Nat.le_succ _⟩, D.allocate hdue, .inr ⟨_, rfl⟩⟩

/-- The temporary is stored right behind its allocation, so nothing more is due. -/
theorem says_materialize (h : D.Knows out value) : D.Says (Render.materialize value) out := by
  intro due hdue
  refine .bind (leads_freshTemp hdue) ?_
  rintro temp fresh hfresh ⟨hholds, hslot⟩
  refine .bind (stores_assign hslot (h.later hfresh) hholds) ?_
  rintro _ final - hstored
  exact .pure hstored

/-! ### Branches -/

/-- The lines of a branch are written between a header that mentions the condition and its end.
-/
theorem keeps_guarded {condition : String} {body : Render Unit} (h : D.Knows out condition)
    (hbody : ∀ middle, out.Extends middle → D.Keeps body middle) :
    D.Keeps (Render.guarded condition body) out := by
  refine .bind (keeps_emit (D.permits_branch condition)
    ((Text.UsesOnly.front (by decide) h).back (by decide))) ?_
  intro _ opened hopened
  refine .bind (hbody opened hopened) ?_
  intro _ _ _
  exact keeps_close

/-- The test for null puts fixed text behind the value. -/
theorem keeps_ifNull {body : Render Unit} (h : D.Knows out value)
    (hbody : ∀ middle, out.Extends middle → D.Keeps body middle) :
    D.Keeps (Render.ifNull value body) out :=
  keeps_guarded (h.between (by decide : Text.isGlue " == " = true) (Text.usesOnly_tail (by decide)))
    hbody

/-- If the first side of a choice stores a name, the other may write it. -/
theorem stores_choice {condition : String} {yes no : Render Unit} (h : D.Knows out condition)
    (hdue : D.Holds (insert target due) out)
    (hyes : ∀ middle, out.Extends middle → D.Holds (insert target due) middle →
      yes.Leads middle fun _ final => D.Holds due final ∧ D.Knows final target)
    (hno : ∀ middle, out.Extends middle → D.Knows middle target → D.Keeps no middle) :
    (Render.choice condition yes no).Leads out fun _ final =>
      D.Holds due final ∧ D.Knows final target := by
  refine .bind (keeps_emit (D.permits_branch condition)
    ((Text.UsesOnly.front (by decide) h).back (by decide)) _ hdue) ?_
  intro _ opened hopened hholds
  refine .bind (hyes opened hopened hholds) ?_
  rintro _ turned hturned ⟨hholds, htarget⟩
  refine .bind (keeps_emit D.permits_alternative (knows_tail (by decide)) _ hholds) ?_
  intro _ resumed hresumed hholds
  have htarget := htarget.later hresumed
  refine .bind (hno resumed ((hopened.trans hturned).trans hresumed) htarget _ hholds) ?_
  intro _ finished hfinished hholds
  refine (keeps_close _ hholds).mono ?_
  intro _ final hfinal hholds
  exact ⟨hholds, (htarget.later hfinished).later hfinal⟩

/-- Both sides keep the discipline from wherever they begin. -/
theorem keeps_choice {condition : String} {yes no : Render Unit} (h : D.Knows out condition)
    (hyes : ∀ middle, out.Extends middle → D.Keeps yes middle)
    (hno : ∀ middle, out.Extends middle → D.Keeps no middle) :
    D.Keeps (Render.choice condition yes no) out := by
  refine .bind (keeps_emit (D.permits_branch condition)
    ((Text.UsesOnly.front (by decide) h).back (by decide))) ?_
  intro _ opened hopened
  refine .bind (hyes opened hopened) ?_
  intro _ turned hturned
  refine .bind (keeps_emit D.permits_alternative (knows_tail (by decide))) ?_
  intro _ resumed hresumed
  refine .bind (hno resumed ((hopened.trans hturned).trans hresumed)) ?_
  intro _ _ _
  exact keeps_close

end Discipline

/-! ### Walkers -/

/-- The texts of a node that rendering writes. -/
def Node.texts : Node → List String
  | .string value => [value]
  | .template head spans => head :: spans.map TemplateSpan.literal
  | .identifier name | .member _ name | .reference name _ => [name]
  | _ => []

namespace Discipline

variable {D : Discipline} {w : Walker} {β : Type} {out : Output} {id : NodeId}

/-- Looking up a node writes nothing; the rest may use what has been found. -/
theorem leads_node {f : Node → Render β} {post : β → Output → Prop}
    (h : ∀ node, w.arena.get? id = some node → (f node).Leads out post) :
    (w.node id >>= f).Leads out post :=
  .bindOfExcept fun node hnode => h node (Arena.node_eq_ok_iff.mp hnode)

/-- The same for what says a text. -/
theorem says_node {f : Node → Render String}
    (h : ∀ node, w.arena.get? id = some node → D.Says (f node) out) :
    D.Says (w.node id >>= f) out :=
  fun due hdue => leads_node fun node hnode => h node hnode due hdue

/-- The same for what is only carried out. -/
theorem keeps_node {f : Node → Render β}
    (h : ∀ node, w.arena.get? id = some node → D.Keeps (f node) out) :
    D.Keeps (w.node id >>= f) out :=
  fun due hdue => leads_node fun node hnode => h node hnode due hdue

end Discipline

/-- Whether the entry points of a walker respect a discipline.  Those that may open loops
have to if the discipline is free. -/
structure Walker.Follows (w : Walker) (D : Discipline) : Prop where
  loops : w.dialect.supportsLoops = true → D.free
  texts : ∀ {id node text}, w.arena.get? id = some node → text ∈ node.texts →
    ∀ out, D.Knows out text
  expression : ∀ id out, D.Says (w.expression id) out
  fragment : ∀ id out, D.Says (w.fragment id) out
  integrate : ∀ id call out, D.Says (w.integrate id call) out
  statement : D.free → ∀ id slot out, (∀ target ∈ slot, D.Knows out target) →
    D.Keeps (w.statement id slot) out
  expand : D.free → ∀ pattern target out, D.Knows out target →
    D.Keeps (w.expand pattern target) out

end ClosureVtl
