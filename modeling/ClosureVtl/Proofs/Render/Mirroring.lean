/-
Module: ClosureVtl.Proofs.Render.Mirroring
Purpose: Two runs of rendering that write different texts and agree in everything else.
Main exports:
  Text.Form, Text.form, Text.Alike, Alike.member, Output.SameTally, Render.Mirrors,
  Mirrors.bind, Mirrors.unwritten, Mirrors.forM, Mirrors.mapM, Mirrors.foldlM
-/
import ClosureVtl.Proofs.Render.Parentheses
import ClosureVtl.Proofs.Render.RenderedParts

namespace ClosureVtl

/-!
Rendering asks of a text only whether it is a reference, which can be read again without a
temporary.  It never asks what a text says.  So two runs whose texts differ still take the same
temporaries, record the same calls and end in the same fault, if the texts that stand for a
value are references in both or in neither.

A member of a value is a reference if the value is one and the name has no other characters
than a path.  There is one more value with such members: a bare dollar sign, which is no
reference by itself.  `Text.form` tells the three kinds of texts apart; two texts of one form
keep having one form whatever is put behind them.
-/

/-! ### Forms of texts -/

namespace Text

/-- Whether a character may stand behind the dollar sign of a reference. -/
def isPathChar (c : Char) : Bool := isAlphanumeric c || c == '_' || c == '.'

/-- What stands behind the dollar sign of some characters, if it may stand in a reference. -/
def pathIn : List Char → Option (List Char)
  | first :: path => if first = '$' ∧ path.all isPathChar then some path else none
  | [] => none

/-- What stands behind the dollar sign of a text, if it may stand in a reference. -/
def path? (text : String) : Option (List Char) := pathIn text.toList

/-- What can become of a text: it is a reference, it becomes one with a member behind it, or it
is none whatever member is put behind it. -/
inductive Form where
  | reference
  | dollar
  | other
deriving DecidableEq, Repr

/-- The form of a text with this path. -/
def formOf : Option (List Char) → Form
  | none => .other
  | some [] => .dollar
  | some (_ :: _) => .reference

/-- The form of a text. -/
def form (text : String) : Form := formOf (path? text)

/-- Whether two texts have one form. -/
def Alike (text text' : String) : Prop := form text = form text'

section

variable {text text' base base' name : String}

/-- References are the texts of the first form. -/
theorem isReference_eq (text : String) : isReference text = (form text == .reference) := by
  unfold isReference form path?
  rcases text.toList with _ | ⟨first, path⟩
  · rfl
  · by_cases hdollar : first = '$'
    · subst hdollar
      show (!path.isEmpty && path.all isPathChar) = _
      cases path with
      | nil => rfl
      | cons c rest => cases hall : (c :: rest).all isPathChar <;> simp [pathIn, formOf, hall]
    · simp [pathIn, formOf, hdollar]

/-- Behind the dollar sign stands the path itself, if its characters allow it. -/
theorem pathIn_dollar (path : List Char) :
    pathIn ('$' :: path) = if path.all isPathChar then some path else none := by
  simp [pathIn]

/-- Characters have a path together with a member behind them if they have one themselves and
the name of the member may stand in it. -/
theorem pathIn_member (base name : List Char) :
    pathIn (base ++ '.' :: name) = (pathIn base).bind fun front =>
      if name.all isPathChar then some (front ++ '.' :: name) else none := by
  have hpoint : isPathChar '.' = true := by decide
  rcases base with _ | ⟨first, path⟩
  · rfl
  · by_cases hdollar : first = '$'
    · subst hdollar
      rw [List.cons_append, pathIn_dollar, pathIn_dollar, List.all_append, List.all_cons, hpoint,
        Bool.true_and]
      cases path.all isPathChar <;> cases name.all isPathChar <;> rfl
    · simp [pathIn, hdollar]

/-- The same for texts: a member is put behind the path of its base. -/
theorem path?_member (base name : String) :
    path? (base ++ "." ++ name) = (path? base).bind fun front =>
      if name.toList.all isPathChar then some (front ++ '.' :: name.toList) else none := by
  have hlist : (base ++ "." ++ name).toList = base.toList ++ '.' :: name.toList := by simp
  unfold path?
  rw [hlist, pathIn_member]

/-- The path of a text that is spelled with a dollar sign. -/
theorem path?_dollar (path : String) :
    path? ("$" ++ path) = if path.toList.all isPathChar then some path.toList else none := by
  have hlist : ("$" ++ path).toList = '$' :: path.toList := by simp
  unfold path?
  rw [hlist, pathIn_dollar]

/-- A text with a character that no reference has is of no use as one. -/
theorem form_of_isCallText (h : isCallText text = true) : form text = .other := by
  obtain ⟨c, hm, hc⟩ := List.any_eq_true.mp h
  have hforeign : c ≠ '$' ∧ isPathChar c = false := by
    unfold isPathChar
    revert hc
    cases isAlphanumeric c <;> cases c == '_' <;> cases c == '.' <;> simp
  have hnone : path? text = none := by
    unfold path?
    rcases htext : text.toList with _ | ⟨first, path⟩
    · rfl
    · rw [htext] at hm
      refine if_neg fun ⟨hdollar, hall⟩ => ?_
      rcases List.mem_cons.mp hm with rfl | hmem
      · exact hforeign.1 hdollar
      · exact Bool.false_ne_true (hforeign.2.symm.trans (List.all_eq_true.mp hall c hmem))
  unfold form
  rw [hnone]
  rfl

namespace Alike

/-- A text has the form of itself. -/
theorem refl (text : String) : Alike text text := rfl

/-- Members of texts of one form have one form. -/
theorem member (h : Alike base base') (name : String) :
    Alike (base ++ "." ++ name) (base' ++ "." ++ name) := by
  unfold Alike form at *
  rw [path?_member, path?_member]
  revert h
  cases name.toList.all isPathChar with
  | false =>
    rcases path? base with _ | _ | _ <;> rcases path? base' with _ | _ | _ <;> intro _ <;> rfl
  | true =>
    rcases path? base with _ | _ | _ <;> rcases path? base' with _ | _ | _ <;> intro h <;>
      first | rfl | cases h

/-- Two texts that are no references, whatever is put behind them, have one form. -/
theorem of_isCallText (h : isCallText text = true) (h' : isCallText text' = true) :
    Alike text text' :=
  (form_of_isCallText h).trans (form_of_isCallText h').symm

/-- Texts that end with one mark that no reference has. -/
theorem of_closed {mark : String} (h : isCallText mark = true) (front front' : String) :
    Alike (front ++ mark) (front' ++ mark) :=
  have hclosed (front : String) : isCallText (front ++ mark) = true :=
    isCallText_of_keeps ((keeps_self mark).behind front) h
  of_isCallText (hclosed front) (hclosed front')

/-- Texts that begin with one mark that no reference has. -/
theorem of_opened {mark : String} (h : isCallText mark = true) (back back' : String) :
    Alike (mark ++ back) (mark ++ back') :=
  have hopened (back : String) : isCallText (mark ++ back) = true :=
    isCallText_of_keeps ((keeps_self mark).front back) h
  of_isCallText (hopened back) (hopened back')

/-- A name has one form in the stash and by itself. -/
theorem stashed (h : name ≠ "") : Alike ("$context.stash." ++ name) ("$" ++ name) := by
  have hsplit : "$context.stash." ++ name = "$" ++ "context.stash" ++ "." ++ name := by
    apply String.toList_injective
    simp
  unfold Alike form
  rw [hsplit, path?_member, path?_dollar, path?_dollar, if_pos (by decide)]
  rcases hname : name.toList with _ | ⟨c, rest⟩
  · exact absurd (String.toList_injective hname) h
  · cases (c :: rest).all isPathChar <;> rfl

end Alike

end

end Text

/-! ### Runs that mirror each other -/

/-- Two templates in the making with as many temporaries and the same calls. -/
structure Output.SameTally (out out' : Output) : Prop where
  temps : out.temps = out'.temps
  integrations : out.integrations = out'.integrations

namespace Render

variable {α β γ δ : Type}

/-- Results that correspond in one way do so in every wider one. -/
theorem SameResult.imp {R Q : α → β → Prop} {result : Except Fault α} {result' : Except Fault β}
    (h : SameResult R result result') (hQ : ∀ value value', R value value' → Q value value') :
    SameResult Q result result' := by
  cases h with
  | ok h => exact .ok (hQ _ _ h)
  | error f => exact .error f

/-- Whether two steps do the same to matching templates but for the lines that they write. -/
def Mirrors (R : α → β → Prop) (x : Render α) (x' : Render β) : Prop :=
  ∀ out out' : Output, out.SameTally out' →
    SameResult R (x.runOn out).1 (x'.runOn out').1 ∧ (x.runOn out).2.SameTally (x'.runOn out').2

namespace Mirrors

variable {R : α → β → Prop} {Q : γ → δ → Prop}

/-- Values that correspond may be returned by both. -/
theorem pure {value : α} {value' : β} (h : R value value') :
    Mirrors R (pure value) (pure value') :=
  fun _ _ hout => ⟨.ok h, hout⟩

/-- Both runs may end in one fault. -/
theorem fault (f : Fault) : Mirrors R (Render.fault f) (Render.fault f) :=
  fun _ _ hout => ⟨.error f, hout⟩

/-- Steps that mirror each other do so in every wider sense. -/
theorem imp {Q : α → β → Prop} {x : Render α} {x' : Render β} (h : Mirrors R x x')
    (hQ : ∀ value value', R value value' → Q value value') : Mirrors Q x x' := by
  intro out out' hout
  obtain ⟨hresult, hend⟩ := h out out' hout
  exact ⟨hresult.imp hQ, hend⟩

/-- The second steps need to agree only where the first ones have ended alike. -/
theorem bind {x : Render γ} {x' : Render δ} {f : γ → Render α} {f' : δ → Render β}
    (first : Mirrors Q x x')
    (next : ∀ value value', Q value value' → Mirrors R (f value) (f' value')) :
    Mirrors R (x >>= f) (x' >>= f') := by
  intro out out' hout
  obtain ⟨hresult, hmiddle⟩ := first out out' hout
  rw [runOn_bind, runOn_bind]
  revert hresult hmiddle
  rcases x.runOn out with ⟨result, middle⟩
  rcases x'.runOn out' with ⟨result', middle'⟩
  rintro (h | f) hmiddle
  · exact next _ _ h middle middle' hmiddle
  · exact ⟨.error f, hmiddle⟩

/-- Steps that end with the same value. -/
theorem bindEq {x x' : Render γ} {f : γ → Render α} {f' : γ → Render β} (first : Mirrors Eq x x')
    (next : ∀ value, Mirrors R (f value) (f' value)) : Mirrors R (x >>= f) (x' >>= f') := by
  refine bind first ?_
  rintro value _ rfl
  exact next value

/-- Lines do not matter. -/
theorem emit (line line' : String) : Mirrors Eq (Render.emit line) (Render.emit line') :=
  fun _ _ hout => ⟨.ok rfl, hout.temps, hout.integrations⟩

/-- A line may be missing. -/
theorem written (line : String) : Mirrors Eq (Render.emit line) (Pure.pure ()) :=
  fun _ _ hout => ⟨.ok rfl, hout.temps, hout.integrations⟩

/-- The line may also be missing in the first run. -/
theorem unwritten (line : String) : Mirrors Eq (Pure.pure ()) (Render.emit line) :=
  fun _ _ hout => ⟨.ok rfl, hout.temps, hout.integrations⟩

/-- The next temporary has the same name in both runs. -/
theorem freshTemp : Mirrors Eq Render.freshTemp Render.freshTemp := by
  intro out out' hout
  rw [runOn_freshTemp, runOn_freshTemp, hout.temps]
  exact ⟨.ok rfl, rfl, hout.integrations⟩

/-- A call is recorded in both runs. -/
theorem recordIntegration (id : IntegrationId) :
    Mirrors Eq (Render.recordIntegration id) (Render.recordIntegration id) := by
  intro out out' hout
  refine ⟨.ok rfl, hout.temps, ?_⟩
  exact congrArg (fun calls : Array IntegrationId => calls.push id) hout.integrations

/-- A choice goes the same way in both runs. -/
theorem ite {p p' : Prop} [Decidable p] [Decidable p'] {yes no : Render α} {yes' no' : Render β}
    (h : p ↔ p') (hyes : Mirrors R yes yes') (hno : Mirrors R no no') :
    Mirrors R (if p then yes else no) (if p' then yes' else no') := by
  by_cases hp : p
  · rw [if_pos hp, if_pos (h.mp hp)]
    exact hyes
  · rw [if_neg hp, if_neg (mt h.mpr hp)]
    exact hno

/-- A line that each run writes or leaves out by a test of its own. -/
theorem optional {p p' : Prop} [Decidable p] [Decidable p'] (line line' : String) :
    Mirrors Eq (if p then Render.emit line else Pure.pure ())
      (if p' then Render.emit line' else Pure.pure ()) := by
  split <;> split
  · exact emit _ _
  · exact written _
  · exact unwritten _
  · exact pure rfl

/-- A line that each run writes first or leaves out by a test of its own. -/
theorem optionalFirst {p p' : Prop} [Decidable p] [Decidable p'] (line line' : String)
    {x : Render α} {x' : Render β} (h : Mirrors R x x') :
    Mirrors R (if p then Render.emit line >>= fun _ => x else x)
      (if p' then Render.emit line' >>= fun _ => x' else x') := by
  split <;> split
  · exact bindEq (emit _ _) fun _ => h
  · exact bindEq (written line) fun _ => h
  · exact bindEq (unwritten line') fun _ => h
  · exact h

/-- A known result is known to both. -/
theorem ofExcept (result : Except Fault α) :
    Mirrors Eq (Render.ofExcept result) (Render.ofExcept result) := by
  cases result with
  | error f => exact fault f
  | ok value => exact pure rfl

/-- The items are the same in both runs, so as many steps are made. -/
theorem forM (items : List γ) {f f' : γ → Render PUnit}
    (h : ∀ item, Mirrors Eq (f item) (f' item)) :
    Mirrors Eq (items.forM f) (items.forM f') := by
  induction items with
  | nil => exact pure rfl
  | cons item rest ih =>
    refine bindEq (h item) fun _ => ?_
    exact ih

/-- The values of steps in a row correspond one by one. -/
theorem mapM (items : List γ) {f : γ → Render α} {f' : γ → Render β}
    (h : ∀ item, Mirrors R (f item) (f' item)) :
    Mirrors (List.Forall₂ R) (items.mapM f) (items.mapM f') := by
  induction items with
  | nil => exact pure .nil
  | cons item rest ih =>
    rw [List.mapM_cons, List.mapM_cons]
    refine bind (h item) fun first first' hfirst => ?_
    refine bind ih fun others others' hothers => ?_
    exact pure (.cons hfirst hothers)

/-- The states of two folds correspond from step to step. -/
theorem foldlM (items : List γ) {f : α → γ → Render α} {f' : β → γ → Render β}
    (h : ∀ state state' item, R state state' → Mirrors R (f state item) (f' state' item))
    {start : α} {start' : β} (hstart : R start start') :
    Mirrors R (items.foldlM f start) (items.foldlM f' start') := by
  induction items generalizing start start' with
  | nil => exact pure hstart
  | cons item rest ih =>
    rw [List.foldlM_cons, List.foldlM_cons]
    exact bind (h start start' item hstart) fun state state' hstate => ih hstate

/-! ### Elementary steps -/

/-- Both runs refuse for one reason. -/
theorem unsupported (cause : Unsupported) :
    Mirrors R (Render.unsupported cause) (Render.unsupported cause) :=
  fault _

/-- Both runs end in one breach. -/
theorem breach (cause : Breach) : Mirrors R (Render.breach cause) (Render.breach cause) :=
  fault _

/-- An assignment is a line in both runs, whatever it assigns. -/
theorem assign (target target' value value' : String) :
    Mirrors Eq (Render.assign target value) (Render.assign target' value') :=
  emit _ _

/-- So is a discarded value. -/
theorem discard (value value' : String) :
    Mirrors Eq (Render.discard value) (Render.discard value') :=
  emit _ _

/-- So is the header of a loop. -/
theorem openLoop (item item' list list' : String) :
    Mirrors Eq (Render.openLoop item list) (Render.openLoop item' list') :=
  emit _ _

/-- So is the end of a block. -/
theorem close : Mirrors Eq Render.close Render.close := emit _ _

/-- A value that is moved to a temporary leaves the same temporary behind. -/
theorem materialize (value value' : String) :
    Mirrors Eq (Render.materialize value) (Render.materialize value') := by
  refine bindEq freshTemp fun temp => ?_
  refine bindEq (assign temp temp value value') fun _ => ?_
  exact pure rfl

variable {body body' yes yes' no no' : Render Unit}

/-- The bodies of two branches correspond; their conditions are only written. -/
theorem guarded (condition condition' : String) (h : Mirrors Eq body body') :
    Mirrors Eq (Render.guarded condition body) (Render.guarded condition' body') := by
  refine bindEq (emit _ _) fun _ => ?_
  refine bindEq h fun _ => ?_
  exact close

/-- So do the bodies behind two tests for null. -/
theorem ifNull (value value' : String) (h : Mirrors Eq body body') :
    Mirrors Eq (Render.ifNull value body) (Render.ifNull value' body') :=
  guarded _ _ h

/-- Both sides of a choice are rendered in both runs. -/
theorem choice (condition condition' : String) (hyes : Mirrors Eq yes yes')
    (hno : Mirrors Eq no no') :
    Mirrors Eq (Render.choice condition yes no) (Render.choice condition' yes' no') := by
  refine bindEq (emit _ _) fun _ => ?_
  refine bindEq hyes fun _ => ?_
  refine bindEq (emit _ _) fun _ => ?_
  refine bindEq hno fun _ => ?_
  exact close

end Mirrors

/-- Two steps whose results are texts of one form. -/
abbrev Resembles (x x' : Render String) : Prop := Mirrors Text.Alike x x'

end Render

end ClosureVtl
