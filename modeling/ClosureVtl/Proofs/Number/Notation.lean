/-
Module: ClosureVtl.Proofs.Number.Notation
Purpose: The characters that number literals are written with.
Main exports:
  Positional, Decimal.positional_text, Binary64.positional_magnitudeText,
  Binary64.exists_cons_literal, Binary64.mem_literal
-/
import ClosureVtl.Number.Literal

namespace ClosureVtl

/-!
Template text is told apart by single characters: lines by the first one, names and calls by the
dollar sign.  A number literal has none of these characters, since it is written with digits, a
point and a sign and never starts with a point.
-/

theorem isDigit_toDigits (n : Nat) : ∀ c ∈ Nat.toDigits 10 n, c.isDigit = true :=
  fun _ hc => Nat.isDigit_of_mem_toDigits (by decide) (by decide) hc

theorem toList_toString (n : Nat) : (toString n).toList = Nat.toDigits 10 n := by
  rw [Nat.toString_eq_repr, Nat.toList_repr]

/-- Whether a text starts with a digit and has nothing but digits and points in it. -/
def Positional (cs : List Char) : Prop :=
  ∃ first rest, cs = first :: rest ∧ first.isDigit = true ∧
    ∀ c ∈ rest, c.isDigit = true ∨ c = '.'

namespace Positional

variable {cs more : List Char} {c : Char}

theorem toDigits (n : Nat) : Positional (Nat.toDigits 10 n) := by
  obtain ⟨first, rest, heq⟩ :=
    List.exists_cons_of_ne_nil (Nat.toDigits_ne_nil (n := n) (b := 10))
  obtain ⟨hfirst, hrest⟩ := List.forall_mem_cons.mp (heq ▸ isDigit_toDigits n)
  exact ⟨first, rest, heq, hfirst, fun c hc => .inl (hrest c hc)⟩

theorem append (h : Positional cs) (hmore : ∀ c ∈ more, c.isDigit = true ∨ c = '.') :
    Positional (cs ++ more) := by
  obtain ⟨first, rest, rfl, hfirst, hrest⟩ := h
  refine ⟨first, rest ++ more, rfl, hfirst, fun c hc => ?_⟩
  rcases List.mem_append.mp hc with hc | hc
  · exact hrest c hc
  · exact hmore c hc

theorem isDigit_or_point (h : Positional cs) (hc : c ∈ cs) : c.isDigit = true ∨ c = '.' := by
  obtain ⟨first, rest, rfl, hfirst, hrest⟩ := h
  rcases List.mem_cons.mp hc with rfl | hc
  · exact .inl hfirst
  · exact hrest c hc

end Positional

namespace Decimal

theorem isDigit_of_mem_lastDigits {places n : Nat} {c : Char} (h : c ∈ lastDigits places n) :
    c.isDigit = true := by
  rw [lastDigits, List.mem_append] at h
  rcases h with h | h
  · rw [List.eq_of_mem_replicate h]
    rfl
  · exact isDigit_toDigits n c h

/-- Digits and a point are all that positional notation needs. -/
theorem positional_text (d : Decimal) : Positional d.text.toList := by
  unfold text
  split
  · rw [toList_toString]
    exact .toDigits _
  · next p _ =>
    have hdigits : ∀ c ∈ lastDigits (p + 1) (d.digits % Nat.pow 10 (p + 1)), c.isDigit = true :=
      fun c => isDigit_of_mem_lastDigits
    dsimp only
    generalize lastDigits (p + 1) (d.digits % Nat.pow 10 (p + 1)) = fraction at hdigits ⊢
    split
    · rw [toList_toString]
      exact .toDigits _
    · rw [String.toList_append, String.toList_append, toList_toString, List.append_assoc]
      refine (Positional.toDigits _).append fun c hc => ?_
      rcases List.mem_append.mp hc with hpoint | hkept
      · exact .inr (List.mem_singleton.mp hpoint)
      · rw [String.toList_ofList] at hkept
        have hfraction := (List.dropWhile_sublist _).subset (List.mem_reverse.mp hkept)
        exact .inl (hdigits c (List.mem_reverse.mp hfraction))

end Decimal

namespace Binary64

variable {x : Binary64} {text : String} {c : Char}

theorem positional_magnitudeText (x : Binary64) : Positional x.magnitudeText.toList := by
  unfold magnitudeText
  split
  · rw [toList_toString]
    exact .toDigits _
  · exact x.shortest.positional_text

/-- A number literal starts with a digit or a sign. -/
theorem exists_cons_literal (h : x.literal = .ok text) :
    ∃ first rest, text.toList = first :: rest ∧ (first.isDigit = true ∨ first = '-') ∧
      ∀ c ∈ rest, c.isDigit = true ∨ c = '.' := by
  unfold literal at h
  split at h
  · cases h
    have hmagnitude := x.positional_magnitudeText
    split
    · refine ⟨'-', x.magnitudeText.toList, ?_, .inr rfl, fun c => hmagnitude.isDigit_or_point⟩
      rw [String.toList_append]
      rfl
    · obtain ⟨first, rest, heq, hfirst, hrest⟩ := hmagnitude
      exact ⟨first, rest, by rw [String.empty_append, heq], .inl hfirst, hrest⟩
  · cases h

theorem mem_literal (h : x.literal = .ok text) (hc : c ∈ text.toList) :
    c.isDigit = true ∨ c = '.' ∨ c = '-' := by
  obtain ⟨first, rest, heq, hfirst, hrest⟩ := exists_cons_literal h
  rw [heq] at hc
  rcases List.mem_cons.mp hc with rfl | hc
  · exact hfirst.imp_right .inr
  · exact (hrest c hc).imp_right .inl

/-- So it has no character that is neither a digit nor a point nor a sign. -/
theorem not_mem_literal (h : x.literal = .ok text) (hdigit : c.isDigit = false)
    (hpoint : c ≠ '.') (hsign : c ≠ '-') : c ∉ text.toList := by
  intro hc
  rcases mem_literal h hc with hc | hc | hc
  · rw [hdigit] at hc
    cases hc
  · exact hpoint hc
  · exact hsign hc

end Binary64

end ClosureVtl
