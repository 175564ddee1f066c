import Mathlib.Algebra.Group.Nat.Defs
import VirtualShell.Text.Basic

/-! # Decimal counts

A count is a decimal number below the limit, with or without a plus sign in front of its digits.  A number
beyond the limit is no count, and none of it is kept.
-/

namespace VirtualShell.Text

variable {text : List Char} {n : Nat}

/-- The text consists of digits, behind a plus sign or not, that have the value `n`. -/
def IsDecimal (text : List Char) (n : Nat) : Prop :=
  ∃ digits, digits ≠ [] ∧ (∀ c ∈ digits, c.isDigit = true) ∧ (text = digits ∨ text = '+' :: digits) ∧
    Nat.ofDigitChars 10 digits 0 = n

theorem IsDecimal.unique {m : Nat} (hn : IsDecimal text n) (hm : IsDecimal text m) : n = m := by
  have hplus : ∀ digits : List Char, ¬ ∀ c ∈ '+' :: digits, c.isDigit = true := fun digits hall =>
    absurd (hall '+' List.mem_cons_self) (by decide)
  obtain ⟨digits, _, hdigits, hsign, rfl⟩ := hn
  obtain ⟨others, _, hothers, hsign', rfl⟩ := hm
  rcases hsign with rfl | rfl
  · rcases hsign' with rfl | rfl
    · rfl
    · exact absurd hdigits (hplus others)
  · rcases hsign' with rfl | hsign'
    · exact absurd hothers (hplus digits)
    · rw [(List.cons.inj hsign').2]

theorem digitsValue?_eq_some_iff :
    digitsValue? text = some n ↔ (∀ c ∈ text, c.isDigit = true) ∧ Nat.ofDigitChars 10 text 0 = n := by
  rw [digitsValue?, ← Nat.ofDigitChars_eq_foldl]
  by_cases hdigits : text.all Char.isDigit = true
  · rw [if_pos hdigits, Option.some.injEq]
    exact (and_iff_right (List.all_eq_true.mp hdigits)).symm
  · rw [if_neg hdigits]
    simp only [reduceCtorEq, false_iff, not_and]
    exact fun hall => absurd (List.all_eq_true.mpr hall) hdigits

theorem count?_of_unsigned (h : '+' ∉ text) :
    count? text = if text.isEmpty then none else (digitsValue? text).filter (· < countLimit) := by
  unfold count?
  split
  · exact absurd List.mem_cons_self h
  · rfl

theorem count?_plus (digits : List Char) :
    count? ('+' :: digits) =
      if digits.isEmpty then none else (digitsValue? digits).filter (· < countLimit) := rfl

/-- Without the sign in front of it a text has the same count. -/
theorem exists_digits (text : List Char) :
    ∃ digits, (text = digits ∨ text = '+' :: digits) ∧
      count? text = if digits.isEmpty then none else (digitsValue? digits).filter (· < countLimit) := by
  unfold count?
  split
  · exact ⟨_, .inr rfl, rfl⟩
  · exact ⟨text, .inl rfl, rfl⟩

theorem count?_eq_some_iff : count? text = some n ↔ IsDecimal text n ∧ n < 2 ^ 64 := by
  constructor
  · intro h
    obtain ⟨digits, hsign, hcount⟩ := exists_digits text
    rw [hcount] at h
    split at h
    · cases h
    rename_i hne
    rw [Option.filter_eq_some_iff, digitsValue?_eq_some_iff, decide_eq_true_eq] at h
    exact ⟨⟨digits, by simpa using hne, h.1.1, hsign, h.1.2⟩, h.2⟩
  · intro ⟨⟨digits, hne, hdigits, hsign, hvalue⟩, hlt⟩
    have hcount : count? text =
        if digits.isEmpty then none else (digitsValue? digits).filter (· < countLimit) := by
      rcases hsign with rfl | rfl
      · exact count?_of_unsigned fun hplus => absurd (hdigits '+' hplus) (by decide)
      · exact count?_plus digits
    rw [hcount, if_neg (by simpa using hne), digitsValue?_eq_some_iff.mpr ⟨hdigits, hvalue⟩]
    exact Option.filter_some_pos (decide_eq_true hlt)

theorem count?_of_large (h : IsDecimal text n) (hlarge : 2 ^ 64 ≤ n) : count? text = none := by
  cases hcount : count? text with
  | none => rfl
  | some m =>
      obtain ⟨hm, hlt⟩ := count?_eq_some_iff.mp hcount
      have hsame := h.unique hm
      omega

theorem count?_toString (h : n < 2 ^ 64) : count? (toString n).toList = some n := by
  have hdigits : ∀ c ∈ Nat.toDigits 10 n, c.isDigit = true := fun c hc =>
    Nat.isDigit_of_mem_toDigits (by omega) (by omega) hc
  rw [Nat.toString_eq_ofList_toDigits, String.toList_ofList, count?_eq_some_iff]
  exact ⟨⟨_, Nat.toDigits_ne_nil, hdigits, .inl rfl, Nat.ofDigitChars_toDigits (by omega) (by omega)⟩, h⟩

end VirtualShell.Text
