import Mathlib.Data.List.Basic
import Mathlib.Data.List.Induction
import VirtualShell.Text.Basic

/-! # Trimmed texts

What trimming leaves, and which texts it leaves as they are.
-/

namespace VirtualShell.Text

theorem trim_cons_of_blank {c : Char} (hc : isBlank c = true) (text : List Char) :
    trim (c :: text) = trim text := by
  rw [trim, trim, trimLeft, trimLeft, List.dropWhile_cons_of_pos hc]

theorem trim_concat_of_blank {c : Char} (hc : isBlank c = true) (text : List Char) :
    trim (text ++ [c]) = trim text := by
  rw [trim, trim, trimLeft, trimLeft, List.dropWhile_append]
  split
  · rename_i hblank
    rw [List.isEmpty_iff.mp hblank, List.dropWhile_cons_of_pos hc, List.dropWhile_nil]
  · rw [trimRight, trimRight, List.reverse_append, List.reverse_singleton, List.singleton_append,
      List.dropWhile_cons_of_pos hc]

theorem prefix_of_trimRight (text : List Char) : trimRight text <+: text := by
  have hsuffix := List.dropWhile_suffix isBlank (l := text.reverse)
  rw [← List.reverse_prefix, List.reverse_reverse] at hsuffix
  exact hsuffix

theorem infix_of_trim (text : List Char) : trim text <:+: text := by
  have hleft : trimLeft text <:+ text := List.dropWhile_suffix isBlank
  exact (prefix_of_trimRight (trimLeft text)).isInfix.trans hleft.isInfix

/-- What no trimming at an end of a text can change is not changed by trimming it at both ends. -/
theorem trim_induction {α : Type} {f : List Char → α}
    (hfront : ∀ c text, isBlank c = true → f (c :: text) = f text)
    (hback : ∀ c text, isBlank c = true → f (text ++ [c]) = f text) (text : List Char) :
    f (trim text) = f text := by
  have hleft : f (trimLeft text) = f text := by
    induction text with
    | nil => rfl
    | cons c text ih =>
        by_cases hc : isBlank c = true
        · rw [trimLeft, List.dropWhile_cons_of_pos hc, ← trimLeft, ih, hfront c text hc]
        · rw [trimLeft, List.dropWhile_cons_of_neg hc]
  rw [← hleft, trim]
  generalize trimLeft text = text
  induction text using List.reverseRecOn with
  | nil => rfl
  | append_singleton text c ih =>
      rw [trimRight, List.reverse_append, List.reverse_singleton, List.singleton_append]
      by_cases hc : isBlank c = true
      · rw [List.dropWhile_cons_of_pos hc, ← trimRight, ih, hback c text hc]
      · rw [List.dropWhile_cons_of_neg hc, List.reverse_cons, List.reverse_reverse]

theorem mem_trim {c : Char} {text : List Char} (hc : isBlank c = false) (h : c ∈ text) : c ∈ trim text := by
  have hne : ∀ d, isBlank d = true → c ≠ d := by
    rintro d hd rfl
    rw [hc] at hd
    cases hd
  have hmem : (c ∈ trim text) = (c ∈ text) := by
    refine trim_induction (f := fun text => c ∈ text) ?_ ?_ text
    · intro d text hd
      simp [hne d hd]
    · intro d text hd
      simp [hne d hd]
  rw [hmem]
  exact h

/-! ## Ends without blanks -/

structure Trimmed (text : List Char) : Prop where
  front : ∀ c ∈ text.head?, isBlank c = false
  back : ∀ c ∈ text.getLast?, isBlank c = false

theorem front_trimLeft (text : List Char) : ∀ c ∈ (trimLeft text).head?, isBlank c = false := by
  intro c hc
  have hhead := List.head?_dropWhile_not isBlank text
  rw [← trimLeft, Option.mem_def.mp hc] at hhead
  exact hhead

theorem trimRight_eq_reverse (text : List Char) : trimRight text = (trimLeft text.reverse).reverse := rfl

theorem trimmed_trim (text : List Char) : Trimmed (trim text) := by
  constructor
  · intro c hc
    obtain ⟨tail, htail⟩ : trimRight (trimLeft text) <+: trimLeft text := prefix_of_trimRight (trimLeft text)
    refine front_trimLeft text c ?_
    rw [← htail, List.head?_append, ← trim, Option.mem_def.mp hc]
    rfl
  · rw [trim, trimRight_eq_reverse, List.getLast?_reverse]
    exact front_trimLeft _

theorem trimLeft_eq_self {text : List Char} (h : ∀ c ∈ text.head?, isBlank c = false) :
    trimLeft text = text := by
  cases text with
  | nil => rfl
  | cons c text => rw [trimLeft, List.dropWhile_cons_of_neg (by simp [h c rfl])]

theorem trimRight_eq_self {text : List Char} (h : ∀ c ∈ text.getLast?, isBlank c = false) :
    trimRight text = text := by
  rw [← List.head?_reverse] at h
  rw [trimRight_eq_reverse, trimLeft_eq_self h, List.reverse_reverse]

theorem Trimmed.trim_eq {text : List Char} (h : Trimmed text) : trim text = text := by
  rw [trim, trimLeft_eq_self h.front, trimRight_eq_self h.back]

theorem trim_trim (text : List Char) : trim (trim text) = trim text := (trimmed_trim text).trim_eq

/-- The end of a text is the end of each of its suffixes. -/
theorem back_of_suffix {suffix text : List Char} (hsuffix : suffix <:+ text)
    (h : ∀ c ∈ text.getLast?, isBlank c = false) : ∀ c ∈ suffix.getLast?, isBlank c = false := by
  obtain ⟨front, rfl⟩ := hsuffix
  intro c hc
  refine h c ?_
  rw [List.getLast?_append, Option.mem_def.mp hc]
  rfl

theorem trimLeft_append_of_blank {gap : List Char} (hgap : ∀ c ∈ gap, isBlank c = true) (text : List Char) :
    trimLeft (gap ++ text) = trimLeft text := List.dropWhile_append_of_pos hgap

end VirtualShell.Text
