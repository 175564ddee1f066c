import Mathlib.Data.List.Sort
import VirtualShell.Pattern.Basic

/-! # Members of character sets

A set holds the characters in its ranges, however these were given.  A letter in both cases is a set of
two characters, and the dot leaves out the line feed alone.
-/

namespace VirtualShell.CharSet

def Covers (ranges : List (Nat × Nat)) (code : Nat) : Prop :=
  ∃ range ∈ ranges, range.1 ≤ code ∧ code ≤ range.2

variable {ranges rest : List (Nat × Nat)} {range : Nat × Nat} {code : Nat} {c d : Char}

@[simp] theorem covers_nil : ¬ Covers [] code := by
  simp [Covers]

@[simp] theorem covers_cons :
    Covers (range :: rest) code ↔ range.1 ≤ code ∧ code ≤ range.2 ∨ Covers rest code := by
  simp [Covers]

theorem contains_iff {set : CharSet} : set.contains c = true ↔ Covers set.ranges c.toNat := by
  simp [contains, Covers]

/-! ## Joining ranges -/

theorem covers_mergeFrom (h : (range :: rest).Pairwise fun a b => a.1 ≤ b.1) :
    Covers (mergeFrom range rest) code ↔ Covers (range :: rest) code := by
  induction rest generalizing range with
  | nil => rfl
  | cons next rest ih =>
      rw [List.pairwise_cons, List.pairwise_cons] at h
      obtain ⟨hfirst, hnext, hrest⟩ := h
      have hle := hfirst next List.mem_cons_self
      rw [mergeFrom]
      split
      · rename_i htouch
        have hjoined : ((range.1, max range.2 next.2) :: rest).Pairwise fun a b => a.1 ≤ b.1 :=
          List.pairwise_cons.mpr ⟨fun b hb => hfirst b (List.mem_cons_of_mem _ hb), hrest⟩
        rw [ih hjoined, covers_cons, covers_cons, covers_cons, ← or_assoc]
        -- the ranges leave no gap between them
        refine or_congr_left ?_
        dsimp only
        omega
      · rw [covers_cons, ih (List.pairwise_cons.mpr ⟨hnext, hrest⟩), ← covers_cons]

theorem rangeLe_iff {a b : Nat × Nat} : rangeLe a b = true ↔ a.1 < b.1 ∨ a.1 = b.1 ∧ a.2 ≤ b.2 := by
  simp [rangeLe]

theorem rangeLe_trans (a b c : Nat × Nat) (hab : rangeLe a b = true) (hbc : rangeLe b c = true) :
    rangeLe a c = true := by
  rw [rangeLe_iff] at *
  omega

theorem rangeLe_total (a b : Nat × Nat) : (rangeLe a b || rangeLe b a) = true := by
  rw [Bool.or_eq_true, rangeLe_iff, rangeLe_iff]
  omega

/-- Sorting and joining ranges neither adds nor loses a character. -/
theorem covers_ofRanges (ranges : List (Nat × Nat)) :
    Covers (ofRanges ranges).ranges code ↔ Covers ranges code := by
  have hsorted : (ranges.mergeSort rangeLe).Pairwise fun a b => a.1 ≤ b.1 := by
    refine (List.pairwise_mergeSort rangeLe_trans rangeLe_total ranges).imp ?_
    intro a b h
    rw [rangeLe_iff] at h
    omega
  have hsame : Covers (ranges.mergeSort rangeLe) code ↔ Covers ranges code := by
    simp only [Covers, (List.mergeSort_perm ranges rangeLe).mem_iff]
  rw [← hsame]
  change Covers (merge (ranges.mergeSort rangeLe)) code ↔ _
  generalize ranges.mergeSort rangeLe = sorted at hsorted
  cases sorted with
  | nil => rfl
  | cons range rest => exact covers_mergeFrom hsorted

theorem length_mergeFrom_le (range : Nat × Nat) (rest : List (Nat × Nat)) :
    (mergeFrom range rest).length ≤ rest.length + 1 := by
  induction rest generalizing range with
  | nil => exact Nat.le_refl _
  | cons next rest ih =>
      rw [mergeFrom]
      split
      · exact Nat.le_succ_of_le (ih _)
      · exact Nat.succ_le_succ (ih next)

theorem length_ofRanges_le (ranges : List (Nat × Nat)) :
    (ofRanges ranges).ranges.length ≤ ranges.length := by
  rw [← (List.mergeSort_perm ranges rangeLe).length_eq]
  change (merge (ranges.mergeSort rangeLe)).length ≤ _
  cases ranges.mergeSort rangeLe with
  | nil => exact Nat.le_refl _
  | cons range rest => exact length_mergeFrom_le range rest

/-! ## Letters in both cases -/

theorem toNat_toLower (c : Char) :
    c.toLower.toNat = if 65 ≤ c.toNat ∧ c.toNat ≤ 90 then c.toNat + 32 else c.toNat := by
  have hcapital : (c.val ≥ 'A'.val ∧ c.val ≤ 'Z'.val) ↔ 65 ≤ c.toNat ∧ c.toNat ≤ 90 := by
    rw [ge_iff_le, UInt32.le_iff_toNat_le, UInt32.le_iff_toNat_le]
    rfl
  unfold Char.toLower
  split
  · rename_i h
    have hrange := hcapital.mp h
    have hstep : ('a'.val - 'A'.val).toNat = 32 := rfl
    rw [Char.toNat_mk, UInt32.toNat_add, hstep, Char.toNat_val, if_pos hrange]
    omega
  · rename_i h
    rw [if_neg (mt hcapital.mpr h)]

/-- The characters with the same small form as a letter are the letter itself and its partner. -/
theorem covers_span_or_foldRange :
    Covers (span c c :: (foldRange (span c c)).toList) d.toNat ↔ d.toLower = c.toLower := by
  have hletters : 'a'.toNat = 97 ∧ 'z'.toNat = 122 ∧ 'A'.toNat = 65 ∧ 'Z'.toNat = 90 := by decide
  rw [← Char.toNat_inj, toNat_toLower, toNat_toLower, covers_cons]
  simp only [span, foldRange, hletters]
  by_cases hsmall : 97 ≤ c.toNat ∧ c.toNat ≤ 122
  · rw [if_pos (by omega)]
    simp only [Option.toList_some, covers_cons, covers_nil, or_false]
    split <;> split <;> omega
  by_cases hcapital : 65 ≤ c.toNat ∧ c.toNat ≤ 90
  · rw [if_neg (by omega), if_pos (by omega)]
    simp only [Option.toList_some, covers_cons, covers_nil, or_false]
    split <;> omega
  · rw [if_neg (by omega), if_neg (by omega)]
    simp only [Option.toList_none, covers_nil, or_false]
    split <;> omega

theorem contains_complement_lineFeed : (complement ⟨[(0x0A, 0x0A)]⟩).contains c = true ↔ c ≠ '\n' := by
  have hfeed : '\n'.toNat = 10 := rfl
  have hlast : c.toNat < 0xD800 ∨ 0xDFFF < c.toNat ∧ c.toNat < 0x110000 := c.valid
  rw [contains_iff, ne_eq, ← Char.toNat_inj, hfeed]
  simp [complement, gapsAfter, previousCode, nextCode, lastCode]
  omega

end VirtualShell.CharSet
