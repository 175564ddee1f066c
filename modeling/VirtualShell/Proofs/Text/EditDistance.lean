import Mathlib.Order.Bounds.Basic
import Mathlib.Order.Lattice.Nat
import VirtualShell.Command.Registry

/-! # The edit distance

The table of distances is worked through row by row.  What stands at its end is the edit distance, defined by
recursion from the front of both texts, and that is the least number of single characters to insert, delete
or replace on the way from one text to the other.
-/

namespace VirtualShell.Suggestion

inductive CharEdit : List Char → List Char → Prop
  | insert (front back : List Char) (c : Char) : CharEdit (front ++ back) (front ++ c :: back)
  | delete (front back : List Char) (c : Char) : CharEdit (front ++ c :: back) (front ++ back)
  | replace (front back : List Char) (c d : Char) : CharEdit (front ++ c :: back) (front ++ d :: back)

/-- A text becomes another one by a number of single edits. -/
inductive Edited : Nat → List Char → List Char → Prop
  | refl (text : List Char) : Edited 0 text text
  | step {count : Nat} {first next last : List Char} (edit : CharEdit first next)
      (later : Edited count next last) : Edited (count + 1) first last

/-- The edit distance: the first characters are matched or replaced, or one of them is deleted or inserted. -/
def editDistance : List Char → List Char → Nat
  | [], second => second.length
  | first, [] => first.length
  | a :: first, b :: second =>
    min (min (editDistance first (b :: second) + 1) (editDistance (a :: first) second + 1))
      (editDistance first second + if a = b then 0 else 1)
termination_by first second => first.length + second.length

variable {first second third : List Char} {count : Nat}

theorem editDistance_nil_left (second : List Char) : editDistance [] second = second.length := by
  rw [editDistance]

theorem editDistance_nil_right (first : List Char) : editDistance first [] = first.length := by
  cases first <;> simp [editDistance]

theorem editDistance_cons_cons (a b : Char) (first second : List Char) :
    editDistance (a :: first) (b :: second) =
      min (min (editDistance first (b :: second) + 1) (editDistance (a :: first) second + 1))
        (editDistance first second + if a = b then 0 else 1) := by
  rw [editDistance]

/-! ## Edits -/

namespace CharEdit

theorem cons (c : Char) (h : CharEdit first second) : CharEdit (c :: first) (c :: second) := by
  cases h with
  | insert front back d => exact .insert (c :: front) back d
  | delete front back d => exact .delete (c :: front) back d
  | replace front back d e => exact .replace (c :: front) back d e

theorem symm (h : CharEdit first second) : CharEdit second first := by
  cases h with
  | insert front back c => exact .delete front back c
  | delete front back c => exact .insert front back c
  | replace front back c d => exact .replace front back d c

theorem reverse (h : CharEdit first second) : CharEdit first.reverse second.reverse := by
  cases h with
  | insert front back c => simpa using CharEdit.insert back.reverse front.reverse c
  | delete front back c => simpa using CharEdit.delete back.reverse front.reverse c
  | replace front back c d => simpa using CharEdit.replace back.reverse front.reverse c d

theorem length_le (h : CharEdit first second) : first.length ≤ second.length + 1 := by
  cases h <;> simp only [List.length_append, List.length_cons] <;> omega

end CharEdit

namespace Edited

theorem single (h : CharEdit first second) : Edited 1 first second := .step h (.refl second)

theorem trans {more : Nat} (h : Edited count first second) (hnext : Edited more second third) :
    Edited (count + more) first third := by
  induction h with
  | refl text => rwa [Nat.zero_add]
  | step edit later ih =>
      rw [Nat.succ_add]
      exact .step edit (ih hnext)

theorem cons (c : Char) (h : Edited count first second) : Edited count (c :: first) (c :: second) := by
  induction h with
  | refl text => exact .refl (c :: text)
  | step edit later ih => exact .step (edit.cons c) ih

theorem symm (h : Edited count first second) : Edited count second first := by
  induction h with
  | refl text => exact .refl text
  | step edit later ih => exact ih.trans (.single edit.symm)

theorem reverse (h : Edited count first second) : Edited count first.reverse second.reverse := by
  induction h with
  | refl text => exact .refl text.reverse
  | step edit later ih => exact .step edit.reverse ih

theorem length_le (h : Edited count first second) : first.length ≤ second.length + count := by
  induction h with
  | refl text => exact Nat.le_refl _
  | step edit later ih =>
      have hfirst := edit.length_le
      omega

theorem eq_of_zero (h : Edited 0 first second) : first = second := by
  cases h
  rfl

end Edited

/-! ## The edit distance is reached -/

theorem edited_length (text : List Char) : Edited text.length [] text := by
  induction text with
  | nil => exact .refl []
  | cons c text ih => exact .step (.insert [] [] c) (ih.cons c)

theorem edited_editDistance (first second : List Char) : Edited (editDistance first second) first second := by
  fun_induction editDistance first second with
  | case1 second => exact edited_length second
  | case2 first hne => exact (edited_length first).symm
  | case3 a first b second hdelete hinsert hmatch =>
      have hdeleted := Edited.step (.delete [] first a) hdelete
      have hinserted := hinsert.trans (.single (.insert [] second b))
      have hmatched : Edited (editDistance first second + if a = b then 0 else 1) (a :: first) (b :: second) := by
        by_cases hab : a = b
        · subst hab
          simpa using hmatch.cons a
        · rw [if_neg hab]
          exact .step (.replace [] first a b) (hmatch.cons b)
      rcases min_choice (min (editDistance first (b :: second) + 1) (editDistance (a :: first) second + 1))
        (editDistance first second + if a = b then 0 else 1) with hmin | hmin
      · rw [hmin]
        rcases min_choice (editDistance first (b :: second) + 1) (editDistance (a :: first) second + 1) with hmin | hmin
        · rw [hmin]
          exact hdeleted
        · rw [hmin]
          exact hinserted
      · rw [hmin]
        exact hmatched

/-! ## Nothing shorter reaches it -/

theorem editDistance_cons_left_le (c : Char) (first second : List Char) :
    editDistance (c :: first) second ≤ editDistance first second + 1 := by
  cases second with
  | nil => simp [editDistance_nil_right]
  | cons b second =>
      rw [editDistance_cons_cons]
      omega

theorem editDistance_cons_right_le (c : Char) (first second : List Char) :
    editDistance first (c :: second) ≤ editDistance first second + 1 := by
  cases first with
  | nil => simp [editDistance_nil_left]
  | cons a first =>
      rw [editDistance_cons_cons]
      omega

theorem editDistance_le_cons_left (c : Char) (first second : List Char) :
    editDistance first second ≤ editDistance (c :: first) second + 1 := by
  induction second with
  | nil =>
      simp only [editDistance_nil_right, List.length_cons]
      omega
  | cons b second ih =>
      have hright := editDistance_cons_right_le b first second
      rw [editDistance_cons_cons]
      omega

theorem editDistance_replace_le (c d : Char) (first second : List Char) :
    editDistance (c :: first) second ≤ editDistance (d :: first) second + 1 := by
  induction second with
  | nil => simp [editDistance_nil_right]
  | cons b second ih =>
      rw [editDistance_cons_cons, editDistance_cons_cons d b]
      split <;> split <;> omega

/-- An edit further behind costs no more than it does without the character in front. -/
theorem editDistance_cons_le_cons (h : ∀ target, editDistance first target ≤ editDistance second target + 1)
    (c : Char) (target : List Char) :
    editDistance (c :: first) target ≤ editDistance (c :: second) target + 1 := by
  induction target with
  | nil =>
      have hnil := h []
      simp only [editDistance_nil_right, List.length_cons] at hnil ⊢
      omega
  | cons b target ih =>
      have hdelete := h (b :: target)
      have hmatch := h target
      rw [editDistance_cons_cons, editDistance_cons_cons]
      omega

theorem CharEdit.editDistance_le (h : CharEdit first second) (target : List Char) :
    editDistance first target ≤ editDistance second target + 1 := by
  cases h with
  | insert front back c =>
      induction front generalizing target with
      | nil => exact editDistance_le_cons_left c back target
      | cons d front ih => exact editDistance_cons_le_cons ih d target
  | delete front back c =>
      induction front generalizing target with
      | nil => exact editDistance_cons_left_le c back target
      | cons d front ih => exact editDistance_cons_le_cons ih d target
  | replace front back c d =>
      induction front generalizing target with
      | nil => exact editDistance_replace_le c d back target
      | cons e front ih => exact editDistance_cons_le_cons ih e target

theorem editDistance_self (text : List Char) : editDistance text text = 0 := by
  induction text with
  | nil => rw [editDistance_nil_left, List.length_nil]
  | cons c text ih =>
      rw [editDistance_cons_cons, ih, if_pos rfl]
      omega

theorem Edited.editDistance_le (h : Edited count first second) : editDistance first second ≤ count := by
  induction h with
  | refl text => exact Nat.le_of_eq (editDistance_self text)
  | @step count first next last edit later ih =>
      have hfirst := edit.editDistance_le last
      exact hfirst.trans (Nat.succ_le_succ ih)

theorem editDistance_reverse (first second : List Char) :
    editDistance first.reverse second.reverse = editDistance first second := by
  apply Nat.le_antisymm
  · exact (edited_editDistance first second).reverse.editDistance_le
  · have hback := (edited_editDistance first.reverse second.reverse).reverse
    rw [List.reverse_reverse, List.reverse_reverse] at hback
    exact hback.editDistance_le

theorem editDistance_le_max (first second : List Char) :
    editDistance first second ≤ max first.length second.length := by
  fun_induction editDistance first second with
  | case1 second => omega
  | case2 first hne => omega
  | case3 a first b second hdelete hinsert hmatch =>
      simp only [List.length_cons]
      split <;> omega

/-! ## The rows of the table -/

/-- The distances between a text and the beginnings of another one that are longer than `done`.  All texts
are read backwards, so that a longer beginning has one more character in front. -/
def rowBehind (before done : List Char) : List Char → List Nat
  | [] => []
  | b :: rest => editDistance before (b :: done) :: rowBehind before (b :: done) rest

def rowOf (before second : List Char) : List Nat := editDistance before [] :: rowBehind before [] second

theorem nextRow_rowBehind (a : Char) (before done rest : List Char) :
    nextRow a (editDistance (a :: before) done) (editDistance before done) rest (rowBehind before done rest) =
      rowBehind (a :: before) done rest := by
  induction rest generalizing done with
  | nil => rfl
  | cons b rest ih =>
      rw [rowBehind, nextRow, ← editDistance_cons_cons, ih, rowBehind]

theorem advanceRow_rowOf (a : Char) (before second : List Char) :
    advanceRow second (rowOf before second) a = rowOf (a :: before) second := by
  have hempty : editDistance before [] + 1 = editDistance (a :: before) [] := by
    rw [editDistance_nil_right, editDistance_nil_right, List.length_cons]
  rw [rowOf, advanceRow, hempty, nextRow_rowBehind, rowOf]

/-- The rows are those of the longer and longer beginnings of the first text. -/
theorem foldl_advanceRow (first before second : List Char) :
    first.foldl (advanceRow second) (rowOf before second) = rowOf (first.reverse ++ before) second := by
  induction first generalizing before with
  | nil => rfl
  | cons a first ih => rw [List.foldl_cons, advanceRow_rowOf, ih, List.reverse_cons, List.append_assoc]; rfl

theorem rowBehind_nil (done rest : List Char) :
    rowBehind [] done rest = List.range' (done.length + 1) rest.length := by
  induction rest generalizing done with
  | nil => rfl
  | cons b rest ih =>
      rw [rowBehind, ih, editDistance_nil_left, List.length_cons, List.length_cons, List.range'_succ]

theorem range_eq_rowOf (second : List Char) : List.range (second.length + 1) = rowOf [] second := by
  rw [rowOf, rowBehind_nil, editDistance_nil_left, List.range_eq_range', List.range'_succ]
  rfl

theorem getLastD_rowBehind (before done rest : List Char) (least : Nat) :
    (editDistance before done :: rowBehind before done rest).getLastD least =
      editDistance before (rest.reverse ++ done) := by
  induction rest generalizing done least with
  | nil => rfl
  | cons b rest ih =>
      rw [rowBehind, List.getLastD_cons, ih, List.reverse_cons, List.append_assoc]
      rfl

/-- The last number of the last row is the edit distance. -/
theorem distance_eq_editDistance (first second : List Char) :
    distance first second = editDistance first second := by
  rw [distance, range_eq_rowOf, foldl_advanceRow, rowOf, getLastD_rowBehind, List.append_nil,
    List.append_nil, editDistance_reverse]

theorem isLeast_distance (first second : List Char) :
    IsLeast {count | Edited count first second} (distance first second) := by
  rw [distance_eq_editDistance]
  exact ⟨edited_editDistance first second, fun _ h => h.editDistance_le⟩

/-- The distance that the rows of the table come to is the edit distance, and so the least number of single
characters to insert, delete or replace.  It is the same in both directions, zero between equal texts
only, no longer than a way over a third text, and lies between the difference of the lengths and the
longer length. -/
theorem distance_is_least (first second third : String) :
    let between := fun one other : String => distance one.toList other.toList
    between first second = editDistance first.toList second.toList ∧
      IsLeast {count | Edited count first.toList second.toList} (between first second) ∧
      between first second = between second first ∧
      (between first second = 0 ↔ first = second) ∧
      between first third ≤ between first second + between second third ∧
      between first second ≤ max first.length second.length ∧
      first.length ≤ second.length + between first second ∧
      second.length ≤ first.length + between first second := by
  intro between
  have hreached : ∀ one other : String, Edited (between one other) one.toList other.toList :=
    fun one other => (isLeast_distance one.toList other.toList).1
  have hleast : ∀ {count : Nat} {one other : String}, Edited count one.toList other.toList →
      between one other ≤ count := fun h => (isLeast_distance _ _).2 h
  refine ⟨distance_eq_editDistance _ _, isLeast_distance _ _, ?_, ?_, ?_, ?_, ?_, ?_⟩
  · exact Nat.le_antisymm (hleast (hreached second first).symm) (hleast (hreached first second).symm)
  · constructor
    · intro hzero
      have hnone := hreached first second
      rw [hzero] at hnone
      exact String.toList_inj.mp hnone.eq_of_zero
    · rintro rfl
      exact Nat.le_zero.mp (hleast (.refl _))
  · exact hleast ((hreached first second).trans (hreached second third))
  · rw [← String.length_toList, ← String.length_toList]
    exact (distance_eq_editDistance _ _).trans_le (editDistance_le_max _ _)
  · rw [← String.length_toList, ← String.length_toList]
    exact (hreached first second).length_le
  · rw [← String.length_toList, ← String.length_toList]
    exact (hreached first second).symm.length_le

end VirtualShell.Suggestion
