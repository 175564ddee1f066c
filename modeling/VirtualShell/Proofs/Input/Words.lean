import Mathlib.Data.List.TakeDrop
import Mathlib.Data.List.TakeWhile
import VirtualShell.Input.Words
import VirtualShell.Proofs.Text.Trimming

/-! # Words at the front of a text

The word in front of a text and what follows it, and all runs of characters between blanks.  Blanks at the
ends of a text or between two runs make no difference to the runs.
-/

namespace VirtualShell.Input

open Text

/-! ## The first word -/

def leadingWord (text : List Char) : List Char := text.takeWhile (!isBlank ·)

theorem leadingWord_append {word rest : List Char} (hword : ∀ c ∈ word, isBlank c = false)
    (hrest : ∀ c ∈ rest.head?, isBlank c = true) : leadingWord (word ++ rest) = word := by
  rw [leadingWord, List.takeWhile_append_of_pos (by simpa using hword)]
  cases rest with
  | nil => rw [List.takeWhile_nil, List.append_nil]
  | cons c rest => rw [List.takeWhile_cons_of_neg (by simp [hrest c rfl]), List.append_nil]

theorem exists_leadingWord_append (text : List Char) :
    ∃ rest, text = leadingWord text ++ rest ∧ ∀ c ∈ rest.head?, isBlank c = true := by
  refine ⟨text.dropWhile (!isBlank ·), List.takeWhile_append_dropWhile.symm, fun c hc => ?_⟩
  have hhead := List.head?_dropWhile_not (!isBlank ·) text
  rw [Option.mem_def.mp hc] at hhead
  simpa using hhead

theorem firstWord_of_trimmed {text : List Char} (h : Trimmed text) :
    firstWord text = (leadingWord text, trimLeft (text.dropWhile (!isBlank ·))) := by
  rw [firstWord, h.trim_eq, List.span_eq_takeWhile_dropWhile, leadingWord]

theorem firstWord_append {word rest : List Char} (h : Trimmed (word ++ rest))
    (hword : ∀ c ∈ word, isBlank c = false) (hrest : ∀ c ∈ rest.head?, isBlank c = true) :
    firstWord (word ++ rest) = (word, trimLeft rest) := by
  have hleading := leadingWord_append hword hrest
  have hsplit : leadingWord (word ++ rest) ++ (word ++ rest).dropWhile (!isBlank ·) = word ++ rest :=
    List.takeWhile_append_dropWhile
  rw [hleading, List.append_cancel_left_eq] at hsplit
  rw [firstWord_of_trimmed h, hleading, hsplit]

theorem not_isBlank_of_mem_leadingWord {text : List Char} : ∀ c ∈ leadingWord text, isBlank c = false := by
  intro c hc
  simpa using List.mem_takeWhile_imp hc

theorem leadingWord_ne_nil {text : List Char} (hne : text ≠ []) (hfront : ∀ c ∈ text.head?, isBlank c = false) :
    leadingWord text ≠ [] := by
  obtain ⟨c, rest, rfl⟩ := List.exists_cons_of_ne_nil hne
  rw [leadingWord, List.takeWhile_cons_of_pos (by simp [hfront c rfl])]
  exact List.cons_ne_nil _ _

/-! ## Runs of characters -/

/-- The runs of characters between blanks, with the quotes that stand in them. -/
def unbroken (text : List Char) : List (List Char) := (text.splitOnP isBlank).filter (!·.isEmpty)

theorem unbroken_nil : unbroken [] = [] := by
  rw [unbroken, List.splitOnP_nil]
  rfl

theorem unbroken_append {c : Char} (hc : isBlank c = true) (first second : List Char) :
    unbroken (first ++ c :: second) = unbroken first ++ unbroken second := by
  rw [unbroken, List.splitOnP_append_cons first second hc, List.filter_append]
  rfl

theorem unbroken_word {word : List Char} (hword : ∀ c ∈ word, isBlank c = false) (hne : word ≠ []) :
    unbroken word = [word] := by
  rw [unbroken, List.splitOnP_eq_singleton hword, List.filter_cons_of_pos (by simpa using hne)]
  rfl

theorem length_unbroken_word {word : List Char} (hword : ∀ c ∈ word, isBlank c = false) :
    (unbroken word).length = if word.isEmpty then 0 else 1 := by
  cases word with
  | nil =>
      rw [unbroken_nil]
      rfl
  | cons c word =>
      rw [unbroken_word hword (List.cons_ne_nil c word)]
      rfl

theorem unbroken_cons_of_blank {c : Char} (hc : isBlank c = true) (text : List Char) :
    unbroken (c :: text) = unbroken text := by
  have happend := unbroken_append hc [] text
  rwa [List.nil_append, unbroken_nil, List.nil_append] at happend

theorem unbroken_trimLeft (text : List Char) : unbroken (trimLeft text) = unbroken text := by
  induction text with
  | nil => rfl
  | cons c text ih =>
      by_cases hc : isBlank c = true
      · rw [trimLeft, List.dropWhile_cons_of_pos hc, ← trimLeft, ih, unbroken_cons_of_blank hc]
      · rw [trimLeft, List.dropWhile_cons_of_neg hc]

theorem unbroken_trim (text : List Char) : unbroken (trim text) = unbroken text := by
  refine trim_induction (f := unbroken) (fun c text hc => unbroken_cons_of_blank hc text) ?_ text
  intro c text hc
  rw [unbroken_append hc, unbroken_nil, List.append_nil]

/-- The first run of a text is the one in front, and the others are those behind it. -/
theorem unbroken_of_trimmed {text : List Char} (h : Trimmed text) (hne : text ≠ []) :
    unbroken text = leadingWord text :: unbroken (trimLeft (text.dropWhile (!isBlank ·))) := by
  have hword : ∀ c ∈ leadingWord text, isBlank c = false := not_isBlank_of_mem_leadingWord
  have hleading := leadingWord_ne_nil hne h.front
  have hsplit : leadingWord text ++ text.dropWhile (!isBlank ·) = text :=
    List.takeWhile_append_dropWhile
  rw [unbroken_trimLeft]
  cases hrest : text.dropWhile (!isBlank ·) with
  | nil =>
      rw [hrest, List.append_nil] at hsplit
      rw [unbroken_nil, hsplit]
      rw [hsplit] at hword
      exact unbroken_word hword hne
  | cons c rest =>
      have hc : isBlank c = true := by
        have hhead := List.head?_dropWhile_not (!isBlank ·) text
        rw [hrest] at hhead
        simpa using hhead
      rw [hrest] at hsplit
      rw [← hsplit, unbroken_append hc, unbroken_word hword hleading, unbroken_cons_of_blank hc, hsplit]
      rfl

end VirtualShell.Input
