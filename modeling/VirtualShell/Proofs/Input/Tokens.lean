import VirtualShell.Proofs.Input.Rewriting

/-! # The words of a command

Where no quotes stand in a command, the scan cuts it into its runs of characters between blanks.  So a
command that is put together from single words has just these words.
-/

namespace VirtualShell.Input

open Text

def Unquoted (text : List Char) : Prop := ∀ c ∈ text, c ≠ '\'' ∧ c ≠ '"'

instance : DecidablePred Unquoted := List.decidableBAll fun c => c ≠ '\'' ∧ c ≠ '"'

/-- A scan outside quotes, in which a word has begun if it has a character. -/
def Scan.between (finished : List String) (current : List Char) : Scan :=
  ⟨finished, current, !current.isEmpty, none⟩

variable {text current : List Char}

theorem Scan.finishWord_between (hcurrent : ∀ c ∈ current, isBlank c = false) (finished : List String) :
    (between finished current).finishWord =
      between (((unbroken current.reverse).map String.ofList).reverse ++ finished) [] := by
  cases current with
  | nil => rfl
  | cons c current =>
      have hword : unbroken (c :: current).reverse = [(c :: current).reverse] :=
        unbroken_word (fun d hd => hcurrent d (List.mem_reverse.mp hd)) (by simp)
      rw [hword]
      rfl

theorem Scan.foldl_step_unquoted (htext : Unquoted text) (hcurrent : ∀ c ∈ current, isBlank c = false)
    (finished : List String) :
    (text.foldl step (between finished current)).finishWord.words.reverse =
      finished.reverse ++ (unbroken (current.reverse ++ text)).map String.ofList := by
  induction text generalizing current finished with
  | nil =>
      rw [List.foldl_nil, finishWord_between hcurrent, List.append_nil]
      simp [between]
  | cons c text ih =>
      have hlater : Unquoted text := fun d hd => htext d (List.mem_cons_of_mem c hd)
      have hquote : ¬ (c = '\'' ∨ c = '"') := not_or.mpr (htext c List.mem_cons_self)
      rw [List.foldl_cons]
      by_cases hc : isBlank c = true
      · have hstep : step (between finished current) c = (between finished current).finishWord := by
          simp only [step, between, if_neg hquote, if_pos hc]
        rw [hstep, finishWord_between hcurrent, ih hlater (by simp), unbroken_append hc]
        simp
      · have hstep : step (between finished current) c = between finished (c :: current) := by
          simp only [step, between, if_neg hquote, if_neg hc]
          rfl
        rw [hstep, ih hlater (List.forall_mem_cons.mpr ⟨by simpa using hc, hcurrent⟩)]
        simp

theorem words_of_unquoted {command : String} (h : Unquoted command.toList) :
    words command = (unbroken command.toList).map String.ofList := by
  have hnothing : ∀ c ∈ ([] : List Char), isBlank c = false := by simp
  exact Scan.foldl_step_unquoted h hnothing []

/-! ## Commands made of single words -/

variable {word command : String} {given : List String}

structure IsWord (word : String) : Prop where
  ne_nil : word.toList ≠ []
  unbroken : ∀ c ∈ word.toList, isBlank c = false
  unquoted : Unquoted word.toList
  plain : Plain word.toList

instance : DecidablePred IsWord := fun word =>
  decidable_of_iff (word.toList ≠ [] ∧ word.toList.all (!isBlank ·) = true ∧ Unquoted word.toList ∧
    Plain word.toList) <| by
    rw [List.all_eq_true]
    exact ⟨fun ⟨hne, hunbroken, hunquoted, hplain⟩ =>
        ⟨hne, fun c hc => by simpa using hunbroken c hc, hunquoted, hplain⟩,
      fun h => ⟨h.ne_nil, fun c hc => by simpa using h.unbroken c hc, h.unquoted, h.plain⟩⟩

structure IsOperand (word : String) : Prop extends IsWord word where
  head_ne : word.toList.head? ≠ some '-'

theorem IsOperand.ne_help (h : IsOperand word) : word ≠ "--help" := by
  rintro rfl
  exact h.head_ne rfl

/-- The command consists of the words, and nothing in it stands for anything else. -/
structure MadeOf (given : List String) (command : String) : Prop where
  words_eq : words command = given
  unquoted : Unquoted command.toList
  plain : Plain command.toList
  trimmed : Trimmed command.toList

theorem IsWord.madeOf (h : IsWord word) : MadeOf [word] word where
  words_eq := by
    rw [words_of_unquoted h.unquoted, unbroken_word h.unbroken h.ne_nil, List.map_singleton,
      String.ofList_toList]
  unquoted := h.unquoted
  plain := h.plain
  trimmed := ⟨fun c hc => h.unbroken c (List.mem_of_mem_head? hc),
    fun c hc => h.unbroken c (List.mem_of_getLast? hc)⟩

namespace MadeOf

theorem toList_ne_nil (h : MadeOf (word :: given) command) : command.toList ≠ [] := by
  intro hnil
  have hwords := h.words_eq
  rw [words_of_unquoted h.unquoted, hnil, unbroken_nil] at hwords
  cases hwords

theorem cons {first : String} (hfirst : IsWord first) (h : MadeOf (word :: given) command) :
    MadeOf (first :: word :: given) (first ++ " " ++ command) := by
  have hblank : isBlank ' ' = true := by decide
  have htext : (first ++ " " ++ command).toList = first.toList ++ ' ' :: command.toList := by
    simp [String.toList_append]
  have hunquoted : Unquoted (first ++ " " ++ command).toList := by
    intro c hc
    rw [htext, List.mem_append, List.mem_cons] at hc
    rcases hc with hc | rfl | hc
    · exact hfirst.unquoted c hc
    · decide
    · exact h.unquoted c hc
  refine ⟨?_, hunquoted, ?_, ?_, ?_⟩
  · have hgiven := h.words_eq
    rw [words_of_unquoted h.unquoted] at hgiven
    rw [words_of_unquoted hunquoted, htext, unbroken_append hblank,
      unbroken_word hfirst.unbroken hfirst.ne_nil, List.map_append, hgiven]
    simp
  · rw [htext]
    exact hfirst.plain.append_cons hblank h.plain
  · rw [htext, List.head?_append_of_ne_nil _ hfirst.ne_nil]
    exact fun c hc => hfirst.unbroken c (List.mem_of_mem_head? hc)
  · rw [htext, List.append_cons, List.getLast?_append_of_ne_nil _ h.toList_ne_nil]
    exact h.trimmed.back

theorem leadingWord_eq (h : MadeOf (word :: given) command) :
    String.ofList (leadingWord command.toList) = word := by
  have hwords := h.words_eq
  rw [words_of_unquoted h.unquoted, unbroken_of_trimmed h.trimmed h.toList_ne_nil, List.map_cons] at hwords
  exact (List.cons.inj hwords).1

end MadeOf

end VirtualShell.Input
