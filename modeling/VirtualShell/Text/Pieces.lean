/-! # Pieces of a text

Cutting a text at a separator, its lines, and the search for one text inside another.  Every piece
is kept, the empty ones included, so that the text can be put together again.
-/

namespace VirtualShell.Text

/-- The pieces between the occurrences of a separator; always at least one. -/
def pieces {α : Type} [DecidableEq α] (separator : α) (text : List α) : List (List α) :=
  text.foldr (fun c later =>
    if c = separator then [] :: later else (c :: later.headD []) :: later.tail) [[]]

/-- The pieces between the pairs of a doubled character, the pairs found from the left. -/
def piecesAtPairs (mark : Char) : List Char → List (List Char)
  | [] => [[]]
  | [c] => [[c]]
  | c :: d :: rest =>
    if c = mark ∧ d = mark then [] :: piecesAtPairs mark rest
    else
      let later := piecesAtPairs mark (d :: rest)
      (c :: later.headD []) :: later.tail

/-- The first text occurs in the second without a gap. -/
def occursIn (needle : List Char) : List Char → Bool
  | [] => needle.isEmpty
  | c :: rest => needle.isPrefixOf (c :: rest) || occursIn needle rest

/-- The line without a carriage return at its end. -/
def dropReturn (line : List Char) : List Char :=
  if line.getLast? = some '\r' then line.dropLast else line

/-- The lines of a text.  Each ends at a line feed, which takes one carriage return before it
along; after the last line feed only a piece that holds something is a line. -/
def lines (text : List Char) : List (List Char) :=
  let all := pieces '\n' text
  let last := all.getLastD []
  all.dropLast.map dropReturn ++ (if last.isEmpty then [] else [last])

def linesOf (text : String) : List String := (lines text.toList).map String.ofList

variable {α : Type} [DecidableEq α]

theorem pieces_nil (separator : α) : pieces separator [] = [[]] := rfl

theorem pieces_cons (separator c : α) (text : List α) :
    pieces separator (c :: text) =
      if c = separator then [] :: pieces separator text
      else (c :: (pieces separator text).headD []) :: (pieces separator text).tail := rfl

theorem pieces_ne_nil (separator : α) (text : List α) : pieces separator text ≠ [] := by
  cases text with
  | nil => simp [pieces_nil]
  | cons c rest => rw [pieces_cons]; split <;> simp

theorem pieces_append_cons (separator : α) (first second : List α) :
    pieces separator (first ++ separator :: second) =
      pieces separator first ++ pieces separator second := by
  induction first with
  | nil => simp [pieces_cons, pieces_nil]
  | cons c rest ih =>
      obtain ⟨head, tail, hpieces⟩ := List.exists_cons_of_ne_nil (pieces_ne_nil separator rest)
      rw [List.cons_append, pieces_cons, pieces_cons, ih, hpieces]
      split <;> simp

theorem pieces_of_not_mem {separator : α} {text : List α} (h : separator ∉ text) :
    pieces separator text = [text] := by
  induction text with
  | nil => rfl
  | cons c rest ih =>
      simp only [List.mem_cons, not_or] at h
      rw [pieces_cons, if_neg (Ne.symm h.1), ih h.2]
      rfl

theorem not_mem_of_mem_pieces {separator : α} {text piece : List α}
    (h : piece ∈ pieces separator text) : separator ∉ piece := by
  induction text generalizing piece with
  | nil =>
      rw [pieces_nil, List.mem_singleton] at h
      simp [h]
  | cons c rest ih =>
      obtain ⟨head, tail, hpieces⟩ := List.exists_cons_of_ne_nil (pieces_ne_nil separator rest)
      rw [pieces_cons, hpieces] at h
      rw [hpieces] at ih
      split at h
      · rcases List.mem_cons.mp h with rfl | h
        · simp
        · exact ih h
      · rename_i hc
        rcases List.mem_cons.mp h with rfl | h
        · simp only [List.headD_cons, List.mem_cons, not_or]
          exact ⟨Ne.symm hc, ih List.mem_cons_self⟩
        · exact ih (List.mem_cons_of_mem _ h)

/-! ## Short pieces -/

theorem prefix_of_pieces_eq_cons {separator : α} {text head : List α} {tail : List (List α)}
    (h : pieces separator text = head :: tail) : head <+: text ∧ ∀ piece ∈ tail, piece <:+: text := by
  induction text generalizing head tail with
  | nil =>
      rw [pieces_nil] at h
      cases h
      simp
  | cons c rest ih =>
      obtain ⟨first, later, hpieces⟩ := List.exists_cons_of_ne_nil (pieces_ne_nil separator rest)
      obtain ⟨hfirst, hlater⟩ := ih hpieces
      have hinside : ∀ piece ∈ later, piece <:+: c :: rest := fun piece hpiece =>
        List.infix_cons (hlater piece hpiece)
      rw [pieces_cons, hpieces] at h
      split at h
      · cases h
        exact ⟨List.nil_prefix, List.forall_mem_cons.mpr ⟨List.infix_cons hfirst.isInfix, hinside⟩⟩
      · cases h
        exact ⟨List.cons_prefix_cons.mpr ⟨rfl, hfirst⟩, hinside⟩

theorem infix_of_mem_pieces {separator : α} {text piece : List α} (h : piece ∈ pieces separator text) :
    piece <:+: text := by
  obtain ⟨head, tail, hpieces⟩ := List.exists_cons_of_ne_nil (pieces_ne_nil separator text)
  obtain ⟨hhead, htail⟩ := prefix_of_pieces_eq_cons hpieces
  rw [hpieces] at h
  rcases List.mem_cons.mp h with rfl | h
  · exact hhead.isInfix
  · exact htail piece h

/-- A text that is divided at all is divided into shorter pieces. -/
theorem length_lt_of_mem_pieces {separator : α} {text piece : List α} (hmem : separator ∈ text)
    (h : piece ∈ pieces separator text) : piece.length < text.length := by
  obtain ⟨first, second, rfl⟩ := List.append_of_mem hmem
  rw [pieces_append_cons, List.mem_append] at h
  rw [List.length_append, List.length_cons]
  rcases h with h | h
  · have hle := (infix_of_mem_pieces h).length_le
    omega
  · have hle := (infix_of_mem_pieces h).length_le
    omega

/-! ## Occurrences -/

theorem occursIn_iff_infix {needle text : List Char} : occursIn needle text = true ↔ needle <:+: text := by
  induction text with
  | nil => rw [occursIn, List.isEmpty_iff, List.infix_nil]
  | cons c text ih => rw [occursIn, Bool.or_eq_true, ih, List.isPrefixOf_iff_prefix, List.infix_cons_iff]

/-! ## Pieces at pairs -/

theorem piecesAtPairs_ne_nil (mark : Char) (text : List Char) : piecesAtPairs mark text ≠ [] := by
  fun_induction piecesAtPairs mark text <;> simp

theorem occursIn_pair_cons_cons (mark c d : Char) (rest : List Char) :
    occursIn [mark, mark] (c :: d :: rest) =
      (decide (c = mark ∧ d = mark) || occursIn [mark, mark] (d :: rest)) := by
  rw [occursIn]
  congr 1
  simp only [List.isPrefixOf, Bool.and_true, Bool.decide_and, Bool.beq_eq_decide_eq, eq_comm]

theorem length_le_of_mem_piecesAtPairs {mark : Char} {text piece : List Char}
    (h : piece ∈ piecesAtPairs mark text) : piece.length ≤ text.length := by
  fun_induction piecesAtPairs mark text generalizing piece with
  | case1 => simp_all
  | case2 c => simp_all
  | case3 c d rest hpair ih =>
      rcases List.mem_cons.mp h with rfl | h
      · simp
      · exact Nat.le_succ_of_le (Nat.le_succ_of_le (ih h))
  | case4 c d rest hpair later =>
      rename_i ih
      obtain ⟨head, tail, hlater⟩ := List.exists_cons_of_ne_nil (piecesAtPairs_ne_nil mark (d :: rest))
      rw [show later = head :: tail from hlater] at h
      rw [hlater] at ih
      rcases List.mem_cons.mp h with rfl | h
      · exact Nat.succ_le_succ (ih List.mem_cons_self)
      · exact Nat.le_succ_of_le (ih (List.mem_cons_of_mem _ h))

/-- A text with a pair in it is divided into shorter pieces. -/
theorem length_lt_of_mem_piecesAtPairs {mark : Char} {text piece : List Char}
    (hpair : occursIn [mark, mark] text = true) (h : piece ∈ piecesAtPairs mark text) :
    piece.length < text.length := by
  fun_induction piecesAtPairs mark text generalizing piece with
  | case1 => simp [occursIn] at hpair
  | case2 c => simp [occursIn] at hpair
  | case3 c d rest _ ih =>
      rcases List.mem_cons.mp h with rfl | h
      · simp
      · have hle := length_le_of_mem_piecesAtPairs h
        simp only [List.length_cons]
        omega
  | case4 c d rest hfirst later =>
      rename_i ih
      rw [occursIn_pair_cons_cons, decide_eq_false hfirst, Bool.false_or] at hpair
      obtain ⟨head, tail, hlater⟩ := List.exists_cons_of_ne_nil (piecesAtPairs_ne_nil mark (d :: rest))
      rw [show later = head :: tail from hlater] at h
      rw [hlater] at ih
      rcases List.mem_cons.mp h with rfl | h
      · exact Nat.succ_lt_succ (ih hpair List.mem_cons_self)
      · exact Nat.lt_succ_of_lt (ih hpair (List.mem_cons_of_mem _ h))

end VirtualShell.Text
