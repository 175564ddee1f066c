import VirtualShell.Proofs.Pattern.CharSets
import VirtualShell.Proofs.Pattern.Languages
import VirtualShell.Proofs.Pattern.Wildcards

/-! # Names that fit a pattern with stars

The pieces between the stars stand for themselves, whatever characters they hold, and only their ASCII
letters may change their case.  A star stands for anything without a line feed.
-/

namespace VirtualShell.NamePattern

open Pattern (Spells SpellAll ofChar runs single spellAll_nil spellAll_cons spellAll_append)

/-! ## The language of a pattern -/

def spellings (piece : List Char) : Language Char := {word | word.map Char.toLower = piece.map Char.toLower}

def gaps : Language Char := {word | '\n' ∉ word}

/-- The names that are made of the pieces in order, with a gap before each piece but the first. -/
def names : List (List Char) → Language Char
  | [] => 1
  | first :: rest => spellings first * (rest.map fun piece => gaps * spellings piece).prod

variable {c : Char} {word piece : List Char} {pieces : List (List Char)} {text : String}

@[simp] theorem mem_spellings :
    word ∈ spellings piece ↔ word.map Char.toLower = piece.map Char.toLower := Iff.rfl

@[simp] theorem mem_gaps : word ∈ gaps ↔ '\n' ∉ word := Iff.rfl

theorem spellings_nil : spellings [] = 1 := by
  ext word
  simp

theorem spellings_cons (c : Char) (piece : List Char) :
    spellings (c :: piece) = single (fun d => d.toLower = c.toLower) * spellings piece := by
  ext word
  rw [Language.mem_mul]
  cases word with
  | nil => simp
  | cons d word => simp

/-! ## What the parts spell -/

theorem spells_ofChar (c : Char) : Spells (ofChar true c) (single fun d => d.toLower = c.toLower) := by
  have hletter : ∀ d : Char, CharSet.Covers (CharSet.span c c :: (CharSet.foldRange (CharSet.span c c)).toList)
      d.toNat ↔ d.toLower = c.toLower := fun _ => CharSet.covers_span_or_foldRange
  unfold ofChar
  rw [if_pos rfl]
  cases hfold : CharSet.foldRange (CharSet.span c c) with
  | some other =>
      have hsame : (CharSet.ofRanges [CharSet.span c c, other]).contains =
          fun d => decide (d.toLower = c.toLower) := by
        funext d
        rw [Bool.eq_iff_iff, CharSet.contains_iff, CharSet.covers_ofRanges, decide_eq_true_iff, ← hletter,
          hfold, Option.toList_some]
      rw [← hsame]
      exact Pattern.spells_oneOf _
  | none =>
      have hsame : (fun d => decide (d = c)) = fun d => decide (d.toLower = c.toLower) := by
        funext d
        rw [decide_eq_decide, ← hletter, hfold, Option.toList_none, CharSet.covers_cons, ← Char.toNat_inj]
        simp [CharSet.span, Nat.le_antisymm_iff, and_comm]
      rw [← hsame]
      exact Pattern.spells_char c

theorem spellAll_piece (piece : List Char) : SpellAll (piece.map (ofChar true)) (spellings piece) := by
  induction piece with
  | nil => exact spellings_nil ▸ spellAll_nil
  | cons c piece ih => exact spellings_cons c piece ▸ spellAll_cons (spells_ofChar c) ih

theorem spells_anyRun : Spells anyRun gaps := by
  have hgaps : gaps = runs (CharSet.complement ⟨[(0x0A, 0x0A)]⟩).contains := by
    ext word
    simp only [mem_gaps, Pattern.mem_runs, CharSet.contains_complement_lineFeed]
    exact ⟨fun h c hc heq => h (heq ▸ hc), fun h hmem => h _ hmem rfl⟩
  rw [hgaps]
  exact Pattern.spells_repeated_oneOf _

theorem spellAll_gapped (pieces : List (List Char)) :
    SpellAll (pieces.flatMap fun piece => anyRun :: piece.map (ofChar true))
      (pieces.map fun piece => gaps * spellings piece).prod := by
  induction pieces with
  | nil => exact spellAll_nil
  | cons piece pieces ih =>
      rw [List.flatMap_cons, List.map_cons, List.prod_cons]
      exact spellAll_append (spellAll_cons spells_anyRun (spellAll_piece piece)) ih

theorem spellAll_parts (pieces : List (List Char)) : SpellAll (parts pieces) (names pieces) := by
  cases pieces with
  | nil => exact spellAll_nil
  | cons first rest => exact spellAll_append (spellAll_piece first) (spellAll_gapped rest)

/-- A name holds a match of the expression exactly if it is made of the pieces. -/
theorem occursIn_expression_iff (pieces : List (List Char)) (name : String) :
    (expression pieces).occursIn name = true ↔ name.toList ∈ names pieces :=
  Pattern.occursIn_whole_iff (spellAll_parts pieces) name

/-! ## Patterns that are not too large -/

def partOf (c : Char) : Pattern := if c = '*' then anyRun else ofChar true c

theorem parts_pieces (text : List Char) : parts (Text.pieces '*' text) = text.map partOf := by
  induction text with
  | nil => rfl
  | cons c text ih =>
      obtain ⟨first, rest, hpieces⟩ := List.exists_cons_of_ne_nil (Text.pieces_ne_nil '*' text)
      rw [hpieces] at ih
      rw [Text.pieces_cons, hpieces, List.map_cons, ← ih, partOf]
      split <;> rfl

/-- The part takes few bytes and holds no group. -/
structure Small (part : Pattern) : Prop where
  states : part.statesSize ≤ 88
  groups : part.lastGroup = 0
  names : part.namesSize = 0

theorem small_partOf (c : Char) : Small (partOf c) := by
  unfold partOf ofChar
  rw [if_pos rfl]
  split
  · exact ⟨by decide, rfl, rfl⟩
  · split
    · rename_i other _
      have hlength := CharSet.length_ofRanges_le [CharSet.span c c, other]
      simp only [List.length_cons, List.length_nil] at hlength
      refine ⟨?_, rfl, rfl⟩
      rw [Pattern.statesSize, Pattern.stateSize, Pattern.rangeSize]
      omega
    · exact ⟨by simp [Pattern.statesSize, Pattern.stateSize], rfl, rfl⟩

theorem size_of_small {several : List Pattern} (h : ∀ part ∈ several, Small part) :
    Pattern.partsSize several ≤ 88 * several.length ∧ Pattern.lastGroupOf several = 0 ∧
      Pattern.allNamesSize several = 0 := by
  induction several with
  | nil => simp [Pattern.partsSize, Pattern.lastGroupOf, Pattern.allNamesSize]
  | cons part several ih =>
      rw [List.forall_mem_cons] at h
      obtain ⟨hpart, hrest⟩ := h
      obtain ⟨hstates, hgroups, hnames⟩ := ih hrest
      have hbound := hpart.states
      rw [Pattern.partsSize, Pattern.lastGroupOf, Pattern.allNamesSize, hpart.groups, hpart.names, hgroups,
        hnames, List.length_cons]
      omega

theorem not_tooLarge_of_length_le (h : text.length ≤ 100000) : ¬ TooLarge text := by
  rintro ⟨_, _, hlarge⟩
  have hlook : ∀ condition, Small (.look condition) := fun _ =>
    ⟨by simp [Pattern.statesSize, Pattern.stateSize], rfl, rfl⟩
  have hsmall : ∀ part ∈ .look .textStart :: (text.toList.map partOf ++ [.look .textEnd]), Small part := by
    intro part hpart
    rcases List.mem_cons.mp hpart with rfl | hrest
    · exact hlook _
    · rcases List.mem_append.mp hrest with hmem | hlast
      · obtain ⟨c, _, rfl⟩ := List.mem_map.mp hmem
        exact small_partOf c
      · exact List.mem_singleton.mp hlast ▸ hlook _
  obtain ⟨hstates, hgroups, hnames⟩ := size_of_small hsmall
  rw [List.length_cons, List.length_append, List.length_map, List.length_singleton, String.length_toList]
    at hstates
  rw [expression, parts_pieces, Pattern.size, Pattern.statesSize, Pattern.statesSize, Pattern.lastGroup,
    Pattern.namesSize, hgroups, hnames, Pattern.stateSize, Pattern.groupSize, Pattern.sizeLimit] at hlarge
  omega

/-! ## Every pattern with stars -/

/-- A pattern with stars that is not too large is taken, and it accepts the names that are made of the
pieces between the stars. -/
theorem wildcard_exact (hany : text ≠ "*") (hstar : '*' ∈ text.toList) (hsize : ¬ TooLarge text) :
    ∃ condition, ofText text = .ok condition ∧
      ∀ name : String, condition.accepts name = true ↔ name.toList ∈ names (Text.pieces '*' text.toList) := by
  exact ⟨_, ofText_eq_wildcard hany hstar hsize, fun name => occursIn_expression_iff _ name⟩

/-- A dot and a parenthesis in the pattern stand for themselves. -/
theorem wildcard_exact_special :
    ∃ condition, ofText "A.(*$" = .ok condition ∧ condition.accepts "a.(x(y$" = true ∧
      condition.accepts "a.(x\ny$" = false := by
  have hpieces : Text.pieces '*' "A.(*$".toList = ["A.(".toList, ['$']] := by decide
  have hany : "A.(*$" ≠ "*" := by decide
  obtain ⟨condition, htaken, haccepts⟩ := wildcard_exact hany (by decide)
    (not_tooLarge_of_length_le (by decide))
  refine ⟨condition, htaken, ?_, ?_⟩
  · rw [haccepts, hpieces, names, List.map_singleton, List.prod_singleton]
    have hfront : "a.(".toList ∈ spellings "A.(".toList := mem_spellings.mpr (by decide)
    have hgap : "x(y".toList ∈ gaps := mem_gaps.mpr (by decide)
    have hback : ['$'] ∈ spellings ['$'] := mem_spellings.mpr (by decide)
    exact Language.append_mem_mul hfront (Language.append_mem_mul hgap hback)
  · rw [Bool.eq_false_iff, ne_eq, haccepts, hpieces, names, List.map_singleton, List.prod_singleton]
    intro hmem
    obtain ⟨front, hfront, rest, hrest, heq⟩ := Language.mem_mul.mp hmem
    obtain ⟨gap, hgap, back, hback, rfl⟩ := Language.mem_mul.mp hrest
    -- the line feed would have to stand in a piece
    have hfeed : '\n' ∈ front ++ (gap ++ back) := heq ▸ by decide
    have hletter : '\n' ∈ front ∨ '\n' ∈ back := by
      simpa [mem_gaps.mp hgap] using hfeed
    have hsmall : '\n' ∈ front.map Char.toLower ∨ '\n' ∈ back.map Char.toLower :=
      hletter.imp (List.mem_map_of_mem (f := Char.toLower)) (List.mem_map_of_mem (f := Char.toLower))
    rw [hfront, hback] at hsmall
    exact absurd hsmall (by decide)

end VirtualShell.NamePattern
