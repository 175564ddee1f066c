import Mathlib.Computability.Language
import VirtualShell.Pattern.Matcher

/-! # What an expression spells

A set of positions in a text is a language: the beginnings of the text that end at those positions.  An
expression takes this language to its product with the language that the expression spells, so a match is
a factorization of the text.
-/

namespace VirtualShell.Pattern

/-! ## Languages -/

/-- What can follow a character in a language. -/
def after (c : Char) (language : Language Char) : Language Char := {word | c :: word ∈ language}

def emptyIf (condition : Bool) : Language Char := {word | word = [] ∧ condition = true}

def single (property : Char → Bool) : Language Char := {word | ∃ c, word = [c] ∧ property c = true}

def runs (property : Char → Bool) : Language Char := {word | ∀ c ∈ word, property c = true}

def shared (first second : Language Char) : Language Char := {word | word ∈ first ∧ word ∈ second}

variable {c : Char} {word text : List Char} {here condition : Bool} {property : Char → Bool}
  {starts : Positions} {language fronts first second : Language Char}

@[simp] theorem mem_after : word ∈ after c language ↔ c :: word ∈ language := Iff.rfl

@[simp] theorem mem_emptyIf : word ∈ emptyIf condition ↔ word = [] ∧ condition = true := Iff.rfl

@[simp] theorem mem_single : word ∈ single property ↔ ∃ c, word = [c] ∧ property c = true := Iff.rfl

@[simp] theorem mem_runs : word ∈ runs property ↔ ∀ c ∈ word, property c = true := Iff.rfl

@[simp] theorem mem_shared : word ∈ shared first second ↔ word ∈ first ∧ word ∈ second := Iff.rfl

@[simp] theorem mem_singleton : word ∈ ({text} : Language Char) ↔ word = text := Iff.rfl

@[simp] theorem mem_top : word ∈ (⊤ : Language Char) := trivial

theorem nil_mem_mul : [] ∈ first * second ↔ [] ∈ first ∧ [] ∈ second := by
  simp [Language.mem_mul]

/-- A text of a product begins in the first language, or the first language gives nothing to it. -/
theorem cons_mem_mul :
    c :: word ∈ first * second ↔ word ∈ after c first * second ∨ [] ∈ first ∧ c :: word ∈ second := by
  constructor
  · intro h
    obtain ⟨front, hfront, back, hback, heq⟩ := Language.mem_mul.mp h
    cases front with
    | nil =>
        rw [List.nil_append] at heq
        subst heq
        exact .inr ⟨hfront, hback⟩
    | cons d front =>
        rw [List.cons_append, List.cons.injEq] at heq
        obtain ⟨rfl, rfl⟩ := heq
        exact .inl (Language.mem_mul.mpr ⟨front, hfront, back, hback, rfl⟩)
  · rintro (h | ⟨hempty, h⟩)
    · obtain ⟨front, hfront, back, hback, rfl⟩ := Language.mem_mul.mp h
      exact Language.mem_mul.mpr ⟨c :: front, hfront, back, hback, rfl⟩
    · exact Language.mem_mul.mpr ⟨[], hempty, c :: word, h, rfl⟩

theorem mem_emptyIf_mul : word ∈ emptyIf condition * second ↔ condition = true ∧ word ∈ second := by
  simp [Language.mem_mul, and_assoc]

/-! ## Marked positions -/

/-- The marked positions of a text are those at which a beginning of the text in the language ends. -/
inductive Marks : List Char → Positions → Language Char → Prop
  | nil {here : Bool} {fronts : Language Char} (empty : here = true ↔ [] ∈ fronts) :
      Marks [] [here] fronts
  | cons {c : Char} {text : List Char} {here : Bool} {later : Positions} {fronts : Language Char}
      (empty : here = true ↔ [] ∈ fronts) (rest : Marks text later (after c fronts)) :
      Marks (c :: text) (here :: later) fronts

namespace Marks

theorem past_from (h : Marks text starts fronts) (property : Char → Bool) (here : Bool) :
    Marks text (here :: List.zipWith (fun start c => start && property c) starts text)
      (fronts * single property + emptyIf here) := by
  induction h generalizing here with
  | nil empty => exact .nil (by simp [Language.mem_add, nil_mem_mul])
  | @cons c text start later fronts empty rest ih =>
      refine .cons (by simp [Language.mem_add, nil_mem_mul]) ?_
      have hrest : after c (fronts * single property + emptyIf here) =
          after c fronts * single property + emptyIf (start && property c) := by
        ext word
        simp [Language.mem_add, cons_mem_mul, ← empty, and_assoc, and_left_comm]
      rw [hrest]
      exact ih (start && property c)

theorem past (h : Marks text starts fronts) (property : Char → Bool) :
    Marks text (past property text starts) (fronts * single property) := by
  have hempty : fronts * single property = fronts * single property + emptyIf false := by
    ext word
    simp [Language.mem_add]
  rw [hempty]
  exact h.past_from property false

theorem sweep_from (h : Marks text starts fronts) (property : Char → Bool) (here : Bool) :
    Marks text (sweep property here text starts) ((fronts + emptyIf here) * runs property) := by
  induction h generalizing here with
  | nil empty => exact .nil (by simp [Language.mem_add, nil_mem_mul, ← empty, or_comm])
  | @cons c text start later fronts empty rest ih =>
      refine .cons (by simp [Language.mem_add, nil_mem_mul, ← empty, or_comm]) ?_
      have hrest : after c ((fronts + emptyIf here) * runs property) =
          (after c fronts + emptyIf ((here || start) && property c)) * runs property := by
        have hafter : after c (fronts + emptyIf here) = after c fronts := by
          ext word
          simp [Language.mem_add]
        ext word
        rw [mem_after, cons_mem_mul, hafter, add_mul]
        simp [Language.mem_add, mem_emptyIf_mul, ← empty, and_assoc, or_comm]
      rw [hrest]
      exact ih _

theorem sweep (h : Marks text starts fronts) (property : Char → Bool) :
    Marks text (sweep property false text starts) (fronts * runs property) := by
  have hnone : fronts = fronts + emptyIf false := by
    ext word
    simp [Language.mem_add]
  rw [hnone]
  exact h.sweep_from property false

theorem nowhere (text : List Char) : Marks text (nowhere text) 0 := by
  induction text with
  | nil => exact .nil (by simp)
  | cons c text ih =>
      have hrest : after c 0 = 0 := by
        ext word
        simp
      exact .cons (by simp) (hrest ▸ ih)

theorem everywhere (text : List Char) : Marks text (everywhere text) ⊤ := by
  induction text with
  | nil => exact .nil (by simp)
  | cons c text ih => exact .cons (by simp) ih

theorem inter {others : Positions} {language : Language Char} (h : Marks text starts fronts)
    (hothers : Marks text others language) :
    Marks text (List.zipWith (· && ·) starts others) (shared fronts language) := by
  induction h generalizing others language with
  | nil empty =>
      cases hothers with
      | nil also => exact .nil (by rw [Bool.and_eq_true, empty, also]; rfl)
  | cons empty rest ih =>
      cases hothers with
      | cons also later => exact .cons (by rw [Bool.and_eq_true, empty, also]; rfl) (ih later)

theorem contains_iff (h : Marks text starts fronts) :
    starts.contains true = true ↔ ∃ front, front <+: text ∧ front ∈ fronts := by
  induction h with
  | nil empty => simp [← empty]
  | @cons c text start later fronts empty rest ih =>
      rw [List.contains_cons, Bool.or_eq_true, ih]
      constructor
      · rintro (hstart | ⟨front, hprefix, hfront⟩)
        · exact ⟨[], List.nil_prefix, empty.mp (by simpa using hstart)⟩
        · exact ⟨c :: front, List.cons_prefix_cons.mpr ⟨rfl, hprefix⟩, hfront⟩
      · rintro ⟨front, hprefix, hfront⟩
        cases front with
        | nil => exact .inl (by simpa using empty.mpr hfront)
        | cons d front =>
            obtain ⟨rfl, hlater⟩ := List.cons_prefix_cons.mp hprefix
            exact .inr ⟨front, hlater, hfront⟩

end Marks

/-! ## Expressions -/

/-- From the ends of any beginnings of a text the expression leads to the ends of their products with the
language. -/
def Spells (pattern : Pattern) (language : Language Char) : Prop :=
  ∀ text starts fronts, Marks text starts fronts → Marks text (ends text pattern starts) (fronts * language)

def SpellAll (parts : List Pattern) (language : Language Char) : Prop :=
  ∀ text starts fronts, Marks text starts fronts →
    Marks text (endsOfSequence text parts starts) (fronts * language)

theorem spells_char (c : Char) : Spells (char c) (single (· = c)) := by
  intro text starts fronts h
  rw [ends]
  exact h.past _

theorem spells_oneOf (set : CharSet) : Spells (oneOf set) (single set.contains) := by
  intro text starts fronts h
  rw [ends]
  exact h.past _

theorem spells_repeated_oneOf (set : CharSet) : Spells (repeated 0 none (oneOf set)) (runs set.contains) := by
  intro text starts fronts h
  have hends : ends text (repeated 0 none (oneOf set)) starts = sweep set.contains false text starts := by
    simp [ends, property?, exactly]
  rw [hends]
  exact h.sweep _

theorem spellAll_nil : SpellAll [] 1 := by
  intro text starts fronts h
  rw [endsOfSequence, mul_one]
  exact h

theorem spellAll_cons {part : Pattern} {rest : List Pattern} (hpart : Spells part first)
    (hrest : SpellAll rest second) : SpellAll (part :: rest) (first * second) := by
  intro text starts fronts h
  rw [endsOfSequence, ← mul_assoc]
  exact hrest _ _ _ (hpart _ _ _ h)

theorem endsOfSequence_append (text : List Char) (parts later : List Pattern) (starts : Positions) :
    endsOfSequence text (parts ++ later) starts =
      endsOfSequence text later (endsOfSequence text parts starts) := by
  induction parts generalizing starts with
  | nil => rw [List.nil_append, endsOfSequence]
  | cons part parts ih => rw [List.cons_append, endsOfSequence, endsOfSequence, ih]

theorem spellAll_append {parts later : List Pattern} (hparts : SpellAll parts first)
    (hlater : SpellAll later second) : SpellAll (parts ++ later) (first * second) := by
  intro text starts fronts h
  rw [endsOfSequence_append, ← mul_assoc]
  exact hlater _ _ _ (hparts _ _ _ h)

/-! ## The whole text -/

theorem marks_textStart (text : List Char) : Marks text (holding .textStart none text) 1 := by
  have hinside : ∀ c, holding .textStart (some c) text.tail = nowhere text.tail := by
    induction text.tail with
    | nil => exact fun _ => rfl
    | cons d text ih => exact fun _ => congrArg (false :: ·) (ih d)
  cases text with
  | nil => exact .nil (by simp [holds])
  | cons c text =>
      have hrest : after c 1 = 0 := by
        ext word
        simp
      have hlater : Marks text (holding .textStart (some c) text) (after c 1) := by
        rw [hrest, show holding .textStart (some c) text = nowhere text from hinside c]
        exact .nowhere text
      exact .cons (by simp [holds]) hlater

theorem marks_textEnd (text : List Char) (left : Option Char) : Marks text (holding .textEnd left text) {text} := by
  induction text generalizing left with
  | nil => exact .nil (by simp [holds])
  | cons c text ih =>
      have hrest : after c {c :: text} = {text} := by
        ext word
        simp
      exact .cons (by simp [holds]) (hrest ▸ ih (some c))

/-- An expression between the two ends of a text is about the whole text. -/
theorem occursIn_whole_iff {parts : List Pattern} (h : SpellAll parts language) (text : String) :
    occursIn (sequence (look .textStart :: (parts ++ [look .textEnd]))) text = true ↔
      text.toList ∈ language := by
  have hstart := (Marks.everywhere text.toList).inter (marks_textStart text.toList)
  have hempty : shared ⊤ 1 = 1 := by
    ext word
    simp
  rw [hempty] at hstart
  have hparts := h _ _ _ hstart
  rw [one_mul] at hparts
  have hend := hparts.inter (marks_textEnd text.toList none)
  rw [occursIn, ends, endsOfSequence, endsOfSequence_append, endsOfSequence, endsOfSequence, ends, ends,
    hend.contains_iff]
  constructor
  · rintro ⟨front, _, hfront⟩
    obtain ⟨hlanguage, heq⟩ := mem_shared.mp hfront
    exact mem_singleton.mp heq ▸ hlanguage
  · exact fun htext => ⟨text.toList, List.prefix_rfl, mem_shared.mpr ⟨htext, mem_singleton.mpr rfl⟩⟩

end VirtualShell.Pattern
