import Mathlib.Data.List.Basic
import VirtualShell.Search.Name

/-! # Reading plain patterns

How the reader goes through a pattern without groups, classes and flags: character by character, each
giving one part of the expression.
-/

namespace VirtualShell.Pattern

/-- The cursor at a text, with no flag besides the one for letters in both cases and no group yet. -/
def Cursor.plain (ignoreCase : Bool) (rest : List Char) : Cursor := ⟨rest, { ignoreCase }, 0, []⟩

namespace Parser

open NamePattern (special verbatim)

variable {top : Bool} {inner : Parser Pattern} {fuel : Nat} {done parts later last : List Pattern}
  {ignoreCase : Bool} {c : Char} {text rest after : List Char}

theorem special_eq : special = ['\\', '.', '+', '*', '?', '(', ')', '|', '[', ']', '\x7b', '\x7d', '^',
    '$', '#', '&', '-', '~'] := by
  unfold special
  rw [String.toList_ofList]

/-! ## One character -/

theorem branches_escaped (h : c ∈ special) :
    branches top inner (fuel + 1) done parts (.plain ignoreCase ('\\' :: c :: rest)) =
      branches top inner fuel done (ofChar ignoreCase c :: parts) (.plain ignoreCase rest) := by
  rw [special_eq] at h
  simp only [List.mem_cons, List.not_mem_nil, or_false] at h
  rcases h with rfl | rfl | rfl | rfl | rfl | rfl | rfl | rfl | rfl | rfl | rfl | rfl | rfl | rfl | rfl |
    rfl | rfl | rfl <;> rfl

theorem primitive_literal (h : c ∉ special) :
    primitive c (.plain ignoreCase (c :: rest)) =
      .ok (ofChar ignoreCase c, .plain ignoreCase rest) := by
  have hmeaning : c ≠ '\\' ∧ c ≠ '.' ∧ c ≠ '^' ∧ c ≠ '$' := by
    refine ⟨?_, ?_, ?_, ?_⟩ <;> rintro rfl <;> exact h (by rw [special_eq]; decide)
  unfold primitive
  split
  · exact absurd rfl hmeaning.1
  · exact absurd rfl hmeaning.2.1
  · exact absurd rfl hmeaning.2.2.1
  · exact absurd rfl hmeaning.2.2.2
  · rfl

theorem branches_literal (h : c ∉ special) :
    branches top inner (fuel + 1) done parts (.plain ignoreCase (c :: rest)) =
      branches top inner fuel done (ofChar ignoreCase c :: parts) (.plain ignoreCase rest) := by
  have hpart : primitive c (.plain ignoreCase (c :: rest)) =
      .ok (ofChar ignoreCase c, .plain ignoreCase rest) := primitive_literal h
  have hlayout : skipLayout (.plain ignoreCase (c :: rest)) = .ok ((), .plain ignoreCase (c :: rest)) := rfl
  have hpeek : peek (.plain ignoreCase (c :: rest)) = .ok (some c, .plain ignoreCase (c :: rest)) := rfl
  have hround : branches top inner (fuel + 1) done parts (.plain ignoreCase (c :: rest)) =
      (primitive c >>= fun part => branches top inner fuel done (part :: parts))
        (.plain ignoreCase (c :: rest)) := by
    rw [special_eq] at h
    simp only [List.mem_cons, List.not_mem_nil, or_false, not_or] at h
    rw [branches]
    simp only [bind, StateT.bind, Except.bind, hlayout, hpeek]
    simp only [h, imp_self]
    rfl
  rw [hround]
  simp only [bind, StateT.bind, hpart]
  rfl

/-- After a star comes no question mark, which would belong to the repetition. -/
theorem uncounted_star {body : Pattern} (h : rest.head? ≠ some '?') :
    uncounted 0 none (body :: parts) (.plain ignoreCase ('*' :: rest)) =
      .ok (repeated 0 none body :: parts, .plain ignoreCase rest) := by
  have hskip : skipQuestion (.plain ignoreCase rest) = .ok ((), .plain ignoreCase rest) := by
    change (if rest.head? = some '?' then skip 1 else pure ()) (Cursor.plain ignoreCase rest) = _
    rw [if_neg h]
    rfl
  change (skipQuestion >>= fun _ => pure (repeated 0 none body :: parts))
    (Cursor.plain ignoreCase rest) = _
  simp only [bind, StateT.bind, hskip]
  rfl

theorem branches_star {body : Pattern} (h : rest.head? ≠ some '?') :
    branches top inner (fuel + 1) done (body :: parts) (.plain ignoreCase ('*' :: rest)) =
      branches top inner fuel done (repeated 0 none body :: parts) (.plain ignoreCase rest) := by
  change (uncounted 0 none (body :: parts) >>= fun parts => branches top inner fuel done parts)
    (Cursor.plain ignoreCase ('*' :: rest)) = _
  simp only [bind, StateT.bind, uncounted_star h]
  rfl

/-! ## Many characters -/

/-- From one text the reader comes to another one, with more parts read, and has rounds left there. -/
def Reads (ignoreCase : Bool) (text : List Char) (parts : List Pattern) (rest : List Char)
    (later : List Pattern) : Prop :=
  ∀ top inner fuel done, text.length < fuel → ∃ left, rest.length < left ∧
    branches top inner fuel done parts (.plain ignoreCase text) =
      branches top inner left done later (.plain ignoreCase rest)

namespace Reads

theorem refl (ignoreCase : Bool) (text : List Char) (parts : List Pattern) :
    Reads ignoreCase text parts text parts := fun _ _ fuel _ hfuel => ⟨fuel, hfuel, rfl⟩

theorem trans (hfirst : Reads ignoreCase text parts rest later)
    (hsecond : Reads ignoreCase rest later after last) : Reads ignoreCase text parts after last := by
  intro top inner fuel done hfuel
  obtain ⟨left, hleft, hrun⟩ := hfirst top inner fuel done hfuel
  obtain ⟨spare, hspare, hmore⟩ := hsecond top inner left done hleft
  exact ⟨spare, hspare, hrun.trans hmore⟩

theorem round (hlength : rest.length < text.length)
    (h : ∀ top inner fuel done, branches top inner (fuel + 1) done parts (.plain ignoreCase text) =
      branches top inner fuel done later (.plain ignoreCase rest)) :
    Reads ignoreCase text parts rest later := by
  intro top inner fuel done hfuel
  cases fuel with
  | zero => exact absurd hfuel (Nat.not_lt_zero _)
  | succ fuel => exact ⟨fuel, by omega, h top inner fuel done⟩

theorem verbatim_cons (c : Char) (chars rest : List Char) (parts : List Pattern) :
    Reads ignoreCase (verbatim (c :: chars) ++ rest) parts (verbatim chars ++ rest)
      (ofChar ignoreCase c :: parts) := by
  by_cases hspecial : c ∈ special
  · have htext : verbatim (c :: chars) ++ rest = '\\' :: c :: (verbatim chars ++ rest) := by
      simp [verbatim, hspecial]
    rw [htext]
    exact round (by simp only [List.length_cons]; omega) fun _ _ _ _ => branches_escaped hspecial
  · have htext : verbatim (c :: chars) ++ rest = c :: (verbatim chars ++ rest) := by
      simp [verbatim, hspecial]
    rw [htext]
    exact round (by simp) fun _ _ _ _ => branches_literal hspecial

/-- A text that stands for itself gives one part for each of its characters. -/
theorem verbatim (chars rest : List Char) (parts : List Pattern) :
    Reads ignoreCase (verbatim chars ++ rest) parts rest
      ((chars.map (ofChar ignoreCase)).reverse ++ parts) := by
  induction chars generalizing parts with
  | nil => exact refl _ _ _
  | cons c chars ih =>
      have hparts : ((c :: chars).map (ofChar ignoreCase)).reverse ++ parts =
          (chars.map (ofChar ignoreCase)).reverse ++ ofChar ignoreCase c :: parts := by simp
      rw [hparts]
      exact (verbatim_cons c chars rest parts).trans (ih _)

theorem start : Reads ignoreCase ('^' :: rest) parts rest (look .textStart :: parts) :=
  round (by simp) fun _ _ _ _ => rfl

theorem finish : Reads ignoreCase ('$' :: rest) parts rest (look .textEnd :: parts) :=
  round (by simp) fun _ _ _ _ => rfl

/-- A dot and a star give one part. -/
theorem anyRun (h : rest.head? ≠ some '?') :
    Reads ignoreCase ('.' :: '*' :: rest) parts rest (repeated 0 none anyButLineFeed :: parts) := by
  have hdot : Reads ignoreCase ('.' :: '*' :: rest) parts ('*' :: rest) (anyButLineFeed :: parts) :=
    round (by simp) fun _ _ _ _ => rfl
  exact hdot.trans (round (by simp) fun _ _ _ _ => branches_star h)

theorem parse_eq (h : Reads ignoreCase text [] [] parts) :
    parse text ignoreCase = .ok (ofSequence parts.reverse) := by
  obtain ⟨left, hleft, hrun⟩ := h true (expression false nestingLimit) (text.length + 1) [] (by omega)
  change (branches true (expression false nestingLimit) (text.length + 1) [] []
    (.plain ignoreCase text)).map Prod.fst = _
  rw [hrun]
  cases left with
  | zero => exact absurd hleft (Nat.not_lt_zero _)
  | succ left => rfl

end Reads

end Parser

end VirtualShell.Pattern
