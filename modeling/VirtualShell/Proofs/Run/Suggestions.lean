import Mathlib.Data.List.MinMax
import Mathlib.Data.String.Basic
import VirtualShell.Proofs.Run.Rewriting
import VirtualShell.Proofs.Text.EditDistance

/-! # Names that are suggested

Of a list of candidates the first of the nearest ones is suggested, if it is near enough.  A registry lists
its names in their order, so for a name that it does not know the interpreter suggests the one that comes
first in that order among the nearest.
-/

namespace VirtualShell

/-! ## The nearest candidate -/

namespace Suggestion

variable {input chosen : String} {candidates : List String}

def away (input candidate : String) : Nat := editDistance input.toList candidate.toList

/-- No candidate is nearer to the input, and each one listed before is farther away. -/
def IsNearest (input : String) (candidates : List String) (chosen : String) : Prop :=
  ∃ before after, candidates = before ++ chosen :: after ∧
    (∀ other ∈ before, away input chosen < away input other) ∧
    ∀ other ∈ after, away input chosen ≤ away input other

theorem foldl_better (input : String) (candidates : List String) :
    candidates.foldl (better input) none =
      (candidates.argmin (away input)).map fun candidate => (candidate, away input candidate) := by
  let measured : Option String → Option (String × Nat) := Option.map fun other => (other, away input other)
  have hstep : ∀ (best : Option String) (candidate : String),
      better input (measured best) candidate =
        measured (List.argAux (fun b c => away input b < away input c) best candidate) := by
    intro best candidate
    have hfound : distance input.toList candidate.toList = away input candidate :=
      distance_eq_editDistance _ _
    cases best with
    | none => simp only [measured, better, hfound, List.argAux, Option.map_none, Option.map_some]
    | some other =>
        simp only [measured, better, hfound, List.argAux, Option.map_some]
        by_cases hnearer : away input candidate < away input other
        · rw [if_pos hnearer, if_pos hnearer, Option.map_some]
        · rw [if_neg hnearer, if_neg hnearer, Option.map_some]
  show candidates.foldl (better input) (measured none) = _
  exact List.foldl_hom measured hstep

theorem nearest_eq (input : String) (candidates : List String) :
    nearest input candidates =
      (candidates.argmin (away input)).filter fun candidate => away input candidate ≤ farthest := by
  rw [nearest, foldl_better, Option.filter_map, Option.map_map]
  exact Option.map_id'

theorem argmin_eq_some_iff_isNearest :
    candidates.argmin (away input) = some chosen ↔ IsNearest input candidates chosen := by
  rw [List.argmin_eq_some_iff]
  constructor
  · intro ⟨hmem, hleast, hfirst⟩
    obtain ⟨before, after, hsplit, hnew⟩ := List.eq_append_cons_of_mem hmem
    refine ⟨before, after, hsplit, fun other hother => ?_, fun other hother => ?_⟩
    · by_contra hnot
      have hplace := hfirst other (by simp [hsplit, hother]) (by omega)
      have hinside : before.idxOf other < before.length := List.idxOf_lt_length_of_mem hother
      rw [hsplit, List.idxOf_append_of_notMem hnew, List.idxOf_append_of_mem hother] at hplace
      omega
    · exact hleast other (by simp [hsplit, hother])
  · intro ⟨before, after, hsplit, hbefore, hafter⟩
    have hnew : chosen ∉ before := fun hmem => Nat.lt_irrefl _ (hbefore chosen hmem)
    subst hsplit
    refine ⟨by simp, fun other hother => ?_, fun other hother hle => ?_⟩
    · rw [List.mem_append, List.mem_cons] at hother
      rcases hother with hother | rfl | hother
      · exact Nat.le_of_lt (hbefore other hother)
      · exact Nat.le_refl _
      · exact hafter other hother
    · have hlater : other ∉ before := fun hmem => Nat.not_le_of_lt (hbefore other hmem) hle
      rw [List.idxOf_append_of_notMem hnew, List.idxOf_append_of_notMem hlater, List.idxOf_cons_self]
      exact Nat.le_add_right _ _

theorem nearest_eq_some_iff :
    nearest input candidates = some chosen ↔ away input chosen ≤ 2 ∧ IsNearest input candidates chosen := by
  rw [nearest_eq, Option.filter_eq_some_iff, argmin_eq_some_iff_isNearest, decide_eq_true_eq, and_comm]
  rfl

theorem nearest_eq_none_iff :
    nearest input candidates = none ↔ ∀ other ∈ candidates, 2 < away input other := by
  rw [nearest_eq, Option.filter_eq_none_iff]
  constructor
  · intro hfar other hother
    obtain ⟨least, hleast⟩ := Option.ne_none_iff_exists'.mp
      (mt (List.argmin_eq_none (f := away input)).mp (List.ne_nil_of_mem hother))
    have hle : away input least ≤ away input other := List.le_of_mem_argmin hother hleast
    have hnot := hfar least hleast
    rw [decide_eq_true_eq, farthest] at hnot
    omega
  · intro hfar least hleast
    have hlt := hfar least (List.argmin_mem hleast)
    rw [decide_eq_true_eq, farthest]
    omega

theorem IsNearest.least_of_pairwise (h : IsNearest input candidates chosen)
    (hsorted : candidates.Pairwise (· < ·)) :
    chosen ∈ candidates ∧ ∀ other ∈ candidates, away input chosen < away input other ∨
      away input chosen = away input other ∧ chosen ≤ other := by
  obtain ⟨before, after, rfl, hbefore, hafter⟩ := h
  refine ⟨by simp, fun other hother => ?_⟩
  rw [List.mem_append, List.mem_cons] at hother
  rcases hother with hother | rfl | hother
  · exact .inl (hbefore other hother)
  · exact .inr ⟨rfl, le_refl _⟩
  · have hlater : chosen < other := by
      have hbehind := (List.pairwise_append.mp hsorted).2.1
      exact (List.pairwise_cons.mp hbehind).1 other hother
    rcases Nat.lt_or_eq_of_le (hafter other hother) with hlt | heq
    · exact .inl hlt
    · exact .inr ⟨heq, le_of_lt hlater⟩

end Suggestion

/-! ## Commands that are not found -/

namespace Interpreter

open Text Input Suggestion

variable {registry : Registry} {line first : String} {given : List String} {state : State}

/-- A line without operators and aliases, whose first word is no program, is refused. -/
theorem execute_of_unknown (hline : Plain line.toList)
    (hwords : words (String.ofList (trim line.toList)) = first :: given)
    (halias : state.session.aliases.value? (String.ofList (firstWord line.toList).1) = none)
    (hunknown : registry.get? (lowerOf first) = none) :
    execute registry line state = (notFound registry first (lowerOf first), state) := by
  have hne : trim line.toList ≠ [] := by
    intro hnil
    rw [hnil] at hwords
    cases hwords
  have hfirst : (firstWord line.toList).1 = leadingWord (trim line.toList) := by
    rw [firstWord, List.span_eq_takeWhile_dropWhile]
    rfl
  have hturn : turn state.session.aliases registry.contains [] line.toList =
      .done (.command (trim line.toList)) := by
    apply turn_of_get?_none hne
    rw [hfirst, AliasTable.value?, lowerOf, String.toList_ofList] at halias
    exact halias
  have hrun := execute_of_plain registry state hline
  rw [runCommand_of_done registry aliasDepth hturn, String.ofList_toList] at hrun
  rw [hrun, runOutcome, dispatch, hwords]
  dsimp only
  rw [hunknown]
  rfl

/-- A candidate is suggested exactly if there is one within two edits, and it is the first of the nearest.
So a command that is not found, in a line without operators and without an alias in front, is followed by a
hint exactly if a name of the registry is within two edits of its name in lower case.  The hint then tells
the name that comes first in order among the nearest.  A line is cut into words without the blanks at its
ends. -/
theorem suggests_nearest :
    (∀ (input : String) (candidates : List String),
      ((nearest input candidates).isSome ↔ ∃ near ∈ candidates, away input near ≤ 2) ∧
      ∀ chosen, nearest input candidates = some chosen ↔
        away input chosen ≤ 2 ∧ IsNearest input candidates chosen) ∧
    ∀ (registry : Registry) (line first : String) (given : List String) (state : State),
      Plain line.toList → words (String.ofList (trim line.toList)) = first :: given →
      state.session.aliases.value? (String.ofList (firstWord line.toList).1) = none →
      registry.get? (lowerOf first) = none →
      ∃ hints,
        execute registry line state = (.error ("bash: " ++ first ++ ": command not found") :: hints, state) ∧
        (hints ≠ [] ↔ ∃ near ∈ registry.names, away (lowerOf first) near ≤ 2) ∧
        (hints ≠ [] → ∃ chosen ∈ registry.names,
          hints = [.hint ("Did you mean '" ++ chosen ++ "'?")] ∧
          ∀ other ∈ registry.names, away (lowerOf first) chosen < away (lowerOf first) other ∨
            away (lowerOf first) chosen = away (lowerOf first) other ∧ chosen ≤ other) := by
  have hexists : ∀ (input : String) (candidates : List String),
      (nearest input candidates).isSome ↔ ∃ near ∈ candidates, away input near ≤ 2 := by
    intro input candidates
    rw [← not_iff_not, Option.not_isSome_iff_eq_none, nearest_eq_none_iff]
    simp only [not_exists, not_and, Nat.not_le]
  refine ⟨fun input candidates => ⟨hexists input candidates, fun chosen => nearest_eq_some_iff⟩, ?_⟩
  intro registry line first given state hline hwords halias hunknown
  have hrun := execute_of_unknown hline hwords halias hunknown
  have hnear := hexists (lowerOf first) registry.names
  rw [notFound] at hrun
  refine ⟨_, hrun, ?_⟩
  cases hnearest : nearest (lowerOf first) registry.names with
  | none =>
      rw [hnearest] at hnear
      exact ⟨by simpa using hnear, fun hne => absurd rfl hne⟩
  | some chosen =>
      rw [hnearest] at hnear
      obtain ⟨hmem, hleast⟩ := (nearest_eq_some_iff.mp hnearest).2.least_of_pairwise registry.sorted
      exact ⟨by simpa using hnear, fun _ => ⟨chosen, hmem, rfl, hleast⟩⟩

/-- Quotes hide an alias, and of two names at the same distance the first one is suggested. -/
theorem suggests_nearest_tied :
    let registry : Registry :=
      (Registry.register "cd" (.builtin .cd) .empty).register "cp" (.builtin .cp) |>.register "cat" (.builtin .cat)
    let session := { Session.start "user" "webterm" "/" false with aliases := .ofList [("cx", "cat")] }
    let state : State := ⟨session, ⟨Node.directory [], []⟩, .epoch⟩
    Plain " 'Cx' a ".toList ∧
      words (String.ofList (trim " 'Cx' a ".toList)) = ["Cx", "a"] ∧
      session.aliases.value? (String.ofList (firstWord " 'Cx' a ".toList).1) = none ∧
      registry.get? (lowerOf "Cx") = none ∧
      execute registry " 'Cx' a " state =
        ([.error "bash: Cx: command not found", .hint "Did you mean 'cd'?"], state) := by
  intro registry session state
  have hlisted : registry.names = ["cat", "cd", "cp"] := by decide
  have hline : Plain " 'Cx' a ".toList := by decide
  have hwords : words (String.ofList (trim " 'Cx' a ".toList)) = ["Cx", "a"] := by decide
  have halias : session.aliases.value? (String.ofList (firstWord " 'Cx' a ".toList).1) = none := by decide
  have hunknown : registry.get? (lowerOf "Cx") = none := by decide
  have hcat : away (lowerOf "Cx") "cat" = 2 := (distance_eq_editDistance _ _).symm.trans (by decide)
  have hcd : away (lowerOf "Cx") "cd" = 1 := (distance_eq_editDistance _ _).symm.trans (by decide)
  have hcp : away (lowerOf "Cx") "cp" = 1 := (distance_eq_editDistance _ _).symm.trans (by decide)
  obtain ⟨hints, hrun, hnear, hchosen⟩ :=
    suggests_nearest.2 registry " 'Cx' a " "Cx" ["a"] state hline hwords halias hunknown
  rw [hlisted] at hnear hchosen
  have hsome : hints ≠ [] := hnear.mpr ⟨"cat", by decide, by omega⟩
  obtain ⟨chosen, hmem, hhint, hleast⟩ := hchosen hsome
  have hfirst := hleast "cd" (by decide)
  have hname : chosen = "cd" := by
    simp only [List.mem_cons, List.not_mem_nil, or_false] at hmem
    rcases hmem with rfl | rfl | rfl
    · omega
    · rfl
    · exact absurd (hfirst.resolve_left (by omega)).2 (by decide)
  rw [hhint, hname] at hrun
  exact ⟨hline, hwords, halias, hunknown, hrun⟩

end Interpreter

end VirtualShell
