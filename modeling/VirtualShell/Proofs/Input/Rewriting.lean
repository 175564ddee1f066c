import VirtualShell.Input.Alias
import VirtualShell.Proofs.Input.Pipelines
import VirtualShell.Proofs.Input.Words
import VirtualShell.Proofs.Tree.Entries

/-! # Rewriting a line

Without operators between commands, replacing aliases is a loop over one line of text.  Each turn puts
the value of an alias in the place of the first word, until nothing is left to replace; then a command is
left, or nothing, or an alias has led back to itself.
-/

namespace VirtualShell.Input

open Text

/-! ## Texts without operators -/

structure Plain (text : List Char) : Prop where
  pair : ¬ ['&', '&'] <:+: text
  semicolon : ';' ∉ text
  bar : '|' ∉ text

instance : DecidablePred Plain := fun text =>
  decidable_of_iff (occursIn ['&', '&'] text = false ∧ ';' ∉ text ∧ '|' ∉ text) <| by
    rw [← Bool.not_eq_true, occursIn_iff_infix]
    exact ⟨fun ⟨hpair, hsemicolon, hbar⟩ => ⟨hpair, hsemicolon, hbar⟩,
      fun h => ⟨h.pair, h.semicolon, h.bar⟩⟩

namespace Plain

variable {text part first second : List Char}

theorem of_infix (h : Plain text) (hpart : part <:+: text) : Plain part where
  pair hpair := h.pair (hpair.trans hpart)
  semicolon hmem := h.semicolon (hpart.subset hmem)
  bar hmem := h.bar (hpart.subset hmem)

theorem append_cons {c : Char} (hc : isBlank c = true) (hfirst : Plain first) (hsecond : Plain second) :
    Plain (first ++ c :: second) := by
  have hne : ∀ d, isBlank d = false → d ≠ c := by
    rintro d hd rfl
    rw [hc] at hd
    cases hd
  have hpair := occursIn_pair_append (hne '&' (by decide)).symm first second
  refine ⟨?_, ?_, ?_⟩
  · rw [← occursIn_iff_infix, hpair, Bool.or_eq_true, occursIn_iff_infix, occursIn_iff_infix]
    exact not_or.mpr ⟨hfirst.pair, hsecond.pair⟩
  · simp [hfirst.semicolon, hsecond.semicolon, hne ';' (by decide)]
  · simp [hfirst.bar, hsecond.bar, hne '|' (by decide)]

theorem nil : Plain [] := ⟨by simp, by simp, by simp⟩

theorem trim_iff (text : List Char) : Plain (trim text) ↔ Plain text := by
  have hcons : ∀ c text, isBlank c = true → Plain (c :: text) = Plain text := fun c text hc =>
    propext ⟨fun h => h.of_infix (List.suffix_cons c text).isInfix, fun h => nil.append_cons hc h⟩
  have hconcat : ∀ c text, isBlank c = true → Plain (text ++ [c]) = Plain text := fun c text hc =>
    propext ⟨fun h => h.of_infix (List.prefix_append text [c]).isInfix, fun h => h.append_cons hc nil⟩
  rw [trim_induction hcons hconcat text]

theorem shape_eq (h : Plain text) : shape (String.ofList text) = .single (String.ofList (trim text)) := by
  have hpair : occursIn ['&', '&'] text = false := by
    rw [← Bool.not_eq_true, occursIn_iff_infix]
    exact h.pair
  simp [shape, hpair, h.semicolon, h.bar]

end Plain

def PlainValues (table : AliasTable) : Prop := ∀ entry ∈ table.entries, Plain entry.2.toList

instance (table : AliasTable) : Decidable (PlainValues table) :=
  inferInstanceAs (Decidable (∀ entry ∈ table.entries, Plain entry.2.toList))

/-! ## The loop -/

/-- What a line comes to once no alias is left to replace in it. -/
inductive Outcome
  | nothing
  | command (text : List Char)
  /-- The alias is met inside its own value, or too far inside the values of others. -/
  | cycle (name : String)
deriving DecidableEq, Repr

inductive Turn
  | done (outcome : Outcome)
  | again (name : String) (line : List Char)
deriving DecidableEq, Repr

variable (table : AliasTable) (isCommand : String → Bool)

/-- What the loop does with a line after the aliases `used` were replaced. -/
def turn (used : List String) (line : List Char) : Turn :=
  let text := trim line
  let name := String.ofList (lower (leadingWord text))
  if text = [] then .done .nothing
  else match table.get? name with
    | none => .done (.command text)
    | some value =>
      if name ∈ used then .done (if isCommand name then .command text else .cycle name)
      else if aliasDepth ≤ used.length then .done (.cycle name)
      else .again name (value.toList ++ ' ' :: trimLeft (text.dropWhile (!isBlank ·)))

variable {table isCommand} {used : List String} {line next : List Char} {name : String}

/-- An alias is replaced only if it is a new one and there is room for it. -/
theorem of_turn_eq_again (h : turn table isCommand used line = .again name next) :
    name ∉ used ∧ used.length < aliasDepth ∧ trim line ≠ [] ∧
    ∃ value, table.get? name = some value ∧
      next = value.toList ++ ' ' :: trimLeft ((trim line).dropWhile (!isBlank ·)) := by
  unfold turn at h
  dsimp only at h
  split at h
  · cases h
  rename_i htext
  split at h
  · cases h
  rename_i value hvalue
  split at h
  · cases h
  rename_i hnew
  split at h
  · cases h
  rename_i hroom
  cases h
  exact ⟨hnew, Nat.lt_of_not_le hroom, htext, value, hvalue, rfl⟩

theorem turn_of_get?_none (hne : trim line ≠ [])
    (h : table.get? (String.ofList (lower (leadingWord (trim line)))) = none) :
    turn table isCommand used line = .done (.command (trim line)) := by
  unfold turn
  dsimp only
  rw [if_neg hne, h]

variable (table isCommand) in
/-- The loop, with the aliases that were replaced in front of `used`, the last one first. -/
def rewrite (used : List String) (line : List Char) : List String × Outcome :=
  match _h : turn table isCommand used line with
  | .done outcome => (used, outcome)
  | .again name next => rewrite (name :: used) next
termination_by aliasDepth - used.length
decreasing_by
  have hroom := (of_turn_eq_again _h).2.1
  rw [List.length_cons]
  omega

theorem rewrite_of_done {outcome : Outcome} (h : turn table isCommand used line = .done outcome) :
    rewrite table isCommand used line = (used, outcome) := by
  rw [rewrite]
  split <;> simp_all

theorem rewrite_of_again (h : turn table isCommand used line = .again name next) :
    rewrite table isCommand used line = rewrite table isCommand (name :: used) next := by
  rw [rewrite]
  split <;> simp_all

/-! ## What the loop keeps -/

theorem rewrite_bounded (hnodup : used.Nodup) (hlength : used.length ≤ aliasDepth) :
    (rewrite table isCommand used line).1.Nodup ∧
      (rewrite table isCommand used line).1.length ≤ aliasDepth := by
  fun_induction rewrite table isCommand used line with
  | case1 used line outcome h => exact ⟨hnodup, hlength⟩
  | case2 used line name next h ih =>
      obtain ⟨hnew, hroom, _⟩ := of_turn_eq_again h
      exact ih (List.nodup_cons.mpr ⟨hnew, hnodup⟩) hroom

/-- The runs of characters of a line after its first one gave way to the value of an alias. -/
def replaceFirst (table : AliasTable) (name : String) (words : List (List Char)) : List (List Char) :=
  unbroken ((table.get? name).getD "").toList ++ words.tail

theorem unbroken_of_again (h : turn table isCommand used line = .again name next) :
    unbroken next = replaceFirst table name (unbroken line) := by
  obtain ⟨_, _, htext, value, hvalue, rfl⟩ := of_turn_eq_again h
  rw [unbroken_append (by decide), replaceFirst, hvalue, ← unbroken_trim line,
    unbroken_of_trimmed (trimmed_trim line) htext]
  rfl

theorem unbroken_of_done {text : List Char} (h : turn table isCommand used line = .done (.command text)) :
    unbroken text = unbroken line := by
  unfold turn at h
  dsimp only at h
  rw [← unbroken_trim line]
  split at h
  · cases h
  split at h
  · cases h
    rfl
  split at h
  · split at h
    · cases h
      rfl
    · cases h
  split at h
  · cases h
  · cases h

/-- The aliases that the loop replaces are added in front, and the line with which it ends is the first
one after all of these replacements. -/
theorem exists_rewrite_append (table : AliasTable) (isCommand : String → Bool) (used : List String)
    (line : List Char) :
    ∃ replaced, (rewrite table isCommand used line).1 = replaced ++ used ∧
      ∀ text, (rewrite table isCommand used line).2 = .command text →
        unbroken text = replaced.foldr (replaceFirst table) (unbroken line) := by
  fun_induction rewrite table isCommand used line with
  | case1 used line outcome h =>
      refine ⟨[], rfl, fun text htext => ?_⟩
      change outcome = .command text at htext
      rw [htext] at h
      exact unbroken_of_done h
  | case2 used line name next h ih =>
      obtain ⟨replaced, hused, hwords⟩ := ih
      refine ⟨replaced ++ [name], by simp [hused], fun text htext => ?_⟩
      rw [hwords text htext, unbroken_of_again h, List.foldr_append]
      rfl

/-- Each replacement takes one run of characters from the front at the most. -/
theorem drop_suffix_foldr (table : AliasTable) (names : List String) (words : List (List Char)) :
    words.drop names.length <:+ names.foldr (replaceFirst table) words := by
  induction names with
  | nil => exact List.suffix_refl words
  | cons name names ih =>
      have htail : words.drop (name :: names).length <:+ (names.foldr (replaceFirst table) words).tail := by
        obtain ⟨front, hfront⟩ := ih
        rw [← hfront, List.length_cons, ← List.tail_drop]
        cases front with
        | nil => exact List.suffix_refl _
        | cons word front =>
            rw [List.cons_append, List.tail_cons]
            exact (List.tail_suffix _).trans (List.suffix_append front _)
      rw [List.foldr_cons, replaceFirst]
      exact htail.trans (List.suffix_append _ _)

theorem plain_of_again (h : turn table isCommand used line = .again name next) (hline : Plain line)
    (hvalues : PlainValues table) : Plain next := by
  obtain ⟨_, _, _, value, hvalue, rfl⟩ := of_turn_eq_again h
  have hsuffix : trimLeft ((trim line).dropWhile (!isBlank ·)) <:+ trim line :=
    (List.dropWhile_suffix isBlank).trans (List.dropWhile_suffix _)
  have hrest := hline.of_infix (hsuffix.isInfix.trans (infix_of_trim line))
  exact (hvalues _ (Entries.mem_of_get? hvalue)).append_cons (by decide) hrest

/-- The expansion of a command is one turn of the loop.  Behind a value without arguments the loop leaves a
blank, which the next turn trims. -/
theorem expand_of_turn (table : AliasTable) (isCommand : String → Bool) (used : List String)
    (hne : trim line ≠ []) :
    match turn table isCommand used line with
    | .done .nothing => False
    | .done (.command text) => text = trim line ∧
        expand table isCommand used (String.ofList (trim line)) = .unchanged
    | .done (.cycle name) => expand table isCommand used (String.ofList (trim line)) = .cycle name
    | .again name next => ∃ text, trim text.toList = trim next ∧
        expand table isCommand used (String.ofList (trim line)) = .replaced name text := by
  unfold expand turn
  rw [String.toList_ofList, firstWord_of_trimmed (trimmed_trim line)]
  dsimp only
  rw [if_neg hne]
  generalize String.ofList (lower (leadingWord (trim line))) = name
  generalize trimLeft ((trim line).dropWhile (!isBlank ·)) = rest
  cases table.get? name with
  | none => simp
  | some value =>
      by_cases hused : name ∈ used
      · cases isCommand name <;> simp [hused]
      · by_cases hroom : aliasDepth ≤ used.length
        · simp [hused, hroom]
        · cases rest with
          | nil => simp [hused, hroom, trim_concat_of_blank (show isBlank ' ' = true by decide)]
          | cons c rest => simp [hused, hroom]

end VirtualShell.Input
