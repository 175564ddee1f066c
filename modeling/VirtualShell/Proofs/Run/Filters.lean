import VirtualShell.Interpreter
import VirtualShell.Proofs.Input.Words

/-! # Filters in a pipeline

A stage that calls a filter is a name, any number of options and a pattern.  What such a stage makes of
the lines that it is given, and what any other stage makes of them.
-/

namespace VirtualShell

namespace Interpreter

open Text Input

/-! ## The words of a filter -/

/-- Blanks between two words. -/
structure Gap (text : List Char) : Prop where
  ne_nil : text ≠ []
  blank : ∀ c ∈ text, isBlank c = true

/-- What may follow the name of a filter: any number of the options `-i` and `-v`, of which `-v` inverts
the filter, and then its pattern, which takes all that is left. -/
inductive FilterArguments : List Char → Bool → List Char → Prop
  | missing : FilterArguments [] false []
  | pattern {gap text : List Char} (hgap : Gap gap)
      (hword : leadingWord text ∉ [[], ['-', 'v'], ['-', 'i']]) : FilterArguments (gap ++ text) false text
  | ignoreCase {gap rest pattern : List Char} {invert : Bool} (hgap : Gap gap)
      (later : FilterArguments rest invert pattern) :
      FilterArguments (gap ++ ('-' :: 'i' :: rest)) invert pattern
  | invert {gap rest pattern : List Char} {invert : Bool} (hgap : Gap gap)
      (later : FilterArguments rest invert pattern) :
      FilterArguments (gap ++ ('-' :: 'v' :: rest)) true pattern

/-- A stage that calls a filter, with its name in letters of either case. -/
def CallsFilter (stage : List Char) (invert : Bool) (pattern : List Char) : Prop :=
  ∃ name rest, stage = name ++ rest ∧ name.map Char.toLower = ['g', 'r', 'e', 'p'] ∧
    FilterArguments rest invert pattern

theorem Gap.head? {gap : List Char} (h : Gap gap) (text : List Char) :
    ∀ c ∈ (gap ++ text).head?, isBlank c = true := by
  obtain ⟨c, gap, rfl⟩ := List.exists_cons_of_ne_nil h.ne_nil
  intro d hd
  cases hd
  exact h.blank c List.mem_cons_self

theorem FilterArguments.head? {text pattern : List Char} {invert : Bool}
    (h : FilterArguments text invert pattern) : ∀ c ∈ text.head?, isBlank c = true := by
  cases h with
  | missing => simp
  | pattern hgap _ => exact hgap.head? _
  | ignoreCase hgap _ => exact hgap.head? _
  | invert hgap _ => exact hgap.head? _

theorem filterOptions_option {gap rest pattern : List Char} {letter : Char} {invert : Bool}
    (hletter : letter = 'v' ∨ letter = 'i') (hgap : Gap gap) (hrest : FilterArguments rest invert pattern)
    (hback : ∀ c ∈ (gap ++ '-' :: letter :: rest).getLast?, isBlank c = false) {fuel : Nat}
    (hfuel : (trimLeft (gap ++ '-' :: letter :: rest)).length ≤ fuel) (before : Bool) :
    ∃ less, (trimLeft rest).length ≤ less ∧
      filterOptions fuel before (trimLeft (gap ++ '-' :: letter :: rest)) =
        filterOptions less (before || letter == 'v') (trimLeft rest) := by
  have hdash : isBlank '-' = false := by decide
  have hplain : isBlank letter = false := by
    rcases hletter with rfl | rfl <;> decide
  have hword : ∀ c ∈ ['-', letter], isBlank c = false := by simp [hdash, hplain]
  have hfront : ∀ c ∈ ('-' :: letter :: rest).head?, isBlank c = false := by simp [hdash]
  have htrimmed : Trimmed ('-' :: letter :: rest) :=
    ⟨hfront, back_of_suffix (List.suffix_append gap _) hback⟩
  have hfirst : firstWord (['-', letter] ++ rest) = (['-', letter], trimLeft rest) :=
    firstWord_append htrimmed hword hrest.head?
  rw [List.cons_append, List.singleton_append] at hfirst
  rw [trimLeft_append_of_blank hgap.blank, trimLeft_eq_self hfront] at hfuel ⊢
  cases fuel with
  | zero => cases hfuel
  | succ less =>
      have hless : (trimLeft rest).length ≤ rest.length := (List.dropWhile_suffix isBlank).length_le
      refine ⟨less, by simp only [List.length_cons] at hfuel; omega, ?_⟩
      rw [filterOptions, hfirst]
      rcases hletter with rfl | rfl
      · rw [beq_self_eq_true, Bool.or_true]
        rfl
      · rw [show ('i' == 'v') = false from rfl, Bool.or_false]
        rfl

theorem filterOptions_eq {text pattern : List Char} {invert : Bool} (h : FilterArguments text invert pattern)
    (hback : ∀ c ∈ text.getLast?, isBlank c = false) {fuel : Nat}
    (hfuel : (trimLeft text).length ≤ fuel) (before : Bool) :
    filterOptions fuel before (trimLeft text) = (before || invert, pattern) := by
  induction h generalizing fuel before with
  | missing =>
      rw [Bool.or_false]
      cases fuel with
      | zero => rfl
      | succ fuel => rfl
  | @pattern gap text hgap hword =>
      simp only [List.mem_cons, not_or] at hword
      have hfront : ∀ c ∈ text.head?, isBlank c = false := by
        intro c hc
        by_contra hblank
        obtain ⟨rest, rfl⟩ := List.head?_eq_some_iff.mp hc
        exact hword.1 (List.takeWhile_cons_of_neg (by simpa using hblank))
      have htrimmed : Trimmed text := ⟨hfront, back_of_suffix (List.suffix_append gap text) hback⟩
      rw [trimLeft_append_of_blank hgap.blank, trimLeft_eq_self hfront, Bool.or_false]
      cases fuel with
      | zero => rfl
      | succ fuel =>
          rw [filterOptions, firstWord_of_trimmed htrimmed]
          dsimp only
          rw [if_neg hword.2.1, if_neg hword.2.2.1]
  | @ignoreCase gap rest pattern invert hgap later ih =>
      obtain ⟨less, hless, hread⟩ := filterOptions_option (.inr rfl) hgap later hback hfuel before
      have hrest := back_of_suffix (List.suffix_append (gap ++ ['-', 'i']) rest) (by simpa using hback)
      rw [hread, ih hrest hless, show ('i' == 'v') = false from rfl, Bool.or_false]
  | @invert gap rest pattern invert hgap later ih =>
      obtain ⟨less, hless, hread⟩ := filterOptions_option (.inl rfl) hgap later hback hfuel before
      have hrest := back_of_suffix (List.suffix_append (gap ++ ['-', 'v']) rest) (by simpa using hback)
      rw [hread, ih hrest hless, beq_self_eq_true, Bool.or_true, Bool.true_or]

theorem exists_gap {text : List Char} (hne : text ≠ []) (hfront : ∀ c ∈ text.head?, isBlank c = true) :
    ∃ gap, Gap gap ∧ text = gap ++ trimLeft text := by
  obtain ⟨c, text, rfl⟩ := List.exists_cons_of_ne_nil hne
  refine ⟨(c :: text).takeWhile isBlank, ⟨?_, ?_⟩, List.takeWhile_append_dropWhile.symm⟩
  · rw [List.takeWhile_cons_of_pos (hfront c rfl)]
    exact List.cons_ne_nil _ _
  · exact List.all_eq_true.mp List.all_takeWhile

theorem leadingWord_trimLeft_ne_nil {text : List Char} (hne : text ≠ [])
    (hback : ∀ c ∈ text.getLast?, isBlank c = false) : leadingWord (trimLeft text) ≠ [] := by
  have hbody : trimLeft text ≠ [] := by
    intro hnil
    have hblank := List.dropWhile_eq_nil_iff.mp hnil (text.getLast hne) (List.getLast_mem hne)
    rw [hback (text.getLast hne) (List.getLast?_eq_some_getLast hne)] at hblank
    cases hblank
  exact leadingWord_ne_nil hbody (front_trimLeft text)

theorem exists_filterArguments {text : List Char} (hfront : ∀ c ∈ text.head?, isBlank c = true)
    (hback : ∀ c ∈ text.getLast?, isBlank c = false) :
    ∃ invert pattern, FilterArguments text invert pattern := by
  by_cases hnil : text = []
  · exact ⟨false, [], hnil ▸ .missing⟩
  obtain ⟨gap, hgap, hsplit⟩ := exists_gap hnil hfront
  obtain ⟨rest, hword, hrest⟩ := exists_leadingWord_append (trimLeft text)
  have hsuffix : rest <:+ text := ⟨gap ++ leadingWord (trimLeft text), by
    rw [List.append_assoc, ← hword, ← hsplit]⟩
  have hwordne := leadingWord_trimLeft_ne_nil hnil hback
  -- Behind an option a shorter text is left; any other word begins the pattern.
  by_cases hoption : leadingWord (trimLeft text) = ['-', 'v'] ∨ leadingWord (trimLeft text) = ['-', 'i']
  · have hshorter : rest.length < text.length := by
      have hpositive := List.length_pos_iff.mpr hwordne
      rw [hsplit, hword, List.length_append, List.length_append]
      omega
    obtain ⟨invert, pattern, hlater⟩ := exists_filterArguments hrest (back_of_suffix hsuffix hback)
    rcases hoption with hoption | hoption
    · rw [hsplit, hword, hoption]
      exact ⟨true, pattern, .invert hgap hlater⟩
    · rw [hsplit, hword, hoption]
      exact ⟨invert, pattern, .ignoreCase hgap hlater⟩
  · rw [hsplit]
    refine ⟨false, _, .pattern hgap ?_⟩
    simpa [hwordne] using hoption
termination_by text.length

/-! ## What a second stage prints -/

theorem toLower_of_isBlank {c : Char} (h : isBlank c = true) : c.toLower = c := by
  have hupper : ¬ (c.val ≥ 'A'.val ∧ c.val ≤ 'Z'.val) := by
    rintro ⟨hleast, hmost⟩
    have hleast : 65 ≤ c.toNat := hleast
    have hmost : c.toNat ≤ 90 := hmost
    simp only [isBlank, within, blanks, List.any_cons, List.any_nil, Bool.or_eq_true, Bool.and_eq_true,
      decide_eq_true_eq, Bool.false_eq_true, or_false] at h
    omega
  exact dif_neg hupper

theorem not_isBlank_of_mem_name {name : List Char} (hname : name.map Char.toLower = ['g', 'r', 'e', 'p']) :
    ∀ c ∈ name, isBlank c = false := by
  have hletters : ∀ c ∈ name.map Char.toLower, isBlank c = false := by
    intro c hc
    simp only [hname, List.mem_cons, List.not_mem_nil, or_false] at hc
    rcases hc with rfl | rfl | rfl | rfl <;> decide
  intro c hc
  have hlower := hletters c.toLower (List.mem_map_of_mem hc)
  by_contra hblank
  rw [Bool.not_eq_false] at hblank
  rw [toLower_of_isBlank hblank, hblank] at hlower
  cases hlower

variable {second : String} {invert : Bool} {pattern : List Char}

theorem exists_callsFilter (htrimmed : Trimmed second.toList)
    (hname : (leadingWord second.toList).map Char.toLower = ['g', 'r', 'e', 'p']) :
    ∃ invert pattern, CallsFilter second.toList invert pattern := by
  obtain ⟨rest, hsplit, hrest⟩ := exists_leadingWord_append second.toList
  have hback := back_of_suffix ⟨_, hsplit.symm⟩ htrimmed.back
  obtain ⟨invert, pattern, harguments⟩ := exists_filterArguments hrest hback
  exact ⟨invert, pattern, _, rest, hsplit, hname, harguments⟩

theorem pipe_eq_filterLines (htrimmed : Trimmed second.toList) (h : CallsFilter second.toList invert pattern)
    (later : List String) (printed : List Line) :
    ∃ arguments, pipe (second :: later) printed = filterLines arguments printed ∧
      filterOptions arguments.length false (trim arguments) = (invert, pattern) := by
  obtain ⟨name, rest, hsecond, hname, harguments⟩ := h
  rw [hsecond] at htrimmed
  have hback := back_of_suffix (List.suffix_append name rest) htrimmed.back
  have hfirst := firstWord_append htrimmed (not_isBlank_of_mem_name hname) harguments.head?
  have harguments' : Trimmed (trimLeft rest) :=
    ⟨front_trimLeft rest, back_of_suffix (List.dropWhile_suffix isBlank) hback⟩
  refine ⟨trimLeft rest, ?_, ?_⟩
  · rw [pipe, hsecond, hfirst]
    exact if_pos hname
  · rw [harguments'.trim_eq, filterOptions_eq harguments hback (Nat.le_refl _), Bool.false_or]

theorem pipe_of_missing (htrimmed : Trimmed second.toList) (h : CallsFilter second.toList invert pattern)
    (hpattern : String.ofList (unquote pattern) = "") (later : List String) (printed : List Line) :
    pipe (second :: later) printed = [.error "grep: missing pattern"] := by
  obtain ⟨arguments, hpipe, hoptions⟩ := pipe_eq_filterLines htrimmed h later printed
  rw [hpipe, filterLines, hoptions]
  dsimp only
  rw [hpattern]
  rfl

theorem pipe_of_refused (htrimmed : Trimmed second.toList) (h : CallsFilter second.toList invert pattern)
    {chosen : String} (hpattern : String.ofList (unquote pattern) = chosen) (hne : chosen ≠ "")
    {e : PatternError} (hrefused : Pattern.compile chosen true = .error e) (later : List String)
    (printed : List Line) :
    pipe (second :: later) printed =
      [.error ("grep: " ++ (FileError.invalidPattern chosen e.reason).message)] := by
  obtain ⟨arguments, hpipe, hoptions⟩ := pipe_eq_filterLines htrimmed h later printed
  have hline : linePattern chosen false = .error (.invalidPattern chosen e.reason) := by
    rw [linePattern, Bool.not_false, hrefused]
  rw [hpipe, filterLines, hoptions]
  dsimp only
  rw [hpattern, if_neg (by simpa using hne), hline]

/-- The printed lines without those that only clear the screen. -/
def visible (printed : List Line) : List Line := printed.filter (·.style ≠ .clear)

theorem pipe_of_compiled (htrimmed : Trimmed second.toList) (h : CallsFilter second.toList invert pattern)
    {chosen : String} (hpattern : String.ofList (unquote pattern) = chosen) (hne : chosen ≠ "")
    {compiled : Pattern} (hcompiled : Pattern.compile chosen true = .ok compiled) (later : List String)
    (printed : List Line) :
    pipe (second :: later) printed =
      (visible printed).filter fun line => compiled.occursIn line.text != invert := by
  obtain ⟨arguments, hpipe, hoptions⟩ := pipe_eq_filterLines htrimmed h later printed
  have hline : linePattern chosen false = .ok compiled := by
    rw [linePattern, Bool.not_false, hcompiled]
  rw [hpipe, filterLines, hoptions]
  dsimp only
  rw [hpattern, if_neg (by simpa using hne), hline, visible, List.filter_filter]
  exact List.filter_congr fun line _ => Bool.and_comm _ _

theorem filter_inverted_perm (compiled : Pattern) (invert : Bool) (printed : List Line) :
    (printed.filter (fun line => compiled.occursIn line.text != invert) ++
      printed.filter fun line => compiled.occursIn line.text != !invert).Perm printed := by
  have hopposite : (fun line : Line => compiled.occursIn line.text != !invert) =
      fun line => !(compiled.occursIn line.text != invert) := by
    funext line
    cases compiled.occursIn line.text <;> cases invert <;> rfl
  rw [hopposite]
  exact List.filter_append_perm _ printed

theorem pipe_of_other (htrimmed : Trimmed second.toList)
    (hname : (leadingWord second.toList).map Char.toLower ≠ ['g', 'r', 'e', 'p']) (later : List String)
    (printed : List Line) :
    pipe (second :: later) printed =
      printed ++ [.info ("(pipe to '" ++ " | ".intercalate (second :: later) ++ "' not executed)")] := by
  rw [pipe, firstWord_of_trimmed htrimmed]
  exact if_neg hname

end Interpreter

end VirtualShell
