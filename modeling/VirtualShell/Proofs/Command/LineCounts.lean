import Mathlib.Data.List.Forall2
import VirtualShell.Command.LineCount
import VirtualShell.Proofs.Text.Counts

/-! # Asking for a number of lines

A number of lines can be asked for in four spellings, among files and in any order with them.  The spellings
mean the same wherever one of them may stand, the last number that is asked for counts, and a number that is
too large is refused.
-/

namespace VirtualShell.Command

open Text

namespace LineCount

variable {command text argument : String} {option rest before arguments texts files : List String}
  {options done : LineCount}

inductive Spelling (text : String) : List String → Prop
  | separate : Spelling text ["-n", text]
  | joined (hne : text ≠ "") : Spelling text ["-n" ++ text]
  | long : Spelling text ["--lines=" ++ text]
  | short (hne : text ≠ "") (hdigits : ∀ c ∈ text.toList, c.isDigit = true) : Spelling text ["-" ++ text]

def IsFile (argument : String) : Prop := argument = "-" ∨ argument.toList.head? ≠ some '-'

/-- The arguments ask for numbers of lines with these texts, and the others name these files. -/
inductive Asked : List String → List String → List String → Prop
  | nil : Asked [] [] []
  | number {text : String} {option rest texts files : List String} (hoption : Spelling text option)
      (later : Asked rest texts files) : Asked (option ++ rest) (text :: texts) files
  | file {argument : String} {rest texts files : List String} (hfile : IsFile argument)
      (later : Asked rest texts files) : Asked (argument :: rest) texts (argument :: files)

/-! ## The parts of an option -/

theorem part_separate : part "-n".toList = .awaitsNumber := rfl

theorem part_joined (hne : text ≠ "") : part ("-n" ++ text).toList = .number text.toList := by
  have htext : ("-n" ++ text).toList = '-' :: 'n' :: text.toList := String.toList_append
  have hsome : text.toList ≠ [] := by simpa using hne
  rw [htext]
  simp [part, hsome, List.isPrefixOf]

theorem part_long (text : String) : part ("--lines=" ++ text).toList = .number text.toList := by
  have htext : ("--lines=" ++ text).toList =
      ['-', '-', 'l', 'i', 'n', 'e', 's', '='] ++ text.toList := String.toList_append
  rw [htext]
  simp [part, List.isPrefixOf]

theorem part_short (hne : text ≠ "") (hdigits : ∀ c ∈ text.toList, c.isDigit = true) :
    part ("-" ++ text).toList = .number text.toList := by
  have htext : ("-" ++ text).toList = '-' :: text.toList := String.toList_append
  obtain ⟨first, later, hsplit⟩ := List.exists_cons_of_ne_nil (show text.toList ≠ [] by simpa using hne)
  rw [hsplit] at hdigits
  have hfirst := hdigits first List.mem_cons_self
  have hdash : first ≠ '-' := fun hc => absurd (hc ▸ hfirst) (by decide)
  have hletter : first ≠ 'n' := fun hc => absurd (hc ▸ hfirst) (by decide)
  have hall : (first :: later).all Char.isDigit = true := List.all_eq_true.mpr hdigits
  have hnumber : part ('-' :: first :: later) =
      if (first :: later).all Char.isDigit then .number (first :: later) else .unknown (first :: later) := by
    simp [part, List.isPrefixOf, hdash.symm, hletter.symm, hletter]
  rw [htext, hsplit, hnumber, if_pos hall]

theorem part_file (h : IsFile argument) : part argument.toList = .file := by
  rcases h with rfl | hhead
  · rfl
  · have hdash : ∀ text, argument.toList ≠ '-' :: text := fun text htext => hhead (by rw [htext]; rfl)
    generalize argument.toList = text at hdash
    cases text with
    | nil => rfl
    | cons c text =>
        have hc : c ≠ '-' := fun hc => hdash text (by rw [hc])
        simp [part, List.isPrefixOf, hc, hc.symm]

theorem part_unknown {first : Char} {later : List Char} (hletter : first ≠ 'n')
    (hlong : ¬ "--lines=".toList <+: '-' :: first :: later) (hdigits : (first :: later).all Char.isDigit = false) :
    part ('-' :: first :: later) = .unknown (first :: later) := by
  have hprefix : ['-', '-', 'l', 'i', 'n', 'e', 's', '='].isPrefixOf ('-' :: first :: later) = false := by
    rw [← Bool.not_eq_true, List.isPrefixOf_iff_prefix]
    exact hlong
  simp only [part, hprefix, hdigits]
  simp [List.isPrefixOf, hletter, hletter.symm]

theorem eq_append_ofList {mark : String} {text : List Char} (h : argument.toList = mark.toList ++ text) :
    argument = mark ++ String.ofList text := by
  rw [← String.toList_inj, h, String.toList_append, String.toList_ofList]

def Means (argument : String) : Part → Prop
  | .awaitsNumber => argument = "-n"
  | .number text => Spelling (String.ofList text) [argument]
  | .unknown _ => True
  | .file => IsFile argument

theorem means_of_spelling (h : Spelling text [argument]) (hpart : part argument.toList = .number text.toList) :
    Means argument (part argument.toList) := by
  rw [hpart]
  show Spelling (String.ofList text.toList) [argument]
  rwa [String.ofList_toList]

theorem means_part_of_dash {first : Char} {later : List Char} (h : argument.toList = '-' :: first :: later)
    (hlong : ¬ "--lines=".toList <+: argument.toList) : Means argument (part argument.toList) := by
  by_cases hletter : first = 'n'
  · subst hletter
    have hargument : argument = "-n" ++ String.ofList later := eq_append_ofList h
    by_cases hnil : later = []
    · rw [hargument, hnil]
      rfl
    · have hne : String.ofList later ≠ "" := by simpa using hnil
      rw [hargument]
      exact means_of_spelling (.joined hne) (part_joined hne)
  · cases hdigits : (first :: later).all Char.isDigit with
    | false =>
        rw [h] at hlong ⊢
        rw [part_unknown hletter hlong hdigits]
        trivial
    | true =>
        have hargument : argument = "-" ++ String.ofList (first :: later) := eq_append_ofList h
        have hne : String.ofList (first :: later) ≠ "" := by simp
        have hall : ∀ c ∈ (String.ofList (first :: later)).toList, c.isDigit = true := by
          rw [String.toList_ofList]
          exact List.all_eq_true.mp hdigits
        rw [hargument]
        exact means_of_spelling (.short hne hall) (part_short hne hall)

theorem means_part (argument : String) : Means argument (part argument.toList) := by
  have hfile : IsFile argument → Means argument (part argument.toList) := fun h => by
    rw [part_file h]
    exact h
  by_cases hlong : "--lines=".toList <+: argument.toList
  · obtain ⟨text, htext⟩ := hlong
    rw [eq_append_ofList htext.symm]
    exact means_of_spelling .long (part_long _)
  match hsplit : argument.toList with
  | [] =>
      rw [← hsplit]
      exact hfile (.inr (by simp [hsplit]))
  | dash :: text =>
      rw [← hsplit]
      by_cases hdash : dash = '-'
      · subst hdash
        match text with
        | [] => exact hfile (.inl (String.toList_inj.mp hsplit))
        | first :: later => exact means_part_of_dash hsplit hlong
      · exact hfile (.inr (by simpa [hsplit] using hdash))

theorem eq_of_part_awaitsNumber (h : part argument.toList = .awaitsNumber) : argument = "-n" := by
  have hmeans := means_part argument
  rwa [h] at hmeans

theorem spelling_of_part_number {text : List Char} (h : part argument.toList = .number text) :
    Spelling (String.ofList text) [argument] := by
  have hmeans := means_part argument
  rwa [h] at hmeans

theorem isFile_of_part_file (h : part argument.toList = .file) : IsFile argument := by
  have hmeans := means_part argument
  rwa [h] at hmeans

/-! ## Reading arguments one after the other -/

theorem read_nil (options : LineCount) : read command options [] = .ok options := by
  rw [read.eq_def]

theorem read_separate (number : String) (rest : List String) (options : LineCount) :
    read command options ("-n" :: number :: rest) =
      value command number.toList >>= fun lines => read command { options with lines } rest := by
  rw [read.eq_def]
  simp only [part_separate]

theorem read_waiting (options : LineCount) :
    read command options ["-n"] = .error (.usage (command ++ ": option requires an argument -- 'n'")) := by
  rw [read.eq_def]
  simp only [part_separate]

theorem read_number {text : List Char} (h : part argument.toList = .number text) (rest : List String)
    (options : LineCount) :
    read command options (argument :: rest) =
      value command text >>= fun lines => read command { options with lines } rest := by
  rw [read.eq_def]
  simp only [h]

theorem read_unknown {name : List Char} (h : part argument.toList = .unknown name) (rest : List String)
    (options : LineCount) :
    read command options (argument :: rest) =
      .error (.usage (command ++ ": invalid option -- '" ++ String.ofList name ++ "'")) := by
  rw [read.eq_def]
  simp only [h]

theorem read_file (h : IsFile argument) (rest : List String) (options : LineCount) :
    read command options (argument :: rest) =
      read command { options with files := options.files ++ [argument] } rest := by
  rw [read.eq_def]
  simp only [part_file h]

theorem read_spelling (h : Spelling text option) (rest : List String) (options : LineCount) :
    read command options (option ++ rest) =
      value command text.toList >>= fun lines => read command { options with lines } rest := by
  cases h with
  | separate => exact read_separate text rest options
  | joined hne => exact read_number (part_joined hne) rest options
  | long => exact read_number (part_long text) rest options
  | short hne hdigits => exact read_number (part_short hne hdigits) rest options

theorem value_of_count? {text : List Char} {n : Nat} (h : count? text = some n) : value command text = .ok n := by
  rw [value, h]

theorem value_of_count?_none (command : String) {text : List Char} (h : count? text = none) :
    value command text =
      .error (.usage (command ++ ": invalid number of lines: '" ++ String.ofList text ++ "'")) := by
  rw [value, h]

/-- The arguments end in an option `-n` that is reached and waits for its number. -/
def Awaiting (command : String) (options : LineCount) (arguments : List String) : Prop :=
  ∃ front done, arguments = front ++ ["-n"] ∧ read command options front = .ok done

theorem not_awaiting_of_getLast? (h : arguments.getLast? ≠ some "-n") :
    ¬ Awaiting command options arguments := by
  intro ⟨front, done, hsplit, _⟩
  rw [hsplit] at h
  exact h List.getLast?_concat

theorem Awaiting.behind {next : LineCount} (h : Awaiting command next rest) (arguments : List String)
    (hread : ∀ after, read command options (arguments ++ after) = read command next after) :
    Awaiting command options (arguments ++ rest) := by
  obtain ⟨front, done, hsplit, hdone⟩ := h
  rw [hsplit, ← List.append_assoc]
  exact ⟨arguments ++ front, done, rfl, (hread front).trans hdone⟩

/-- Behind arguments that are not waiting for it, what follows is read with what they gave. -/
theorem read_append (hbefore : ¬ Awaiting command options before) (after : List String) :
    read command options (before ++ after) =
      read command options before >>= fun done => read command done after := by
  -- A trailing `-n` would take its number from `after`.  In the other cases the arguments behind the one
  -- that was read are not waiting either.
  fun_induction read command options before with
  | case1 options => rfl
  | case2 options argument hpart =>
      rw [eq_of_part_awaitsNumber hpart] at hbefore
      exact absurd ⟨[], options, rfl, read_nil options⟩ hbefore
  | case3 options argument hpart number rest ih =>
      obtain rfl := eq_of_part_awaitsNumber hpart
      rw [List.cons_append, List.cons_append, read_separate]
      cases hvalue : value command number.toList with
      | error e => rfl
      | ok lines =>
          apply ih
          intro hrest
          apply hbefore
          apply hrest.behind ["-n", number]
          intro after
          rw [List.cons_append, List.cons_append, read_separate, hvalue]
          rfl
  | case4 options argument rest text hpart ih =>
      rw [List.cons_append, read_number hpart]
      cases hvalue : value command text with
      | error e => rfl
      | ok lines =>
          apply ih
          intro hrest
          apply hbefore
          apply hrest.behind [argument]
          intro after
          rw [List.singleton_append, read_number hpart, hvalue]
          rfl
  | case5 options argument rest name hpart => exact read_unknown hpart _ options
  | case6 options argument rest hpart ih =>
      have hfile := isFile_of_part_file hpart
      rw [List.cons_append, read_file hfile]
      apply ih
      intro hrest
      apply hbefore
      apply hrest.behind [argument]
      exact fun after => read_file hfile after options

def CountsOf (texts : List String) (numbers : List Nat) : Prop :=
  List.Forall₂ (fun text n => IsDecimal text.toList n ∧ n < 2 ^ 64) texts numbers

theorem CountsOf.lt {numbers : List Nat} (h : CountsOf texts numbers) : ∀ n ∈ numbers, n < 2 ^ 64 := by
  induction h with
  | nil => exact fun n hn => nomatch hn
  | cons hhead htail ih => exact List.forall_mem_cons.mpr ⟨hhead.2, ih⟩

/-- The arguments are complete, and read after `options` they give `done`: the last count holds, and the
files follow those before. -/
def Gives (options : LineCount) (arguments : List String) (done : LineCount) : Prop :=
  ∃ texts numbers files, Asked arguments texts files ∧ CountsOf texts numbers ∧
    done = ⟨numbers.getLastD options.lines, options.files ++ files⟩

namespace Gives

theorem nil (options : LineCount) : Gives options [] options :=
  ⟨[], [], [], .nil, .nil, by rw [List.append_nil]; rfl⟩

theorem number {n : Nat} (hoption : Spelling text option) (hcount : count? text.toList = some n)
    (h : Gives { options with lines := n } rest done) : Gives options (option ++ rest) done := by
  obtain ⟨texts, numbers, files, hasked, hnumbers, rfl⟩ := h
  have hcounts : CountsOf (text :: texts) (n :: numbers) := .cons (count?_eq_some_iff.mp hcount) hnumbers
  exact ⟨_, _, files, .number hoption hasked, hcounts, by rw [List.getLastD_cons]⟩

theorem file (hfile : IsFile argument)
    (h : Gives { options with files := options.files ++ [argument] } rest done) :
    Gives options (argument :: rest) done := by
  obtain ⟨texts, numbers, files, hasked, hnumbers, rfl⟩ := h
  exact ⟨texts, numbers, argument :: files, .file hfile hasked, hnumbers,
    by rw [List.append_assoc, List.singleton_append]⟩

end Gives

theorem Gives.read_append (command : String) (h : Gives options arguments done) (after : List String) :
    read command options (arguments ++ after) = read command done after := by
  obtain ⟨texts, numbers, files, hasked, hnumbers, rfl⟩ := h
  induction hasked generalizing numbers options with
  | nil =>
      obtain rfl : numbers = [] := List.forall₂_nil_left_iff.mp hnumbers
      rw [List.append_nil]
      rfl
  | @number text option rest texts files hoption later ih =>
      obtain ⟨n, others, hn, hothers, rfl⟩ := List.forall₂_cons_left_iff.mp hnumbers
      have hvalue : value command text.toList = .ok n := value_of_count? (count?_eq_some_iff.mpr hn)
      rw [List.append_assoc, read_spelling hoption, hvalue, List.getLastD_cons]
      exact ih others hothers
  | @file argument rest texts files hfile later ih =>
      rw [List.cons_append, read_file hfile, ih numbers hnumbers, List.append_assoc, List.singleton_append]

theorem exists_count_of_value {characters : List Char} {next : Nat → Except ShellError LineCount}
    (h : (value command characters >>= next) = .ok done) :
    ∃ n, count? characters = some n ∧ next n = .ok done := by
  cases hcount : count? characters with
  | none =>
      rw [value_of_count?_none command hcount] at h
      cases h
  | some n =>
      rw [value_of_count? hcount] at h
      exact ⟨n, rfl, h⟩

theorem gives_of_read (h : read command options arguments = .ok done) : Gives options arguments done := by
  fun_induction read command options arguments with
  | case1 options =>
      cases h
      exact .nil _
  | case2 options argument hpart => cases h
  | case3 options argument hpart number rest ih =>
      obtain ⟨n, hcount, hlater⟩ := exists_count_of_value h
      rw [eq_of_part_awaitsNumber hpart]
      exact .number .separate hcount (ih n hlater)
  | case4 options argument rest text hpart ih =>
      obtain ⟨n, hcount, hlater⟩ := exists_count_of_value h
      rw [← String.toList_ofList (l := text)] at hcount
      exact .number (spelling_of_part_number hpart) hcount (ih n hlater)
  | case5 options argument rest name hpart => cases h
  | case6 options argument rest hpart ih => exact .file (isFile_of_part_file hpart) (ih h)

/-- Arguments can be read exactly if they are complete and every number is a count. -/
theorem read_eq_ok_iff (command : String) :
    read command options arguments = .ok done ↔ Gives options arguments done := by
  constructor
  · exact gives_of_read
  · intro h
    have hread := h.read_append command []
    rwa [List.append_nil, read_nil] at hread

theorem Awaiting.read_eq (h : Awaiting command options arguments) :
    read command options arguments = .error (.usage (command ++ ": option requires an argument -- 'n'")) := by
  obtain ⟨front, done, rfl, hread⟩ := h
  rw [(gives_of_read hread).read_append, read_waiting]

/-- Every spelling of an option is read alike behind arguments that are not waiting for it. -/
theorem read_option (hbefore : ¬ Awaiting command options before) (hoption : Spelling text option)
    (after : List String) :
    read command options (before ++ (option ++ after)) =
      read command options before >>= fun done =>
        value command text.toList >>= fun lines => read command { done with lines } after := by
  rw [read_append hbefore]
  congr
  funext done
  exact read_spelling hoption after done

end LineCount

open LineCount

variable {command : String} {arguments : List String} {done : LineCount}

theorem parseLineCount_eq_ok_iff :
    parseLineCount command arguments = .ok done ↔
      Gives ⟨standard, []⟩ arguments done ∧ done.files ≠ [] := by
  rw [← read_eq_ok_iff command, parseLineCount]
  cases hread : LineCount.read command ⟨standard, []⟩ arguments with
  | error e =>
      constructor
      · intro h
        cases h
      · intro h
        cases h.1
  | ok options =>
      change (if options.files.isEmpty = true then _ else Except.ok options : Except ShellError LineCount) = _ ↔ _
      split
      · rename_i hnone
        constructor
        · intro h
          cases h
        · intro ⟨hsame, hfiles⟩
          cases hsame
          exact absurd (List.isEmpty_iff.mp hnone) hfiles
      · rename_i hsome
        constructor
        · intro hsame
          cases hsame
          exact ⟨rfl, fun hnone => hsome (List.isEmpty_iff.mpr hnone)⟩
        · exact fun h => h.1

/-- A number of lines can be given in each of its four spellings, wherever one of them may stand.  Arguments
are accepted exactly if they consist of such options, all with counts, and of files, of which there is at
least one.  The last number holds, or ten without any, and the files stay in order.  A number that is too
large is refused as such. -/
theorem spellings_interchange (command : String) :
    (∀ (digits : String) (before after : List String), digits ≠ "" →
      (∀ c ∈ digits.toList, c.isDigit = true) → ¬ Awaiting command ⟨standard, []⟩ before →
      let asked := fun option => parseLineCount command (before ++ (option ++ after))
      asked ["-n" ++ digits] = asked ["-n", digits] ∧ asked ["--lines=" ++ digits] = asked ["-n", digits] ∧
        asked ["-" ++ digits] = asked ["-n", digits]) ∧
    (∀ arguments done, parseLineCount command arguments = .ok done ↔ done.files ≠ [] ∧
      ∃ texts numbers, Asked arguments texts done.files ∧ CountsOf texts numbers ∧
        done.lines = numbers.getLastD 10) ∧
    (∀ arguments done, parseLineCount command arguments = .ok done → done.lines < 2 ^ 64) ∧
    ∀ before done text option after n, Gives ⟨standard, []⟩ before done → Spelling text option →
      IsDecimal text.toList n → 2 ^ 64 ≤ n →
      parseLineCount command (before ++ (option ++ after)) =
        .error (.usage (command ++ ": invalid number of lines: '" ++ text ++ "'")) := by
  refine ⟨?_, ?_, ?_, ?_⟩
  · intro digits before after hne hdigits hbefore asked
    have hsame : ∀ option, Spelling digits option → asked option = asked ["-n", digits] := by
      intro option hoption
      simp only [asked, parseLineCount]
      rw [read_option hbefore hoption, read_option hbefore .separate]
    exact ⟨hsame _ (.joined hne), hsame _ .long, hsame _ (.short hne hdigits)⟩
  · intro arguments done
    rw [parseLineCount_eq_ok_iff, and_comm]
    apply and_congr_right
    intro _
    constructor
    · intro ⟨texts, numbers, files, hasked, hnumbers, hdone⟩
      subst hdone
      exact ⟨texts, numbers, hasked, hnumbers, rfl⟩
    · intro ⟨texts, numbers, hasked, hnumbers, hlines⟩
      refine ⟨texts, numbers, done.files, hasked, hnumbers, ?_⟩
      obtain ⟨lines, files⟩ := done
      rw [show lines = _ from hlines]
      rfl
  · intro arguments done h
    obtain ⟨⟨texts, numbers, files, _, hnumbers, rfl⟩, _⟩ := parseLineCount_eq_ok_iff.mp h
    cases numbers with
    | nil => exact (show standard < 2 ^ 64 by decide)
    | cons n numbers =>
        show (n :: numbers).getLastD standard < 2 ^ 64
        rw [List.getLastD_eq_getLast?, List.getLast?_eq_some_getLast (List.cons_ne_nil n numbers)]
        exact hnumbers.lt _ (List.getLast_mem _)
  · intro before done text option after n hbefore hoption hn hlarge
    have hvalue := value_of_count?_none command (count?_of_large hn hlarge)
    rw [String.ofList_toList] at hvalue
    rw [parseLineCount, hbefore.read_append, read_spelling hoption, hvalue]
    rfl

/-- Leading zeros count for nothing, the last of two numbers holds, and the least number that is too large is
refused where the one below it is accepted. -/
theorem spellings_interchange_behind_file :
    parseLineCount "head" ["notes", "-007"] = parseLineCount "head" ["notes", "-n", "007"] ∧
      parseLineCount "head" ["notes", "-n", "007", "--lines=18446744073709551615", "-"] =
        .ok ⟨18446744073709551615, ["notes", "-"]⟩ ∧
      parseLineCount "head" ["notes", "-n18446744073709551616", "-n"] =
        .error (.usage "head: invalid number of lines: '18446744073709551616'") := by
  refine ⟨?_, ?_, ?_⟩
  · have hwaiting : ¬ Awaiting "head" ⟨standard, []⟩ ["notes"] := not_awaiting_of_getLast? (by decide)
    have hdigits : ∀ c ∈ "007".toList, c.isDigit = true := List.all_eq_true.mp (by decide)
    exact ((spellings_interchange "head").1 "007" ["notes"] [] (by decide) hdigits hwaiting).2.2
  · have hnotes : IsFile "notes" := .inr (by decide)
    have hzeros : IsDecimal "007".toList 7 :=
      ⟨_, by decide, List.all_eq_true.mp (by decide), .inl rfl, rfl⟩
    have hlast : IsDecimal "18446744073709551615".toList 18446744073709551615 :=
      ⟨_, by decide, List.all_eq_true.mp (by decide), .inl rfl, rfl⟩
    have hlong : Spelling "18446744073709551615" ["--lines=18446744073709551615"] := .long
    have hasked : Asked ["notes", "-n", "007", "--lines=18446744073709551615", "-"]
        ["007", "18446744073709551615"] ["notes", "-"] :=
      .file hnotes (.number .separate (.number hlong (.file (.inl rfl) .nil)))
    have hcounts : CountsOf ["007", "18446744073709551615"] [7, 18446744073709551615] :=
      .cons ⟨hzeros, by decide⟩ (.cons ⟨hlast, by decide⟩ .nil)
    exact ((spellings_interchange "head").2.1 _ _).mpr ⟨by decide, _, _, hasked, hcounts, rfl⟩
  · have hbefore : Gives ⟨standard, []⟩ ["notes"] ⟨standard, ["notes"]⟩ := .file (.inr (by decide)) (.nil _)
    have hlarge : IsDecimal "18446744073709551616".toList 18446744073709551616 :=
      ⟨_, by decide, List.all_eq_true.mp (by decide), .inl rfl, rfl⟩
    exact (spellings_interchange "head").2.2.2 ["notes"] _ _ _ ["-n"] _ hbefore (.joined (by decide)) hlarge
      (by decide)

end VirtualShell.Command
