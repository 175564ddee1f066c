import VirtualShell.Proofs.Input.Tokens
import VirtualShell.Proofs.Run.Filters

/-! # Quoted words

A scan that ends outside quotes goes on behind a blank as if the line began there.  So every list of words
can be written down: each word in segments of quotes that it does not close, and blanks between the words.
Without quotes the first word of a line is the one for which aliases are looked up.
-/

namespace VirtualShell.Input

open Text
open Interpreter (Gap)

/-! ## Going on behind a blank -/

namespace Scan

def behind (earlier : List String) (scan : Scan) : Scan := { scan with words := scan.words ++ earlier }

/-- Only inside a word the scan holds characters or an open quote. -/
def Settled (scan : Scan) : Prop := scan.inWord = false → scan.current = [] ∧ scan.quote = none

theorem finishWord_behind (earlier : List String) (scan : Scan) :
    (scan.behind earlier).finishWord = scan.finishWord.behind earlier := by
  obtain ⟨finished, current, inWord, quote⟩ := scan
  cases inWord with
  | true => rfl
  | false => rfl

theorem step_behind (earlier : List String) (scan : Scan) (c : Char) :
    (scan.behind earlier).step c = (scan.step c).behind earlier := by
  obtain ⟨finished, current, inWord, quote⟩ := scan
  cases quote with
  | some quote =>
      simp only [step, behind]
      split <;> rfl
  | none =>
      simp only [step, behind]
      split
      · rfl
      split
      · exact finishWord_behind earlier ⟨finished, current, inWord, none⟩
      · rfl

theorem foldl_step_behind (earlier : List String) (scan : Scan) (text : List Char) :
    text.foldl step (scan.behind earlier) = (text.foldl step scan).behind earlier := by
  induction text generalizing scan with
  | nil => rfl
  | cons c text ih => rw [List.foldl_cons, List.foldl_cons, step_behind, ih]

theorem Settled.step {scan : Scan} (h : scan.Settled) (c : Char) : (scan.step c).Settled := by
  unfold Scan.step
  cases hquote : scan.quote with
  | some quote =>
      -- inside quotes a word has begun
      have hword : scan.inWord = true := by
        by_contra hnot
        rw [(h (by simpa using hnot)).2] at hquote
        cases hquote
      dsimp only
      split
      · exact fun hnot => absurd (hword.symm.trans hnot) (by decide)
      · exact fun hnot => absurd (hword.symm.trans hnot) (by decide)
  | none =>
      dsimp only
      split
      · exact fun hnot => nomatch hnot
      split
      · unfold finishWord
        split
        · exact fun _ => ⟨rfl, hquote⟩
        · exact h
      · exact fun hnot => nomatch hnot

theorem settled_foldl {scan : Scan} (h : scan.Settled) (text : List Char) : (text.foldl Scan.step scan).Settled := by
  induction text generalizing scan with
  | nil => exact h
  | cons c text ih => exact ih (h.step c)

theorem settled_start : start.Settled := fun _ => ⟨rfl, rfl⟩

theorem finishWord_eq_behind {scan : Scan} (h : scan.Settled) (hquote : scan.quote = none) :
    scan.finishWord = start.behind scan.finishWord.words := by
  obtain ⟨finished, current, inWord, quote⟩ := scan
  subst hquote
  cases inWord with
  | true => rfl
  | false =>
      obtain rfl : current = [] := (h rfl).1
      rfl

end Scan

/-- The scan of the text ends outside quotes. -/
def Closed (text : List Char) : Prop := (text.foldl Scan.step Scan.start).quote = none

instance : DecidablePred Closed := fun text =>
  inferInstanceAs (Decidable ((text.foldl Scan.step Scan.start).quote = none))

theorem words_ofList (text : List Char) :
    words (String.ofList text) = (text.foldl Scan.step Scan.start).finishWord.words.reverse := by
  rw [words, String.toList_ofList]

theorem Scan.step_of_blank {scan : Scan} {c : Char} (hquote : scan.quote = none) (hc : isBlank c = true) :
    scan.step c = scan.finishWord := by
  have hplain : ¬ (c = '\'' ∨ c = '"') := by
    rintro (rfl | rfl)
    · exact absurd hc (by decide)
    · exact absurd hc (by decide)
  rw [step, hquote]
  dsimp only
  rw [if_neg hplain, if_pos hc]

theorem words_append {front : List Char} (h : Closed front) {c : Char} (hc : isBlank c = true)
    (back : List Char) :
    words (String.ofList (front ++ c :: back)) =
      words (String.ofList front) ++ words (String.ofList back) := by
  have hfinish := Scan.finishWord_eq_behind (Scan.settled_foldl Scan.settled_start front) h
  rw [words_ofList, words_ofList, words_ofList, List.foldl_append, List.foldl_cons,
    Scan.step_of_blank h hc, hfinish, Scan.foldl_step_behind, Scan.finishWord_behind]
  simp only [Scan.behind, List.reverse_append, Scan.start, List.nil_append]

theorem words_append_of_blank {gap : List Char} (hgap : ∀ c ∈ gap, isBlank c = true) (text : List Char) :
    words (String.ofList (gap ++ text)) = words (String.ofList text) := by
  induction gap with
  | nil => rfl
  | cons c gap ih =>
      rw [List.forall_mem_cons] at hgap
      have hclosed : Closed [] := rfl
      have hfront := words_append hclosed hgap.1 (gap ++ text)
      rw [ih hgap.2] at hfront
      exact hfront

/-! ## Quoted segments -/

structure Segment where
  mark : Char
  text : List Char
  isQuote : mark = '\'' ∨ mark = '"'
  unclosed : mark ∉ text

namespace Segment

def written (segment : Segment) : List Char := segment.mark :: (segment.text ++ [segment.mark])

def ofChar (c : Char) : Segment :=
  if h : c = '"' then ⟨'\'', [c], .inl rfl, by simp [h]⟩
  else ⟨'"', [c], .inr rfl, by simpa using Ne.symm h⟩

theorem text_ofChar (c : Char) : (ofChar c).text = [c] := by
  unfold ofChar
  split <;> rfl

end Segment

/-- The text consists of quoted segments that make up the word. -/
def Quotes (word : String) (text : List Char) : Prop :=
  ∃ segments : List Segment, segments ≠ [] ∧ segments.flatMap Segment.text = word.toList ∧
    segments.flatMap Segment.written = text

/-- The line consists of the words, each of them in quoted segments, with blanks between them. -/
inductive QuotedLine : List String → List Char → Prop
  | nil : QuotedLine [] []
  | single {word : String} {text : List Char} (hword : Quotes word text) : QuotedLine [word] text
  | cons {word next : String} {text gap line : List Char} {given : List String} (hword : Quotes word text)
      (hgap : Gap gap) (later : QuotedLine (next :: given) line) :
      QuotedLine (word :: next :: given) (text ++ (gap ++ line))

theorem Scan.foldl_step_inside {quote : Char} {text : List Char} (h : quote ∉ text) (finished : List String)
    (current : List Char) (inWord : Bool) :
    text.foldl step ⟨finished, current, inWord, some quote⟩ =
      ⟨finished, text.reverse ++ current, inWord, some quote⟩ := by
  induction text generalizing current with
  | nil => rfl
  | cons c text ih =>
      rw [List.mem_cons, not_or] at h
      have hstep : step ⟨finished, current, inWord, some quote⟩ c =
          ⟨finished, c :: current, inWord, some quote⟩ := if_neg (Ne.symm h.1)
      rw [List.foldl_cons, hstep, ih h.2, List.reverse_cons, List.append_assoc]
      rfl

theorem Scan.foldl_step_written (segment : Segment) (finished : List String) (current : List Char)
    (inWord : Bool) :
    segment.written.foldl step ⟨finished, current, inWord, none⟩ =
      ⟨finished, segment.text.reverse ++ current, true, none⟩ := by
  have hopen : step ⟨finished, current, inWord, none⟩ segment.mark =
      ⟨finished, current, true, some segment.mark⟩ := if_pos segment.isQuote
  rw [Segment.written, List.foldl_cons, hopen, List.foldl_append, foldl_step_inside segment.unclosed]
  exact if_pos rfl

theorem Scan.foldl_step_segments (segments : List Segment) (finished : List String) (current : List Char)
    (inWord : Bool) :
    (segments.flatMap Segment.written).foldl step ⟨finished, current, inWord, none⟩ =
      ⟨finished, (segments.flatMap Segment.text).reverse ++ current, inWord || !segments.isEmpty, none⟩ := by
  induction segments generalizing current inWord with
  | nil => simp
  | cons segment segments ih =>
      rw [List.flatMap_cons, List.foldl_append, foldl_step_written, ih, List.flatMap_cons,
        List.reverse_append, List.append_assoc]
      simp

namespace Quotes

variable {word : String} {text : List Char}

theorem foldl_eq (h : Quotes word text) :
    text.foldl Scan.step Scan.start = ⟨[], word.toList.reverse, true, none⟩ := by
  obtain ⟨segments, hne, hword, rfl⟩ := h
  rw [Scan.start, Scan.foldl_step_segments, hword]
  simp [hne]

theorem closed (h : Quotes word text) : Closed text := by
  rw [Closed, h.foldl_eq]

theorem words_eq (h : Quotes word text) : words (String.ofList text) = [word] := by
  rw [words_ofList, h.foldl_eq]
  simp [Scan.finishWord]

end Quotes

theorem exists_quotes (word : String) : ∃ text, Quotes word text := by
  let empty : Segment := ⟨'"', [], .inr rfl, List.not_mem_nil⟩
  refine ⟨_, empty :: word.toList.map Segment.ofChar, List.cons_ne_nil _ _, ?_, rfl⟩
  rw [List.flatMap_cons, List.flatMap_map]
  simp only [Segment.text_ofChar, empty, List.nil_append]
  exact List.flatMap_singleton' _

theorem exists_quotedLine (given : List String) : ∃ line, QuotedLine given line := by
  induction given with
  | nil => exact ⟨[], .nil⟩
  | cons word given ih =>
      obtain ⟨text, hword⟩ := exists_quotes word
      obtain ⟨line, hline⟩ := ih
      cases given with
      | nil => exact ⟨text, .single hword⟩
      | cons next given =>
          have hgap : Gap [' '] := ⟨List.cons_ne_nil _ _, List.all_eq_true.mp (by decide)⟩
          exact ⟨_, .cons hword hgap hline⟩

theorem QuotedLine.words_eq {given : List String} {line : List Char} (h : QuotedLine given line) :
    words (String.ofList line) = given := by
  induction h with
  | nil => rfl
  | single hword => exact hword.words_eq
  | @cons word next text gap line given hword hgap later ih =>
      obtain ⟨c, gap, rfl⟩ := List.exists_cons_of_ne_nil hgap.ne_nil
      have hblank := List.forall_mem_cons.mp hgap.blank
      rw [List.cons_append, words_append hword.closed hblank.1, words_append_of_blank hblank.2,
        hword.words_eq, ih]
      rfl

/-! ## Lines without quotes -/

/-- The first word of a line without quotes is the one for which aliases are looked up. -/
theorem words_eq_firstWord {line : List Char} (h : Unquoted line) :
    words (String.ofList line) =
      if (firstWord line).1 = [] then []
      else String.ofList (firstWord line).1 :: words (String.ofList (firstWord line).2) := by
  have hsplit : firstWord line = (leadingWord (trim line), trimLeft ((trim line).dropWhile (!isBlank ·))) := by
    rw [← firstWord_of_trimmed (trimmed_trim line), firstWord, firstWord, trim_trim]
  have hruns : words (String.ofList line) = (unbroken (trim line)).map String.ofList := by
    rw [words_of_unquoted (by rwa [String.toList_ofList]), String.toList_ofList, unbroken_trim]
  rw [hsplit, hruns]
  by_cases hblank : trim line = []
  · rw [hblank]
    rfl
  · have hrest : Unquoted (trimLeft ((trim line).dropWhile (!isBlank ·))) := by
      have hsuffix : trimLeft ((trim line).dropWhile (!isBlank ·)) <:+ trim line :=
        (List.dropWhile_suffix isBlank).trans (List.dropWhile_suffix _)
      exact fun c hc => h c ((infix_of_trim line).subset (hsuffix.subset hc))
    rw [if_neg (leadingWord_ne_nil hblank (trimmed_trim line).front),
      unbroken_of_trimmed (trimmed_trim line) hblank, List.map_cons,
      words_of_unquoted (by rwa [String.toList_ofList]), String.toList_ofList]

/-- Behind a text in which every quote is closed, a blank divides a line into parts that have their words
apart from each other.  Every list of words can be quoted, and each way to quote it gives just these words.
Without quotes the words are the runs of characters between blanks: the first is the one for which aliases
are looked up, and the others are the words of what follows it. -/
theorem words_compose :
    (∀ (front back : String) (c : Char), Closed front.toList → isBlank c = true →
      words (front ++ String.singleton c ++ back) = words front ++ words back) ∧
    (∀ given, (∃ line, QuotedLine given line) ∧
      ∀ line, QuotedLine given line → words (String.ofList line) = given) ∧
    ∀ command : String, Unquoted command.toList →
      let first := (firstWord command.toList).1
      let rest := (firstWord command.toList).2
      words command = (unbroken command.toList).map String.ofList ∧
      words command = if first = [] then [] else String.ofList first :: words (String.ofList rest) := by
  refine ⟨?_, ?_, ?_⟩
  · intro front back c hfront hc
    have htext : front ++ String.singleton c ++ back = String.ofList (front.toList ++ c :: back.toList) := by
      rw [← String.toList_inj]
      simp [String.toList_append]
    have hwords := words_append hfront hc back.toList
    rw [String.ofList_toList, String.ofList_toList] at hwords
    rw [htext, hwords]
  · exact fun given => ⟨exists_quotedLine given, fun line hline => hline.words_eq⟩
  · intro command hcommand first rest
    have hfirst := words_eq_firstWord hcommand
    rw [String.ofList_toList] at hfirst
    exact ⟨words_of_unquoted hcommand, hfirst⟩

/-- An empty word, and a word with quotes of both kinds. -/
theorem words_compose_quoted :
    Closed "ll='a b'".toList ∧ words ("ll='a b'" ++ String.singleton '\t' ++ "'x y") = ["ll=a b", "x y"] ∧
      QuotedLine ["it's \"", ""] "\"it's \"'\"'  ''".toList ∧
      words (String.ofList "\"it's \"'\"'  ''".toList) = ["it's \"", ""] ∧
      Unquoted "  Ll -a\tb ".toList ∧
      words "  Ll -a\tb " = "Ll" :: words (String.ofList (firstWord "  Ll -a\tb ".toList).2) := by
  have hfront : Closed "ll='a b'".toList := by decide
  have hfirst : Quotes "it's \"" "\"it's \"'\"'".toList :=
    ⟨[⟨'"', "it's ".toList, .inr rfl, by decide⟩, ⟨'\'', ['"'], .inl rfl, by decide⟩], by decide, rfl, rfl⟩
  have hempty : Quotes "" "''".toList := ⟨[⟨'\'', [], .inl rfl, by decide⟩], by decide, rfl, rfl⟩
  have hgap : Gap [' ', ' '] := ⟨List.cons_ne_nil _ _, List.all_eq_true.mp (by decide)⟩
  have hline : QuotedLine ["it's \"", ""] "\"it's \"'\"'  ''".toList := .cons hfirst hgap (.single hempty)
  have hcommand : Unquoted "  Ll -a\tb ".toList := by decide
  obtain ⟨happend, hquoted, hplain⟩ := words_compose
  have hjoined := happend "ll='a b'" "'x y" '\t' hfront (by decide)
  exact ⟨hfront, hjoined.trans rfl, hline, (hquoted _).2 _ hline, hcommand, (hplain _ hcommand).2.trans rfl⟩

end VirtualShell.Input
