import Mathlib.Data.List.DropRight
import VirtualShell.Command.Reading
import VirtualShell.Proofs.Command.Blame
import VirtualShell.Proofs.Command.LineCounts
import VirtualShell.Proofs.Input.Pipelines
import VirtualShell.Proofs.Input.Words

/-! # The lines that commands see

Printing a file, counting in it and selecting from it all go by the same lines, whatever ends them and
whether or not the last one is ended.
-/

namespace VirtualShell

namespace Text

/-! ## Counting pieces and lines -/

theorem length_pieces (separator : Char) (text : List Char) :
    (pieces separator text).length = text.count separator + 1 := by
  induction text with
  | nil => rfl
  | cons c text ih =>
      rw [pieces_cons, List.count_cons]
      by_cases hc : c = separator
      · rw [if_pos hc, List.length_cons, ih, if_pos (beq_iff_eq.mpr hc)]
      · rw [if_neg hc, List.length_cons, List.length_tail, ih, if_neg (by simpa using hc)]
        omega

theorem lines_concat_feed (text : List Char) : lines (text ++ ['\n']) = (pieces '\n' text).map dropReturn := by
  have hpieces : pieces '\n' (text ++ ['\n']) = pieces '\n' text ++ [[]] := pieces_append_cons '\n' text []
  simp [lines, hpieces]

theorem length_lines_concat_of_ne {c : Char} (hc : c ≠ '\n') (text : List Char) :
    (lines (text ++ [c])).length = (pieces '\n' text).length := by
  obtain ⟨front, last, hpieces, hconcat⟩ := pieces_concat_of_ne hc text
  simp [lines, hpieces, hconcat]

theorem length_lines (text : List Char) :
    (lines text).length = text.count '\n' + (if text.getLast?.any (· ≠ '\n') then 1 else 0) := by
  rcases List.eq_nil_or_concat text with rfl | ⟨front, c, rfl⟩
  · rfl
  rw [List.concat_eq_append, List.getLast?_concat, List.count_append]
  by_cases hc : c = '\n'
  · subst hc
    rw [lines_concat_feed, List.length_map, length_pieces]
    simp
  · rw [length_lines_concat_of_ne hc, length_pieces]
    simp [hc]

end Text

namespace Command

open Text Input VirtualShell.Action

/-! ## Counting in one pass -/

namespace CountScan

variable {scan : CountScan} {before : List Char} {c : Char}

/-- The scan has read the text.  The words that have ended in it are counted, and one that has begun is not,
since what comes next may continue it. -/
structure Follows (scan : CountScan) (before : List Char) : Prop where
  lines : scan.counts.lines = before.count '\n'
  chars : scan.counts.chars = before.length
  words : ∃ ended begun, (∀ after, unbroken (before ++ after) = ended ++ unbroken (begun ++ after)) ∧
    (∀ c ∈ begun, isBlank c = false) ∧ scan.counts.words = ended.length ∧ scan.inWord = !begun.isEmpty

theorem follows_nil : Follows ⟨⟨0, 0, 0⟩, false⟩ [] :=
  ⟨rfl, rfl, [], [], fun _ => rfl, fun _ hc => (nomatch hc), rfl, rfl⟩

theorem Follows.step (h : Follows scan before) (c : Char) : Follows (scan.step c) (before ++ [c]) := by
  obtain ⟨ended, begun, hruns, hbegun, hwords, hinside⟩ := h.words
  refine ⟨?_, ?_, ?_⟩
  · show scan.counts.lines + _ = _
    rw [h.lines, List.count_append, List.count_singleton]
    simp only [beq_iff_eq]
  · show scan.counts.chars + 1 = _
    rw [h.chars, List.length_append, List.length_singleton]
  cases hc : isBlank c with
  | true =>
      -- The word that has begun ends here.
      refine ⟨ended ++ unbroken begun, [], ?_, fun _ hc => (nomatch hc), ?_, ?_⟩
      · intro after
        rw [List.append_assoc, List.singleton_append, hruns, unbroken_append hc, List.append_assoc]
        rfl
      · show scan.counts.words + (if isBlank c && scan.inWord then 1 else 0) = _
        rw [List.length_append, length_unbroken_word hbegun, hwords, hc, hinside]
        cases begun <;> rfl
      · show (!isBlank c) = _
        rw [hc]
        rfl
  | false =>
      refine ⟨ended, begun ++ [c], ?_, ?_, ?_, ?_⟩
      · intro after
        rw [List.append_assoc, hruns, List.append_assoc]
      · intro d hd
        rcases List.mem_append.mp hd with hd | hd
        · exact hbegun d hd
        · rw [List.mem_singleton.mp hd]
          exact hc
      · show scan.counts.words + (if isBlank c && scan.inWord then 1 else 0) = _
        rw [hc, hwords]
        rfl
      · show (!isBlank c) = _
        rw [hc]
        simp

theorem Follows.foldl (h : Follows scan before) (text : List Char) :
    Follows (text.foldl CountScan.step scan) (before ++ text) := by
  induction text generalizing scan before with
  | nil => rwa [List.append_nil]
  | cons c text ih =>
      have hnext := ih (h.step c)
      rwa [List.append_assoc, List.singleton_append] at hnext

theorem Follows.length_unbroken (h : Follows scan before) :
    scan.counts.words + (if scan.inWord then 1 else 0) = (unbroken before).length := by
  obtain ⟨ended, begun, hruns, hbegun, hwords, hinside⟩ := h.words
  have hwhole := hruns []
  rw [List.append_nil, List.append_nil] at hwhole
  rw [hwhole, List.length_append, length_unbroken_word hbegun, hwords, hinside]
  cases begun <;> rfl

end CountScan

/-- The numbers of a content are those of its lines, of the runs of characters between blanks, and of its
characters. -/
theorem Counts.ofContent_eq (content : List Char) :
    Counts.ofContent content = ⟨(Text.lines content).length, (unbroken content).length, content.length⟩ := by
  have hscan := CountScan.follows_nil.foldl content
  rw [List.nil_append] at hscan
  rw [length_lines, ← hscan.lines, ← hscan.length_unbroken, ← hscan.chars]
  rfl

/-! ## Selecting lines -/

variable {state : State} {file content : String}

theorem wc_of_lookup (h : state.volume.root.lookup (state.place file) = some (.file content)) :
    wc [file] state = .ok [.output (" ".intercalate
      [toString (linesOf content).length, toString (unbroken content.toList).length,
        toString content.length, file])] state := by
  apply forEach_singleton
  rw [bind_of_eq_ok (contentOf_of_lookup "wc" h), Counts.ofContent_eq, linesOf, List.length_map,
    String.length_toList]
  rfl

theorem selectLines_of_lookup {command : String} {given : List String} {n : Nat}
    (select : Nat → String → List String)
    (h : state.volume.root.lookup (state.place file) = some (.file content))
    (hgiven : parseLineCount command given = .ok ⟨n, [file]⟩) :
    selectLines command select given state = .ok ((select n content).map .output) state := by
  unfold selectLines
  rw [hgiven]
  apply forEach_singleton
  exact bind_of_eq_ok (contentOf_of_lookup command h)

theorem parseLineCount_spelling {option : List String} {n : Nat} (command : String) (hn : n < 2 ^ 64)
    (hoption : LineCount.Spelling (toString n) option) (hfile : LineCount.IsFile file) :
    parseLineCount command (option ++ [file]) = .ok ⟨n, [file]⟩ := by
  apply parseLineCount_eq_ok_iff.mpr
  exact ⟨.number hoption (count?_toString hn) (.file hfile (.nil _)), List.cons_ne_nil file []⟩

theorem firstLines_eq (n : Nat) (content : String) :
    firstLines n content = (linesOf content).take (min n (linesOf content).length) :=
  List.take_eq_take_min

theorem lastLines_eq (n : Nat) (content : String) :
    lastLines n content = (linesOf content).rtake (min n (linesOf content).length) := by
  show (linesOf content).drop _ = (linesOf content).drop _
  congr 1
  omega

/-- Commands that read a file see the same lines.  With those that are printed for it, their number is the
number of lines that is counted, beside the numbers of the runs of characters between blanks and of the
characters.  What is selected from the front or from the end is as many of them as are asked for, or all if
there are fewer, and any number up to the largest can be asked for.  What is selected from the front and the
others from the end are together all of them. -/
theorem readers_agree (h : state.volume.root.lookup (state.place file) = some (.file content)) :
    ∃ shown, cat [file] state = .ok (shown.map .output) state ∧
      wc [file] state = .ok [.output (" ".intercalate
        [toString shown.length, toString (unbroken content.toList).length, toString content.length,
          file])] state ∧
      (∀ n given, parseLineCount "head" given = .ok ⟨n, [file]⟩ →
        head given state = .ok ((shown.take (min n shown.length)).map .output) state) ∧
      (∀ n given, parseLineCount "tail" given = .ok ⟨n, [file]⟩ →
        tail given state = .ok ((shown.rtake (min n shown.length)).map .output) state) ∧
      (LineCount.IsFile file → ∀ n < 2 ^ 64, ∀ option, LineCount.Spelling (toString n) option →
        ∀ command, parseLineCount command (option ++ [file]) = .ok ⟨n, [file]⟩) ∧
      ∀ k ≤ shown.length, firstLines k content ++ lastLines (shown.length - k) content = shown := by
  refine ⟨linesOf content, cat_of_lookup h, wc_of_lookup h, ?_, ?_, ?_, ?_⟩
  · intro n given hgiven
    rw [head, selectLines_of_lookup firstLines h hgiven, firstLines_eq]
  · intro n given hgiven
    rw [tail, selectLines_of_lookup lastLines h hgiven, lastLines_eq]
  · intro hfile n hn option hoption command
    exact parseLineCount_spelling command hn hoption hfile
  · intro k hk
    have hrest : (linesOf content).length - ((linesOf content).length - k) = k := by omega
    show (linesOf content).take k ++ (linesOf content).drop _ = linesOf content
    rw [hrest, List.take_append_drop]

def mixedEnds : State :=
  ⟨Session.start "user" "webterm" "/" true, ⟨Node.directory [("log", .file "one\r\ntwo  words\n\nlast\r")], []⟩, .epoch⟩

theorem readers_agree_mixedEnds :
    cat ["log"] mixedEnds = .ok (["one", "two  words", "", "last\r"].map .output) mixedEnds ∧
      wc ["log"] mixedEnds = .ok [.output "4 4 22 log"] mixedEnds ∧
      head ["-n3", "log"] mixedEnds = .ok (["one", "two  words", ""].map .output) mixedEnds ∧
      tail ["-n", "18446744073709551615", "log"] mixedEnds =
        .ok (["one", "two  words", "", "last\r"].map .output) mixedEnds := by
  have hfile : mixedEnds.volume.root.lookup (mixedEnds.place "log") =
      some (.file "one\r\ntwo  words\n\nlast\r") := rfl
  have hname : LineCount.IsFile "log" := .inr (by decide)
  obtain ⟨shown, hcat, hwc, hhead, htail, hasked, _⟩ := readers_agree hfile
  have hshown : shown = ["one", "two  words", "", "last\r"] := by
    have hprinted : cat ["log"] mixedEnds = .ok (["one", "two  words", "", "last\r"].map .output) mixedEnds := rfl
    have hlines := (EStateM.Result.ok.inj (hcat.symm.trans hprinted)).1
    exact List.map_injective_iff.mpr (fun _ _ hline => congrArg Line.text hline) hlines
  subst hshown
  have hthree := hasked hname 3 (by decide) ["-n3"] (.joined (by decide)) "head"
  have hmost := hasked hname 18446744073709551615 (by decide) _ .separate "tail"
  exact ⟨hcat, hwc, hhead 3 _ hthree, htail _ _ hmost⟩

end Command

end VirtualShell
