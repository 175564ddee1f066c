import VirtualShell.Proofs.Command.Blame
import VirtualShell.Proofs.Input.Tokens
import VirtualShell.Proofs.Run.Markers
import VirtualShell.Proofs.Run.Rewriting
import VirtualShell.Proofs.Search.Lines

/-! # Two ways to search a file

A file can be searched by a command of its own, which numbers the lines, or by a filter behind the command
that prints it.  The one cuts its line into words and reads flags among them, the other reads the text of
a stage; both come to the same lines.
-/

namespace VirtualShell

open Text Input

/-! ## Numbered matches -/

variable {state : State} {file pattern content : String} {compiled : Pattern}

theorem matchingLines_eq (compiled : Pattern) (content : String) :
    matchingLines compiled content =
      (((linesOf content).zipIdx 1).filter fun line => compiled.occursIn line.1).map
        fun line => ⟨line.2, line.1⟩ := by
  rw [matchingLines, ← List.filterMap_eq_map, ← List.filterMap_eq_filter, List.filterMap_filterMap]
  refine List.filterMap_congr fun line _ => ?_
  by_cases hmatch : compiled.occursIn line.1 = true
  · simp [hmatch]
  · simp [hmatch, Option.guard]

theorem map_text_matchingLines (compiled : Pattern) (content : String) :
    (matchingLines compiled content).map (·.text) = (linesOf content).filter compiled.occursIn := by
  rw [matchingLines_eq, List.map_map]
  conv_rhs => rw [← List.zipIdx_map_fst 1 (linesOf content), List.filter_map]
  rfl

theorem pairwise_number_matchingLines (compiled : Pattern) (content : String) :
    ((matchingLines compiled content).map (·.number)).Pairwise (· < ·) := by
  have hnumbers : ((matchingLines compiled content).map (·.number)).Sublist
      (((linesOf content).zipIdx 1).map Prod.snd) := by
    rw [matchingLines_eq, List.map_map]
    exact List.filter_sublist.map _
  rw [List.zipIdx_map_snd] at hnumbers
  exact (List.pairwise_lt_range' 1).sublist hnumbers

theorem getElem?_of_mem_matchingLines {found : LineMatch} (h : found ∈ matchingLines compiled content) :
    1 ≤ found.number ∧ (linesOf content)[found.number - 1]? = some found.text := by
  rw [matchingLines_eq] at h
  obtain ⟨line, hline, rfl⟩ := List.mem_map.mp h
  exact List.mem_zipIdx_iff_le_and_getElem?_sub.mp (List.mem_filter.mp hline).1

namespace Line

/-- The line without the number in front and the colon and the blank behind it. -/
def unnumbered (line : Line) : Line :=
  ⟨String.ofList ((line.text.toList.dropWhile Char.isDigit).drop 2), line.style⟩

theorem unnumbered_numbered (found : LineMatch) :
    (output (Command.numbered found)).unnumbered = output found.text := by
  have hdigits : ∀ c ∈ (toString found.number).toList, c.isDigit = true := by
    rw [Nat.toString_eq_ofList_toDigits, String.toList_ofList]
    exact fun c hc => Nat.isDigit_of_mem_toDigits (by omega) (by omega) hc
  have htext : (Command.numbered found).toList =
      (toString found.number).toList ++ ':' :: ' ' :: found.text.toList := by
    simp [Command.numbered, String.toList_append]
  have hrest : ((Command.numbered found).toList.dropWhile Char.isDigit).drop 2 = found.text.toList := by
    rw [htext, List.dropWhile_append_of_pos hdigits, List.dropWhile_cons_of_neg (by decide)]
    rfl
  change (⟨String.ofList (((Command.numbered found).toList.dropWhile Char.isDigit).drop 2), _⟩ : Line) = _
  rw [hrest, String.ofList_toList]
  rfl

end Line

/-! ## A search behind a bar -/

namespace Interpreter

theorem shape_of_plain_stages {first second : List Char} (hfirst : Plain first) (hsecond : Plain second) :
    shape (String.ofList (first ++ '|' :: second)) =
      .pipeline [String.ofList (trim first), String.ofList (trim second)] := by
  have hno : ∀ {text : List Char}, Plain text → occursIn ['&', '&'] text = false := fun h => by
    rw [← Bool.not_eq_true, occursIn_iff_infix]
    exact h.pair
  have hpair : occursIn ['&', '&'] (first ++ '|' :: second) = false := by
    rw [occursIn_pair_append (by decide), hno hfirst, hno hsecond, Bool.or_false]
  have hsemicolon : ';' ∉ first ++ '|' :: second := by
    simp [hfirst.semicolon, hsecond.semicolon]
  have hstages : ∀ {text : List Char}, Plain text → pipelineStages text = [String.ofList (trim text)] :=
    fun h => by rw [pipelineStages, pieces_of_not_mem h.bar, List.map_singleton]
  simp [shape, hpair, hsemicolon, pipelineStages_append, hstages hfirst, hstages hsecond]

theorem unquote_of_unquoted {text : List Char} (h : Unquoted text) : unquote text = text := by
  cases text with
  | nil => rfl
  | cons c rest =>
      have hquotes := h c List.mem_cons_self
      exact if_neg fun hquoted => hquoted.1.elim hquotes.2 hquotes.1

theorem callsFilter_of_isOperand {pattern : String} (h : IsOperand pattern) :
    CallsFilter ("grep" ++ " " ++ pattern).toList false pattern.toList := by
  have hblank : isBlank ' ' = true := by decide
  have htext : ("grep" ++ " " ++ pattern).toList = ['g', 'r', 'e', 'p'] ++ ([' '] ++ pattern.toList) := by
    simp [String.toList_append]
  have hword : leadingWord pattern.toList = pattern.toList := by
    have hleading : leadingWord (pattern.toList ++ []) = pattern.toList :=
      leadingWord_append h.unbroken (by simp)
    rwa [List.append_nil] at hleading
  have hgap : Gap [' '] := ⟨List.cons_ne_nil _ _, by simp [hblank]⟩
  refine ⟨_, _, htext, by decide, .pattern hgap ?_⟩
  rw [hword]
  intro hmem
  have hhead := h.head_ne
  simp only [List.mem_cons, List.not_mem_nil, or_false, h.ne_nil, false_or] at hmem
  rcases hmem with hmem | hmem
  · rw [hmem] at hhead
    exact hhead rfl
  · rw [hmem] at hhead
    exact hhead rfl

end Interpreter

namespace Command

open VirtualShell.Action

theorem read_operand {command : String} {allowed : List Char} {arguments : Arguments} {word : String}
    {rest : List String} (h : word.toList.head? ≠ some '-') :
    Arguments.read command allowed arguments (word :: rest) =
      Arguments.read command allowed (arguments.addOperand word) rest := by
  rw [Arguments.read]
  split
  · rename_i htext
    rw [htext] at h
    exact absurd rfl h
  · rename_i htext
    rw [htext] at h
    exact absurd rfl h
  · rfl

/-- A file to which an operand leads can be searched under that operand. -/
theorem grep_of_at? (hfile : file.toList.head? ≠ some '-') (hpattern : pattern.toList.head? ≠ some '-')
    (hat : state.volume.root.at? (Path.resolve state.session.current file) = .ok (.file content))
    (hcompiled : Pattern.compile pattern true = .ok compiled) :
    grep ["-i", pattern, file] state =
      .ok ((matchingLines compiled content).map fun found => .output (numbered found)) state := by
  let options : Arguments := ⟨['i'], [pattern, file]⟩
  have harguments : arguments "grep" ['r', 'i'] ["-i", pattern, file] state = .ok options state := by
    have hread : parseFlags "grep" ['r', 'i'] ["-i", pattern, file] = .ok options := by
      change Arguments.read "grep" ['r', 'i'] ⟨['i'], []⟩ [pattern, file] = _
      rw [read_operand hpattern, read_operand hfile]
      rfl
    rw [arguments, hread]
    rfl
  have hline : linePattern pattern (!options.has 'i') = .ok compiled := by
    change linePattern pattern false = _
    rw [linePattern, Bool.not_false, hcompiled]
  unfold grep
  rw [bind_of_eq_ok harguments, bind_of_eq_ok (show grepOperands options.operands state =
    .ok (pattern, file) state from rfl)]
  dsimp only
  rw [hline]
  dsimp only
  rw [root_bind, directory_bind, expect_bind hat]
  dsimp only
  rw [Node.searchFile_eq hline hat]
  rfl

end Command

namespace Interpreter

theorem execute_filtered {registry : Registry} {first second : String} {given more : List String}
    (hfirst : MadeOf given first) (hsecond : MadeOf more second) (state : State) :
    execute registry (first ++ " | " ++ second) state =
      let ran := runCommand registry aliasDepth [] first state
      (pipe [second] ran.1, ran.2) := by
  have hblank : isBlank ' ' = true := by decide
  have htext : first ++ " | " ++ second =
      String.ofList ((first.toList ++ [' ']) ++ '|' :: ' ' :: second.toList) := by
    rw [← String.toList_inj]
    simp [String.toList_append]
  have hfront : Plain (first.toList ++ [' ']) := hfirst.plain.append_cons hblank .nil
  have hback : Plain (' ' :: second.toList) := Plain.nil.append_cons hblank hsecond.plain
  have hshape : shape (first ++ " | " ++ second) = .pipeline [first, second] := by
    rw [htext, shape_of_plain_stages hfront hback, trim_concat_of_blank hblank, trim_cons_of_blank hblank,
      hfirst.trimmed.trim_eq, hsecond.trimmed.trim_eq, String.ofList_toList, String.ofList_toList]
  rw [execute, runLine_of_pipeline hshape]
  generalize runCommand registry aliasDepth [] = run
  rfl

/-! ## The two searches -/

theorem isWord_cat : IsWord "cat" := by decide

theorem isWord_grep : IsWord "grep" := by decide

theorem isWord_ignoreCase : IsWord "-i" := by decide

section

variable (hfile : IsOperand file) (hpattern : IsOperand pattern)
  (hat : state.volume.root.at? (Path.resolve state.session.current file) = .ok (.file content))
  (hcompiled : Pattern.compile pattern true = .ok compiled)

include hfile hat

theorem runCommand_print (hcat : state.session.aliases.value? "cat" = none) :
    runCommand .standard aliasDepth [] ("cat" ++ " " ++ file) state =
      ((linesOf content).map .output, state) := by
  have hmade : MadeOf ["cat", file] ("cat" ++ " " ++ file) := hfile.madeOf.cons isWord_cat
  have hhelp : "--help" ∉ [file] := by simpa using hfile.ne_help.symm
  have hprogram : Registry.standard.get? (lowerOf "cat") = some (.builtin .cat) := by decide
  rw [runCommand_of_builtin hmade hcat hprogram hhelp]
  change runAction (Command.cat [file]) state = _
  rw [runAction, Command.cat_of_lookup (Node.at?_eq_ok_iff.mp hat)]

theorem execute_print (hcat : state.session.aliases.value? "cat" = none) :
    execute .standard ("cat " ++ file) state = ((linesOf content).map .output, state) := by
  have htext : "cat " ++ file = "cat" ++ " " ++ file := by
    rw [← String.toList_inj]
    simp [String.toList_append]
  have hrun := execute_of_plain .standard state (hfile.madeOf.cons isWord_cat).plain
  rw [String.ofList_toList, runCommand_print hfile hat hcat] at hrun
  rw [htext, hrun]

include hpattern hcompiled

theorem execute_search (hgrep : state.session.aliases.value? "grep" = none) :
    execute .standard ("grep -i " ++ pattern ++ " " ++ file) state =
      ((matchingLines compiled content).map fun found => .output (Command.numbered found), state) := by
  have htext : "grep -i " ++ pattern ++ " " ++ file =
      "grep" ++ " " ++ ("-i" ++ " " ++ (pattern ++ " " ++ file)) := by
    rw [← String.toList_inj]
    simp [String.toList_append]
  have hmade : MadeOf ["grep", "-i", pattern, file] ("grep -i " ++ pattern ++ " " ++ file) := by
    rw [htext]
    exact ((hfile.madeOf.cons hpattern.toIsWord).cons isWord_ignoreCase).cons isWord_grep
  have hhelp : "--help" ∉ ["-i", pattern, file] := by
    simpa using ⟨hpattern.ne_help.symm, hfile.ne_help.symm⟩
  have hprogram : Registry.standard.get? (lowerOf "grep") = some (.builtin .grep) := by decide
  rw [execute_of_builtin hmade hgrep hprogram hhelp]
  change runAction (Command.grep ["-i", pattern, file]) state = _
  rw [runAction, Command.grep_of_at? hfile.head_ne hpattern.head_ne hat hcompiled]

theorem execute_filter (hcat : state.session.aliases.value? "cat" = none) :
    execute .standard ("cat " ++ file ++ " | grep " ++ pattern) state =
      ((matchingLines compiled content).map fun found => .output found.text, state) := by
  have htext : "cat " ++ file ++ " | grep " ++ pattern =
      ("cat" ++ " " ++ file) ++ " | " ++ ("grep" ++ " " ++ pattern) := by
    rw [← String.toList_inj]
    simp [String.toList_append]
  have hfirst : MadeOf ["cat", file] ("cat" ++ " " ++ file) := hfile.madeOf.cons isWord_cat
  have hsecond : MadeOf ["grep", pattern] ("grep" ++ " " ++ pattern) := hpattern.madeOf.cons isWord_grep
  have hwhole : String.ofList (unquote pattern.toList) = pattern := by
    rw [unquote_of_unquoted hpattern.unquoted, String.ofList_toList]
  have hne : pattern ≠ "" := fun hnil => hpattern.ne_nil (hnil ▸ rfl)
  have hpassing : pipe ["grep" ++ " " ++ pattern] ((linesOf content).map .output) =
      ((linesOf content).filter compiled.occursIn).map .output := by
    have hvisible : visible ((linesOf content).map .output) = (linesOf content).map .output :=
      List.filter_eq_self.mpr fun line hline => by
        obtain ⟨text, _, rfl⟩ := List.mem_map.mp hline
        rfl
    rw [pipe_of_compiled hsecond.trimmed (callsFilter_of_isOperand hpattern) hwhole hne hcompiled, hvisible,
      List.filter_map]
    exact congrArg _ (List.filter_congr fun text _ => Bool.bne_false _)
  rw [htext, execute_filtered hfirst hsecond, runCommand_print hfile hat hcat]
  dsimp only
  rw [hpassing, ← map_text_matchingLines, List.map_map]
  rfl

end

/-- Printing a file in front of a filter shows the lines that searching the file shows, without the numbers in
front of them, and these are the lines in which the pattern occurs.  The numbers increase, and each is the
place of its line among those that printing the file shows. -/
theorem searches_agree (hfile : IsOperand file) (hpattern : IsOperand pattern)
    (hcat : state.session.aliases.value? "cat" = none) (hgrep : state.session.aliases.value? "grep" = none)
    (hat : state.volume.root.at? (Path.resolve state.session.current file) = .ok (.file content))
    (hcompiled : Pattern.compile pattern true = .ok compiled) :
    let searched := execute .standard ("grep -i " ++ pattern ++ " " ++ file) state
    let filtered := execute .standard ("cat " ++ file ++ " | grep " ++ pattern) state
    let printed := execute .standard ("cat " ++ file) state
    ∃ found : List LineMatch,
      searched = (found.map fun line => .output (toString line.number ++ ": " ++ line.text), state) ∧
      filtered = (searched.1.map Line.unnumbered, state) ∧
      found.map (·.text) = (linesOf content).filter compiled.occursIn ∧
      (found.map (·.number)).Pairwise (· < ·) ∧
      ∀ line ∈ found, 1 ≤ line.number ∧ printed.1[line.number - 1]? = some (.output line.text) := by
  intro searched filtered printed
  have hsearched := execute_search hfile hpattern hat hcompiled hgrep
  have hfiltered := execute_filter hfile hpattern hat hcompiled hcat
  have hprinted : printed = ((linesOf content).map .output, state) := execute_print hfile hat hcat
  refine ⟨matchingLines compiled content, hsearched, ?_, map_text_matchingLines compiled content,
    pairwise_number_matchingLines compiled content, fun line hline => ?_⟩
  · refine hfiltered.trans (congrArg (·, state) ?_)
    simp only [searched, hsearched, List.map_map]
    exact List.map_congr_left fun line _ => (Line.unnumbered_numbered line).symm
  · obtain ⟨hpositive, hplace⟩ := getElem?_of_mem_matchingLines hline
    rw [hprinted, List.getElem?_map, hplace]
    exact ⟨hpositive, rfl⟩

/-- A line that is found may begin with a number of its own. -/
theorem searches_agree_numbered :
    let root := Node.directory [("f", .file "0 1\r\n2\n1: 3")]
    let state : State := ⟨Session.start "user" "webterm" "/" false, ⟨root, []⟩, .epoch⟩
    IsOperand "f" ∧ IsOperand "1" ∧
      state.volume.root.at? (Path.resolve state.session.current "f") = .ok (.file "0 1\r\n2\n1: 3") ∧
      (execute .standard "grep -i 1 f" state).1 = [.output "1: 0 1", .output "3: 1: 3"] ∧
      execute .standard "cat f | grep 1" state = ([.output "0 1", .output "1: 3"], state) := by
  intro root state
  have hfile : IsOperand "f" := ⟨by decide, by decide⟩
  have hpattern : IsOperand "1" := ⟨by decide, by decide⟩
  have hat : root.at? (Path.resolve "/" "f") = .ok (.file "0 1\r\n2\n1: 3") := rfl
  have hshown : (execute .standard "grep -i 1 f" state).1 = [.output "1: 0 1", .output "3: 1: 3"] := by
    decide +kernel
  obtain ⟨compiled, hcompiled⟩ : ∃ compiled, Pattern.compile "1" true = .ok compiled := ⟨_, rfl⟩
  obtain ⟨found, _, hfiltered, _⟩ := @searches_agree state _ _ _ _ hfile hpattern rfl rfl hat hcompiled
  refine ⟨hfile, hpattern, hat, hshown, hfiltered.trans (congrArg (·, state) ?_)⟩
  exact (congrArg (List.map Line.unnumbered) hshown).trans (by decide +kernel)

end Interpreter

end VirtualShell
