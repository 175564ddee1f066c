import VirtualShell.Proofs.Input.Tokens
import VirtualShell.Proofs.Run.Chains

/-! # Executing a rewritten line

The interpreter replaces an alias by running its value as a line of its own, inside the line that named it.
As long as no operator stands in the line or in the values, this comes to the loop that rewrites one line:
what the loop ends with is dispatched.
-/

namespace VirtualShell

open Text Input

namespace Interpreter

/-! ## Executing a line -/

def runOutcome (registry : Registry) : Outcome → Run
  | .nothing => fun state => ([], state)
  | .command text => dispatch registry (String.ofList text)
  | .cycle name => fun state =>
    ([.error ("bash: alias: " ++ name ++ ": alias expansion loops back on itself")], state)

variable {registry : Registry} {used : List String} {line : List Char} {state : State}

theorem runLine_of_plain (run : String → Run) (h : Plain line) :
    runLine run (String.ofList line) = run (String.ofList (trim line)) :=
  runLine_of_single h.shape_eq

theorem reportError_aliasCycle (name : String) (state : State) :
    reportError (.aliasCycle name) state = runOutcome registry (.cycle name) state := by
  have hmessage : "bash: " ++ ("alias: " ++ name ++ ": alias expansion loops back on itself") =
      "bash: alias: " ++ name ++ ": alias expansion loops back on itself" := by
    rw [← String.append_assoc, ← String.append_assoc]
    rfl
  rw [reportError, ShellError.report, ShellError.message, hmessage]
  rfl

theorem runCommand_trim (depth : Nat) (line : List Char) :
    runCommand registry depth used (String.ofList (trim line)) =
      runCommand registry depth used (String.ofList line) := by
  funext state
  cases depth with
  | zero => simp only [runCommand, runExpanded, String.toList_ofList, trim_trim]
  | succ depth => simp only [runCommand, runExpanded, String.toList_ofList, trim_trim]

theorem runExpanded_of_done {outcome : Outcome} (deeper : Option (List String → String → Run))
    (h : turn state.session.aliases registry.contains used line = .done outcome) :
    runExpanded registry deeper used (String.ofList line) state = runOutcome registry outcome state := by
  rw [runExpanded, String.toList_ofList]
  by_cases htext : trim line = []
  · have hnothing : turn state.session.aliases registry.contains used line = .done .nothing := by
      unfold turn
      exact if_pos htext
    rw [hnothing] at h
    cases h
    rw [htext]
    rfl
  · have hexpand := expand_of_turn state.session.aliases registry.contains used htext
    rw [h] at hexpand
    rw [if_neg (by simpa using htext)]
    cases outcome with
    | nothing => exact hexpand.elim
    | command text =>
        rw [hexpand.1, hexpand.2]
        rfl
    | cycle name =>
        change expand _ _ _ _ = .cycle name at hexpand
        rw [hexpand]
        exact reportError_aliasCycle name state

theorem runExpanded_of_again {name : String} {next : List Char} (runInner : List String → String → Run)
    (hline : Plain line) (hvalues : PlainValues state.session.aliases)
    (h : turn state.session.aliases registry.contains used line = .again name next) :
    runExpanded registry (some runInner) used (String.ofList line) state =
      runInner (name :: used) (String.ofList (trim next)) state := by
  have htext : trim line ≠ [] := (of_turn_eq_again h).2.2.1
  have hexpand := expand_of_turn state.session.aliases registry.contains used htext
  rw [h] at hexpand
  obtain ⟨text, htrim, hexpand⟩ := hexpand
  have hplain : Plain text.toList := by
    rw [← Plain.trim_iff, htrim, Plain.trim_iff]
    exact plain_of_again h hline hvalues
  have hinner := runLine_of_plain (runInner (name :: used)) hplain
  rw [String.ofList_toList, htrim] at hinner
  rw [runExpanded, String.toList_ofList, if_neg (by simpa using htext), hexpand]
  exact congrFun hinner state

theorem runCommand_of_done (registry : Registry) {outcome : Outcome} (depth : Nat)
    (h : turn state.session.aliases registry.contains used line = .done outcome) :
    runCommand registry depth used (String.ofList line) state = runOutcome registry outcome state := by
  cases depth with
  | zero => exact runExpanded_of_done none h
  | succ depth => exact runExpanded_of_done _ h

/-- From any aliases on, the interpreter comes to the outcome of the loop. -/
theorem runCommand_rewrites (registry : Registry) (used : List String) (hline : Plain line)
    (hvalues : PlainValues state.session.aliases) :
    runCommand registry (aliasDepth - used.length) used (String.ofList line) state =
      runOutcome registry (rewrite state.session.aliases registry.contains used line).2 state := by
  fun_induction rewrite state.session.aliases registry.contains used line with
  | case1 used line outcome h => exact runCommand_of_done registry _ h
  | case2 used line name next h ih =>
      have hroom : aliasDepth - used.length = aliasDepth - (name :: used).length + 1 := by
        have hlength := (of_turn_eq_again h).2.1
        rw [List.length_cons]
        omega
      have hinner := runExpanded_of_again
        (runCommand registry (aliasDepth - (name :: used).length)) hline hvalues h
      rw [runCommand_trim, ih (plain_of_again h hline hvalues)] at hinner
      rw [hroom]
      exact hinner

theorem execute_of_plain (registry : Registry) (state : State) (hline : Plain line) :
    execute registry (String.ofList line) state =
      runCommand registry aliasDepth [] (String.ofList line) state := by
  rw [execute, runLine_of_plain _ hline, runCommand_trim]

/-! ## Calls of single words -/

section

variable {name command : String} {given : List String} {builtin : Builtin}

/-- A command of single words, for the first of which there is no alias, calls its program. -/
theorem runCommand_of_builtin (h : MadeOf (name :: given) command)
    (halias : state.session.aliases.value? name = none)
    (hprogram : registry.get? (lowerOf name) = some (.builtin builtin)) (hhelp : "--help" ∉ given)
    (depth : Nat) (used : List String) :
    runCommand registry depth used command state = runAction (builtin.run registry given) state := by
  have hname : String.ofList (lower (leadingWord (trim command.toList))) = lowerOf name := by
    rw [h.trimmed.trim_eq, ← h.leadingWord_eq, lowerOf, String.toList_ofList]
  have hturn : turn state.session.aliases registry.contains used command.toList =
      .done (.command command.toList) := by
    have hne : trim command.toList ≠ [] := by
      rw [h.trimmed.trim_eq]
      exact h.toList_ne_nil
    have hnone : state.session.aliases.get?
        (String.ofList (lower (leadingWord (trim command.toList)))) = none := by
      rw [hname]
      exact halias
    rw [turn_of_get?_none hne hnone, h.trimmed.trim_eq]
  have hrun := runCommand_of_done registry depth hturn
  rw [String.ofList_toList] at hrun
  rw [hrun, runOutcome, String.ofList_toList, dispatch, h.words_eq]
  dsimp only
  rw [hprogram]
  dsimp only
  rw [if_neg (by simpa using hhelp)]

theorem execute_of_builtin (h : MadeOf (name :: given) command)
    (halias : state.session.aliases.value? name = none)
    (hprogram : registry.get? (lowerOf name) = some (.builtin builtin)) (hhelp : "--help" ∉ given) :
    execute registry command state = runAction (builtin.run registry given) state := by
  have hrun := execute_of_plain registry state h.plain
  rw [String.ofList_toList, runCommand_of_builtin h halias hprogram hhelp] at hrun
  exact hrun

end

/-! ## Every line -/

/-- Without operators in a line and in the values of the aliases, executing the line is dispatching what
the loop ends with, or printing the error about an alias that leads back to itself.  The loop replaces at
most 16 aliases, each of them once.  The command with which it ends is the line after these
replacements, so each run of characters that no alias took stands in it, in the same order. -/
theorem execute_rewrites (registry : Registry) (line : String) (state : State) (hline : Plain line.toList)
    (hvalues : PlainValues state.session.aliases) :
    let table := state.session.aliases
    let rewritten := rewrite table registry.contains [] line.toList
    execute registry line state = runOutcome registry rewritten.2 state ∧
      rewritten.1.Nodup ∧ rewritten.1.length ≤ 16 ∧
      ∀ text, rewritten.2 = .command text →
        unbroken text = rewritten.1.foldr (replaceFirst table) (unbroken line.toList) ∧
        (unbroken line.toList).drop rewritten.1.length <:+ unbroken text := by
  intro table rewritten
  have hrun := execute_of_plain registry state hline
  rw [String.ofList_toList] at hrun
  obtain ⟨hnodup, hlength⟩ : rewritten.1.Nodup ∧ rewritten.1.length ≤ aliasDepth :=
    rewrite_bounded List.nodup_nil (Nat.zero_le aliasDepth)
  obtain ⟨replaced, hused, hwords⟩ :=
    exists_rewrite_append table registry.contains [] line.toList
  rw [List.append_nil] at hused
  have hloop := runCommand_rewrites registry [] hline hvalues
  rw [String.ofList_toList] at hloop
  refine ⟨hrun.trans hloop, hnodup, hlength, fun text htext => ?_⟩
  have htext' := hwords text htext
  rw [← hused] at htext'
  rw [htext']
  exact ⟨rfl, drop_suffix_foldr table _ _⟩

theorem execute_rewrites_nested :
    let session := { Session.start "user" "webterm" "/" false with
      aliases := .ofList [("e", ""), ("echo", "echo 'x'"), ("go", "E Echo")] }
    let state : State := ⟨session, ⟨Node.directory [], []⟩, .epoch⟩
    Plain "Go a  b".toList ∧ PlainValues session.aliases ∧
      rewrite session.aliases Registry.standard.contains [] "Go a  b".toList =
        (["echo", "e", "go"], .command "echo 'x' a  b".toList) ∧
      execute .standard "Go a  b" state = ([.output "x a b"], state) := by
  intro session state
  have hline : Plain "Go a  b".toList := by decide
  have hvalues : PlainValues session.aliases := by decide
  have hgo : turn session.aliases Registry.standard.contains [] "Go a  b".toList =
      .again "go" "E Echo a  b".toList := by decide +kernel
  have he : turn session.aliases Registry.standard.contains ["go"] "E Echo a  b".toList =
      .again "e" " Echo a  b".toList := by decide +kernel
  have hecho : turn session.aliases Registry.standard.contains ["e", "go"] " Echo a  b".toList =
      .again "echo" "echo 'x' a  b".toList := by decide +kernel
  have hagain : turn session.aliases Registry.standard.contains ["echo", "e", "go"]
      "echo 'x' a  b".toList = .done (.command "echo 'x' a  b".toList) := by decide +kernel
  have hrewritten : rewrite session.aliases Registry.standard.contains [] "Go a  b".toList =
      (["echo", "e", "go"], .command "echo 'x' a  b".toList) := by
    rw [rewrite_of_again hgo, rewrite_of_again he, rewrite_of_again hecho, rewrite_of_done hagain]
  obtain ⟨hrun, _⟩ := execute_rewrites .standard "Go a  b" state hline hvalues
  rw [hrewritten] at hrun
  exact ⟨hline, hvalues, hrewritten, hrun.trans rfl⟩

end Interpreter

end VirtualShell
