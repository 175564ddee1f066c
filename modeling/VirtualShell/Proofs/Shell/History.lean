import Mathlib.Data.List.DropRight
import VirtualShell.Proofs.Command.Frame
import VirtualShell.Proofs.Shell.Remembered
import VirtualShell.Proofs.Shell.Standing
import VirtualShell.Proofs.Text.Counts

/-! # The recent past

A line of input joins the history before it runs, and the oldest lines give way.  Whatever a line calls after
that, in a chain, through an alias or in a captured stage, leaves the history alone, unless it is the call
that clears it.  The cap is applied when a line is recorded and at no other time.
-/

namespace VirtualShell

/-! ## The end of a list -/

/-- Keeping the end of a list before more is appended makes no difference to the end. -/
theorem rtake_rtake_append {α : Type} (first second : List α) (n : Nat) :
    (first.rtake n ++ second).rtake n = (first ++ second).rtake n := by
  rw [List.rtake_eq_reverse_take_reverse, List.rtake_eq_reverse_take_reverse,
    List.rtake_eq_reverse_take_reverse, List.reverse_append, List.reverse_append, List.reverse_reverse,
    List.take_append, List.take_append, List.take_take, Nat.min_eq_left (Nat.sub_le _ _)]

theorem zipIdx_drop {α : Type} (list : List α) (start count : Nat) :
    (list.drop count).zipIdx (start + count) = (list.zipIdx start).drop count := by
  induction list generalizing start count with
  | nil => simp
  | cons a list ih =>
      cases count with
      | zero => rfl
      | succ count =>
          rw [List.drop_succ_cons, List.zipIdx_cons, List.drop_succ_cons, ← ih, Nat.add_right_comm,
            Nat.add_assoc]

theorem Session.recorded_eq (line : String) (history : List String) :
    recorded line history = (history ++ [line]).rtake historyLimit := rfl

/-! ## What a call does to the history -/

namespace Interpreter

/-- The call clears the history. -/
def clearsHistory : Option (Builtin × List String) → Bool
  | some (.history, "-c" :: _) => true
  | _ => false

theorem clearsHistory_iff {call : Option (Builtin × List String)} :
    clearsHistory call = true ↔ ∃ given, call = some (.history, "-c" :: given) := by
  unfold clearsHistory
  split
  · simp
  · rename_i hother
    simpa using fun given hcall => hother given hcall

theorem history_after (given : List String) (state : State) :
    ((Command.history given).after state).session.history =
      if clearsHistory (some (.history, given)) then [] else state.session.history := by
  unfold Command.history
  split
  · rfl
  · exact congrArg Session.history (State.session_setHistory [] state)
  · rename_i word rest hword
    have hother : ¬ clearsHistory (some (.history, word :: rest)) = true := by
      rw [clearsHistory_iff]
      rintro ⟨given, hcall⟩
      cases hcall
      exact hword rfl
    rw [if_neg hother]
    split <;> rfl

/-- Only one call changes the history, and it leaves nothing of it. -/
theorem history_stateAfter (registry : Registry) (call : Option (Builtin × List String)) (state : State) :
    (stateAfter registry call state).session.history =
      if clearsHistory call then [] else state.session.history := by
  cases call with
  | none => rfl
  | some call =>
      obtain ⟨builtin, given⟩ := call
      by_cases hbuiltin : builtin = .history
      · rw [hbuiltin]
        exact history_after given state
      · have hother : ¬ clearsHistory (some (builtin, given)) = true := by
          rw [clearsHistory_iff]
          rintro ⟨given, hcall⟩
          cases hcall
          exact hbuiltin rfl
        have hframe := ((Builtin.run_within registry builtin given).steps state).frame
        rw [if_neg hother]
        exact hframe.history (mt Builtin.history_mem_parts_iff.mp hbuiltin)

end Interpreter

namespace Machine

open Interpreter

variable {registry : Registry} {machine : Machine} {count : Nat}

def Clears (registry : Registry) (machine : Machine) : Prop :=
  ∃ count, clearsHistory ((run registry count machine).call? registry) = true

theorem history_run_succ (registry : Registry) (machine : Machine) (count : Nat) :
    (run registry (count + 1) machine).state.session.history =
      if clearsHistory ((run registry count machine).call? registry) then []
      else (run registry count machine).state.session.history := by
  rw [run_succ_state, history_stateAfter]

theorem history_run_of_clears {earlier : Nat} (hearlier : earlier < count)
    (hclears : clearsHistory ((run registry earlier machine).call? registry) = true) :
    (run registry count machine).state.session.history = [] := by
  induction count with
  | zero => cases hearlier
  | succ count ih =>
      rw [history_run_succ]
      by_cases hlast : clearsHistory ((run registry count machine).call? registry) = true
      · rw [if_pos hlast]
      · have hne : earlier ≠ count := by
          rintro rfl
          exact hlast hclears
        rw [if_neg hlast, ih (by omega)]

theorem history_run_of_not_clears (h : ¬ machine.Clears registry) (count : Nat) :
    (run registry count machine).state.session.history = machine.state.session.history := by
  induction count with
  | zero => rfl
  | succ count ih =>
      have hlast : ¬ clearsHistory ((run registry count machine).call? registry) = true :=
        fun hclears => h ⟨count, hclears⟩
      rw [history_run_succ, if_neg hlast, ih]

/-- Behind its end a run makes no more calls. -/
theorem call?_of_done {last : Nat} (hdone : (run registry last machine).tasks = []) (hle : last ≤ count) :
    (run registry count machine).call? registry = none := by
  obtain ⟨more, rfl⟩ := Nat.exists_eq_add_of_le hle
  have hstep : step registry (run registry last machine) = none := by
    rw [step, hdone]
  rw [run_add, run_of_step_none hstep, call?, hdone]

end Machine

/-! ## Showing the history -/

namespace Command

theorem recent_eq (count : Nat) (history : List String) :
    recent count history = ((history.zipIdx 1).rtake count).map
      fun (line, place) => .output (padded (toString place) ++ "  " ++ line) := by
  rw [recent, List.rtake, List.length_zipIdx, ← zipIdx_drop, Nat.add_comm]

theorem history_of_count? {text : String} {n : Nat} (h : Text.count? text.toList = some n)
    (more : List String) (state : State) :
    history (text :: more) state = .ok (recent n state.session.history) state := by
  generalize hgiven : text :: more = given
  unfold history
  split
  · cases hgiven
  · cases hgiven
    have hnone : Text.count? "-c".toList = none := by decide
    rw [hnone] at h
    cases h
  · cases hgiven
    rw [h]
    rfl

end Command

/-! ## One line of input -/

namespace Shell

open Interpreter

variable {shell : Shell}

def Clears (shell : Shell) (line : String) : Prop := (shell.begin line).Clears .standard

def entry (line : String) : String := String.ofList (Text.trim line.toList)

theorem history_begin (shell : Shell) (line : String) :
    (shell.begin line).state.session.history =
      if entry line = "" then shell.state.session.history
      else (shell.state.session.history ++ [entry line]).rtake Session.historyLimit := by
  unfold begin
  dsimp only
  by_cases hblank : entry line = ""
  · rw [if_pos hblank, if_pos (by simpa [entry] using hblank)]
  · rw [if_neg hblank, if_neg (by simpa [entry] using hblank), Machine.start, State.record,
      State.session_setHistory, Session.recorded_eq, entry]

theorem session_begin_ends (shell : Shell) (line : String) :
    ∃ last, (Machine.run .standard last (shell.begin line)).tasks = [] ∧
      (Machine.run .standard last (shell.begin line)).state.session = (shell.exec line).2.state.session := by
  obtain ⟨last, hdone, hstate⟩ := begin_settles shell line
  have hsession := congrArg State.session hstate
  rw [State.session_settled, State.session_settled] at hsession
  exact ⟨last, hdone, hsession⟩

theorem not_clears_of_blank {line : String} (h : entry line = "") : ¬ shell.Clears line := by
  have hdone : (Machine.run .standard 0 (shell.begin line)).tasks = [] := by
    have hempty : (String.ofList (Text.trim line.toList)).isEmpty = true := by simpa [entry] using h
    rw [Machine.run, begin, if_pos hempty]
  rintro ⟨count, hclears⟩
  rw [Machine.call?_of_done hdone (Nat.zero_le count)] at hclears
  cases hclears

theorem history_exec_of_clears {line : String} (h : shell.Clears line) :
    (shell.exec line).2.state.session.history = [] := by
  obtain ⟨last, hdone, hsession⟩ := session_begin_ends shell line
  obtain ⟨count, hclears⟩ := h
  have hearlier : count < last := by
    by_contra hlater
    rw [Machine.call?_of_done hdone (Nat.le_of_not_lt hlater)] at hclears
    cases hclears
  rw [← hsession]
  exact Machine.history_run_of_clears hearlier hclears

theorem history_exec_of_not_clears {line : String} (h : ¬ shell.Clears line) :
    (shell.exec line).2.state.session.history = (shell.begin line).state.session.history := by
  obtain ⟨last, _, hsession⟩ := session_begin_ends shell line
  rw [← hsession]
  exact Machine.history_run_of_not_clears h last

/-! ## Many lines of input -/

/-- The lines that are not blank, as they are recorded. -/
def submitted (inputs : List (Moment × String)) : List String :=
  (inputs.map fun input => entry input.2).filter (· ≠ "")

def Uncleared : Shell → List (Moment × String) → Prop
  | _, [] => True
  | shell, input :: inputs =>
    ¬ (shell.atTime input.1).Clears input.2 ∧ ((shell.atTime input.1).exec input.2).2.Uncleared inputs

theorem run_append (front back : List (Moment × String)) (shell : Shell) :
    shell.run (front ++ back) = (shell.run front).run back := by
  unfold run
  rw [List.foldl_append]

theorem submitted_cons (input : Moment × String) (inputs : List (Moment × String)) :
    submitted (input :: inputs) =
      if entry input.2 = "" then submitted inputs else entry input.2 :: submitted inputs := by
  unfold submitted
  rw [List.map_cons]
  by_cases hblank : entry input.2 = ""
  · rw [if_pos hblank, List.filter_cons_of_neg (by simpa using hblank)]
  · rw [if_neg hblank, List.filter_cons_of_pos (by simpa using hblank)]

theorem history_run_of_uncleared {inputs : List (Moment × String)} (h : shell.Uncleared inputs) :
    (shell.run inputs).state.session.history =
      if submitted inputs = [] then shell.state.session.history
      else (shell.state.session.history ++ submitted inputs).rtake Session.historyLimit := by
  induction inputs generalizing shell with
  | nil => rfl
  | cons input inputs ih =>
      obtain ⟨hfirst, hlater⟩ := h
      have hnext := history_exec_of_not_clears hfirst
      have hbefore : (shell.atTime input.1).state.session.history = shell.state.session.history := rfl
      rw [history_begin, hbefore] at hnext
      rw [run_cons, ih hlater, hnext, submitted_cons]
      by_cases hblank : entry input.2 = ""
      · rw [if_pos hblank, if_pos hblank]
      · rw [if_neg hblank, if_neg hblank, if_neg (List.cons_ne_nil _ _),
          List.append_cons _ (entry input.2) (submitted inputs)]
        by_cases hnone : submitted inputs = []
        · rw [if_pos hnone, hnone, List.append_nil]
        · rw [if_neg hnone, rtake_rtake_append]

theorem uncleared_or_last_clears (shell : Shell) (inputs : List (Moment × String)) :
    shell.Uncleared inputs ∨ ∃ front input back, inputs = front ++ input :: back ∧
      ((shell.run front).atTime input.1).Clears input.2 ∧ (shell.run (front ++ [input])).Uncleared back := by
  induction inputs generalizing shell with
  | nil => exact .inl trivial
  | cons input inputs ih =>
      rcases ih ((shell.atTime input.1).exec input.2).2 with hlater | ⟨front, last, back, rfl, hclears, hback⟩
      · by_cases hfirst : (shell.atTime input.1).Clears input.2
        · refine .inr ⟨[], input, inputs, rfl, hfirst, ?_⟩
          rw [List.nil_append, run_cons, run_nil]
          exact hlater
        · exact .inl ⟨hfirst, hlater⟩
      · refine .inr ⟨input :: front, last, back, rfl, ?_, ?_⟩
        · rw [run_cons]
          exact hclears
        · rw [List.cons_append, run_cons]
          exact hback

/-- A line that is not blank joins the history before it runs, and the history ends with the last thousand of
its lines.  Each call of the run that clears the history leaves nothing of it, and no other call changes it.
So after many lines the history is the last thousand of those that were there and those submitted since, or,
if any line has cleared it, of those submitted after the last one that did; but as long as only blank lines
follow, even a longer history stays as it is.  A count of lines shows as many of them from the end as there
are, with their places from the start. -/
theorem history_recent (shell : Shell) :
    let before := shell.state.session.history
    (∀ line,
      let recorded := if entry line = "" then before else (before ++ [entry line]).rtake Session.historyLimit
      let point := fun count => Machine.run .standard count (shell.begin line)
      let after := (shell.exec line).2.state.session.history
      (point 0).state.session.history = recorded ∧
      (∀ count, (point (count + 1)).state.session.history =
        if clearsHistory ((point count).call? .standard) then [] else (point count).state.session.history) ∧
      (∃ last, (point last).tasks = [] ∧ (point last).state.session.history = after) ∧
      (shell.Clears line → after = []) ∧ (¬ shell.Clears line → after = recorded)) ∧
    (∀ inputs,
      let after := (shell.run inputs).state.session.history
      (shell.Uncleared inputs ∧ after =
        if submitted inputs = [] then before else (before ++ submitted inputs).rtake Session.historyLimit) ∨
      ∃ front input back, inputs = front ++ input :: back ∧
        ((shell.run front).atTime input.1).Clears input.2 ∧ (shell.run (front ++ [input])).Uncleared back ∧
        after = (submitted back).rtake Session.historyLimit) ∧
    ∀ n < 2 ^ 64, ∀ (more : List String) (state : State),
      let shown := (state.session.history.zipIdx 1).rtake n
      shown.length = min n state.session.history.length ∧
      Command.history (toString n :: more) state = .ok
        (shown.map fun (line, place) => .output (Command.padded (toString place) ++ "  " ++ line)) state := by
  intro before
  refine ⟨fun line => ?_, fun inputs => ?_, fun n hn more state => ⟨?_, ?_⟩⟩
  · intro recorded point after
    have hbegin : (shell.begin line).state.session.history = recorded := history_begin shell line
    obtain ⟨last, hdone, hsession⟩ := session_begin_ends shell line
    refine ⟨?_, fun count => ?_, ⟨last, ?_, ?_⟩, history_exec_of_clears, fun hkept => ?_⟩
    · simp only [point, Machine.run, hbegin]
    · simp only [point, Machine.history_run_succ]
    · simp only [point, hdone]
    · simp only [point, after, hsession]
    · exact (history_exec_of_not_clears hkept).trans hbegin
  · rcases uncleared_or_last_clears shell inputs with huncleared | ⟨front, input, back, rfl, hclears, hback⟩
    · exact .inl ⟨huncleared, history_run_of_uncleared huncleared⟩
    · refine .inr ⟨front, input, back, rfl, hclears, hback, ?_⟩
      have hcleared : (shell.run (front ++ [input])).state.session.history = [] := by
        rw [run_append, run_cons, run_nil]
        exact history_exec_of_clears hclears
      have hrun := history_run_of_uncleared hback
      rw [hcleared, List.nil_append, ← run_append, List.append_assoc, List.singleton_append] at hrun
      rw [hrun]
      by_cases hnone : submitted back = []
      · rw [if_pos hnone, hnone, List.rtake_nil]
      · rw [if_neg hnone]
  · change (List.drop _ _).length = _
    rw [List.length_drop, List.length_zipIdx]
    omega
  · rw [Command.history_of_count? (Text.count?_toString hn), Command.recent_eq]

/-- The history is cleared through an alias, in a stage that is captured. -/
theorem history_recent_wiped :
    let options : Options := { aliases := .ofList [("wipe", "history -c")] }
    let shell := (start options .epoch (.memory .empty)).1.run [(.epoch, "pwd")]
    shell.state.session.history = ["pwd"] ∧ shell.Clears "ls; wipe | wc" ∧
      (shell.exec "ls; wipe | wc").2.state.session.history = [] := by
  intro options shell
  have hbefore : shell.state.session.history = ["pwd"] := by decide +kernel
  have hclears : shell.Clears "ls; wipe | wc" := ⟨7, by decide +kernel⟩
  obtain ⟨hline, _⟩ := history_recent shell
  obtain ⟨_, _, _, hwiped, _⟩ := hline "ls; wipe | wc"
  exact ⟨hbefore, hclears, hwiped hclears⟩

/-- A saved history may be longer than the limit.  As long as only blank lines follow, it stays so. -/
theorem history_recent_long :
    let long := List.replicate 1001 "pwd"
    let store : Store := .memory ⟨[(Save.historyKey, (Session.historyJson long).render)], [], []⟩
    let shell := (start {} .epoch store).1
    let inputs := [(Moment.epoch, "")]
    shell.state.session.history = long ∧ shell.Uncleared inputs ∧
      (shell.run inputs).state.session.history ≠ (long ++ submitted inputs).rtake 1000 := by
  intro long store shell inputs
  have hsaved : store.read? Save.historyKey = some (Session.historyJson long).render := rfl
  have hhistory : shell.state.session.history = long := by
    have hstart := (State.remembered_restore {} .epoch store).2
    rw [hsaved, Session.startHistory_saved] at hstart
    exact hstart
  have huncleared : shell.Uncleared inputs := ⟨not_clears_of_blank (by decide), trivial⟩
  have hnothing : submitted inputs = [] := by decide
  have hrun := history_run_of_uncleared huncleared
  rw [if_pos hnothing, hhistory] at hrun
  refine ⟨hhistory, huncleared, fun hrecent => ?_⟩
  rw [hrun, hnothing, List.append_nil] at hrecent
  have hlength := congrArg List.length hrecent
  rw [List.rtake, List.length_drop, List.length_replicate] at hlength
  omega

end Shell

end VirtualShell
