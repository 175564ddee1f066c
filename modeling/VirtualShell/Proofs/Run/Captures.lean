import VirtualShell.Proofs.Run.Filters
import VirtualShell.Proofs.Run.Machine

/-! # Captured stages

A pipeline runs its first stage and nothing else.  The lines that this stage prints decide what the
pipeline prints, and the lines that were printed before stay as they are.
-/

namespace VirtualShell

open Input

namespace Interpreter

variable {run : String → Run} {text first : String} {later : List String}

theorem runLine_of_mem_pipeline {stages : List String} {stage : String}
    (hshape : shape text = .pipeline stages) (hstage : stage ∈ stages) :
    runLine run stage = run stage :=
  runLine_of_single (shape_of_mem_pipeline hshape hstage).1

/-- Running a pipeline is running its first stage, up to what is printed. -/
theorem runLine_captures (hshape : shape text = .pipeline (first :: later)) (state : State) :
    runLine run text state = (pipe later (runLine run first state).1, (runLine run first state).2) := by
  rw [runLine_of_pipeline hshape, runLine_of_mem_pipeline hshape List.mem_cons_self]
  rfl

end Interpreter

namespace Machine

open Interpreter

/-- A pipeline leaves the state that its first stage leaves when it is run alone.  With any lines printed
before it, whatever waits behind it and whatever aliases are being expanded, it only adds lines, and
those are made from the lines that the first stage prints alone. -/
theorem pipeline_captures (registry : Registry) (expanding : List String) (state : State)
    {text first second : String} {later : List String}
    (hshape : shape text = .pipeline (first :: second :: later)) :
    let run := runLine (runCommand registry (aliasDepth - expanding.length) expanding)
    let captured := (run first state).1
    let shown := (run text state).1
    Prints registry expanding state (.line first) captured (run first state).2 ∧
    Prints registry expanding state (.line text) shown (run first state).2 ∧
    (run text state).2 = (run first state).2 ∧
    (∀ invert pattern chosen, CallsFilter second.toList invert pattern →
      String.ofList (unquote pattern) = chosen →
      (chosen = "" → shown = [.error "grep: missing pattern"]) ∧
      (∀ e, chosen ≠ "" → Pattern.compile chosen true = .error e →
        shown = [.error ("grep: " ++ (FileError.invalidPattern chosen e.reason).message)]) ∧
      ∀ compiled, chosen ≠ "" → Pattern.compile chosen true = .ok compiled →
        shown = (visible captured).filter (fun line => compiled.occursIn line.text != invert) ∧
        ∀ opposite third rest, shape opposite = .pipeline (first :: third :: rest) →
          CallsFilter third.toList (!invert) pattern →
          (shown ++ (run opposite state).1).Perm (visible captured)) ∧
    ((leadingWord second.toList).map Char.toLower = ['g', 'r', 'e', 'p'] →
      ∃ invert pattern, CallsFilter second.toList invert pattern) ∧
    ((leadingWord second.toList).map Char.toLower ≠ ['g', 'r', 'e', 'p'] →
      shown = captured ++
        [.info ("(pipe to '" ++ " | ".intercalate (second :: later) ++ "' not executed)")]) := by
  intro run captured shown
  have hsecond : Text.Trimmed second.toList := (shape_of_mem_pipeline hshape (by simp)).2
  have hrun : run text state = (pipe (second :: later) captured, (run first state).2) :=
    runLine_captures hshape state
  have hshown : shown = pipe (second :: later) captured := by simp only [shown, hrun]
  have hfinal : (run text state).2 = (run first state).2 := by rw [hrun]
  have hcommand := performs_command registry expanding
  refine ⟨performs_line hcommand first state, ?_, hfinal, ?_, exists_callsFilter hsecond, fun hname => ?_⟩
  · rw [← hfinal]
    exact performs_line hcommand text state
  · intro invert pattern chosen hcalls hchosen
    rw [hshown]
    refine ⟨fun hmissing => ?_, fun e hne hrefused => ?_, fun compiled hne hcompiled => ⟨?_, ?_⟩⟩
    · exact pipe_of_missing hsecond hcalls (hchosen.trans hmissing) later captured
    · exact pipe_of_refused hsecond hcalls hchosen hne hrefused later captured
    · exact pipe_of_compiled hsecond hcalls hchosen hne hcompiled later captured
    · intro opposite third rest hopposite hinverted
      have hthird : Text.Trimmed third.toList := (shape_of_mem_pipeline hopposite (by simp)).2
      have hother : run opposite state = (pipe (third :: rest) captured, (run first state).2) :=
        runLine_captures hopposite state
      rw [hother, pipe_of_compiled hsecond hcalls hchosen hne hcompiled,
        pipe_of_compiled hthird hinverted hchosen hne hcompiled]
      exact filter_inverted_perm compiled invert (visible captured)
  · rw [hshown]
    exact pipe_of_other hsecond hname later captured

theorem pipeline_captures_inverted :
    ∃ compiled, Pattern.compile "1" true = .ok compiled ∧
      shape "ls | GREP -v -i '1'" = .pipeline ["ls", "GREP -v -i '1'"] ∧
      ∀ state, let run := runLine (runCommand .standard aliasDepth [])
        (run "ls | GREP -v -i '1'" state).2 = (run "ls" state).2 ∧
        (run "ls | GREP -v -i '1'" state).1 =
          (visible (run "ls" state).1).filter fun line => compiled.occursIn line.text != true := by
  have hblank : Text.isBlank ' ' = true := by decide
  have hgap : Gap [' '] := ⟨List.cons_ne_nil _ _, by simp [hblank]⟩
  have hcalls : CallsFilter "GREP -v -i '1'".toList true ['\'', '1', '\''] :=
    ⟨['G', 'R', 'E', 'P'], " -v -i '1'".toList, by decide, by decide,
      .invert hgap (.ignoreCase hgap (.pattern hgap (by decide)))⟩
  have hshape : shape "ls | GREP -v -i '1'" = .pipeline ["ls", "GREP -v -i '1'"] := by decide
  obtain ⟨compiled, hcompiled⟩ : ∃ compiled, Pattern.compile "1" true = .ok compiled := ⟨_, rfl⟩
  refine ⟨compiled, hcompiled, hshape, fun state => ?_⟩
  obtain ⟨_, _, hfinal, hfilter, _⟩ := pipeline_captures .standard [] state hshape
  exact ⟨hfinal, ((hfilter true _ "1" hcalls (by decide)).2.2 compiled (by decide) hcompiled).1⟩

end Machine

end VirtualShell
