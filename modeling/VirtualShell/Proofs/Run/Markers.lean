import VirtualShell.Proofs.Run.Captures

/-! # Stages that are not run

A pipeline runs its first stage only.  A second stage that is no filter is named in a marker together with
all stages after it.  A filter leaves no marker: of the stages after it nothing is told, unless a line that
it lets through happens to name them.
-/

namespace VirtualShell

open Input

namespace Line

/-- The line that tells which stages of a pipeline were not run. -/
def marker (stages : List String) : Line :=
  .info ("(pipe to '" ++ " | ".intercalate stages ++ "' not executed)")

/-- The line is a marker, and the stage is one of those between its quotes. -/
def Names (line : Line) (stage : String) : Prop :=
  ∃ text, line = .info ("(pipe to '" ++ text ++ "' not executed)") ∧ stage ∈ pipelineStages text.toList

end Line

namespace Input

open Text

/-- A text that can stand between two bars. -/
structure IsStage (stage : String) : Prop where
  bar : '|' ∉ stage.toList
  trimmed : Trimmed stage.toList

theorem isStage_of_mem_pipeline {line stage : String} {stages : List String}
    (h : shape line = .pipeline stages) (hstage : stage ∈ stages) : IsStage stage where
  bar := by
    unfold shape at h
    dsimp only at h
    split at h
    · cases h
    split at h
    · cases h
    split at h
    · cases h
      obtain ⟨piece, hpiece, rfl⟩ := List.mem_map.mp hstage
      rw [String.toList_ofList]
      exact fun hmem => not_mem_of_mem_pieces hpiece ((infix_of_trim piece).subset hmem)
    · cases h
  trimmed := (shape_of_mem_pipeline h hstage).2

theorem IsStage.pipelineStages_eq {stage : String} (h : IsStage stage) :
    pipelineStages stage.toList = [stage] := by
  rw [pipelineStages, pieces_of_not_mem h.bar, List.map_singleton, h.trimmed.trim_eq, String.ofList_toList]

/-- Stages that are written with bars between them can be told apart again. -/
theorem pipelineStages_intercalate {stages : List String} (hne : stages ≠ [])
    (h : ∀ stage ∈ stages, IsStage stage) : pipelineStages (" | ".intercalate stages).toList = stages := by
  induction stages with
  | nil => exact absurd rfl hne
  | cons stage rest ih =>
      rw [List.forall_mem_cons] at h
      cases rest with
      | nil => rw [String.intercalate_singleton, h.1.pipelineStages_eq]
      | cons next rest =>
          have hblank : isBlank ' ' = true := by decide
          have htext : (" | ".intercalate (stage :: next :: rest)).toList =
              (stage.toList ++ [' ']) ++ '|' :: ' ' :: (" | ".intercalate (next :: rest)).toList := by
            simp [String.toList_append]
          have hfirst : pipelineStages (stage.toList ++ [' ']) = [stage] := by
            rw [← pipelineStages_trim, trim_concat_of_blank hblank, pipelineStages_trim, h.1.pipelineStages_eq]
          have hrest : pipelineStages (' ' :: (" | ".intercalate (next :: rest)).toList) = next :: rest := by
            rw [← pipelineStages_trim, trim_cons_of_blank hblank, pipelineStages_trim]
            exact ih (List.cons_ne_nil _ _) h.2
          rw [htext, pipelineStages_append, hfirst, hrest]
          rfl

end Input

namespace Line

theorem names_marker {stages : List String} (h : ∀ stage ∈ stages, IsStage stage) {stage : String}
    (hstage : stage ∈ stages) : (marker stages).Names stage := by
  refine ⟨_, rfl, ?_⟩
  rw [pipelineStages_intercalate (List.ne_nil_of_mem hstage) h]
  exact hstage

theorem not_names_output (text stage : String) : ¬ (output text).Names stage := by
  rintro ⟨marked, hline, _⟩
  cases hline

end Line

namespace Interpreter

theorem CallsFilter.leadingWord_eq {stage pattern : List Char} {invert : Bool}
    (h : CallsFilter stage invert pattern) :
    (leadingWord stage).map Char.toLower = ['g', 'r', 'e', 'p'] := by
  obtain ⟨name, rest, rfl, hname, harguments⟩ := h
  rwa [leadingWord_append (not_isBlank_of_mem_name hname) harguments.head?]

/-- A pipeline whose second stage is no filter prints what its first stage prints, and then a marker that names
the second stage and all later ones.  A pipeline whose second stage filters prints the lines that pass, and
the later stages make no difference: each of them is named only if a line that passes is the marker of some
pipeline inside the first stage and names it. -/
theorem stages_named_iff (registry : Registry) (expanding : List String) (state : State)
    {text first second : String} {later : List String}
    (hshape : shape text = .pipeline (first :: second :: later)) :
    let run := runLine (runCommand registry (aliasDepth - expanding.length) expanding)
    let captured := (run first state).1
    let shown := (run text state).1
    let filters := (leadingWord second.toList).map Char.toLower = ['g', 'r', 'e', 'p']
    let accounted := (filters ∨ ∃ line ∈ shown, line.Names second) ∧
      ∀ stage ∈ later, ∃ line ∈ shown, line.Names stage
    (¬ filters → shown = captured ++ [.marker (second :: later)] ∧ accounted) ∧
    (filters → ∃ invert pattern, CallsFilter second.toList invert pattern) ∧
    ∀ invert pattern chosen compiled, CallsFilter second.toList invert pattern →
      String.ofList (unquote pattern) = chosen → chosen ≠ "" → Pattern.compile chosen true = .ok compiled →
      let passing := (visible captured).filter fun line => compiled.occursIn line.text != invert
      shown = passing ∧ (accounted ↔ ∀ stage ∈ later, ∃ line ∈ passing, line.Names stage) := by
  intro run captured shown filters accounted
  have hstages : ∀ stage ∈ second :: later, IsStage stage := fun stage hstage =>
    isStage_of_mem_pipeline hshape (List.mem_cons_of_mem _ hstage)
  have hsecond : Text.Trimmed second.toList := (hstages second List.mem_cons_self).trimmed
  have hshown : shown = pipe (second :: later) captured := congrArg Prod.fst (runLine_captures hshape state)
  refine ⟨fun hother => ?_, exists_callsFilter hsecond, ?_⟩
  · have hmarked : shown = captured ++ [.marker (second :: later)] := by
      rw [hshown]
      exact pipe_of_other hsecond hother later captured
    have hnamed : ∀ stage ∈ second :: later, ∃ line ∈ shown, line.Names stage := by
      intro stage hstage
      refine ⟨.marker (second :: later), ?_, Line.names_marker hstages hstage⟩
      rw [hmarked]
      simp
    rw [List.forall_mem_cons] at hnamed
    exact ⟨hmarked, .inr hnamed.1, hnamed.2⟩
  · intro invert pattern chosen compiled hcalls hchosen hne hcompiled passing
    have hpassing : shown = passing := by
      rw [hshown]
      exact pipe_of_compiled hsecond hcalls hchosen hne hcompiled later captured
    refine ⟨hpassing, ?_⟩
    simp only [accounted, hpassing]
    exact ⟨fun h => h.2, fun h => ⟨.inl hcalls.leadingWord_eq, h⟩⟩

/-- After a filter, a third stage is neither run nor named. -/
theorem stages_named_iff_sort :
    let state : State := ⟨Session.start "user" "webterm" "/" false, ⟨Node.directory [], []⟩, .epoch⟩
    let shown := (execute .standard "echo 1 | grep 1 | sort" state).1
    shape "echo 1 | grep 1 | sort" = .pipeline ["echo 1", "grep 1", "sort"] ∧
      shown = [.output "1"] ∧ ¬ ∃ line ∈ shown, line.Names "sort" := by
  intro state shown
  have hshape : shape "echo 1 | grep 1 | sort" = .pipeline ["echo 1", "grep 1", "sort"] := by decide
  have hshown : shown = [.output "1"] := by decide +kernel
  have hblank : Text.isBlank ' ' = true := by decide
  have hgap : Gap [' '] := ⟨List.cons_ne_nil _ _, by simp [hblank]⟩
  have hcalls : CallsFilter "grep 1".toList false ['1'] :=
    ⟨['g', 'r', 'e', 'p'], " 1".toList, by decide, by decide, .pattern hgap (by decide)⟩
  obtain ⟨compiled, hcompiled⟩ : ∃ compiled, Pattern.compile "1" true = .ok compiled := ⟨_, rfl⟩
  obtain ⟨_, _, hfilter⟩ := stages_named_iff .standard [] state hshape
  obtain ⟨hpassing, haccounted⟩ := hfilter false ['1'] "1" compiled hcalls (by decide) (by decide) hcompiled
  refine ⟨hshape, hshown, fun hnamed => ?_⟩
  have hlater : ∀ stage ∈ ["sort"], ∃ line ∈ shown, line.Names stage := by
    intro stage hstage
    rw [List.mem_singleton.mp hstage]
    exact hnamed
  have hall := haccounted.mp ⟨.inl hcalls.leadingWord_eq, hlater⟩
  rw [← hpassing] at hall
  obtain ⟨line, hline, hnames⟩ := hall "sort" (by simp)
  change line ∈ shown at hline
  rw [hshown, List.mem_singleton] at hline
  rw [hline] at hnames
  exact Line.not_names_output "1" "sort" hnames

end Interpreter

end VirtualShell
