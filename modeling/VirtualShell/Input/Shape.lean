import VirtualShell.Text.Basic
import VirtualShell.Text.Pieces

/-! # The shape of an input line

A line is a chain of stages, a pipeline or a single command.  Double ampersands divide before
semicolons, and semicolons before bars; quotes do not hide any of them.
-/

namespace VirtualShell.Input

open Text

/-- What joins the stages of a chain.  Every stage runs in either case. -/
inductive Joint
  | and
  | sequence
deriving DecidableEq, Repr

/-- How a line is divided by the operators that bind least tightly in it. -/
inductive Shape
  | chain (joint : Joint) (stages : List String)
  | pipeline (stages : List String)
  | single (command : String)
deriving DecidableEq, Repr

def stagesOf (pieces : List (List Char)) : List String :=
  ((pieces.map trim).filter (!·.isEmpty)).map String.ofList

def andStages (text : List Char) : List String := stagesOf (piecesAtPairs '&' text)

def sequenceStages (text : List Char) : List String := stagesOf (pieces ';' text)

/-- The stages between bars, without blanks around them. -/
def pipelineStages (text : List Char) : List String :=
  (pieces '|' text).map fun piece => String.ofList (trim piece)

def shape (line : String) : Shape :=
  let text := line.toList
  if occursIn ['&', '&'] text then .chain .and (andStages text)
  else if text.contains ';' then .chain .sequence (sequenceStages text)
  else if text.contains '|' then .pipeline (pipelineStages text)
  else .single (String.ofList (trim text))

theorem exists_piece_of_mem_stagesOf {pieces : List (List Char)} {stage : String}
    (h : stage ∈ stagesOf pieces) :
    ∃ piece ∈ pieces, stage.toList = trim piece ∧ trim piece ≠ [] := by
  simp only [stagesOf, List.mem_map, List.mem_filter] at h
  obtain ⟨_, ⟨⟨piece, hpiece, rfl⟩, hblank⟩, rfl⟩ := h
  exact ⟨piece, hpiece, String.toList_ofList, by simpa using hblank⟩

/-- The stages of a chain are shorter than the line, so that dividing them again comes to an end. -/
theorem length_lt_of_mem_chain {line stage : String} {joint : Joint} {stages : List String}
    (hshape : shape line = .chain joint stages) (hstage : stage ∈ stages) :
    stage.toList.length < line.toList.length := by
  unfold shape at hshape
  dsimp only at hshape
  split at hshape
  · rename_i hpair
    cases hshape
    obtain ⟨piece, hpiece, htext, _⟩ := exists_piece_of_mem_stagesOf hstage
    have hshort := length_lt_of_mem_piecesAtPairs hpair hpiece
    have htrim := length_trim_le piece
    rw [htext]
    omega
  split at hshape
  · rename_i hmark
    cases hshape
    obtain ⟨piece, hpiece, htext, _⟩ := exists_piece_of_mem_stagesOf hstage
    have hshort := length_lt_of_mem_pieces (List.contains_iff_mem.mp hmark) hpiece
    have htrim := length_trim_le piece
    rw [htext]
    omega
  split at hshape
  · cases hshape
  · cases hshape

end VirtualShell.Input
