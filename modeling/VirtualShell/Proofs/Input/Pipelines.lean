import Mathlib.Data.List.Basic
import VirtualShell.Input.Shape
import VirtualShell.Proofs.Text.Trimming

/-! # The pipelines of a line

Dividing a line level by level comes down to one list of pipelines, in the order in which they run.
Two lines that are joined by an operator have the pipelines of the first and then those of the second,
whatever operators they hold themselves and whatever stands at their ends.
-/

namespace VirtualShell

namespace Text

/-! ## Cutting a trimmed text -/

theorem pieces_cons_of_ne {separator c : Char} (hc : c ≠ separator) (text : List Char) :
    ∃ head tail, pieces separator text = head :: tail ∧
      pieces separator (c :: text) = (c :: head) :: tail := by
  obtain ⟨head, tail, hpieces⟩ := List.exists_cons_of_ne_nil (pieces_ne_nil separator text)
  refine ⟨head, tail, hpieces, ?_⟩
  rw [pieces_cons, if_neg hc, hpieces]
  rfl

theorem pieces_concat_of_ne {separator c : Char} (hc : c ≠ separator) (text : List Char) :
    ∃ front last, pieces separator text = front ++ [last] ∧
      pieces separator (text ++ [c]) = front ++ [last ++ [c]] := by
  induction text with
  | nil => exact ⟨[], [], rfl, by simp [pieces_cons, pieces_nil, hc]⟩
  | cons d text ih =>
      obtain ⟨front, last, hpieces, hconcat⟩ := ih
      rw [List.cons_append, pieces_cons, pieces_cons, hpieces, hconcat]
      by_cases hd : d = separator
      · rw [if_pos hd, if_pos hd]
        exact ⟨[] :: front, last, rfl, rfl⟩
      · rw [if_neg hd, if_neg hd]
        cases front with
        | nil => exact ⟨[], d :: last, rfl, rfl⟩
        | cons head front => exact ⟨(d :: head) :: front, last, rfl, rfl⟩

/-- Blanks at the ends of a text only reach the ends of its first and last pieces. -/
theorem map_trim_pieces_trim {separator : Char} (hseparator : isBlank separator = false)
    (text : List Char) :
    (pieces separator (trim text)).map trim = (pieces separator text).map trim := by
  have hne : ∀ c, isBlank c = true → c ≠ separator := by
    rintro c hc rfl
    rw [hseparator] at hc
    cases hc
  refine trim_induction (f := fun text => (pieces separator text).map trim) ?_ ?_ text
  · intro c text hc
    obtain ⟨head, tail, hpieces, hcons⟩ := pieces_cons_of_ne (hne c hc) text
    rw [hcons, hpieces, List.map_cons, List.map_cons, trim_cons_of_blank hc]
  · intro c text hc
    obtain ⟨front, last, hpieces, hconcat⟩ := pieces_concat_of_ne (hne c hc) text
    rw [hconcat, hpieces, List.map_append, List.map_append, List.map_singleton, List.map_singleton,
      trim_concat_of_blank hc]

/-! ## Pairs -/

theorem occursIn_pair_singleton (mark c : Char) : occursIn [mark, mark] [c] = false := by
  simp [occursIn, List.isPrefixOf]

/-- A character that is no mark stands between the pairs of two texts, and in none itself. -/
theorem occursIn_pair_append {mark c : Char} (hc : c ≠ mark) (first second : List Char) :
    occursIn [mark, mark] (first ++ c :: second) =
      (occursIn [mark, mark] first || occursIn [mark, mark] second) := by
  have hskip : occursIn [mark, mark] (c :: second) = occursIn [mark, mark] second := by
    cases second with
    | nil => exact occursIn_pair_singleton mark c
    | cons d second =>
        rw [occursIn_pair_cons_cons, decide_eq_false fun hpair => hc hpair.1, Bool.false_or]
  induction first with
  | nil => exact hskip
  | cons d first ih =>
      cases first with
      | nil =>
          have hpair : decide (d = mark ∧ c = mark) = false := decide_eq_false fun hpair => hc hpair.2
          rw [List.singleton_append, occursIn_pair_cons_cons, hpair, Bool.false_or, hskip,
            occursIn_pair_singleton, Bool.false_or]
      | cons e first =>
          rw [List.cons_append, List.cons_append, occursIn_pair_cons_cons, occursIn_pair_cons_cons,
            ← List.cons_append, ih, Bool.or_assoc]

theorem piecesAtPairs_of_not_occursIn {mark : Char} {text : List Char}
    (h : occursIn [mark, mark] text = false) : piecesAtPairs mark text = [text] := by
  fun_induction piecesAtPairs mark text with
  | case1 => rfl
  | case2 c => rfl
  | case3 c d rest hpair =>
      rw [occursIn_pair_cons_cons, decide_eq_true hpair] at h
      cases h
  | case4 c d rest hpair later =>
      rename_i ih
      rw [occursIn_pair_cons_cons, decide_eq_false hpair, Bool.false_or] at h
      rw [show later = [d :: rest] from ih h]
      rfl

theorem piecesAtPairs_head (mark d : Char) (rest : List Char) :
    ∃ head tail, piecesAtPairs mark (d :: rest) = head :: tail ∧ (head = [] ∨ head.head? = some d) := by
  cases rest with
  | nil => exact ⟨[d], [], rfl, .inr rfl⟩
  | cons e rest =>
      rw [piecesAtPairs]
      split
      · exact ⟨_, _, rfl, .inl rfl⟩
      · exact ⟨_, _, rfl, .inr rfl⟩

theorem not_occursIn_of_mem_piecesAtPairs {mark : Char} {text piece : List Char}
    (h : piece ∈ piecesAtPairs mark text) : occursIn [mark, mark] piece = false := by
  fun_induction piecesAtPairs mark text generalizing piece with
  | case1 =>
      rw [List.mem_singleton.mp h]
      rfl
  | case2 c =>
      rw [List.mem_singleton.mp h]
      exact occursIn_pair_singleton mark c
  | case3 c d rest _ ih =>
      rcases List.mem_cons.mp h with rfl | h
      · rfl
      · exact ih h
  | case4 c d rest hpair later =>
      rename_i ih
      obtain ⟨head, tail, hlater, hhead⟩ := piecesAtPairs_head mark d rest
      rw [show later = head :: tail from hlater] at h
      rw [hlater] at ih
      rcases List.mem_cons.mp h with rfl | h
      · have hrest := ih List.mem_cons_self
        cases head with
        | nil => exact occursIn_pair_singleton mark c
        | cons e head =>
            have he : e = d := by simpa using hhead
            rw [List.headD_cons, occursIn_pair_cons_cons, hrest, he, decide_eq_false hpair]
            rfl
      · exact ih (List.mem_cons_of_mem _ h)

theorem piecesAtPairs_cons_of_ne {mark c : Char} (hc : c ≠ mark) (text : List Char) :
    piecesAtPairs mark (c :: text) =
      (c :: (piecesAtPairs mark text).headD []) :: (piecesAtPairs mark text).tail := by
  cases text with
  | nil => rfl
  | cons d text => rw [piecesAtPairs, if_neg fun hpair => hc hpair.1]

/-- A character that is no mark ends the search for a pair, so what follows it is divided by itself. -/
theorem exists_piecesAtPairs_append (mark : Char) (first : List Char) :
    ∃ front last, piecesAtPairs mark first = front ++ [last] ∧ ∀ c second, c ≠ mark →
      piecesAtPairs mark (first ++ c :: second) =
        front ++ (last ++ c :: (piecesAtPairs mark second).headD []) :: (piecesAtPairs mark second).tail := by
  fun_induction piecesAtPairs mark first with
  | case1 => exact ⟨[], [], rfl, fun _ second hc => piecesAtPairs_cons_of_ne hc second⟩
  | case2 d =>
      refine ⟨[], [d], rfl, fun c second hc => ?_⟩
      rw [List.singleton_append, piecesAtPairs, if_neg fun hpair => hc hpair.2,
        piecesAtPairs_cons_of_ne hc second]
      rfl
  | case3 d e rest hpair ih =>
      obtain ⟨front, last, hrest, happend⟩ := ih
      refine ⟨[] :: front, last, by rw [hrest, List.cons_append], fun c second hc => ?_⟩
      rw [List.cons_append, List.cons_append, piecesAtPairs, if_pos hpair, happend c second hc]
      rfl
  | case4 d e rest hpair later =>
      rename_i ih
      obtain ⟨front, last, hrest, happend⟩ := ih
      rw [show later = front ++ [last] from hrest]
      cases front with
      | nil =>
          refine ⟨[], d :: last, rfl, fun c second hc => ?_⟩
          rw [List.cons_append, List.cons_append, piecesAtPairs, if_neg hpair, ← List.cons_append,
            happend c second hc]
          rfl
      | cons head front =>
          refine ⟨(d :: head) :: front, last, rfl, fun c second hc => ?_⟩
          rw [List.cons_append, List.cons_append, piecesAtPairs, if_neg hpair, ← List.cons_append,
            happend c second hc]
          rfl

end Text

namespace Input

open Text

theorem stagesOf_append (first second : List (List Char)) :
    stagesOf (first ++ second) = stagesOf first ++ stagesOf second := by
  rw [stagesOf, List.map_append, List.filter_append, List.map_append]
  rfl

theorem sequenceStages_trim (text : List Char) : sequenceStages (trim text) = sequenceStages text := by
  rw [sequenceStages, sequenceStages, stagesOf, stagesOf, map_trim_pieces_trim (by decide)]

theorem pipelineStages_trim (text : List Char) : pipelineStages (trim text) = pipelineStages text := by
  have hbar : isBlank '|' = false := by decide
  have hpieces := congrArg (List.map String.ofList) (map_trim_pieces_trim hbar text)
  rw [List.map_map, List.map_map] at hpieces
  exact hpieces

theorem sequenceStages_append (first second : List Char) :
    sequenceStages (first ++ ';' :: second) = sequenceStages first ++ sequenceStages second := by
  rw [sequenceStages, pieces_append_cons, stagesOf_append]
  rfl

theorem pipelineStages_append (first second : List Char) :
    pipelineStages (first ++ '|' :: second) = pipelineStages first ++ pipelineStages second := by
  rw [pipelineStages, pieces_append_cons, List.map_append]
  rfl

theorem stagesOf_singleton (text : List Char) :
    stagesOf [text] = if trim text = [] then [] else [String.ofList (trim text)] := by
  by_cases hblank : trim text = []
  · simp [stagesOf, hblank]
  · simp [stagesOf, hblank]

/-! ## All pipelines at once -/

/-- The pipelines of a text in the order in which they run: the text is divided at double ampersands,
each part at semicolons, and what is left at bars. -/
def pipelines (text : List Char) : List (List String) :=
  (piecesAtPairs '&' text).flatMap fun part =>
    (sequenceStages part).map fun stage => pipelineStages stage.toList

theorem pipelines_of_not_occursIn {text : List Char} (h : occursIn ['&', '&'] text = false) :
    pipelines text = (sequenceStages text).map fun stage => pipelineStages stage.toList := by
  rw [pipelines, piecesAtPairs_of_not_occursIn h, List.flatMap_singleton]

theorem occursIn_trim {needle text : List Char} (h : occursIn needle text = false) :
    occursIn needle (trim text) = false := by
  rw [← Bool.not_eq_true, occursIn_iff_infix] at h ⊢
  exact fun hneedle => h (hneedle.trans (infix_of_trim text))

theorem pipelines_of_mem_piecesAtPairs {text part : List Char} (h : part ∈ piecesAtPairs '&' text) :
    pipelines (trim part) = (sequenceStages part).map fun stage => pipelineStages stage.toList := by
  rw [pipelines_of_not_occursIn (occursIn_trim (not_occursIn_of_mem_piecesAtPairs h)), sequenceStages_trim]

/-- Leaving blank stages out loses no pipeline. -/
theorem flatMap_stagesOf {α : Type} (f : List Char → List α) (hnil : f [] = [])
    (pieces : List (List Char)) :
    (stagesOf pieces).flatMap (fun stage => f stage.toList) = pieces.flatMap fun piece => f (trim piece) := by
  induction pieces with
  | nil => rfl
  | cons piece pieces ih =>
      rw [← List.singleton_append, stagesOf_append, List.flatMap_append, List.flatMap_append, ih,
        stagesOf_singleton, List.flatMap_singleton]
      by_cases hblank : trim piece = []
      · rw [if_pos hblank, hblank, hnil, List.flatMap_nil]
      · rw [if_neg hblank, List.flatMap_singleton, String.toList_ofList]

theorem flatMap_pipelines_andStages (text : List Char) :
    (andStages text).flatMap (fun stage => pipelines stage.toList) = pipelines text := by
  rw [andStages, flatMap_stagesOf pipelines (by decide), pipelines]
  exact List.flatMap_congr fun part hpart => pipelines_of_mem_piecesAtPairs hpart

theorem flatMap_pipelines_sequenceStages {text : List Char} (h : occursIn ['&', '&'] text = false) :
    (sequenceStages text).flatMap (fun stage => pipelines stage.toList) = pipelines text := by
  rw [pipelines_of_not_occursIn h, List.map_eq_flatMap]
  refine List.flatMap_congr fun stage hstage => ?_
  obtain ⟨piece, hpiece, htext, hblank⟩ := exists_piece_of_mem_stagesOf hstage
  have hpair : occursIn ['&', '&'] piece = false := by
    rw [← Bool.not_eq_true, occursIn_iff_infix] at h ⊢
    exact fun hpair => h (hpair.trans (infix_of_mem_pieces hpiece))
  have hsingle : sequenceStages piece = [String.ofList (trim piece)] := by
    rw [sequenceStages, pieces_of_not_mem (not_mem_of_mem_pieces hpiece), stagesOf_singleton, if_neg hblank]
  rw [htext, pipelines_of_not_occursIn (occursIn_trim hpair), sequenceStages_trim, hsingle,
    List.map_singleton, String.toList_ofList]

/-- A text without operators between stages is one pipeline, unless it is blank. -/
theorem pipelines_of_unchained {text : List Char} (hpair : occursIn ['&', '&'] text = false)
    (hmark : text.contains ';' = false) :
    pipelines text = if trim text = [] then [] else [pipelineStages text] := by
  have hmem : ';' ∉ text := by
    rw [← List.contains_iff_mem, hmark]
    simp
  rw [pipelines_of_not_occursIn hpair, sequenceStages, pieces_of_not_mem hmem, stagesOf_singleton]
  by_cases hblank : trim text = []
  · rw [if_pos hblank, if_pos hblank, List.map_nil]
  · rw [if_neg hblank, if_neg hblank, List.map_singleton, String.toList_ofList, pipelineStages_trim]

/-! ## One level at a time -/

section Shape

variable {line command : String} {joint : Joint} {stages : List String}

theorem flatMap_pipelines_of_chain (h : shape line = .chain joint stages) :
    stages.flatMap (fun stage => pipelines stage.toList) = pipelines line.toList := by
  unfold shape at h
  dsimp only at h
  split at h
  · cases h
    exact flatMap_pipelines_andStages line.toList
  split at h
  · rename_i hpair _
    cases h
    exact flatMap_pipelines_sequenceStages (by simpa using hpair)
  split at h
  · cases h
  · cases h

theorem pipelines_of_pipeline (h : shape line = .pipeline stages) : pipelines line.toList = [stages] := by
  unfold shape at h
  dsimp only at h
  split at h
  · cases h
  split at h
  · cases h
  split at h
  · rename_i hpair hmark hbar
    cases h
    have hmem := mem_trim (by decide) (List.contains_iff_mem.mp hbar)
    rw [pipelines_of_unchained (by simpa using hpair) (by simpa using hmark),
      if_neg (List.ne_nil_of_mem hmem)]
  · cases h

/-- The stages of a pipeline are divided no further. -/
theorem shape_of_mem_pipeline {stage : String} (h : shape line = .pipeline stages) (hstage : stage ∈ stages) :
    shape stage = .single stage ∧ Trimmed stage.toList := by
  unfold shape at h
  dsimp only at h
  split at h
  · cases h
  split at h
  · cases h
  split at h
  · rename_i hpair hmark _
    cases h
    obtain ⟨piece, hpiece, rfl⟩ := List.mem_map.mp hstage
    have hpair : occursIn ['&', '&'] line.toList = false := by simpa using hpair
    have hmark : ';' ∉ line.toList := by simpa using hmark
    have hbar : '|' ∉ piece := not_mem_of_mem_pieces hpiece
    have hpart : trim piece <:+: line.toList := (infix_of_trim piece).trans (infix_of_mem_pieces hpiece)
    have hnopair : occursIn ['&', '&'] (trim piece) = false := by
      rw [← Bool.not_eq_true, occursIn_iff_infix] at hpair ⊢
      exact fun hneedle => hpair (hneedle.trans hpart)
    have hnomark : ';' ∉ trim piece := fun hmem => hmark (hpart.subset hmem)
    have hnobar : '|' ∉ trim piece := fun hmem => hbar ((infix_of_trim piece).subset hmem)
    rw [shape]
    simp [hnopair, hnomark, hnobar, trim_trim, trimmed_trim]
  · cases h

theorem pipelines_of_single (h : shape line = .single command) :
    pipelines line.toList = if command = "" then [] else [[command]] := by
  unfold shape at h
  dsimp only at h
  split at h
  · cases h
  split at h
  · cases h
  split at h
  · cases h
  · rename_i hpair hmark hbar
    cases h
    have hmem : '|' ∉ line.toList := by
      rw [← List.contains_iff_mem]
      exact hbar
    rw [pipelines_of_unchained (by simpa using hpair) (by simpa using hmark), pipelineStages,
      pieces_of_not_mem hmem, List.map_singleton]
    by_cases hblank : trim line.toList = []
    · rw [if_pos hblank, hblank, if_pos rfl]
    · rw [if_neg hblank, if_neg (by simpa using hblank)]

end Shape

/-! ## Joined lines -/

theorem pipelines_append_semicolon (first second : List Char) :
    pipelines (first ++ ';' :: second) = pipelines first ++ pipelines second := by
  obtain ⟨front, last, hfirst, happend⟩ := exists_piecesAtPairs_append '&' first
  obtain ⟨head, tail, hsecond⟩ := List.exists_cons_of_ne_nil (piecesAtPairs_ne_nil '&' second)
  rw [pipelines, pipelines, pipelines, happend ';' second (by decide), hfirst, hsecond]
  simp only [List.headD_cons, List.tail_cons, List.flatMap_append, List.flatMap_cons, List.flatMap_nil,
    sequenceStages_append, List.map_append, List.append_assoc, List.append_nil]

/-- Blanks on both sides keep the ampersands of the two lines apart from those between them. -/
theorem pipelines_append_pair (first second : List Char) :
    pipelines (first ++ ' ' :: '&' :: '&' :: ' ' :: second) = pipelines first ++ pipelines second := by
  obtain ⟨front, last, hfirst, happend⟩ := exists_piecesAtPairs_append '&' first
  obtain ⟨head, tail, hsecond⟩ := List.exists_cons_of_ne_nil (piecesAtPairs_ne_nil '&' second)
  have hblank : piecesAtPairs '&' (' ' :: second) = (' ' :: head) :: tail := by
    rw [piecesAtPairs_cons_of_ne (by decide), hsecond]
    rfl
  have hpair : piecesAtPairs '&' ('&' :: '&' :: ' ' :: second) = [] :: (' ' :: head) :: tail := by
    rw [piecesAtPairs, if_pos ⟨rfl, rfl⟩, hblank]
  have hlast : sequenceStages (last ++ [' ']) = sequenceStages last := by
    rw [← sequenceStages_trim, trim_concat_of_blank (by decide), sequenceStages_trim]
  have hhead : sequenceStages (' ' :: head) = sequenceStages head := by
    rw [← sequenceStages_trim, trim_cons_of_blank (by decide), sequenceStages_trim]
  rw [pipelines, pipelines, pipelines, happend ' ' _ (by decide), hpair, hfirst, hsecond]
  simp only [List.headD_cons, List.tail_cons, List.flatMap_append, List.flatMap_cons, List.flatMap_nil,
    hlast, hhead, List.append_assoc, List.append_nil]

end Input

end VirtualShell
