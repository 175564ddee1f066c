import VirtualShell.Proofs.Pattern.Reading

/-! # Patterns with stars

The expression of a name pattern with stars: the characters between the stars stand for themselves, and
each star for any run of characters.  Such a pattern is always well-formed, so it is refused only if its
expression is too large.
-/

namespace VirtualShell.NamePattern

open Pattern (ofChar look repeated sequence Parser.Reads)

def anyRun : Pattern := repeated 0 none .anyButLineFeed

def parts : List (List Char) → List Pattern
  | [] => []
  | first :: rest =>
    first.map (ofChar true) ++ rest.flatMap fun piece => anyRun :: piece.map (ofChar true)

def expression (pieces : List (List Char)) : Pattern :=
  sequence (look .textStart :: (parts pieces ++ [look .textEnd]))

variable {pieces : List (List Char)} {rest : List Char}

/-! ## Reading -/

theorem intercalate_verbatim (first : List Char) (pieces : List (List Char)) :
    ['.', '*'].intercalate ((first :: pieces).map verbatim) =
      verbatim first ++ pieces.flatMap fun piece => '.' :: '*' :: verbatim piece := by
  induction pieces generalizing first with
  | nil => simp
  | cons next pieces ih =>
      rw [List.map_cons, List.map_cons, List.intercalate_cons_cons, ← List.map_cons, ih]
      simp

theorem head?_verbatim_append (h : rest.head? ≠ some '?') (piece : List Char) :
    (verbatim piece ++ rest).head? ≠ some '?' := by
  cases piece with
  | nil => exact h
  | cons c chars =>
      by_cases hspecial : c ∈ special
      · simp [verbatim, hspecial]
      · have hc : c ≠ '?' := by
          rintro rfl
          exact hspecial (by rw [Pattern.Parser.special_eq]; decide)
        simp [verbatim, hspecial, hc]

theorem reads_pieces (pieces : List (List Char)) (before : List Pattern) :
    Parser.Reads true ((pieces.flatMap fun piece => '.' :: '*' :: verbatim piece) ++ ['$']) before ['$']
      ((pieces.flatMap fun piece => anyRun :: piece.map (ofChar true)).reverse ++ before) := by
  induction pieces generalizing before with
  | nil => exact .refl _ _ _
  | cons piece pieces ih =>
      have hhead : ((pieces.flatMap fun piece => '.' :: '*' :: verbatim piece) ++ ['$']).head? ≠
          some '?' := by
        cases pieces <;> simp
      have hstar := head?_verbatim_append hhead piece
      have hfirst : Parser.Reads true
          ('.' :: '*' :: (verbatim piece ++ ((pieces.flatMap fun piece => '.' :: '*' :: verbatim piece) ++ ['$'])))
          before _ (anyRun :: before) := .anyRun hstar
      have hall := (hfirst.trans (.verbatim piece _ _)).trans (ih _)
      simpa using hall

theorem reads_wholeName (pieces : List (List Char)) :
    Parser.Reads true (wholeName pieces) [] []
      (look .textEnd :: (parts pieces).reverse ++ [look .textStart]) := by
  cases pieces with
  | nil => exact Parser.Reads.start.trans .finish
  | cons first pieces =>
      have htext : wholeName (first :: pieces) = '^' :: (verbatim first ++
          ((pieces.flatMap fun piece => '.' :: '*' :: verbatim piece) ++ ['$'])) := by
        unfold wholeName
        rw [intercalate_verbatim, List.cons_append, List.append_assoc]
      have hall := ((Parser.Reads.start.trans (.verbatim first _ [look .textStart])).trans
        (reads_pieces pieces _)).trans .finish
      rw [htext]
      simpa [parts] using hall

theorem parse_wholeName (pieces : List (List Char)) :
    Pattern.parse (wholeName pieces) true = .ok (expression pieces) := by
  rw [(reads_wholeName pieces).parse_eq]
  unfold expression
  cases parts pieces <;> simp [Pattern.ofSequence]

/-! ## Size -/

inductive Simple : Pattern → Prop
  | char (c : Char) : Simple (.char c)
  | oneOf (set : CharSet) : Simple (.oneOf set)
  | look (condition : Look) : Simple (.look condition)
  | anyRun : Simple anyRun

theorem simple_ofChar (ignoreCase : Bool) (c : Char) : Simple (ofChar ignoreCase c) := by
  unfold ofChar
  split
  · split
    · exact .oneOf _
    · exact .char c
  · exact .char c

theorem simple_of_mem_parts {part : Pattern} (h : part ∈ parts pieces) : Simple part := by
  cases pieces with
  | nil => cases h
  | cons first pieces =>
      simp only [parts, List.mem_append, List.mem_map, List.mem_flatMap, List.mem_cons] at h
      rcases h with ⟨c, _, rfl⟩ | ⟨piece, _, rfl | ⟨c, _, rfl⟩⟩
      · exact simple_ofChar true c
      · exact .anyRun
      · exact simple_ofChar true c

theorem fitsAll_of_simple {several : List Pattern} (h : ∀ part ∈ several, Simple part) (depth : Nat) :
    Pattern.fitsAll (depth + 2) several = true := by
  induction several with
  | nil => simp [Pattern.fitsAll]
  | cons part several ih =>
      rw [List.forall_mem_cons] at h
      obtain ⟨hpart, hrest⟩ := h
      have hfits : Pattern.fits (depth + 1) part = true := by
        cases hpart <;> simp [Pattern.fits, anyRun, Pattern.anyButLineFeed]
      simp [Pattern.fitsAll, hfits, ih hrest]

theorem fits_expression (pieces : List (List Char)) :
    (expression pieces).fits Pattern.nestingLimit = true := by
  have hsimple : ∀ part ∈ look .textStart :: (parts pieces ++ [look .textEnd]), Simple part := by
    intro part hpart
    rcases List.mem_cons.mp hpart with rfl | hrest
    · exact .look _
    · rcases List.mem_append.mp hrest with hmem | hlast
      · exact simple_of_mem_parts hmem
      · exact List.mem_singleton.mp hlast ▸ .look _
  have hall := fitsAll_of_simple hsimple 48
  unfold expression
  rw [Pattern.fits]
  exact hall

theorem compile_wholeName (pieces : List (List Char)) :
    Pattern.compile (String.ofList (wholeName pieces)) true =
      if Pattern.sizeLimit < (expression pieces).size then .error .tooLarge
      else .ok (expression pieces) := by
  unfold Pattern.compile
  rw [String.toList_ofList, parse_wholeName]
  change Pattern.checked (expression pieces) = _
  unfold Pattern.checked
  rw [fits_expression]
  rfl

/-- The pattern has stars, and its expression is larger than an expression may be. -/
def TooLarge (text : String) : Prop :=
  text ≠ "*" ∧ '*' ∈ text.toList ∧
    Pattern.sizeLimit < (expression (Text.pieces '*' text.toList)).size

theorem ofText_of_tooLarge {text : String} (h : TooLarge text) :
    ofText text = .error (.invalidPattern text PatternError.tooLarge.reason) := by
  obtain ⟨hnot, hstar, hsize⟩ := h
  unfold ofText
  rw [if_neg hnot, if_pos (List.contains_iff_mem.mpr hstar), compile_wholeName, if_pos hsize]

theorem ofText_of_not_mem {text : String} (hstar : '*' ∉ text.toList) :
    ofText text = .ok (.containing (Text.lower text.toList)) := by
  have hany : text ≠ "*" := by
    rintro rfl
    exact hstar (by decide)
  unfold ofText
  rw [if_neg hany, if_neg (mt List.contains_iff_mem.mp hstar)]

theorem ofText_eq_wildcard {text : String} (hany : text ≠ "*") (hstar : '*' ∈ text.toList)
    (hsize : ¬ TooLarge text) : ofText text = .ok (.wildcard (expression (Text.pieces '*' text.toList))) := by
  have hfits : ¬ Pattern.sizeLimit < (expression (Text.pieces '*' text.toList)).size :=
    fun hlarge => hsize ⟨hany, hstar, hlarge⟩
  unfold ofText
  rw [if_neg hany, if_pos (List.contains_iff_mem.mpr hstar), compile_wholeName, if_neg hfits]

theorem exists_ofText_eq_ok {text : String} (h : ¬ TooLarge text) :
    ∃ condition, ofText text = .ok condition := by
  by_cases hany : text = "*"
  · exact ⟨.any, by rw [hany]; rfl⟩
  by_cases hstar : '*' ∈ text.toList
  · exact ⟨_, ofText_eq_wildcard hany hstar h⟩
  · exact ⟨_, ofText_of_not_mem hstar⟩

/-! ## Stars alone -/

theorem pieces_stars (count : Nat) :
    Text.pieces '*' (List.replicate count '*') = List.replicate (count + 1) [] := by
  induction count with
  | zero => rfl
  | succ count ih => rw [List.replicate_succ, Text.pieces_cons, if_pos rfl, ih, ← List.replicate_succ]

theorem parts_stars (count : Nat) : parts (List.replicate (count + 1) []) = List.replicate count anyRun := by
  rw [List.replicate_succ]
  simp [parts, List.flatMap_replicate]

theorem partsSize_stars (count : Nat) (several : List Pattern) :
    Pattern.partsSize (List.replicate count anyRun ++ several) = 88 * count + Pattern.partsSize several := by
  have hone : Pattern.statesSize anyRun = 88 := by decide
  induction count with
  | zero => simp
  | succ count ih =>
      rw [List.replicate_succ, List.cons_append, Pattern.partsSize, hone, ih]
      omega

/-- Stars take room even where fewer of them would match the same names. -/
theorem tooLarge_stars {count : Nat} (h : 120000 ≤ count) :
    TooLarge (String.ofList (List.replicate count '*')) := by
  have hlist : (String.ofList (List.replicate count '*')).toList = List.replicate count '*' :=
    String.toList_ofList
  refine ⟨?_, ?_, ?_⟩
  · intro hone
    have hlength := congrArg (·.toList.length) hone
    simp at hlength
    omega
  · rw [hlist, List.mem_replicate]
    exact ⟨by omega, rfl⟩
  · have hsize : 88 * count ≤ (expression (List.replicate (count + 1) [])).size := by
      unfold expression Pattern.size
      rw [parts_stars, Pattern.statesSize, Pattern.statesSize, Pattern.partsSize, partsSize_stars]
      omega
    rw [hlist, pieces_stars]
    unfold Pattern.sizeLimit
    omega

end VirtualShell.NamePattern
