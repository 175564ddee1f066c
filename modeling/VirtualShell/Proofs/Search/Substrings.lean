import VirtualShell.Proofs.Pattern.Globs
import VirtualShell.Proofs.Search.Find

/-! # Two searches for a part of a name

A text without stars finds the names that hold it when both are in lower case.  The same text between
two stars finds the names that hold it up to the case of ASCII letters, with no line feed beside it.  On
names and texts without other capitals only the line feeds tell the two searches apart.
-/

namespace VirtualShell

namespace Text

/-- The lower case of the character depends on no other character and changes ASCII capitals only. -/
structure IsPlain (c : Char) : Prop where
  not_sigma : c ≠ 'Σ'
  not_dotted : c ≠ 'İ'
  lowerChar_eq : lowerChar c = c.toLower

theorem isPlain_of_ascii {c : Char} (h : c.toNat < 0x80) : IsPlain c where
  not_sigma := by
    rintro rfl
    exact absurd h (by decide)
  not_dotted := by
    rintro rfl
    exact absurd h (by decide)
  lowerChar_eq := if_pos h

theorem lowerAfter_eq_map {text : List Char} (h : ∀ c ∈ text, IsPlain c) (before : List Char) :
    lowerAfter before text = text.map Char.toLower := by
  induction text generalizing before with
  | nil => rfl
  | cons c text ih =>
      rw [List.forall_mem_cons] at h
      obtain ⟨hc, htext⟩ := h
      rw [lowerAfter, if_neg hc.not_sigma, if_neg hc.not_dotted, hc.lowerChar_eq, ih htext, List.map_cons,
        List.singleton_append]

theorem lower_eq_map {text : List Char} (h : ∀ c ∈ text, IsPlain c) : lower text = text.map Char.toLower :=
  lowerAfter_eq_map h []

end Text

namespace NamePattern

/-! ## The names that each pattern accepts -/

def namesWith (text : String) : Language Char := {name | Text.lower text.toList <:+: Text.lower name}

/-- The names that hold the text up to the case of ASCII letters, with a gap on either side. -/
def namesAround (text : String) : Language Char := gaps * spellings text.toList * gaps

def starred (text : String) : String := "*" ++ text ++ "*"

variable {text : String} {name : List Char}

@[simp] theorem mem_namesWith :
    name ∈ namesWith text ↔ Text.lower text.toList <:+: Text.lower name := Iff.rfl

theorem mem_mul_mul {first second third : Language Char} :
    name ∈ first * second * third ↔
      ∃ front ∈ first, ∃ middle ∈ second, ∃ back ∈ third, front ++ middle ++ back = name := by
  constructor
  · intro h
    obtain ⟨_, hfront, back, hback, rfl⟩ := Language.mem_mul.mp h
    obtain ⟨front, hfirst, middle, hmiddle, rfl⟩ := Language.mem_mul.mp hfront
    exact ⟨front, hfirst, middle, hmiddle, back, hback, rfl⟩
  · rintro ⟨front, hfirst, middle, hmiddle, back, hback, rfl⟩
    exact Language.append_mem_mul (Language.append_mem_mul hfirst hmiddle) hback

theorem mem_anything_around {piece : List Char} :
    name ∈ ⊤ * spellings piece * ⊤ ↔ piece.map Char.toLower <:+: name.map Char.toLower := by
  rw [mem_mul_mul]
  constructor
  · rintro ⟨front, -, middle, hmiddle, back, -, rfl⟩
    refine ⟨front.map Char.toLower, back.map Char.toLower, ?_⟩
    rw [List.map_append, List.map_append, mem_spellings.mp hmiddle]
  · rintro ⟨before, after, heq⟩
    obtain ⟨_, back, rfl, hfront, -⟩ := List.map_eq_append_iff.mp heq.symm
    obtain ⟨front, middle, rfl, -, hmiddle⟩ := List.map_eq_append_iff.mp hfront
    exact ⟨front, trivial, middle, hmiddle, back, trivial, rfl⟩

theorem anything_around_of_mem_namesAround (h : name ∈ namesAround text) :
    name ∈ ⊤ * spellings text.toList * ⊤ := by
  obtain ⟨front, -, middle, hmiddle, back, -, hname⟩ := mem_mul_mul.mp h
  exact mem_mul_mul.mpr ⟨front, trivial, middle, hmiddle, back, trivial, hname⟩

theorem mem_namesWith_of_plain (htext : ∀ c ∈ text.toList, Text.IsPlain c)
    (hname : ∀ c ∈ name, Text.IsPlain c) :
    name ∈ namesWith text ↔ name ∈ ⊤ * spellings text.toList * ⊤ := by
  rw [mem_namesWith, mem_anything_around, Text.lower_eq_map htext, Text.lower_eq_map hname]

theorem mem_namesAround_of_not_mem (h : '\n' ∉ name) :
    name ∈ namesAround text ↔ name ∈ ⊤ * spellings text.toList * ⊤ := by
  refine ⟨anything_around_of_mem_namesAround, fun hname => ?_⟩
  obtain ⟨front, -, middle, hmiddle, back, -, rfl⟩ := mem_mul_mul.mp hname
  rw [List.mem_append, List.mem_append, not_or, not_or] at h
  exact mem_mul_mul.mpr ⟨front, h.1.1, middle, hmiddle, back, h.2, rfl⟩

theorem toList_starred : (starred text).toList = '*' :: (text.toList ++ ['*']) := by
  simp [starred]

theorem names_starred (hstar : '*' ∉ text.toList) :
    names (Text.pieces '*' (starred text).toList) = namesAround text := by
  have hpieces : Text.pieces '*' (starred text).toList = [[], text.toList, []] := by
    rw [toList_starred, Text.pieces_cons, if_pos rfl, Text.pieces_append_cons, Text.pieces_of_not_mem hstar,
      Text.pieces_nil]
    rfl
  rw [hpieces, names, List.map_cons, List.map_singleton, List.prod_cons, List.prod_singleton, spellings_nil,
    one_mul, mul_one, namesAround]

theorem ofText_starred (hsize : ¬ TooLarge (starred text)) :
    ofText (starred text) = .ok (.wildcard (expression (Text.pieces '*' (starred text).toList))) := by
  refine ofText_eq_wildcard ?_ ?_ hsize
  · intro hone
    have hlength := congrArg (·.toList.length) hone
    simp [toList_starred] at hlength
  · rw [toList_starred]
    exact List.mem_cons_self

end NamePattern

namespace Node

open NamePattern (namesWith namesAround spellings starred)

variable {root node : Node} {start text : String} {deep : Bool}

/-! ## The two searches -/

/-- Two conditions keep the same part of a list exactly if they agree on its members. -/
theorem filter_eq_filter_iff {listed : List Found} {first second : Found → Bool} :
    listed.filter first = listed.filter second ↔
      ∀ found ∈ listed, (first found = true ↔ second found = true) := by
  constructor
  · intro heq found hmem
    have hkept : found ∈ listed.filter first ↔ found ∈ listed.filter second := heq ▸ Iff.rfl
    simpa only [List.mem_filter, hmem, true_and] using hkept
  · intro h
    exact List.filter_congr fun found hmem => Bool.eq_iff_iff.mpr (h found hmem)

theorem find_of_not_mem (hat : root.at? start = .ok node) (hstar : '*' ∉ text.toList) (deep : Bool) :
    ∃ kept : Found → Bool,
      root.find start text deep = .ok ((node.descendants (Path.canonical start) deep).filter kept) ∧
        ∀ found, kept found = true ↔ found.name.toList ∈ namesWith text :=
  ⟨_, find_of_ofText hat (NamePattern.ofText_of_not_mem hstar) deep, fun _ => Text.occursIn_iff_infix⟩

theorem find_starred (hat : root.at? start = .ok node) (hstar : '*' ∉ text.toList)
    (hsize : ¬ NamePattern.TooLarge (starred text)) (deep : Bool) :
    ∃ kept : Found → Bool,
      root.find start (starred text) deep =
        .ok ((node.descendants (Path.canonical start) deep).filter kept) ∧
        ∀ found, kept found = true ↔ found.name.toList ∈ namesAround text := by
  refine ⟨_, find_of_ofText hat (NamePattern.ofText_starred hsize) deep, fun found => ?_⟩
  rw [← NamePattern.names_starred hstar]
  exact NamePattern.occursIn_expression_iff _ found.name

theorem find_eq_find_starred_iff (hat : root.at? start = .ok node) (hstar : '*' ∉ text.toList)
    (hsize : ¬ NamePattern.TooLarge (starred text)) :
    root.find start text deep = root.find start (starred text) deep ↔
      ∀ found ∈ node.descendants (Path.canonical start) deep,
        (found.name.toList ∈ namesWith text ↔ found.name.toList ∈ namesAround text) := by
  obtain ⟨plain, hplain, hwith⟩ := find_of_not_mem hat hstar deep
  obtain ⟨between, hbetween, haround⟩ := find_starred hat hstar hsize deep
  rw [hplain, hbetween, Except.ok.injEq, filter_eq_filter_iff]
  simp only [hwith, haround]

/-- On ASCII names without line feeds both searches find the same. -/
theorem find_eq_find_starred_of_ascii (hat : root.at? start = .ok node) (hstar : '*' ∉ text.toList)
    (hsize : ¬ NamePattern.TooLarge (starred text)) (htext : ∀ c ∈ text.toList, c.toNat < 0x80)
    (hnames : ∀ found ∈ node.descendants (Path.canonical start) deep,
      ∀ c ∈ found.name.toList, c.toNat < 0x80 ∧ c ≠ '\n') :
    root.find start text deep = root.find start (starred text) deep := by
  rw [find_eq_find_starred_iff hat hstar hsize]
  intro found hmem
  have hname := hnames found hmem
  have hfeed : '\n' ∉ found.name.toList := fun hfeed => (hname _ hfeed).2 rfl
  rw [NamePattern.mem_namesAround_of_not_mem hfeed]
  exact NamePattern.mem_namesWith_of_plain (fun c hc => Text.isPlain_of_ascii (htext c hc))
    fun c hc => Text.isPlain_of_ascii (hname c hc).1

/-- A text without stars and the same text between stars both pick from what is listed below the start.
They pick the same exactly if each listed name fits both or neither.  Where no capital outside ASCII is
involved this means that each listed name that holds the text holds it with no line feed beside it. -/
theorem find_starred_agrees_iff (hat : root.at? start = .ok node) (hstar : '*' ∉ text.toList)
    (hsize : ¬ NamePattern.TooLarge (starred text)) (deep : Bool) :
    let listed := node.descendants (Path.canonical start) deep
    ∃ plain between : Found → Bool,
      root.find start text deep = .ok (listed.filter plain) ∧
      root.find start (starred text) deep = .ok (listed.filter between) ∧
      (∀ found, plain found = true ↔ found.name.toList ∈ namesWith text) ∧
      (∀ found, between found = true ↔ found.name.toList ∈ namesAround text) ∧
      (root.find start text deep = root.find start (starred text) deep ↔
        ∀ found ∈ listed, (found.name.toList ∈ namesWith text ↔ found.name.toList ∈ namesAround text)) ∧
      ((∀ c ∈ text.toList, Text.IsPlain c) →
        (∀ found ∈ listed, ∀ c ∈ found.name.toList, Text.IsPlain c) →
        (root.find start text deep = root.find start (starred text) deep ↔
          ∀ found ∈ listed, found.name.toList ∈ ⊤ * spellings text.toList * ⊤ →
            found.name.toList ∈ namesAround text)) := by
  intro listed
  obtain ⟨plain, hplain, hwith⟩ := find_of_not_mem hat hstar deep
  obtain ⟨between, hbetween, haround⟩ := find_starred hat hstar hsize deep
  refine ⟨plain, between, hplain, hbetween, hwith, haround, find_eq_find_starred_iff hat hstar hsize, ?_⟩
  intro htext hnames
  rw [find_eq_find_starred_iff hat hstar hsize]
  refine forall₂_congr fun found hmem => ?_
  rw [NamePattern.mem_namesWith_of_plain htext (hnames found hmem)]
  exact ⟨Iff.mp, fun h => ⟨h, NamePattern.anything_around_of_mem_namesAround⟩⟩

/-- Only the search without stars knows the small form of a capital outside ASCII. -/
theorem find_starred_misses_capital :
    let root := directory [("É", file "")]
    root.at? "/" = .ok root ∧ '*' ∉ "é".toList ∧ ¬ NamePattern.TooLarge (starred "é") ∧
      root.find "/" "é" true ≠ root.find "/" (starred "é") true := by
  intro root
  have hat : root.at? "/" = .ok root := rfl
  have hstar : '*' ∉ "é".toList := by decide
  have hsize : ¬ NamePattern.TooLarge (starred "é") := NamePattern.not_tooLarge_of_length_le (by decide)
  obtain ⟨_, _, _, _, _, _, hagree, _⟩ := find_starred_agrees_iff hat hstar hsize true
  refine ⟨hat, hstar, hsize, ?_⟩
  rw [ne_eq, hagree]
  intro hnames
  have hlisted : (⟨"/É", "É", file ""⟩ : Found) ∈ root.descendants (Path.canonical "/") true := by
    have hentries : Found.children ⟨Path.canonical "/", Path.base (Path.canonical "/"), root⟩ =
        [⟨"/É", "É", file ""⟩] := rfl
    unfold descendants
    rw [hentries, Found.walk_true_cons]
    exact List.mem_cons_self
  have hwith : "É".toList ∈ namesWith "é" :=
    NamePattern.mem_namesWith.mpr (Text.occursIn_iff_infix.mp (by decide))
  have haround := NamePattern.anything_around_of_mem_namesAround ((hnames _ hlisted).mp hwith)
  exact absurd (Text.occursIn_iff_infix.mpr (NamePattern.mem_anything_around.mp haround)) (by decide)

end Node

end VirtualShell
