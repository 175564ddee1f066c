import Mathlib.Data.List.Basic
import Mathlib.Data.List.Induction
import Mathlib.Data.Set.Function
import VirtualShell.Path

/-! # Paths and their segments

Joining paths at a slash joins their segments, so a canonical path is its list of names and one
canonical path continues another exactly when its names do.  Whatever is done with the texts of paths
is done with the lists of their segments.
-/

namespace VirtualShell

namespace Path

open Text

/-- What can be a segment of a path: a text that is not empty and has no slash in it. -/
def IsName (name : String) : Prop := name ≠ "" ∧ '/' ∉ name.toList

/-! ## Reading segments -/

theorem segments_slash : segments "/" = [] := by decide

theorem segments_append_slash (first second : String) :
    segments (first ++ "/" ++ second) = segments first ++ segments second := by
  have htext : (first ++ "/" ++ second).toList = first.toList ++ '/' :: second.toList := by
    simp [String.toList_append]
  simp [segments, htext, pieces_append_cons]

theorem segments_of_isName {name : String} (h : IsName name) : segments name = [name] := by
  have hempty : name.toList.isEmpty = false := by
    simpa [List.isEmpty_eq_false_iff, String.toList_eq_nil_iff] using h.1
  simp [segments, pieces_of_not_mem h.2, hempty]

theorem isName_of_mem_segments {path name : String} (h : name ∈ segments path) : IsName name := by
  simp only [segments, List.mem_map, List.mem_filter] at h
  obtain ⟨piece, ⟨hmem, hempty⟩, rfl⟩ := h
  constructor
  · intro hnil
    have hpiece : piece = [] := by simpa using congrArg String.toList hnil
    simp [hpiece] at hempty
  · simpa using not_mem_of_mem_pieces hmem

/-! ## Writing segments -/

/-- Each name behind a slash adds one segment to the path in front. -/
theorem segments_append_join (path : String) {names : List String}
    (h : ∀ name ∈ names, IsName name) :
    segments (path ++ String.join (names.map ("/" ++ ·))) = segments path ++ names := by
  induction names generalizing path with
  | nil => simp [String.join]
  | cons name rest ih =>
      have hname := h name List.mem_cons_self
      have hrest := ih (path ++ "/" ++ name) fun other hmem => h other (List.mem_cons_of_mem _ hmem)
      rw [segments_append_slash, segments_of_isName hname] at hrest
      simpa [String.join_cons, String.append_assoc] using hrest

theorem segments_ofSegments {names : List String} (h : ∀ name ∈ names, IsName name) :
    segments (ofSegments names) = names := by
  cases names with
  | nil => exact segments_slash
  | cons name rest =>
      have hjoin := segments_append_join "" h
      simpa [ofSegments, segments, pieces_nil] using hjoin

theorem segments_canonical (path : String) : segments (canonical path) = segments path :=
  segments_ofSegments fun _ => isName_of_mem_segments

theorem canonical_eq_iff {path other : String} :
    canonical path = canonical other ↔ segments path = segments other := by
  constructor
  · intro h
    rw [← segments_canonical path, h, segments_canonical]
  · intro h
    rw [canonical, h, canonical]

theorem canonical_canonical (path : String) : canonical (canonical path) = canonical path :=
  canonical_eq_iff.mpr (segments_canonical path)

/-- Canonical paths are told apart by their segments, and every list of names is the list of one. -/
theorem bijOn_segments :
    Set.BijOn segments {path | canonical path = path} {names | ∀ name ∈ names, IsName name} := by
  refine ⟨?mapsTo, ?injOn, ?surjOn⟩
  case mapsTo => exact fun _ _ _ => isName_of_mem_segments
  case injOn =>
    intro path (hpath : canonical path = path) other (hother : canonical other = other) hsegments
    rw [← hpath, ← hother]
    exact canonical_eq_iff.mpr hsegments
  case surjOn =>
    intro names hnames
    have hsegments := segments_ofSegments hnames
    refine ⟨ofSegments names, ?_, hsegments⟩
    change canonical (ofSegments names) = ofSegments names
    rw [canonical, hsegments]

theorem segments_parent (path : String) : segments (parent path) = (segments path).dropLast :=
  segments_ofSegments fun _ hmem => isName_of_mem_segments (List.dropLast_subset _ hmem)

theorem ofSegments_eq_slash_iff {names : List String} (h : ∀ name ∈ names, IsName name) :
    ofSegments names = "/" ↔ names = [] := by
  constructor
  · intro hslash
    rw [← segments_ofSegments h, hslash, segments_slash]
  · rintro rfl
    rfl

theorem ofSegments_inj {first second : List String} (hfirst : ∀ name ∈ first, IsName name)
    (hsecond : ∀ name ∈ second, IsName name) (h : ofSegments first = ofSegments second) :
    first = second := by
  rw [← segments_ofSegments hfirst, h, segments_ofSegments hsecond]

theorem segments_base (path : String) : segments (base path) = (segments path).getLast?.toList := by
  rw [base, List.getLastD_eq_getLast?]
  cases hlast : (segments path).getLast? with
  | none => exact segments_slash
  | some name => exact segments_of_isName (isName_of_mem_segments (List.mem_of_getLast? hlast))

theorem base_ofSegments {names : List String} (h : ∀ name ∈ names, IsName name) :
    base (ofSegments names) = names.getLastD "/" := by
  rw [base, segments_ofSegments h]

theorem head?_ofSegments (names : List String) : (ofSegments names).toList.head? = some '/' := by
  cases names with
  | nil => rfl
  | cons name rest => simp [ofSegments, String.toList_join]

theorem getLast?_segments {path : String} (h : segments path ≠ []) :
    (segments path).getLast? = some (base path) := by
  rw [base, List.getLastD_eq_getLast?, List.getLast?_eq_some_getLast h, Option.getD_some]

/-- The segments of a path that is not the root are those of its directory and its name. -/
theorem dropLast_append_base {path : String} (h : segments path ≠ []) :
    (segments path).dropLast ++ [base path] = segments path :=
  List.dropLast_append_getLast? _ (getLast?_segments h)

theorem segments_ofList_dropSlashes (text : List Char) :
    segments (String.ofList (text.reverse.dropWhile (· = '/')).reverse) =
      segments (String.ofList text) := by
  induction text using List.reverseRecOn with
  | nil => rfl
  | append_singleton rest c ih =>
      rw [List.reverse_concat, List.dropWhile_cons]
      split
      · rename_i hc
        have hslash : String.ofList (rest ++ [c]) = String.ofList rest ++ "/" ++ "" := by
          apply String.toList_injective
          simpa [String.toList_append] using hc
        rw [hslash, segments_append_slash, ih]
        simp [segments, pieces_nil]
      · rw [List.reverse_cons, List.reverse_reverse]

theorem segments_child (directory name : String) :
    segments (child directory name) = segments directory ++ segments name := by
  unfold child
  split
  · rename_i hroot
    have hempty : segments directory = segments "" := by
      rcases hroot with rfl | rfl <;> rfl
    rw [hempty, ← segments_append_slash, String.empty_append]
  · rw [segments_append_slash, segments_ofList_dropSlashes, String.ofList_toList]

theorem resolve_absolute {target : String} (h : target.toList.head? = some '/') (current : String) :
    resolve current target = target := if_pos h

theorem resolve_dot (current : String) : resolve current "." = current := rfl

theorem resolve_dots (current : String) : resolve current ".." = parent current := rfl

/-- What is resolved as a name, however many segments it has, goes on where the current path ends. -/
theorem segments_resolve_relative {target : String} (hrelative : target.toList.head? ≠ some '/')
    (hdot : target ≠ ".") (hdots : target ≠ "..") (current : String) :
    segments (resolve current target) = segments current ++ segments target := by
  unfold resolve
  rw [if_neg hrelative, if_neg hdot, if_neg hdots]
  split
  · rename_i hroot
    have hempty : "/" ++ target = "" ++ "/" ++ target := by rw [String.empty_append]
    rw [hempty, segments_append_slash, hroot]
    rfl
  · exact segments_append_slash current target

/-- Beyond the segments, where a target leads depends only on whether its text begins with a slash, and on
whether it is one dot or two. -/
theorem segments_resolve (current target : String) :
    segments (resolve current target) =
      if target.toList.head? = some '/' then segments target
      else if target = "." then segments current
      else if target = ".." then (segments current).dropLast
      else segments current ++ segments target := by
  by_cases habsolute : target.toList.head? = some '/'
  · rw [resolve_absolute habsolute, if_pos habsolute]
  rw [if_neg habsolute]
  by_cases hdot : target = "."
  · rw [if_pos hdot, hdot, resolve_dot]
  rw [if_neg hdot]
  by_cases hdots : target = ".."
  · rw [if_pos hdots, hdots, resolve_dots, segments_parent]
  rw [if_neg hdots, segments_resolve_relative habsolute hdot hdots]

theorem segments_resolve_of_isName {name : String} (h : IsName name) (hdot : name ≠ ".")
    (hdots : name ≠ "..") (current : String) :
    segments (resolve current name) = segments current ++ [name] := by
  have hrelative : name.toList.head? ≠ some '/' := fun hslash => h.2 (List.mem_of_mem_head? hslash)
  rw [segments_resolve_relative hrelative hdot hdots, segments_of_isName h]

/-! ## Paths below paths -/

theorem ofSegments_append (names later : List String) (h : names ≠ []) :
    ofSegments (names ++ later) = ofSegments names ++ String.join (later.map ("/" ++ ·)) := by
  obtain ⟨name, rest, rfl⟩ := List.exists_cons_of_ne_nil h
  apply String.toList_injective
  simp [ofSegments, String.toList_join, String.toList_append]

/-- The text of a path that is not the root ends with its last name, behind a slash. -/
theorem exists_toList_ofSegments_concat (names : List String) (last : String) :
    ∃ front, (ofSegments (names ++ [last])).toList = front ++ '/' :: last.toList := by
  refine ⟨(String.join (names.map ("/" ++ ·))).toList, ?_⟩
  cases names <;> simp [ofSegments, String.toList_join, String.toList_append]

/-- The entry of a directory is found one name behind the path of the directory. -/
theorem child_ofSegments {names : List String} (h : ∀ name ∈ names, IsName name) (name : String) :
    child (ofSegments names) name = ofSegments (names ++ [name]) := by
  unfold child
  rcases List.eq_nil_or_concat' names with rfl | ⟨front, last, rfl⟩
  · simp [ofSegments, String.join_cons]
  · have hlast := h last (by simp)
    obtain ⟨text, htext⟩ := exists_toList_ofSegments_concat front last
    have hroot : ¬ (ofSegments (front ++ [last]) = "/" ∨ ofSegments (front ++ [last]) = "") := by
      rintro (hslash | hempty)
      · have hnil := (ofSegments_eq_slash_iff h).mp hslash
        simp at hnil
      · simp [hempty] at htext
    -- the last name is not empty and has no slash, so there is no slash to drop
    obtain ⟨before, c, hc⟩ := List.eq_nil_or_concat' last.toList |>.resolve_left
      (fun hnil => hlast.1 (String.toList_eq_nil_iff.mp hnil))
    have hslash : c ≠ '/' := by
      rintro rfl
      exact hlast.2 (by simp [hc])
    have hkept : ((ofSegments (front ++ [last])).toList.reverse.dropWhile (· = '/')).reverse =
        (ofSegments (front ++ [last])).toList := by
      rw [htext, hc]
      simp [hslash]
    rw [if_neg hroot]
    dsimp only
    rw [hkept, String.ofList_toList, ofSegments_append (front ++ [last]) [name] (by simp)]
    simp [String.join_cons, String.append_assoc]

/-- A path that is not the root is the entry of its directory under its name. -/
theorem child_parent_base {path : String} (h : segments path ≠ []) :
    child (parent path) (base path) = canonical path := by
  have hdirectory : ∀ name ∈ (segments path).dropLast, IsName name := fun _ hmem =>
    isName_of_mem_segments (List.dropLast_subset _ hmem)
  rw [parent, child_ofSegments hdirectory, dropLast_append_base h, canonical]

/-- A canonical path goes on with a slash after another one exactly when its names go on after
those of the other. -/
theorem slash_prefix_ofSegments_iff {top names : List String} (hne : top ≠ [])
    (htop : ∀ name ∈ top, IsName name) (hnames : ∀ name ∈ names, IsName name) :
    (ofSegments top ++ "/").toList <+: (ofSegments names).toList ↔ top <+: names ∧ top ≠ names := by
  constructor
  · rintro ⟨tail, htail⟩
    have hpath : ofSegments names = ofSegments top ++ "/" ++ String.ofList tail := by
      apply String.toList_injective
      simpa [String.toList_append] using htail.symm
    have hsegments := segments_append_slash (ofSegments top) (String.ofList tail)
    rw [← hpath, segments_ofSegments hnames, segments_ofSegments htop] at hsegments
    refine ⟨⟨_, hsegments.symm⟩, ?_⟩
    rintro rfl
    have hlength := congrArg String.length hpath
    simp only [String.length_append] at hlength
    have hslash : "/".length = 1 := rfl
    omega
  · rintro ⟨⟨later, rfl⟩, hdiffer⟩
    cases later with
    | nil => simp at hdiffer
    | cons name rest =>
        rw [ofSegments_append _ _ hne]
        refine ⟨name.toList ++ (String.join (rest.map ("/" ++ ·))).toList, ?_⟩
        simp [String.toList_append, String.join_cons]

theorem slash_prefix_iff_of_canonical {top below : String} (htop : canonical top = top)
    (hbelow : canonical below = below) (hroot : top ≠ "/") :
    (top ++ "/").toList <+: below.toList ↔
      segments top <+: segments below ∧ segments top ≠ segments below := by
  have hne : segments top ≠ [] := by
    intro hnil
    rw [canonical, hnil] at htop
    exact hroot htop.symm
  have hnames : ∀ name ∈ segments below, IsName name := fun _ => isName_of_mem_segments
  have hprefix := slash_prefix_ofSegments_iff hne (fun _ => isName_of_mem_segments) hnames
  rwa [← canonical, ← canonical, htop, hbelow] at hprefix

/-- Paths are their lists of segments.  Resolving a path, entering a directory and leaving it are done to
these lists, each list of names is read from one canonical path only, and a canonical path that is not the
root is, with a slash after it, the beginning of another one exactly when the list of the other goes on
after its own. -/
theorem paths_are_segments (current target directory name path top below : String) :
    segments (resolve current target) =
        (if target.toList.head? = some '/' then segments target
        else if target = "." then segments current
        else if target = ".." then (segments current).dropLast
        else segments current ++ segments target) ∧
      segments (child directory name) = segments directory ++ segments name ∧
      segments (canonical path) = segments path ∧
      canonical (canonical path) = canonical path ∧
      Set.BijOn segments {path | canonical path = path} {names | ∀ name ∈ names, IsName name} ∧
      (segments path ≠ [] → child (parent path) (base path) = canonical path) ∧
      (canonical top = top → canonical below = below → top ≠ "/" →
        ((top ++ "/").toList <+: below.toList ↔
          segments top <+: segments below ∧ segments top ≠ segments below)) := by
  refine ⟨segments_resolve current target, segments_child directory name, segments_canonical path,
    canonical_canonical path, bijOn_segments, child_parent_base, ?_⟩
  intro htop hbelow hroot
  exact slash_prefix_iff_of_canonical htop hbelow hroot

/-- A text that begins with that of a path need not lie below it. -/
theorem paths_are_segments_beside :
    segments (resolve "/home//user/" "docs//a") = ["home", "user", "docs", "a"] ∧
      segments "//home///user/" ≠ [] ∧
      child (parent "//home///user/") (base "//home///user/") = "/home/user" ∧
      canonical "/home/user" = "/home/user" ∧ canonical "/home/users/a" = "/home/users/a" ∧
      "/home/user" ≠ "/" ∧ "/home/user".toList <+: "/home/users/a".toList ∧
      ¬ ("/home/user" ++ "/").toList <+: "/home/users/a".toList := by
  obtain ⟨hresolve, _, _, _, _, hentry, hbelow⟩ := paths_are_segments "/home//user/" "docs//a" "/" ""
    "//home///user/" "/home/user" "/home/users/a"
  have hpath : segments "//home///user/" ≠ [] := by decide
  have htop : canonical "/home/user" = "/home/user" := by decide
  have hbeside : canonical "/home/users/a" = "/home/users/a" := by decide
  have hroot : "/home/user" ≠ "/" := by decide
  have hapart : ¬ segments "/home/user" <+: segments "/home/users/a" := by decide
  refine ⟨hresolve.trans (by decide), hpath, (hentry hpath).trans (by decide), htop, hbeside, hroot,
    by decide, ?_⟩
  intro hprefix
  exact hapart ((hbelow htop hbeside hroot).mp hprefix).1

end Path

end VirtualShell
