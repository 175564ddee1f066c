import VirtualShell.Proofs.Tree.Entries
import VirtualShell.Tree.Node

/-! # Places in a tree

What can be found in a tree after a directory in it got other entries.  Below the directory the new
entries decide; every other place still leads to a node of the same kind, with the same content if it
is a file.
-/

namespace VirtualShell.Node

/-- What a node is apart from its entries: the content of a file, nothing for a directory. -/
def label : Node → Option String
  | file content => some content
  | directory _ => none

@[simp] theorem label_file (content : String) : (file content).label = some content := rfl

@[simp] theorem label_directory (entries : Entries Node) : (directory entries).label = none := rfl

theorem label_eq_some_iff {node : Node} {content : String} :
    node.label = some content ↔ node = file content := by
  cases node <;> simp

theorem isDirectory_iff_label {node : Node} : node.isDirectory ↔ node.label = none := by
  cases node <;> simp [isDirectory]

def labelAt (names : List String) (root : Node) : Option (Option String) :=
  (root.lookup names).map label

theorem labelAt_eq_directory_iff {names : List String} {root : Node} :
    root.labelAt names = some none ↔ ∃ entries, root.lookup names = some (directory entries) := by
  cases hlookup : root.lookup names with
  | none => simp [labelAt, hlookup]
  | some node => cases node <;> simp [labelAt, hlookup]

theorem labelAt_eq_file_iff {names : List String} {root : Node} {content : String} :
    root.labelAt names = some (some content) ↔ root.lookup names = some (file content) := by
  simp [labelAt, label_eq_some_iff]

theorem labelAt_eq_none_iff {names : List String} {root : Node} :
    root.labelAt names = none ↔ root.lookup names = none := Option.map_eq_none_iff

/-! ## Following names -/

@[simp] theorem lookup_cons_file (name : String) (names : List String) (content : String) :
    lookup (name :: names) (file content) = none := rfl

theorem lookup_cons_directory (name : String) (names : List String) (entries : Entries Node) :
    lookup (name :: names) (directory entries) = (entries.get? name).bind (lookup names) := rfl

theorem lookup_append_of_some {names later : List String} {root node : Node}
    (h : root.lookup names = some node) : root.lookup (names ++ later) = node.lookup later := by
  rw [lookup_append, h, Option.bind_some]

/-! ## Replacing entries -/

@[simp] theorem withEntries_file (new : Entries Node) (names : List String) (content : String) :
    withEntries new names (file content) = file content := by
  cases names <;> rfl

@[simp] theorem withEntries_nil_directory (new entries : Entries Node) :
    withEntries new [] (directory entries) = directory new := rfl

theorem withEntries_cons_directory (new : Entries Node) (name : String) (names : List String)
    (entries : Entries Node) :
    withEntries new (name :: names) (directory entries) =
      match entries.get? name with
      | some node => directory (entries.put name (withEntries new names node))
      | none => directory entries := by
  cases h : entries.get? name <;> simp only [withEntries, h]

@[simp] theorem label_withEntries (new : Entries Node) (names : List String) (node : Node) :
    (withEntries new names node).label = node.label := by
  cases node with
  | file content => simp
  | directory entries =>
      cases names with
      | nil => rfl
      | cons name names => rw [withEntries_cons_directory]; split <;> rfl

/-- Of two changes of the entries at one place only the later one is left. -/
theorem withEntries_withEntries (first second : Entries Node) (place : List String) (root : Node) :
    withEntries second place (withEntries first place root) = withEntries second place root := by
  induction place generalizing root with
  | nil => cases root <;> rfl
  | cons name place ih =>
      cases root with
      | file content => simp
      | directory entries =>
          rw [withEntries_cons_directory, withEntries_cons_directory]
          cases hget : Entries.get? name entries with
          | none => simp [withEntries_cons_directory, hget]
          | some node => simp [withEntries_cons_directory, Entries.get?_put, Entries.put_put, ih]

theorem withEntries_of_lookup {place : List String} {root : Node} {entries : Entries Node}
    (h : root.lookup place = some (directory entries)) : root.withEntries entries place = root := by
  induction place generalizing root with
  | nil =>
      cases h
      rfl
  | cons name place ih =>
      cases root with
      | file content => simp at h
      | directory old =>
          rw [lookup_cons_directory] at h
          obtain ⟨next, hnext, hrest⟩ := Option.bind_eq_some_iff.mp h
          rw [withEntries_cons_directory, hnext]
          simp only [ih hrest, Entries.put_of_get?_some hnext]

/-- On the way to the changed directory each node is the old one with the change further down. -/
theorem lookup_withEntries_append (new : Entries Node) (names rest : List String) (root : Node) :
    lookup names (withEntries new (names ++ rest) root) =
      (lookup names root).map (withEntries new rest) := by
  induction names generalizing root with
  | nil => simp [lookup]
  | cons name names ih =>
      cases root with
      | file content => simp
      | directory entries =>
          rw [List.cons_append, withEntries_cons_directory, lookup_cons_directory]
          cases hget : Entries.get? name entries with
          | none => simp [lookup_cons_directory, hget]
          | some node => simp [lookup_cons_directory, Entries.get?_put, ih]

theorem lookup_withEntries_below {place : List String} {root : Node} {old : Entries Node}
    (h : root.lookup place = some (directory old)) (new : Entries Node) (later : List String) :
    lookup (place ++ later) (withEntries new place root) = lookup later (directory new) := by
  have hplace := lookup_withEntries_append new place [] root
  rw [List.append_nil, h] at hplace
  exact lookup_append_of_some hplace

/-- Places to which neither leads through the other do not see each other's changes. -/
theorem lookup_withEntries_apart {names place : List String} (hnames : ¬ names <+: place)
    (hplace : ¬ place <+: names) (new : Entries Node) (root : Node) :
    lookup names (withEntries new place root) = lookup names root := by
  induction place generalizing names root with
  | nil => simp at hplace
  | cons step place ih =>
      cases names with
      | nil => simp at hnames
      | cons name names =>
          cases root with
          | file content => simp
          | directory entries =>
              rw [withEntries_cons_directory]
              cases hget : Entries.get? step entries with
              | none => rfl
              | some node =>
                  simp only [lookup_cons_directory, Entries.get?_put]
                  by_cases hstep : step = name
                  · subst hstep
                    simp only [List.cons_prefix_cons, true_and] at hnames hplace
                    simp [hget, ih hnames hplace]
                  · simp [hstep]

/-- A place that does not lead into the changed directory keeps its label. -/
theorem labelAt_withEntries {names place : List String}
    (h : ∀ name later, names ≠ place ++ name :: later) (new : Entries Node) (root : Node) :
    labelAt names (withEntries new place root) = labelAt names root := by
  by_cases hnames : names <+: place
  · obtain ⟨rest, rfl⟩ := hnames
    rw [labelAt, lookup_withEntries_append, Option.map_map, labelAt]
    congr 1
    funext node
    exact label_withEntries new rest node
  · have hplace : ¬ place <+: names := by
      rintro ⟨later, rfl⟩
      cases later with
      | nil => simp at hnames
      | cons name later => exact h name later rfl
    rw [labelAt, lookup_withEntries_apart hnames hplace, labelAt]

/-! ## Putting and removing one node -/

/-- The tree with a node put at a place, if the names before the last one lead to a directory. -/
def insertAt (names : List String) (root node : Node) : Node :=
  match root.lookup names.dropLast, names.getLast? with
  | some (directory entries), some name =>
    root.withEntries (Entries.put name node entries) names.dropLast
  | _, _ => root

/-- The tree without the node at a place. -/
def removeAt (names : List String) (root : Node) : Node :=
  match root.lookup names.dropLast, names.getLast? with
  | some (directory entries), some name => root.withEntries (Entries.erase name entries) names.dropLast
  | _, _ => root

@[simp] theorem label_insertAt (names : List String) (root node : Node) :
    (root.insertAt names node).label = root.label := by
  unfold insertAt
  split <;> simp

@[simp] theorem label_removeAt (names : List String) (root : Node) :
    (root.removeAt names).label = root.label := by
  unfold removeAt
  split <;> simp

theorem insertAt_of_lookup {place : List String} {root : Node} {entries : Entries Node}
    (h : root.lookup place = some (directory entries)) (name : String) (node : Node) :
    root.insertAt (place ++ [name]) node = root.withEntries (entries.put name node) place := by
  simp [insertAt, h]

/-- A node that was put at a free place is taken away again without a trace. -/
theorem removeAt_insertAt {place : List String} {root : Node} {entries : Entries Node} {name : String}
    (h : root.lookup place = some (directory entries)) (hfree : entries.get? name = none) (node : Node) :
    (root.insertAt (place ++ [name]) node).removeAt (place ++ [name]) = root := by
  have hplace : (root.insertAt (place ++ [name]) node).lookup place =
      some (directory (entries ++ [(name, node)])) := by
    have hfound := lookup_withEntries_below h (entries.put name node) []
    rw [List.append_nil] at hfound
    rw [insertAt_of_lookup h, hfound, lookup_nil, Entries.put_of_get?_none node hfree]
  simp only [removeAt, List.dropLast_concat, List.getLast?_concat, hplace]
  rw [Entries.erase_append_singleton node hfree, insertAt_of_lookup h, withEntries_withEntries,
    withEntries_of_lookup h]

/-- A node that leaves its place for a free one in the same directory goes to the end of the directory. -/
theorem insertAt_removeAt_beside {place : List String} {root : Node} {entries : Entries Node}
    {name other : String} (h : root.lookup place = some (directory entries)) (hne : name ≠ other)
    (hfree : entries.get? other = none) (node : Node) :
    (root.removeAt (place ++ [name])).insertAt (place ++ [other]) node =
      root.withEntries (entries.erase name ++ [(other, node)]) place := by
  have hremoved : root.removeAt (place ++ [name]) = root.withEntries (entries.erase name) place := by
    simp [removeAt, h]
  have hplace := lookup_withEntries_below h (entries.erase name) []
  rw [List.append_nil, lookup_nil] at hplace
  have hleft : (entries.erase name).get? other = none := (Entries.get?_erase_ne entries hne).trans hfree
  rw [hremoved, insertAt_of_lookup hplace, withEntries_withEntries, Entries.put_of_get?_none node hleft]

/-- At and below the place of a node that was put, there is that node. -/
theorem lookup_insertAt_below {names : List String} {root : Node} {entries : Entries Node}
    (hnames : names ≠ []) (h : root.lookup names.dropLast = some (directory entries)) (node : Node)
    (later : List String) : lookup (names ++ later) (root.insertAt names node) = lookup later node := by
  obtain ⟨place, name, rfl⟩ := List.eq_nil_or_concat' names |>.resolve_left hnames
  rw [List.dropLast_concat] at h
  rw [insertAt_of_lookup h, List.append_assoc, lookup_withEntries_below h, List.singleton_append,
    lookup_cons_directory, Entries.get?_put, if_pos rfl, Option.bind_some]

/-- A change that leaves the values under all other names alone keeps every label elsewhere. -/
theorem labelAt_withEntries_of_get? {names place : List String} {name : String} {root : Node}
    {old new : Entries Node} (hold : root.lookup place = some (directory old))
    (hget : ∀ other, name ≠ other → new.get? other = old.get? other)
    (h : ¬ place ++ [name] <+: names) :
    labelAt names (withEntries new place root) = labelAt names root := by
  by_cases hinto : ∃ other later, names = place ++ other :: later
  · obtain ⟨other, later, rfl⟩ := hinto
    have hother : name ≠ other := by
      rintro rfl
      exact h ⟨later, by simp⟩
    rw [labelAt, lookup_withEntries_below hold, labelAt, lookup_append_of_some hold,
      lookup_cons_directory, lookup_cons_directory, hget other hother]
  · exact labelAt_withEntries (fun other later heq => hinto ⟨other, later, heq⟩) new root

theorem labelAt_insertAt {names other : List String} (h : ¬ names <+: other) (root node : Node) :
    labelAt other (root.insertAt names node) = labelAt other root := by
  unfold insertAt
  split
  · rename_i entries name hentries hname
    have hget : ∀ key, name ≠ key → (Entries.put name node entries).get? key = Entries.get? key entries := by
      intro key hkey
      rw [Entries.get?_put, if_neg hkey]
    refine labelAt_withEntries_of_get? hentries hget ?_
    rwa [List.dropLast_append_getLast? name hname]
  · rfl

theorem labelAt_removeAt {names other : List String} (h : ¬ names <+: other) (root : Node) :
    labelAt other (root.removeAt names) = labelAt other root := by
  unfold removeAt
  split
  · rename_i entries name hentries hname
    refine labelAt_withEntries_of_get? hentries (fun key hkey => Entries.get?_erase_ne entries hkey) ?_
    rwa [List.dropLast_append_getLast? name hname]
  · rfl

theorem directory_removeAt_iff {names other : List String} (h : ¬ names <+: other) {root : Node} :
    (∃ entries, (root.removeAt names).lookup other = some (directory entries)) ↔
      ∃ entries, root.lookup other = some (directory entries) := by
  rw [← labelAt_eq_directory_iff, labelAt_removeAt h, labelAt_eq_directory_iff]

/-- A node that was moved is at its new place, if the directory of that place is not inside it. -/
theorem lookup_moved_below {start target : List String} {root : Node} (htarget : target ≠ [])
    (houtside : ¬ start <+: target.dropLast)
    (hdirectory : ∃ entries, root.lookup target.dropLast = some (directory entries)) (node : Node)
    (later : List String) :
    lookup (target ++ later) ((root.removeAt start).insertAt target node) = lookup later node := by
  obtain ⟨entries, hentries⟩ := (directory_removeAt_iff houtside).mpr hdirectory
  exact lookup_insertAt_below htarget hentries node later

/-- Whatever is neither at or below the old place nor at or below the new one keeps its label. -/
theorem labelAt_moved {start target names : List String} (hstart : ¬ start <+: names)
    (htarget : ¬ target <+: names) (root node : Node) :
    labelAt names ((root.removeAt start).insertAt target node) = labelAt names root := by
  rw [labelAt_insertAt htarget, labelAt_removeAt hstart]

/-- After a move a file is found along with the moved node or where it was, unless it is outside that
node and at or below the new place: there only what the moved node has under the same names counts. -/
theorem file_moved_iff {start target names : List String} {root node : Node} {content : String}
    (hnode : root.lookup start = some node) (htarget : target ≠ [])
    (houtside : ¬ start <+: target.dropLast)
    (hdirectory : ∃ entries, root.lookup target.dropLast = some (directory entries))
    (hfile : root.lookup names = some (file content)) :
    ((∀ rest, names = start ++ rest →
        ((root.removeAt start).insertAt target node).lookup (target ++ rest) = some (file content)) ∧
      (¬ start <+: names →
        ((root.removeAt start).insertAt target node).lookup names = some (file content))) ↔
    (∀ rest, names = target ++ rest → ¬ start <+: names →
      root.lookup (start ++ rest) = some (file content)) := by
  have hbelow := lookup_moved_below htarget houtside hdirectory node
  have hcarried : ∀ rest, root.lookup (start ++ rest) = node.lookup rest := fun rest =>
    lookup_append_of_some hnode
  constructor
  · rintro ⟨_, hkept⟩ rest rfl hstart
    rw [hcarried, ← hbelow]
    exact hkept hstart
  · intro hsame
    constructor
    · rintro rest rfl
      rw [hbelow, ← hcarried]
      exact hfile
    · intro hstart
      by_cases hover : target <+: names
      · -- the moved node covers what stood here
        obtain ⟨rest, rfl⟩ := hover
        rw [hbelow, ← hcarried]
        exact hsame rest rfl hstart
      · rw [← labelAt_eq_file_iff, labelAt_moved hstart hover, labelAt_eq_file_iff]
        exact hfile

end VirtualShell.Node
