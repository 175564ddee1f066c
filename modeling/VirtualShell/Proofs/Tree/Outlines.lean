import VirtualShell.Proofs.Tree.Places

/-! # What a directory shows

The outline of a node is what a listing of it shows: the names of its entries with their kinds, in order.
When one entry of a directory is put in or taken out, every other place of the tree keeps its label, and
every other directory its outline.
-/

namespace VirtualShell.Node

/-- The names of the entries with their kinds, in order; a file has none. -/
def outline : Node → List (String × Kind)
  | file _ => []
  | directory entries => entries.map fun (name, node) => (name, node.kind)

@[simp] theorem outline_file (content : String) : (file content).outline = [] := rfl

@[simp] theorem outline_directory (entries : Entries Node) :
    (directory entries).outline = entries.map fun (name, node) => (name, node.kind) := rfl

def outlineAt (names : List String) (root : Node) : Option (List (String × Kind)) :=
  (root.lookup names).map outline

theorem kind_withEntries (new : Entries Node) (names : List String) (node : Node) :
    (withEntries new names node).kind = node.kind := by
  cases node with
  | file content => simp
  | directory entries =>
      cases names with
      | nil => rfl
      | cons name names => rw [withEntries_cons_directory]; split <;> rfl

/-- Above the changed directory the same names of the same kinds are shown. -/
theorem outline_withEntries_cons (new : Entries Node) (name : String) (names : List String) (node : Node) :
    (withEntries new (name :: names) node).outline = node.outline := by
  cases node with
  | file content => simp
  | directory entries =>
      rw [withEntries_cons_directory]
      cases hget : Entries.get? name entries with
      | none => rfl
      | some node => exact Entries.map_put kind hget (kind_withEntries new names node)

/-- Nothing is below a node that shows nothing. -/
theorem lookup_cons_of_outline {node : Node} (h : node.outline = []) (name : String)
    (names : List String) : node.lookup (name :: names) = none := by
  cases node with
  | file content => rfl
  | directory entries =>
      rw [outline_directory, List.map_eq_nil_iff] at h
      rw [lookup_cons_directory, h]
      rfl

theorem lookup_below_of_outline {name : String} {entries : Entries Node}
    (h : ∀ node ∈ entries.get? name, node.outline = []) (step : String) (later : List String) :
    lookup (name :: step :: later) (directory entries) = none := by
  rw [lookup_cons_directory]
  cases hfound : Entries.get? name entries with
  | none => rfl
  | some node => exact lookup_cons_of_outline (h node hfound) step later

section Change

variable {place : List String} {name : String} {root : Node} {old new : Entries Node}
  (hold : root.lookup place = some (directory old))
  (hget : ∀ other, name ≠ other → new.get? other = old.get? other)

include hold hget

theorem outlineAt_withEntries {names : List String} (hapart : ¬ place ++ [name] <+: names)
    (hplace : names ≠ place) : outlineAt names (withEntries new place root) = outlineAt names root := by
  by_cases habove : names <+: place
  · obtain ⟨rest, rfl⟩ := habove
    cases rest with
    | nil => simp at hplace
    | cons step rest =>
        rw [outlineAt, lookup_withEntries_append, Option.map_map, outlineAt]
        congr 1
        funext node
        exact outline_withEntries_cons new step rest node
  by_cases hbelow : place <+: names
  · obtain ⟨later, rfl⟩ := hbelow
    cases later with
    | nil => simp at hplace
    | cons other later =>
        have hother : name ≠ other := by
          rintro rfl
          exact hapart ⟨later, by simp⟩
        rw [outlineAt, lookup_withEntries_below hold, outlineAt, lookup_append_of_some hold,
          lookup_cons_directory, lookup_cons_directory, hget other hother]
  · rw [outlineAt, lookup_withEntries_apart habove hbelow, outlineAt]

/-- If the node under the name shows nothing, neither before nor after, the name is the only place that
changes, and its directory the only one that shows something else. -/
theorem unchanged_withEntries (hbefore : ∀ node ∈ old.get? name, node.outline = [])
    (hafter : ∀ node ∈ new.get? name, node.outline = []) {names : List String}
    (hnames : names ≠ place ++ [name]) :
    labelAt names (withEntries new place root) = labelAt names root ∧
      (names ≠ place → outlineAt names (withEntries new place root) = outlineAt names root) := by
  by_cases hunder : place ++ [name] <+: names
  · obtain ⟨later, rfl⟩ := hunder
    cases later with
    | nil => simp at hnames
    | cons step later =>
        have hsame : lookup (place ++ [name] ++ step :: later) (withEntries new place root) =
            lookup (place ++ [name] ++ step :: later) root := by
          rw [List.append_assoc, List.singleton_append, lookup_withEntries_below hold,
            lookup_append_of_some hold, lookup_below_of_outline hafter, lookup_below_of_outline hbefore]
        simp only [labelAt, outlineAt, hsame, implies_true, and_self]
  · exact ⟨labelAt_withEntries_of_get? hold hget hunder, outlineAt_withEntries hold hget hunder⟩

end Change

/-! ## The order of the entries -/

/-- A list of names leads through at most one entry of a directory. -/
theorem exists_apart (place names : List String) : ∃ name, ¬ place ++ [name] <+: names := by
  by_contra hall
  rw [not_exists_not] at hall
  have hsame := (List.prefix_of_prefix_length_le (hall "a") (hall "b") (by simp)).eq_of_length (by simp)
  simp at hsame

/-- The order in which a directory lists its entries is seen only where the directory itself is shown. -/
theorem withEntries_congr_of_get? {place : List String} {root : Node} {old first second : Entries Node}
    (hold : root.lookup place = some (directory old)) (hsame : ∀ key, first.get? key = second.get? key)
    (names : List String) :
    labelAt names (withEntries first place root) = labelAt names (withEntries second place root) ∧
      (names ≠ place →
        outlineAt names (withEntries first place root) = outlineAt names (withEntries second place root)) := by
  obtain ⟨name, hapart⟩ := exists_apart place names
  have hget : ∀ key, name ≠ key → first.get? key = second.get? key := fun key _ => hsame key
  have hplace := lookup_withEntries_below hold second []
  rw [List.append_nil, lookup_nil] at hplace
  rw [← withEntries_withEntries second first]
  exact ⟨labelAt_withEntries_of_get? hplace hget hapart, outlineAt_withEntries hplace hget hapart⟩

end VirtualShell.Node
