import VirtualShell.Proofs.Tree.Places

/-! # The shape of a tree

Trees in which every directory lists each name once, and how deep a tree is.  Replacing the entries
of a directory by well-named ones keeps a tree well-named.
-/

namespace VirtualShell.Node

/-- Every directory of the tree lists each of its names once, and each of them is allowed. -/
inductive Named (allowed : String → Prop) : Node → Prop
  | file (content : String) : Named allowed (file content)
  | directory (entries : Entries Node) (once : entries.names.Nodup)
      (known : ∀ name ∈ entries.names, allowed name)
      (below : ∀ entry ∈ entries, Named allowed entry.2) : Named allowed (directory entries)

abbrev Unique : Node → Prop := Named fun _ => True

namespace Named

variable {allowed : String → Prop}

theorem directory_iff {entries : Entries Node} :
    Named allowed (.directory entries) ↔ entries.names.Nodup ∧
      (∀ name ∈ entries.names, allowed name) ∧ ∀ entry ∈ entries, Named allowed entry.2 := by
  constructor
  · rintro (_ | ⟨_, once, known, below⟩)
    exact ⟨once, known, below⟩
  · rintro ⟨once, known, below⟩
    exact .directory entries once known below

theorem lookup {names : List String} {root node : Node} (hroot : Named allowed root)
    (h : root.lookup names = some node) : Named allowed node := by
  induction names generalizing root with
  | nil =>
      cases h
      exact hroot
  | cons name names ih =>
      cases hroot with
      | file content => simp at h
      | directory entries once known below =>
          rw [lookup_cons_directory] at h
          obtain ⟨next, hnext, hrest⟩ := Option.bind_eq_some_iff.mp h
          exact ih (below _ (Entries.mem_of_get? hnext)) hrest

/-- A name that is listed already keeps its place, so only the replaced node has to be well-named. -/
theorem put_of_mem {entries : Entries Node} (h : Named allowed (.directory entries)) {name : String}
    (hname : name ∈ entries.names) {node : Node} (hnode : Named allowed node) :
    Named allowed (.directory (entries.put name node)) := by
  rw [directory_iff] at h ⊢
  obtain ⟨once, known, below⟩ := h
  rw [Entries.names_put, if_pos hname]
  refine ⟨once, known, fun entry hentry => ?_⟩
  rcases Entries.mem_put hentry with rfl | hold
  · exact hnode
  · exact below entry hold

theorem put {entries : Entries Node} (h : Named allowed (.directory entries)) {name : String}
    (hname : allowed name) {node : Node} (hnode : Named allowed node) :
    Named allowed (.directory (entries.put name node)) := by
  by_cases hmem : name ∈ entries.names
  · exact put_of_mem h hmem hnode
  · rw [directory_iff] at h ⊢
    obtain ⟨once, known, below⟩ := h
    refine ⟨Entries.nodup_names_put once name node, ?_, fun entry hentry => ?_⟩
    · rw [Entries.names_put, if_neg hmem]
      intro other hother
      rcases List.mem_append.mp hother with hold | hnew
      · exact known other hold
      · exact List.mem_singleton.mp hnew ▸ hname
    · rcases Entries.mem_put hentry with rfl | hold
      · exact hnode
      · exact below entry hold

theorem erase {entries : Entries Node} (h : Named allowed (.directory entries)) (name : String) :
    Named allowed (.directory (entries.erase name)) := by
  rw [directory_iff] at h ⊢
  obtain ⟨once, known, below⟩ := h
  have hsub := Entries.erase_sublist name entries
  exact ⟨Entries.nodup_names_erase once name, fun other hother => known other ((hsub.map _).subset hother),
    fun entry hentry => below entry (hsub.subset hentry)⟩

theorem rename {entries : Entries Node} (h : Named allowed (.directory entries)) {old new : String}
    (hnew : allowed new) (hfree : new ∉ entries.names) :
    Named allowed (.directory (entries.rename old new)) := by
  rw [directory_iff] at h ⊢
  obtain ⟨once, known, below⟩ := h
  refine ⟨Entries.nodup_names_rename once hfree, fun name hname => ?_, fun entry hentry => ?_⟩
  · obtain ⟨entry, hentry, rfl⟩ := List.mem_map.mp hname
    rcases Entries.mem_rename hentry with hold | ⟨heq, _⟩
    · exact known entry.1 (Entries.mem_names_of_mem hold)
    · exact heq ▸ hnew
  · rcases Entries.mem_rename hentry with hold | ⟨_, hold⟩
    · exact below entry hold
    · exact below (old, entry.2) hold

theorem withEntries {names : List String} {root : Node} {new : Entries Node}
    (hroot : Named allowed root) (hnew : Named allowed (.directory new)) :
    Named allowed (root.withEntries new names) := by
  induction names generalizing root with
  | nil =>
      cases root with
      | file content => exact hroot
      | directory entries => exact hnew
  | cons name names ih =>
      cases root with
      | file content => exact hroot
      | directory entries =>
          rw [withEntries_cons_directory]
          cases hget : Entries.get? name entries with
          | none => exact hroot
          | some node =>
              have hmem := Entries.mem_of_get? hget
              have hnode := (directory_iff.mp hroot).2.2 _ hmem
              exact put_of_mem hroot (Entries.mem_names_of_mem hmem) (ih hnode)

theorem insertAt {names : List String} {root node : Node} (hroot : Named allowed root)
    (hnames : ∀ name ∈ names, allowed name) (hnode : Named allowed node) :
    Named allowed (root.insertAt names node) := by
  unfold Node.insertAt
  split
  · rename_i entries name hentries hname
    exact withEntries hroot (put (lookup hroot hentries) (hnames name (List.mem_of_getLast? hname)) hnode)
  · exact hroot

theorem lookup_removeAt_self {names : List String} {root : Node} (hroot : Named allowed root)
    (hnames : names ≠ []) : (root.removeAt names).lookup names = none := by
  obtain ⟨place, name, rfl⟩ := List.eq_nil_or_concat' names |>.resolve_left hnames
  have hlookup := lookup_append place [name] root
  unfold Node.removeAt
  rw [List.dropLast_concat, List.getLast?_concat]
  cases hplace : root.lookup place with
  | none => rw [hlookup, hplace, Option.bind_none]
  | some node =>
      cases node with
      | file content => rw [hlookup, hplace, Option.bind_some, lookup_cons_file]
      | directory entries =>
          obtain ⟨once, _, _⟩ := directory_iff.mp (hroot.lookup hplace)
          rw [lookup_withEntries_below hplace, lookup_cons_directory, Entries.get?_erase_self once,
            Option.bind_none]

theorem removeAt {root : Node} (hroot : Named allowed root) (names : List String) :
    Named allowed (root.removeAt names) := by
  unfold Node.removeAt
  split
  · rename_i entries name hentries _
    exact withEntries hroot (erase (lookup hroot hentries) name)
  · exact hroot

end Named

/-! ## Depth -/

mutual
/-- The number of levels below a node. -/
def height : Node → Nat
  | file _ => 0
  | directory entries => levels entries

def levels : List (String × Node) → Nat
  | [] => 0
  | (_, node) :: rest => max (height node + 1) (levels rest)
end

@[simp] theorem height_file (content : String) : (file content).height = 0 := rfl

@[simp] theorem height_directory (entries : Entries Node) : (directory entries).height = levels entries :=
  rfl

theorem levels_le_iff {entries : Entries Node} {n : Nat} :
    levels entries ≤ n ↔ ∀ entry ∈ entries, entry.2.height + 1 ≤ n := by
  induction entries with
  | nil => simp [levels]
  | cons entry rest ih =>
      obtain ⟨name, node⟩ := entry
      rw [levels, Nat.max_le, ih, List.forall_mem_cons]

/-- Each name on the way to a node takes at least one level. -/
theorem height_add_length_le {names : List String} {root node : Node} (h : root.lookup names = some node) :
    node.height + names.length ≤ root.height := by
  induction names generalizing root with
  | nil =>
      cases h
      exact Nat.le_refl _
  | cons name names ih =>
      cases root with
      | file content => simp at h
      | directory entries =>
          rw [lookup_cons_directory] at h
          obtain ⟨next, hnext, hrest⟩ := Option.bind_eq_some_iff.mp h
          have hlevel := levels_le_iff.mp (Nat.le_refl (levels entries)) _ (Entries.mem_of_get? hnext)
          exact Nat.le_trans (Nat.succ_le_succ (ih hrest)) hlevel

theorem length_le_height {names : List String} {root node : Node} (h : root.lookup names = some node) :
    names.length ≤ root.height := Nat.le_trans (Nat.le_add_left _ _) (height_add_length_le h)

/-- The height is the length of the longest way down, if every entry can be found. -/
theorem height_le_iff {root : Node} (hroot : root.Unique) (n : Nat) :
    root.height ≤ n ↔ ∀ names node, root.lookup names = some node → names.length ≤ n := by
  constructor
  · intro hheight names node hlookup
    exact Nat.le_trans (length_le_height hlookup) hheight
  · intro h
    induction hroot generalizing n with
    | file content => exact Nat.zero_le _
    | directory entries once known below ih =>
        rw [height_directory, levels_le_iff]
        intro entry hentry
        have hget : ∀ later, (directory entries).lookup (entry.1 :: later) = entry.2.lookup later := by
          intro later
          rw [lookup_cons_directory, Entries.get?_of_mem once hentry, Option.bind_some]
        have hpos := h [entry.1] entry.2 (hget [])
        have hbelow := ih entry hentry (n - 1) fun names node hnode => by
          have hlength := h (entry.1 :: names) node ((hget names).trans hnode)
          simp only [List.length_cons] at hlength
          omega
        simp only [List.length_singleton] at hpos
        omega

end VirtualShell.Node
