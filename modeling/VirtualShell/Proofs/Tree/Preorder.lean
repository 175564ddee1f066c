import VirtualShell.Proofs.Files.Addresses

/-! # The nodes below a node

All nodes below a node in the order of a walk that visits each node right before what is below it, and
the entries of the node alone.  Every node is listed once, with the names that lead to it.
-/

namespace VirtualShell.Node

mutual
/-- The nodes below a node, each right before those below it, in the order of the entries. -/
def preorder : Node → List (List String × Node)
  | file _ => []
  | directory entries => preorderEntries entries

def preorderEntries : List (String × Node) → List (List String × Node)
  | [] => []
  | (name, node) :: rest =>
    ([name], node) :: (preorder node).map (fun place => (name :: place.1, place.2)) ++ preorderEntries rest
end

def firstLevel (node : Node) : List (List String × Node) :=
  (node.entries?.getD []).map fun entry => ([entry.1], entry.2)

variable {entries : Entries Node} {names : List String} {inner node : Node}

theorem preorder_directory (entries : Entries Node) : (directory entries).preorder = preorderEntries entries :=
  rfl

theorem preorderEntries_cons (entry : String × Node) (rest : Entries Node) :
    preorderEntries (entry :: rest) =
      ([entry.1], entry.2) :: entry.2.preorder.map (fun place => (entry.1 :: place.1, place.2)) ++
        preorderEntries rest := by
  rw [preorderEntries]

/-! ## What is listed -/

theorem mem_preorderEntries :
    (names, inner) ∈ preorderEntries entries ↔ ∃ entry ∈ entries,
      (names = [entry.1] ∧ inner = entry.2) ∨
        ∃ later, (later, inner) ∈ entry.2.preorder ∧ names = entry.1 :: later := by
  induction entries with
  | nil => simp [preorderEntries]
  | cons entry rest ih =>
      rw [preorderEntries_cons, List.mem_append, List.mem_cons, List.mem_map, ih]
      simp only [List.mem_cons, exists_eq_or_imp, Prod.mk.injEq]
      constructor
      · rintro ((heq | ⟨place, hplace, rfl, rfl⟩) | hrest)
        · exact .inl (.inl heq)
        · exact .inl (.inr ⟨place.1, hplace, rfl⟩)
        · exact .inr hrest
      · rintro ((heq | ⟨later, hlater, rfl⟩) | hrest)
        · exact .inl (.inl heq)
        · exact .inl (.inr ⟨(later, inner), hlater, rfl, rfl⟩)
        · exact .inr hrest

/-- Every node below a node is listed, under the names that lead to it, and nothing else is. -/
theorem mem_preorder_iff : (names, inner) ∈ node.preorder ↔ names ≠ [] ∧ Occurs names inner node := by
  constructor
  · intro h
    induction names generalizing node with
    | nil =>
        cases node with
        | file content => cases h
        | directory entries =>
            obtain ⟨entry, _, ⟨heq, _⟩ | ⟨later, _, heq⟩⟩ := mem_preorderEntries.mp h
            · cases heq
            · cases heq
    | cons name names ih =>
        refine ⟨List.cons_ne_nil _ _, ?_⟩
        cases node with
        | file content => cases h
        | directory entries =>
            obtain ⟨entry, hentry, ⟨heq, rfl⟩ | ⟨later, hlater, heq⟩⟩ := mem_preorderEntries.mp h
            · cases heq
              exact .entry hentry (.here entry.2)
            · cases heq
              exact .entry hentry (ih hlater).2
  · rintro ⟨hne, hoccurs⟩
    induction hoccurs with
    | here root => exact absurd rfl hne
    | @entry name names entries child inner listed inside ih =>
        refine mem_preorderEntries.mpr ⟨(name, child), listed, ?_⟩
        cases names with
        | nil =>
            cases inside
            exact .inl ⟨rfl, rfl⟩
        | cons next names => exact .inr ⟨next :: names, ih (List.cons_ne_nil _ _), rfl⟩

/-! ## Nothing is listed twice -/

theorem exists_cons_of_mem_preorderEntries (h : names ∈ (preorderEntries entries).map (·.1)) :
    ∃ name ∈ entries.names, ∃ later, names = name :: later := by
  obtain ⟨⟨names, inner⟩, hmem, rfl⟩ := List.mem_map.mp h
  obtain ⟨entry, hentry, ⟨hnames, _⟩ | ⟨later, _, hnames⟩⟩ := mem_preorderEntries.mp hmem
  · exact ⟨entry.1, Entries.mem_names_of_mem hentry, [], hnames⟩
  · exact ⟨entry.1, Entries.mem_names_of_mem hentry, later, hnames⟩

theorem nodup_preorderEntries (once : entries.names.Nodup)
    (h : ∀ entry ∈ entries, (entry.2.preorder.map (·.1)).Nodup) :
    ((preorderEntries entries).map (·.1)).Nodup := by
  induction entries with
  | nil => exact List.nodup_nil
  | cons entry rest ih =>
      rw [Entries.names_cons, List.nodup_cons] at once
      rw [List.forall_mem_cons] at h
      obtain ⟨hfresh, hrest⟩ := once
      have hlater := ih hrest h.2
      have hbelow : ((entry.2.preorder.map (·.1)).map (entry.1 :: ·)).Nodup :=
        h.1.map List.cons_injective
      have hself : [entry.1] ∉ (entry.2.preorder.map (·.1)).map (entry.1 :: ·) := by
        intro hmem
        obtain ⟨names, hnames, heq⟩ := List.mem_map.mp hmem
        obtain ⟨⟨names, inner⟩, hplace, rfl⟩ := List.mem_map.mp hnames
        cases heq
        exact (mem_preorder_iff.mp hplace).1 rfl
      have hheads : ∀ names ∈ [entry.1] :: (entry.2.preorder.map (·.1)).map (entry.1 :: ·),
          names.head? = some entry.1 := by
        intro names hnames
        rcases List.mem_cons.mp hnames with rfl | hmem
        · rfl
        · obtain ⟨later, _, rfl⟩ := List.mem_map.mp hmem
          rfl
      have hsplit : (preorderEntries (entry :: rest)).map (·.1) =
          ([entry.1] :: (entry.2.preorder.map (·.1)).map (entry.1 :: ·)) ++
            (preorderEntries rest).map (·.1) := by
        rw [preorderEntries_cons]
        simp [Function.comp_def]
      rw [hsplit, List.nodup_append]
      refine ⟨List.nodup_cons.mpr ⟨hself, hbelow⟩, hlater, ?_⟩
      rintro names hnames others hothers rfl
      obtain ⟨name, hname, later, rfl⟩ := exists_cons_of_mem_preorderEntries hothers
      have hhead := hheads _ hnames
      cases hhead
      exact hfresh hname

/-- The names that lead to a node lead to no other node of the list. -/
theorem nodup_preorder {allowed : String → Prop} (h : node.Named allowed) :
    (node.preorder.map (·.1)).Nodup := by
  induction h with
  | file content => exact List.nodup_nil
  | directory entries once known inside ih => exact nodup_preorderEntries once ih

theorem firstLevel_sublist (node : Node) : node.firstLevel.Sublist node.preorder := by
  cases node with
  | file content => exact List.Sublist.refl []
  | directory entries =>
      change (entries.map fun entry => ([entry.1], entry.2)).Sublist (preorderEntries entries)
      induction entries with
      | nil => exact List.Sublist.refl []
      | cons entry rest ih =>
          rw [List.map_cons, preorderEntries_cons, List.cons_append]
          exact (ih.trans (List.sublist_append_right _ _)).cons_cons _

end VirtualShell.Node
