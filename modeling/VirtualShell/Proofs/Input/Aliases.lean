import Mathlib.Data.String.Basic
import VirtualShell.Input.Alias
import VirtualShell.Proofs.Tree.Entries

/-! # Tables of aliases

What is found in a table after a change of it, and how a table is read back from its entries.  Offering
definitions to a table adds, for each name that it does not know, the first one that is offered.
-/

namespace VirtualShell

/-! ## Entries in order -/

namespace Entries

variable {α : Type} {entries : Entries α} {name : String}

theorem get?_insert (name other : String) (value : α) (entries : Entries α) :
    (entries.insert name value).get? other = if name = other then some value else entries.get? other := by
  induction entries with
  | nil => rfl
  | cons entry rest ih =>
      obtain ⟨key, old⟩ := entry
      unfold insert
      split
      · rename_i hkey
        subst hkey
        by_cases hother : name = other <;> simp [get?, hother]
      split
      · simp [get?]
      · rename_i hkey _
        simp only [get?, ih]
        by_cases hother : name = other
        · subst hother
          simp [Ne.symm hkey]
        · simp [hother]

theorem insert_of_forall_lt (h : ∀ other ∈ entries.names, other < name) (value : α) :
    entries.insert name value = entries ++ [(name, value)] := by
  induction entries with
  | nil => rfl
  | cons entry rest ih =>
      obtain ⟨key, old⟩ := entry
      rw [names_cons, List.forall_mem_cons] at h
      obtain ⟨hkey, hrest⟩ := h
      unfold insert
      rw [if_neg (ne_of_gt hkey), if_neg (lt_asymm hkey), ih hrest, List.cons_append]

theorem find?_eq_some_iff (h : entries.Sorted) (property : String → Prop) [DecidablePred property]
    {value : α} :
    entries.find? (property ·.1) = some (name, value) ↔
      (name, value) ∈ entries ∧ property name ∧ ∀ other ∈ entries.names, property other → name ≤ other := by
  induction entries with
  | nil => simp
  | cons entry rest ih =>
      obtain ⟨key, first⟩ := entry
      obtain ⟨hbefore, hrest⟩ := sorted_cons.mp h
      rw [List.find?_cons]
      by_cases hkey : property key
      · simp only [hkey, decide_true, Option.some.injEq]
        constructor
        · rintro ⟨rfl, rfl⟩
          refine ⟨List.mem_cons_self, hkey, ?_⟩
          intro other hother _
          rcases List.mem_cons.mp hother with rfl | hlater
          · exact le_refl _
          · exact le_of_lt (hbefore other hlater)
        · rintro ⟨hmem, _, hleast⟩
          have hle : name ≤ key := hleast key List.mem_cons_self hkey
          rcases List.mem_cons.mp hmem with heq | hlater
          · exact heq.symm
          · have hlt := hbefore name (mem_names_of_mem hlater)
            exact absurd hlt (not_lt.mpr hle)
      · have hother : (name, value) ∈ (key, first) :: rest ∧ property name ↔
            (name, value) ∈ rest ∧ property name := by
          constructor
          · rintro ⟨hmem, hname⟩
            rcases List.mem_cons.mp hmem with heq | hlater
            · cases heq
              exact absurd hname hkey
            · exact ⟨hlater, hname⟩
          · rintro ⟨hmem, hname⟩
            exact ⟨List.mem_cons_of_mem _ hmem, hname⟩
        simp only [hkey, decide_false]
        rw [ih hrest, ← and_assoc, ← and_assoc, hother, names_cons, List.forall_mem_cons]
        simp only [hkey, false_implies, true_and]

end Entries

theorem Table.get?_insert {α : Type} (name other : String) (value : α) (table : Table α) :
    (table.insert name value).get? other = if name = other then some value else table.get? other :=
  Entries.get?_insert name other value table.entries

namespace AliasTable

theorem ofList_entries (table : AliasTable) : ofList table.entries = table := by
  -- each entry that is read goes to the end of those read before it
  have hread : ∀ (later : Entries String) (done : AliasTable), Entries.Sorted (done.entries ++ later) →
      (later.foldl (fun table pair => table.insert pair.1 pair.2) done).entries = done.entries ++ later := by
    intro later
    induction later with
    | nil =>
        intro done _
        rw [List.foldl_nil, List.append_nil]
    | cons entry later ih =>
        intro done hsorted
        obtain ⟨name, value⟩ := entry
        have hbefore : ∀ other ∈ done.names, other < name := by
          intro other hother
          rw [Entries.Sorted, Entries.names_append, List.pairwise_append] at hsorted
          exact hsorted.2.2 other hother name List.mem_cons_self
        have hput : (done.insert name value).entries = done.entries ++ [(name, value)] :=
          Entries.insert_of_forall_lt hbefore value
        have hmore : done.entries ++ (name, value) :: later =
            (done.insert name value).entries ++ later := by simp [hput]
        rw [List.foldl_cons, hmore]
        exact ih _ (hmore ▸ hsorted)
  exact Table.ext (hread table.entries .empty table.sorted)

/-! ## Definitions that are offered -/

/-- The table with a definition under the lower-case form of its name, unless it knows that name. -/
def offer (table : AliasTable) (definition : String × String) : AliasTable :=
  if (table.value? definition.1).isSome then table
  else table.insert (Text.lowerOf definition.1) definition.2

theorem get?_offer (table : AliasTable) (definition : String × String) (name : String) :
    (table.offer definition).get? name =
      (table.get? name).or
        (if Text.lowerOf definition.1 = name then some definition.2 else none) := by
  unfold offer value?
  split
  · rename_i hknown
    by_cases hname : Text.lowerOf definition.1 = name
    · subst hname
      obtain ⟨old, hold⟩ := Option.isSome_iff_exists.mp hknown
      simp [hold]
    · simp [hname]
  · rename_i hnew
    rw [Table.get?_insert]
    by_cases hname : Text.lowerOf definition.1 = name
    · subst hname
      simp only [Bool.not_eq_true, Option.isSome_eq_false_iff, Option.isNone_iff_eq_none] at hnew
      simp [hnew]
    · simp [hname]

theorem get?_foldl_offer (table : AliasTable) (definitions : List (String × String)) (name : String) :
    (definitions.foldl offer table).get? name =
      (table.get? name).or
        ((definitions.find? (Text.lowerOf ·.1 = name)).map (·.2)) := by
  induction definitions generalizing table with
  | nil => simp
  | cons definition definitions ih =>
      rw [List.foldl_cons, ih, get?_offer, Option.or_assoc, List.find?_cons]
      by_cases hname : Text.lowerOf definition.1 = name <;> simp [hname]

end AliasTable

end VirtualShell
