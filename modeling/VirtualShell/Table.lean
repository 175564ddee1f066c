import VirtualShell.Tree.Entries

/-! # Tables

A table keeps values under names in the order of the names, each of them once.  The order comes with
the table, so that whoever reads a table may rely on it.
-/

namespace VirtualShell

namespace Entries

variable {α : Type} {entries : Entries α} {name : String}

/-- Puts a value under a name, at the place that the order of the names gives it. -/
def insert (name : String) (value : α) : Entries α → Entries α
  | [] => [(name, value)]
  | (other, old) :: rest =>
    if name = other then (name, value) :: rest
    else if name < other then (name, value) :: (other, old) :: rest
    else (other, old) :: insert name value rest

/-- The names stand in their order, each of them once. -/
def Sorted (entries : Entries α) : Prop := entries.names.Pairwise (· < ·)

instance (entries : Entries α) : Decidable entries.Sorted := inferInstanceAs (Decidable (List.Pairwise _ _))

theorem sorted_cons {entry : String × α} {rest : Entries α} :
    Sorted (entry :: rest) ↔ (∀ other ∈ rest.names, entry.1 < other) ∧ rest.Sorted :=
  List.pairwise_cons

theorem mem_names_insert {value : α} {other : String} :
    other ∈ (entries.insert name value).names ↔ other = name ∨ other ∈ entries.names := by
  induction entries with
  | nil => simp [insert]
  | cons entry rest ih =>
      obtain ⟨key, old⟩ := entry
      unfold insert
      split
      · rename_i hkey
        simp [hkey]
      split
      · simp
      · simp only [names_cons, List.mem_cons, ih]
        exact or_left_comm

theorem sorted_insert (h : entries.Sorted) (name : String) (value : α) :
    (entries.insert name value).Sorted := by
  induction entries with
  | nil => exact List.pairwise_singleton _ _
  | cons entry rest ih =>
      obtain ⟨key, old⟩ := entry
      obtain ⟨hbefore, hrest⟩ := sorted_cons.mp h
      unfold insert
      split
      · rename_i hkey
        subst hkey
        exact sorted_cons.mpr ⟨hbefore, hrest⟩
      split
      · rename_i hless
        refine sorted_cons.mpr ⟨?_, h⟩
        intro other hother
        rcases List.mem_cons.mp hother with rfl | hlater
        · exact hless
        · exact String.lt_trans hless (hbefore other hlater)
      · rename_i hne hnotless
        refine sorted_cons.mpr ⟨?_, ih hrest⟩
        intro other hother
        rcases mem_names_insert.mp hother with rfl | hlater
        · exact Std.lt_of_le_of_ne (String.not_lt.mp hnotless) (Ne.symm hne)
        · exact hbefore other hlater

theorem sorted_erase (h : entries.Sorted) (name : String) : (entries.erase name).Sorted :=
  List.Pairwise.sublist ((erase_sublist name entries).map _) h

end Entries

/-- Values under names in the order of the names. -/
@[ext]
structure Table (α : Type) where
  entries : Entries α
  sorted : entries.Sorted
deriving DecidableEq

namespace Table

variable {α β : Type}

instance : CoeOut (Table α) (Entries α) := ⟨entries⟩

def empty : Table α := ⟨[], .nil⟩

def names (table : Table α) : List String := table.entries.names

def get? (name : String) (table : Table α) : Option α := table.entries.get? name

/-- The table with a value under a name; a value that stood there gives way. -/
def insert (name : String) (value : α) (table : Table α) : Table α :=
  ⟨table.entries.insert name value, Entries.sorted_insert table.sorted name value⟩

def erase (name : String) (table : Table α) : Table α :=
  ⟨table.entries.erase name, Entries.sorted_erase table.sorted name⟩

/-- Goes through the entries in their order. -/
def foldl (step : β → String × α → β) (start : β) (table : Table α) : β := table.entries.foldl step start

end Table

end VirtualShell
