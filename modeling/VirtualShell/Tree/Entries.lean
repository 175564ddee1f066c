/-! # Named entries in order

A directory lists its entries by name, in the order in which they were added.  Putting a value under
a name that is already listed keeps the place of that name.
-/

namespace VirtualShell

/-- Values under names, in the order in which the names were added. -/
abbrev Entries (α : Type) := List (String × α)

namespace Entries

variable {α : Type}

def names (entries : Entries α) : List String := entries.map (·.1)

def get? (name : String) : Entries α → Option α
  | [] => none
  | (other, value) :: rest => if other = name then some value else get? name rest

/-- Replaces the value under a name, or adds the name at the end. -/
def put (name : String) (value : α) : Entries α → Entries α
  | [] => [(name, value)]
  | (other, old) :: rest =>
    if other = name then (other, value) :: rest else (other, old) :: put name value rest

/-- Removes a name; the others keep their order. -/
def erase (name : String) : Entries α → Entries α
  | [] => []
  | (other, value) :: rest => if other = name then rest else (other, value) :: erase name rest

/-- Gives the entry under `old` the name `new` at the same place. -/
def rename (old new : String) : Entries α → Entries α
  | [] => []
  | (other, value) :: rest =>
    if other = old then (new, value) :: rest else (other, value) :: rename old new rest

@[simp] theorem names_nil : names ([] : Entries α) = [] := rfl

@[simp] theorem names_cons (entry : String × α) (rest : Entries α) :
    names (entry :: rest) = entry.1 :: names rest := rfl

theorem get?_put (name other : String) (value : α) (entries : Entries α) :
    (entries.put name value).get? other = if name = other then some value else entries.get? other := by
  induction entries with
  | nil => simp [put, get?]
  | cons entry rest ih =>
      obtain ⟨key, old⟩ := entry
      simp only [put]
      split <;> rename_i h
      · subst h
        by_cases hk : key = other <;> simp [get?, hk]
      · by_cases hk : key = other
        · subst hk; simp [get?, Ne.symm h]
        · simp [get?, hk, ih]

/-- A name that is not listed goes to the end. -/
theorem put_of_get?_none {name : String} {entries : Entries α} (value : α)
    (h : entries.get? name = none) : entries.put name value = entries ++ [(name, value)] := by
  induction entries with
  | nil => rfl
  | cons entry rest ih =>
      obtain ⟨key, old⟩ := entry
      simp only [get?] at h
      split at h
      · cases h
      · rename_i hk
        simp [put, hk, ih h]

theorem erase_sublist (name : String) (entries : Entries α) : (entries.erase name).Sublist entries := by
  induction entries with
  | nil => exact .slnil
  | cons entry rest ih =>
      obtain ⟨key, value⟩ := entry
      simp only [erase]
      split
      · exact List.sublist_cons_self _ _
      · exact ih.cons_cons _

end Entries

end VirtualShell
