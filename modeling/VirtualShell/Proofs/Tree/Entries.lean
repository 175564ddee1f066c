import Mathlib.Data.List.Nodup
import VirtualShell.Tree.Entries

/-! # Laws of named entries

What each change of a listing does to its names and to the value under a name.  The first entry
of a name is the one that counts; the laws that need each name only once say so.
-/

namespace VirtualShell.Entries

variable {α : Type}

@[simp] theorem names_append (first second : Entries α) :
    names (first ++ second) = names first ++ names second := List.map_append

theorem mem_names_of_mem {entries : Entries α} {entry : String × α} (h : entry ∈ entries) :
    entry.1 ∈ entries.names := List.mem_map_of_mem h

/-! ## Looking up -/

theorem get?_eq_none_iff {name : String} {entries : Entries α} :
    entries.get? name = none ↔ name ∉ entries.names := by
  induction entries with
  | nil => simp [get?]
  | cons entry rest ih =>
      obtain ⟨key, value⟩ := entry
      by_cases hkey : key = name
      · simp [get?, hkey]
      · simp [get?, hkey, ih, Ne.symm hkey]

theorem mem_of_get? {name : String} {value : α} {entries : Entries α}
    (h : entries.get? name = some value) : (name, value) ∈ entries := by
  induction entries with
  | nil => simp [get?] at h
  | cons entry rest ih =>
      obtain ⟨key, first⟩ := entry
      by_cases hkey : key = name
      · simp only [get?, hkey, if_true, Option.some.injEq] at h
        simp [hkey, h]
      · simp only [get?, hkey, if_false] at h
        exact List.mem_cons_of_mem _ (ih h)

theorem ne_of_get? {name other : String} {value : α} {entries : Entries α}
    (h : entries.get? name = some value) (hfree : entries.get? other = none) : name ≠ other := by
  rintro rfl
  rw [hfree] at h
  cases h

theorem get?_of_mem {name : String} {value : α} {entries : Entries α}
    (hnodup : entries.names.Nodup) (h : (name, value) ∈ entries) :
    entries.get? name = some value := by
  induction entries with
  | nil => simp at h
  | cons entry rest ih =>
      obtain ⟨key, first⟩ := entry
      simp only [names_cons, List.nodup_cons] at hnodup
      rcases List.mem_cons.mp h with heq | hmem
      · cases heq
        simp [get?]
      · have hkey : key ≠ name := by
          rintro rfl
          exact hnodup.1 (mem_names_of_mem hmem)
        simp [get?, hkey, ih hnodup.2 hmem]

theorem get?_append (name : String) (first second : Entries α) :
    Entries.get? name (first ++ second) = (first.get? name).or (second.get? name) := by
  induction first with
  | nil => rfl
  | cons entry rest ih =>
      obtain ⟨key, value⟩ := entry
      by_cases hkey : key = name
      · simp [get?, hkey]
      · simp [get?, hkey, ih]

/-- A new name between others is found, and hides none of them. -/
theorem get?_between {name : String} {front back : Entries α} (h : Entries.get? name (front ++ back) = none)
    (value : α) (other : String) :
    Entries.get? other (front ++ (name, value) :: back) =
      if name = other then some value else Entries.get? other (front ++ back) := by
  rw [get?_append, Option.or_eq_none_iff] at h
  rw [get?_append, get?_append]
  by_cases hother : name = other
  · subst hother
    simp [get?, h.1]
  · simp [get?, hother]

/-! ## Putting -/

theorem names_put (name : String) (value : α) (entries : Entries α) :
    (entries.put name value).names =
      if name ∈ entries.names then entries.names else entries.names ++ [name] := by
  induction entries with
  | nil => simp [put]
  | cons entry rest ih =>
      obtain ⟨key, old⟩ := entry
      by_cases hkey : key = name
      · simp [put, hkey]
      · simp only [put, hkey, if_false, names_cons, ih, List.mem_cons, Ne.symm hkey, false_or]
        split <;> simp

theorem mem_put {name : String} {value : α} {entry : String × α} {entries : Entries α}
    (h : entry ∈ entries.put name value) : entry = (name, value) ∨ entry ∈ entries := by
  induction entries with
  | nil => simpa [put] using h
  | cons other rest ih =>
      obtain ⟨key, old⟩ := other
      by_cases hkey : key = name
      · simp only [put, hkey, if_true, List.mem_cons] at h
        exact h.imp id (List.mem_cons_of_mem _)
      · simp only [put, hkey, if_false, List.mem_cons] at h
        rcases h with rfl | h
        · exact .inr List.mem_cons_self
        · exact (ih h).imp id (List.mem_cons_of_mem _)

theorem nodup_names_put {entries : Entries α} (h : entries.names.Nodup) (name : String) (value : α) :
    (entries.put name value).names.Nodup := by
  rw [names_put]
  split
  · exact h
  · rename_i hname
    rw [List.nodup_append]
    refine ⟨h, List.nodup_singleton name, ?_⟩
    intro other hother last hlast heq
    rw [List.mem_singleton] at hlast
    exact hname (hlast ▸ heq ▸ hother)

theorem put_put (name : String) (first second : α) (entries : Entries α) :
    (entries.put name first).put name second = entries.put name second := by
  induction entries with
  | nil => simp [put]
  | cons entry rest ih =>
      obtain ⟨key, old⟩ := entry
      by_cases hkey : key = name
      · simp [put, hkey]
      · simp [put, hkey, ih]

theorem put_of_get?_some {name : String} {value : α} {entries : Entries α}
    (h : entries.get? name = some value) : entries.put name value = entries := by
  induction entries with
  | nil => simp [get?] at h
  | cons entry rest ih =>
      obtain ⟨key, old⟩ := entry
      by_cases hkey : key = name
      · simp only [get?, hkey, if_true, Option.some.injEq] at h
        simp [put, hkey, h]
      · simp only [get?, hkey, if_false] at h
        simp [put, hkey, ih h]

/-- What is seen of the values does not change when a value gives way to one that looks the same. -/
theorem map_put {β : Type} (view : α → β) {name : String} {old value : α} {entries : Entries α}
    (h : entries.get? name = some old) (hsame : view value = view old) :
    (entries.put name value).map (fun (key, value) => (key, view value)) =
      entries.map fun (key, value) => (key, view value) := by
  induction entries with
  | nil => simp [get?] at h
  | cons entry rest ih =>
      obtain ⟨key, first⟩ := entry
      by_cases hkey : key = name
      · simp only [get?, hkey, if_true, Option.some.injEq] at h
        simp [put, hkey, h, hsame]
      · simp only [get?, hkey, if_false] at h
        simp [put, hkey, ih h]

/-! ## Erasing -/

theorem get?_erase_ne {name other : String} (entries : Entries α) (h : name ≠ other) :
    (entries.erase name).get? other = entries.get? other := by
  induction entries with
  | nil => rfl
  | cons entry rest ih =>
      obtain ⟨key, value⟩ := entry
      by_cases hkey : key = name
      · subst hkey
        simp [erase, get?, h]
      · simp [erase, get?, hkey, ih]

theorem get?_erase_self {entries : Entries α} (h : entries.names.Nodup) (name : String) :
    (entries.erase name).get? name = none := by
  induction entries with
  | nil => rfl
  | cons entry rest ih =>
      obtain ⟨key, value⟩ := entry
      simp only [names_cons, List.nodup_cons] at h
      by_cases hkey : key = name
      · subst hkey
        simp [erase, get?_eq_none_iff, h.1]
      · simp [erase, get?, hkey, ih h.2]

theorem nodup_names_erase {entries : Entries α} (h : entries.names.Nodup) (name : String) :
    (entries.erase name).names.Nodup := h.sublist ((erase_sublist name entries).map _)

/-- A name that was added at the end is taken away again without a trace. -/
theorem erase_append_singleton {name : String} {entries : Entries α} (value : α)
    (h : entries.get? name = none) : (entries ++ [(name, value)]).erase name = entries := by
  induction entries with
  | nil => simp [erase]
  | cons entry rest ih =>
      obtain ⟨key, old⟩ := entry
      simp only [get?] at h
      split at h
      · cases h
      · rename_i hkey
        simp [erase, hkey, ih h]

/-- The entry of a name stands between others.  Those are what is left without it, and it stays between
them when its name changes. -/
theorem exists_append_of_get? {name : String} {value : α} {entries : Entries α}
    (h : entries.get? name = some value) :
    ∃ front back, entries = front ++ (name, value) :: back ∧ entries.erase name = front ++ back ∧
      ∀ new, entries.rename name new = front ++ (new, value) :: back := by
  induction entries with
  | nil => simp [get?] at h
  | cons entry rest ih =>
      obtain ⟨key, first⟩ := entry
      by_cases hkey : key = name
      · simp only [get?, hkey, if_true, Option.some.injEq] at h
        exact ⟨[], rest, by simp [hkey, h], by simp [erase, hkey], by simp [rename, hkey, h]⟩
      · simp only [get?, hkey, if_false] at h
        obtain ⟨front, back, hrest, herased, hrenamed⟩ := ih h
        exact ⟨(key, first) :: front, back, by simp [hrest], by simp [erase, hkey, herased],
          by simp [rename, hkey, hrenamed]⟩

/-! ## Renaming -/

/-- Every entry of a listing with a name changed was there before, perhaps under the old name. -/
theorem mem_rename {old new : String} {entry : String × α} {entries : Entries α}
    (h : entry ∈ entries.rename old new) : entry ∈ entries ∨ entry.1 = new ∧ (old, entry.2) ∈ entries := by
  induction entries with
  | nil => simp [rename] at h
  | cons other rest ih =>
      obtain ⟨key, value⟩ := other
      by_cases hkey : key = old
      · simp only [rename, hkey, if_true, List.mem_cons] at h
        rcases h with rfl | h
        · exact .inr ⟨rfl, by simp [hkey]⟩
        · exact .inl (List.mem_cons_of_mem _ h)
      · simp only [rename, hkey, if_false, List.mem_cons] at h
        rcases h with rfl | h
        · exact .inl List.mem_cons_self
        · exact (ih h).imp (List.mem_cons_of_mem _) fun hnew => ⟨hnew.1, List.mem_cons_of_mem _ hnew.2⟩

/-- A renamed entry is found as if it had been taken away and added again at the end. -/
theorem get?_rename {old new : String} {value : α} {entries : Entries α} (h : entries.get? old = some value)
    (hfree : entries.get? new = none) (name : String) :
    (entries.rename old new).get? name = Entries.get? name (entries.erase old ++ [(new, value)]) := by
  obtain ⟨front, back, _, herased, hrenamed⟩ := exists_append_of_get? h
  have hothers : Entries.get? new (front ++ back) = none := by
    rw [← herased, get?_erase_ne entries (ne_of_get? h hfree), hfree]
  have hlast : Entries.get? new ((front ++ back) ++ []) = none := by rwa [List.append_nil]
  rw [hrenamed, herased, get?_between hothers, get?_between hlast, List.append_nil]

theorem nodup_names_rename {entries : Entries α} {old new : String} (h : entries.names.Nodup)
    (hnew : new ∉ entries.names) : (entries.rename old new).names.Nodup := by
  induction entries with
  | nil => simp [rename]
  | cons entry rest ih =>
      obtain ⟨key, value⟩ := entry
      simp only [names_cons, List.nodup_cons] at h
      simp only [names_cons, List.mem_cons, not_or] at hnew
      by_cases hkey : key = old
      · simp [rename, hkey, hnew.2, h.2]
      · simp only [rename, hkey, if_false, names_cons, List.nodup_cons]
        refine ⟨?_, ih h.2 hnew.2⟩
        intro hmem
        obtain ⟨other, hother, hname⟩ := List.mem_map.mp hmem
        rcases mem_rename hother with hold | ⟨hname', _⟩
        · exact h.1 (hname ▸ mem_names_of_mem hold)
        · exact hnew.1 (hname'.symm.trans hname)

end VirtualShell.Entries
