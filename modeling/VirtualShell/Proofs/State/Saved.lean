import VirtualShell.Proofs.Input.Aliases
import VirtualShell.Proofs.Json.Limit
import VirtualShell.State.Session

/-! # Saved sessions

A table of aliases and a history are read back as they were saved, whatever characters they hold.
-/

namespace VirtualShell

namespace AliasTable

theorem stringFields?_map (entries : Entries String) :
    stringFields? (entries.map fun (name, value) => (name, Json.string value)) = some entries := by
  induction entries with
  | nil => rfl
  | cons entry rest ih =>
      obtain ⟨name, value⟩ := entry
      rw [List.map_cons, stringFields?, ih, Option.map_some]

theorem toJson_numberless (table : AliasTable) : table.toJson.Numberless := by
  refine .object _ ?_
  intro field hfield
  obtain ⟨entry, _, rfl⟩ := List.mem_map.mp hfield
  exact .string entry.2

theorem nesting_toJson_le (table : AliasTable) : table.toJson.nesting ≤ 1 := by
  refine Nat.succ_le_succ (Json.fieldsNesting_le_iff.mpr ?_)
  intro field hfield
  obtain ⟨entry, _, rfl⟩ := List.mem_map.mp hfield
  exact Nat.le_refl 0

theorem ofSaved?_toJson (table : AliasTable) : ofSaved? table.toJson.render = some table := by
  have hlimit : table.toJson.nesting ≤ Node.nestingLimit :=
    Nat.le_trans (nesting_toJson_le table) (by decide)
  have hparsed := Json.parse?_render (toJson_numberless table) hlimit
  unfold ofSaved?
  rw [hparsed]
  change (stringFields? (table.entries.map fun (name, value) => (name, Json.string value))).map ofList = _
  rw [stringFields?_map, Option.map_some, ofList_entries]

end AliasTable

namespace Session

theorem stringItems?_map (history : List String) :
    stringItems? (history.map Json.string) = some history := by
  induction history with
  | nil => rfl
  | cons line rest ih => rw [List.map_cons, stringItems?, ih, Option.map_some]

theorem historyJson_numberless (history : List String) : (historyJson history).Numberless := by
  refine .array _ ?_
  intro item hitem
  obtain ⟨line, _, rfl⟩ := List.mem_map.mp hitem
  exact .string line

theorem nesting_historyJson_le (history : List String) : (historyJson history).nesting ≤ 1 := by
  refine Nat.succ_le_succ (Json.itemsNesting_le_iff.mpr ?_)
  intro item hitem
  obtain ⟨line, _, rfl⟩ := List.mem_map.mp hitem
  exact Nat.le_refl 0

theorem historyOfSaved?_historyJson (history : List String) :
    historyOfSaved? (historyJson history).render = some history := by
  have hlimit : (historyJson history).nesting ≤ Node.nestingLimit :=
    Nat.le_trans (nesting_historyJson_le history) (by decide)
  have hparsed := Json.parse?_render (historyJson_numberless history) hlimit
  unfold historyOfSaved?
  rw [hparsed]
  exact stringItems?_map history

end Session

end VirtualShell
