import VirtualShell.Proofs.Json.RoundTrip
import VirtualShell.Proofs.Tree.Shape
import VirtualShell.Tree.Blob

/-! # The saved form of a tree

A tree is read back from its saved form, entry for entry, as long as it is not too deep: every level
of directories nests two objects, and the reader follows objects only so far.
-/

namespace VirtualShell.Node

/-! ## The value of a tree -/

mutual
theorem toJson_numberless (node : Node) : node.toJson.Numberless := by
  match node with
  | .file content => exact .object _ (by simp [Json.Numberless.string])
  | .directory [] => exact .object _ (by simp [Json.Numberless.string])
  | .directory (entry :: rest) =>
      have hchildren := entriesToJson_numberless (entry :: rest)
      refine .object _ fun field hfield => ?_
      rcases List.mem_pair.mp hfield with rfl | rfl
      · exact .string _
      · exact .object _ hchildren

theorem entriesToJson_numberless (entries : List (String × Node)) :
    ∀ field ∈ entriesToJson entries, field.2.Numberless := by
  match entries with
  | [] => simp [entriesToJson]
  | (name, node) :: rest =>
      have hnode := toJson_numberless node
      have hrest := entriesToJson_numberless rest
      intro field hfield
      rcases List.mem_cons.mp hfield with rfl | hlater
      · exact hnode
      · exact hrest field hlater
end

mutual
theorem nesting_toJson (node : Node) : node.toJson.nesting = 2 * node.height + 1 := by
  match node with
  | .file content => simp [toJson, Json.nesting, Json.fieldsNesting]
  | .directory [] => simp [toJson, Json.nesting, Json.fieldsNesting, levels]
  | .directory (entry :: rest) =>
      have hchildren := nesting_entriesToJson (entry :: rest)
      have hlevel : 1 ≤ levels (entry :: rest) := by
        rw [levels]
        omega
      simp only [toJson, Json.nesting, Json.fieldsNesting, height_directory]
      omega

theorem nesting_entriesToJson (entries : List (String × Node)) :
    Json.fieldsNesting (entriesToJson entries) = 2 * levels entries - 1 := by
  match entries with
  | [] => rfl
  | (name, node) :: rest =>
      have hnode := nesting_toJson node
      have hrest := nesting_entriesToJson rest
      rw [entriesToJson, Json.fieldsNesting, levels, hnode, hrest]
      omega
end

/-! ## Reading the value of a tree -/

theorem ofJson?_object (below : Bool) (fields : List (String × Json)) :
    ofJson? below (.object fields) =
      match fieldValues "type" fields with
      | [tag] =>
        match kindOfTag? below tag with
        | some .file =>
          match fieldValues "content" fields with
          | [] => some (.file "")
          | [.string content] => some (.file content)
          | _ => none
        | some .directory => (childrenField? none fields).map fun entries => .directory (entries.getD [])
        | none => none
      | _ => none := rfl

theorem entriesOfFields?_entriesToJson {entries : Entries Node}
    (h : ∀ entry ∈ entries, ofJson? true entry.2.toJson = some entry.2) {done : Entries Node}
    (once : (done ++ entries).names.Nodup) :
    entriesOfFields? done (entriesToJson entries) = some (done ++ entries) := by
  induction entries generalizing done with
  | nil => simp [entriesToJson, entriesOfFields?]
  | cons entry rest ih =>
      obtain ⟨name, node⟩ := entry
      have hnode := h (name, node) List.mem_cons_self
      have hfree : done.get? name = none := by
        rw [Entries.get?_eq_none_iff]
        rw [Entries.names_append, Entries.names_cons] at once
        exact fun hname => (List.nodup_append.mp once).2.2 name hname name List.mem_cons_self rfl
      have hmore : done ++ (name, node) :: rest = (done ++ [(name, node)]) ++ rest := by simp
      rw [entriesToJson, entriesOfFields?, hnode]
      dsimp only
      rw [Entries.put_of_get?_none node hfree, hmore]
      exact ih (fun other hother => h other (List.mem_cons_of_mem _ hother)) (hmore ▸ once)

theorem ofJson?_toJson {node : Node} (h : node.Unique) (below : Bool) :
    ofJson? below node.toJson = some node := by
  induction h generalizing below with
  | file content => simp [toJson, ofJson?_object, fieldValues, kindOfTag?, kindOfWord?]
  | directory entries once known each ih =>
      have hread : entriesOfFields? [] (entriesToJson entries) = some ([] ++ entries) :=
        entriesOfFields?_entriesToJson (fun entry hentry => ih entry hentry true) once
      cases entries with
      | nil => simp [toJson, ofJson?_object, fieldValues, kindOfTag?, kindOfWord?, childrenField?]
      | cons entry rest =>
          rw [List.nil_append] at hread
          simp [toJson, ofJson?_object, fieldValues, kindOfTag?, kindOfWord?, childrenField?, hread]

/-! ## Reading the saved form -/

theorem nesting_saved (root : Node) :
    (Json.object [("/", root.toJson)]).nesting = 2 * root.height + 2 := by
  simp [Json.nesting, Json.fieldsNesting, nesting_toJson]

theorem rootFields?_saved {value : Json} (h : value.Numberless) (fuel : Nat) :
    rootFields? (fuel + 1) none (Json.quote "/".toList (':' :: value.write ['\x7d'])) =
      if value.nesting ≤ nestingLimit - 1 then some (some value, []) else none := by
  have hread := Json.readValue_write h (nestingLimit - 1) ['\x7d']
  have hclose : Json.skipSpace ['\x7d'] = ['\x7d'] := rfl
  rw [rootFields?, Json.readName_quote]
  by_cases hdeep : value.nesting ≤ nestingLimit - 1
  · rw [if_pos hdeep] at hread
    simp [hread, hdeep, hclose]
  · rw [if_neg hdeep] at hread
    simp [hread, hdeep]

theorem rootValue?_saved {value : Json} (h : value.Numberless) :
    rootValue? ((Json.object [("/", value)]).write []) =
      if value.nesting ≤ nestingLimit - 1 then some (value, []) else none := by
  have hopen : Json.skipSpace ((Json.object [("/", value)]).write []) =
      '\x7b' :: Json.quote "/".toList (':' :: value.write ['\x7d']) := Json.skipSpace_cons rfl _
  have hfields := rootFields?_saved h
    (Json.quote "/".toList (':' :: value.write ['\x7d'])).tail.length
  have hfuel : (Json.quote "/".toList (':' :: value.write ['\x7d'])).tail.length + 1 =
      (Json.quote "/".toList (':' :: value.write ['\x7d'])).length := rfl
  rw [hfuel] at hfields
  rw [rootValue?, hopen]
  simp only [hfields]
  split <;> rfl

/-- A tree is read back from its saved form exactly when the reader's limit allows for it. -/
theorem ofBlob?_blob {root : Node} (hroot : root.Unique) (hdirectory : root.isDirectory) :
    ofBlob? root.blob =
      if (Json.object [("/", root.toJson)]).nesting ≤ nestingLimit then some root else none := by
  have hlimit : (Json.object [("/", root.toJson)]).nesting ≤ nestingLimit ↔
      root.toJson.nesting ≤ nestingLimit - 1 := by
    rw [nesting_saved, nesting_toJson, nestingLimit]
    omega
  have hnode := ofJson?_toJson hroot false
  have hend : Json.skipSpace [] = [] := rfl
  unfold ofBlob? blob Json.render
  rw [String.toList_ofList, rootValue?_saved (toJson_numberless root)]
  by_cases hdeep : root.toJson.nesting ≤ nestingLimit - 1
  · simp [hlimit, hdeep, hnode, hend, hdirectory]
  · simp [hlimit, hdeep]

end VirtualShell.Node
