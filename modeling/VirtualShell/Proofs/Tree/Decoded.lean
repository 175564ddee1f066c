import VirtualShell.Proofs.Json.Limit
import VirtualShell.Proofs.Tree.Saved

/-! # Trees that are read

Whatever value a tree is read from, no directory of the tree lists a name twice, and each level below
its root took two levels of the value.  So a tree from any saved text is low enough to be read again.
-/

namespace VirtualShell.Node

/-- No name is listed twice, and the saved form is nested at most `room` deep. -/
structure Fits (room : Nat) (node : Node) : Prop where
  unique : node.Unique
  low : 2 * node.height + 1 ≤ room

namespace Fits

variable {room more : Nat}

theorem mono {node : Node} (hmore : room ≤ more) (h : node.Fits room) : node.Fits more :=
  ⟨h.unique, Nat.le_trans h.low hmore⟩

theorem file (hroom : 1 ≤ room) (content : String) : (file content).Fits room :=
  ⟨.file content, hroom⟩

theorem empty (hroom : 1 ≤ room) : (directory []).Fits room where
  unique := Named.directory_iff.mpr (by simp)
  low := hroom

/-- A node that is put among entries leaves two levels less room than the directory has. -/
theorem put {entries : Entries Node} {name : String} {node : Node} (hentries : (directory entries).Fits room)
    (hnode : node.Fits more) (hmore : more + 2 ≤ room) : (directory (entries.put name node)).Fits room where
  unique := hentries.unique.put trivial hnode.unique
  low := by
    have hold := levels_le_iff.mp (Nat.le_refl (levels entries))
    have hnew := hnode.low
    have hlow : 2 * levels entries + 1 ≤ room := hentries.low
    have hlevels : levels (entries.put name node) ≤ max (levels entries) (node.height + 1) := by
      rw [levels_le_iff]
      intro entry hentry
      rcases Entries.mem_put hentry with rfl | hmem
      · exact Nat.le_max_right _ _
      · exact Nat.le_trans (hold entry hmem) (Nat.le_max_left _ _)
    rw [height_directory]
    omega

end Fits

/-! ## Reading the value of a tree -/

theorem ofJson?_array (below : Bool) (tag : Json) (parts : List Json) :
    ofJson? below (.array (tag :: parts)) =
      match kindOfTag? below tag with
      | some .file =>
        match parts with
        | [] => some (.file "")
        | [.string content] => some (.file content)
        | _ => none
      | some .directory =>
        match parts with
        | [] => some (.directory [])
        | [.object fields] => (entriesOfFields? [] fields).map .directory
        | _ => none
      | none => none :=
  ofJson?.eq_def below _

theorem childrenField?_cons (found : Option (Entries Node)) (name : String) (value : Json)
    (rest : List (String × Json)) :
    childrenField? found ((name, value) :: rest) =
      if name = "children" then
        match found, value with
        | none, .object fields =>
          match entriesOfFields? [] fields with
          | some entries => childrenField? (some entries) rest
          | none => none
        | _, _ => none
      else childrenField? found rest :=
  childrenField?.eq_def found _

mutual
theorem fits_of_ofJson? {below : Bool} {node : Node} (value : Json) (h : ofJson? below value = some node) :
    node.Fits value.nesting := by
  match value with
  | .null => cases h
  | .bool _ => cases h
  | .number _ => cases h
  | .string _ => cases h
  | .object fields =>
      have hflat : 1 ≤ Json.nesting (.object fields) := Nat.le_add_left _ _
      rw [ofJson?_object] at h
      split at h
      · -- the tag stands among the fields and names a kind
        split at h
        · split at h
          · cases h
            exact .file hflat _
          · cases h
            exact .file hflat _
          · cases h
        · obtain ⟨found, hfound, rfl⟩ := Option.map_eq_some_iff.mp h
          have hentries := fits_of_childrenField? fields (Nat.le_refl _) (by simp) hfound
          cases found with
          | none => exact .empty hflat
          | some entries => exact hentries entries rfl
        · cases h
      · cases h
  | .array [] => cases h
  | .array (tag :: parts) =>
      have hflat : 1 ≤ Json.nesting (.array (tag :: parts)) := Nat.le_add_left _ _
      rw [ofJson?_array] at h
      -- the tag comes first, and the rest of the array is the only field of its kind
      split at h
      · split at h
        · cases h
          exact .file hflat _
        · cases h
          exact .file hflat _
        · cases h
      · match parts with
        | [] =>
            cases h
            exact .empty hflat
        | [.object fields] =>
            obtain ⟨entries, hentries, rfl⟩ := Option.map_eq_some_iff.mp h
            have hroom : Json.fieldsNesting fields + 2 ≤ Json.nesting (.array [tag, .object fields]) := by
              simp only [Json.nesting, Json.itemsNesting]
              omega
            exact fits_of_entriesOfFields? fields hroom (.empty hflat) hentries
        | [.null] | [.bool _] | [.number _] | [.string _] | [.array _] => cases h
        | _ :: _ :: _ => simp at h
      · cases h

theorem fits_of_childrenField? {found result : Option (Entries Node)} {room : Nat}
    (fields : List (String × Json)) (hroom : Json.fieldsNesting fields + 1 ≤ room)
    (hfound : ∀ old ∈ found, (directory old).Fits room)
    (h : childrenField? found fields = some result) : ∀ entries ∈ result, (directory entries).Fits room := by
  match fields with
  | [] =>
      cases h
      exact hfound
  | (name, value) :: rest =>
      rw [Json.fieldsNesting] at hroom
      rw [childrenField?_cons] at h
      split at h
      · match found, value with
        | none, .object fields =>
            dsimp only at h
            split at h
            · rename_i entries hentries
              have hinner : Json.fieldsNesting fields + 2 ≤ room := by
                rw [Json.nesting] at hroom
                omega
              have hread := fits_of_entriesOfFields? fields hinner (.empty (by omega)) hentries
              exact fits_of_childrenField? rest (by omega) (by simpa using hread) h
            · cases h
        | none, .null | none, .bool _ | none, .number _ | none, .string _ | none, .array _ => cases h
        | some _, _ => cases h
      · exact fits_of_childrenField? rest (by omega) hfound h

theorem fits_of_entriesOfFields? {done entries : Entries Node} {room : Nat}
    (fields : List (String × Json)) (hroom : Json.fieldsNesting fields + 2 ≤ room)
    (hdone : (directory done).Fits room) (h : entriesOfFields? done fields = some entries) :
    (directory entries).Fits room := by
  match fields with
  | [] =>
      cases h
      exact hdone
  | (name, value) :: rest =>
      rw [Json.fieldsNesting] at hroom
      rw [entriesOfFields?] at h
      split at h
      · rename_i node hnode
        have hput : (directory (done.put name node)).Fits room :=
          hdone.put (fits_of_ofJson? value hnode) (by omega)
        exact fits_of_entriesOfFields? rest (by omega) hput h
      · cases h
end

/-! ## Reading the saved form -/

/-- After a field comes another one, or the object ends. -/
theorem of_rootFields?_rest {fuel : Nat} {kept root : Option Json} {text rest : List Char}
    (h : (match text with
      | ',' :: more => rootFields? fuel kept more
      | '\x7d' :: more => some (kept, more)
      | _ => none) = some (root, rest)) :
    (∃ more, rootFields? fuel kept more = some (root, rest)) ∨ root = kept := by
  split at h
  · exact .inl ⟨_, h⟩
  · cases h
    exact .inr rfl
  · cases h

theorem nesting_le_of_rootFields? {fuel : Nat} {found root : Option Json} {text rest : List Char}
    (hfound : ∀ value ∈ found, value.nesting ≤ nestingLimit - 1)
    (h : rootFields? fuel found text = some (root, rest)) :
    ∀ value ∈ root, value.nesting ≤ nestingLimit - 1 := by
  induction fuel generalizing found text with
  | zero => cases h
  | succ fuel ih =>
      obtain ⟨⟨name, inner⟩, _, hinner⟩ := Option.bind_eq_some_iff.mp h
      dsimp only at hinner
      -- only a field for the root keeps its value; any other is skimmed
      split at hinner
      · split at hinner
        · cases hinner
        · obtain ⟨⟨kept, later⟩, hkept, hlater⟩ := Option.bind_eq_some_iff.mp hinner
          obtain ⟨⟨value, after⟩, hvalue, heq⟩ := Option.map_eq_some_iff.mp hkept
          cases heq
          have hlow : ∀ other ∈ some value, other.nesting ≤ nestingLimit - 1 := by
            simpa using Json.nesting_le_of_readValue hvalue
          obtain ⟨more, hmore⟩ | rfl := of_rootFields?_rest hlater
          · exact ih hlow hmore
          · exact hlow
      · obtain ⟨⟨kept, later⟩, hkept, hlater⟩ := Option.bind_eq_some_iff.mp hinner
        obtain ⟨after, _, heq⟩ := Option.map_eq_some_iff.mp hkept
        cases heq
        obtain ⟨more, hmore⟩ | rfl := of_rootFields?_rest hlater
        · exact ih hfound hmore
        · exact hfound

theorem nesting_le_of_rootValue? {text rest : List Char} {root : Json}
    (h : rootValue? text = some (root, rest)) : root.nesting ≤ nestingLimit - 1 := by
  unfold rootValue? at h
  split at h
  · obtain ⟨⟨found, later⟩, hfields, hfound⟩ := Option.bind_eq_some_iff.mp h
    obtain ⟨value, hvalue, heq⟩ := Option.bind_eq_some_iff.mp hfound
    cases heq
    exact nesting_le_of_rootFields? (by simp) hfields root hvalue
  · obtain ⟨⟨value, later⟩, hvalue, hclose⟩ := Option.bind_eq_some_iff.mp h
    dsimp only at hclose
    split at hclose
    · cases hclose
      exact Json.nesting_le_of_readValue hvalue
    · cases hclose
  · cases h

/-- Any text that is read gives a directory, and one that can be saved and read again. -/
theorem fits_of_ofBlob? {text : String} {root : Node} (h : ofBlob? text = some root) :
    root.isDirectory ∧ root.Fits (nestingLimit - 1) := by
  obtain ⟨⟨value, rest⟩, hvalue, hnode⟩ := Option.bind_eq_some_iff.mp h
  obtain ⟨node, hread, haccepted⟩ := Option.bind_eq_some_iff.mp hnode
  split at haccepted
  · rename_i hwhole
    cases haccepted
    rw [Bool.and_eq_true] at hwhole
    exact ⟨hwhole.2, (fits_of_ofJson? value hread).mono (nesting_le_of_rootValue? hvalue)⟩
  · cases haccepted

theorem ofBlob?_blob_of_fits {root : Node} (hdirectory : root.isDirectory)
    (h : root.Fits (nestingLimit - 1)) : ofBlob? root.blob = some root := by
  have hlow : 2 * root.height + 1 ≤ nestingLimit - 1 := h.low
  have hnesting : (Json.object [("/", root.toJson)]).nesting ≤ nestingLimit := by
    rw [nesting_saved]
    omega
  rw [ofBlob?_blob h.unique hdirectory, if_pos hnesting]

end VirtualShell.Node
