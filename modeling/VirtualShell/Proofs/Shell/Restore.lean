import VirtualShell.Proofs.Files.Naming
import VirtualShell.Proofs.Shell.Runs
import VirtualShell.Proofs.Storage.Stores
import VirtualShell.Proofs.Tree.Decoded

/-! # Restoring a saved tree

What a volume is restored to when the store holds the saved form of a tree: that tree, or the seed tree
if the saved form is nested too deep.  What it is restored to from any other text can be saved and
restored again.
-/

namespace VirtualShell

namespace Node

theorem seed_unique : seed.Unique := by
  simp [seed, empty, Named.directory_iff, Named.file]

theorem seed_fits : seed.Fits (nestingLimit - 1) := ⟨seed_unique, by decide⟩

end Node

namespace Volume

/-- A saved tree is nested too deep as soon as a node is more than 62 levels below the root. -/
theorem nesting_saved_le_iff {root : Node} (hroot : root.Unique) :
    (Json.object [("/", root.toJson)]).nesting ≤ 127 ↔
      ∀ names node, root.lookup names = some node → names.length ≤ 62 := by
  rw [← Node.height_le_iff hroot, Node.nesting_saved]
  omega

theorem restore_of_read? {store : Store} {text : String} (h : store.read? Save.filesKey = some text) :
    restore store =
      match Node.ofBlob? text with
      | some root => ⟨⟨root, store⟩, []⟩
      | none => ⟨⟨.seed, store.carryOut (.files .seed)⟩, [.files .seed]⟩ := by
  cases hblob : Node.ofBlob? text with
  | some root => simp only [restore, h, Option.bind_some, hblob]
  | none =>
      simp only [restore, h, Option.bind_some, hblob]
      rfl

theorem restore_eq_ite {root : Node} (hroot : root.Unique) (hdirectory : root.isDirectory) {store : Store}
    (hstored : store.read? Save.filesKey = some (Save.files root).text) :
    restore store =
      if (Json.object [("/", root.toJson)]).nesting ≤ 127 then ⟨⟨root, store⟩, []⟩
      else ⟨⟨.seed, store.carryOut (.files .seed)⟩, [.files .seed]⟩ := by
  have hread : Node.ofBlob? (Save.files root).text =
      if (Json.object [("/", root.toJson)]).nesting ≤ 127 then some root else none :=
    Node.ofBlob?_blob hroot hdirectory
  rw [restore_of_read? hstored, hread]
  by_cases hlimit : (Json.object [("/", root.toJson)]).nesting ≤ 127
  · rw [if_pos hlimit, if_pos hlimit]
  · rw [if_neg hlimit, if_neg hlimit]

/-- The tree that was saved comes back unless it is too deep, and then the seed tree replaces it. -/
theorem restore_saved {root : Node} (hroot : root.Unique) (hdirectory : root.isDirectory) {store : Store}
    (hstored : store.read? Save.filesKey = some (Save.files root).text) :
    (restore store =
      if (Json.object [("/", root.toJson)]).nesting ≤ 127 then ⟨⟨root, store⟩, []⟩
      else ⟨⟨.seed, store.carryOut (.files .seed)⟩, [.files .seed]⟩) ∧
    ((Json.object [("/", root.toJson)]).nesting ≤ 127 ↔
      ∀ names node, root.lookup names = some node → names.length ≤ 62) :=
  ⟨restore_eq_ite hroot hdirectory hstored, nesting_saved_le_iff hroot⟩

theorem restore_saved_quoted :
    ∃ (root : Node) (store : Store), root.Unique ∧ root.isDirectory ∧
      store.read? Save.filesKey = some (Save.files root).text ∧ restore store = ⟨⟨root, store⟩, []⟩ := by
  let root : Node := .directory [("a\"\\\n", .file "\x00é\""), ("", .directory [("b", .file "")])]
  let store : Store := .memory ⟨[(Save.filesKey, (Save.files root).text)], [], []⟩
  have hroot : root.Unique := by
    simp [root, Node.Named.directory_iff, Node.Named.file]
  have hstored : store.read? Save.filesKey = some (Save.files root).text := rfl
  refine ⟨root, store, hroot, rfl, hstored, ?_⟩
  rw [(restore_saved hroot rfl hstored).1]
  rfl

/-! ## Any stored text -/

theorem fits_restore (store : Store) :
    (restore store).root.isDirectory ∧ (restore store).root.Fits (Node.nestingLimit - 1) := by
  unfold restore
  split
  · rename_i root hroot
    obtain ⟨text, _, hblob⟩ := Option.bind_eq_some_iff.mp hroot
    exact Node.fits_of_ofBlob? hblob
  · exact ⟨rfl, Node.seed_fits⟩

/-- A text that can be read gives its tree and no save; any other text gives the seed tree, which is saved
once.  Either way the tree is a directory in which no name is listed twice, and from any store
in which it is saved later the same tree is restored, without a save. -/
theorem restore_stable {store : Store} {text : String} (hstored : store.read? Save.filesKey = some text) :
    (∀ root, Node.ofBlob? text = some root → restore store = ⟨⟨root, store⟩, []⟩) ∧
    (Node.ofBlob? text = none → restore store = ⟨⟨.seed, store.carryOut (.files .seed)⟩, [.files .seed]⟩) ∧
    (restore store).root.isDirectory ∧ (restore store).root.Unique ∧
    ∀ before after : Store,
      before.put Save.filesKey (Save.files (restore store).root).text = .ok after →
      (∃ found, after.get Save.filesKey = .ok found) →
      restore after = ⟨⟨(restore store).root, after⟩, []⟩ := by
  have hread := restore_of_read? hstored
  obtain ⟨hdirectory, hfits⟩ := fits_restore store
  refine ⟨fun root hroot => ?_, fun hrefused => ?_, hdirectory, hfits.unique, ?_⟩
  · rw [hread, hroot]
  · rw [hread, hrefused]
  · intro before after hput hfound
    have hkey : '/' ∉ Save.filesKey.toList := Save.slash_not_mem_of_mem_keys List.mem_cons_self
    have hagain : Node.ofBlob? (Save.files (restore store).root).text = some (restore store).root :=
      Node.ofBlob?_blob_of_fits hdirectory hfits
    rw [restore_of_read? (Store.read?_put hkey hput hfound), hagain]

/-- A saved text with a field too many, a name that is listed twice and nodes in short forms. -/
def looseText : String :=
  "\x7b\"x\":[[]],\"/\":\x7b\"children\":\x7b\"a\":[\"file\",\"1\"],\"b\":[0],\"a\":[1]\x7d," ++
    "\"type\":\"directory\"\x7d\x7d"

theorem restore_stable_loose :
    ∃ store after : Store, store.read? Save.filesKey = some looseText ∧
      restore store = ⟨⟨.directory [("a", .empty), ("b", .file "")], store⟩, []⟩ ∧
      store.put Save.filesKey (Save.files (restore store).root).text = .ok after ∧
      restore after = ⟨⟨(restore store).root, after⟩, []⟩ := by
  let store : Store := .memory ⟨[(Save.filesKey, looseText)], [], []⟩
  have hstored : store.read? Save.filesKey = some looseText := rfl
  have hloose : Node.ofBlob? looseText = some (.directory [("a", .empty), ("b", .file "")]) := by
    decide +kernel
  obtain ⟨haccepted, _, _, _, hagain⟩ := restore_stable hstored
  have hrestored := haccepted _ hloose
  have hput : store.put Save.filesKey (Save.files (restore store).root).text = .ok (.memory
      ⟨[(Save.filesKey, (Save.files (restore store).root).text)], [], []⟩) := Store.put_memory rfl _
  exact ⟨store, _, hstored, hrestored, hput, hagain store _ hput ⟨_, rfl⟩⟩

end Volume

/-! ## The start of a shell -/

/-- Restoring the tree may save it, which leaves the other keys alone. -/
theorem Volume.read?_restore (store : Store) {key : String} (hkey : key ∈ Save.keys)
    (hother : Save.filesKey ≠ key) : (restore store).store.read? key = store.read? key := by
  unfold restore
  split
  · rfl
  · have hget : (store.carryOut (.files .seed)).get key = store.get key :=
      Store.get_carryOut_ne (by decide) (Save.slash_not_mem_of_mem_keys hkey) hother
    change (store.carryOut (.files .seed)).read? key = store.read? key
    rw [Store.read?, hget, ← Store.read?]

theorem State.opened_eq (options : Options) (now : Moment) (store : Store) :
    opened options now store =
      ⟨(Session.start options.user options.host options.home true).restore store, Volume.restore store, now⟩ := by
  have haliases : (Volume.restore store).store.read? Save.aliasesKey = store.read? Save.aliasesKey :=
    Volume.read?_restore store (by decide) (by decide)
  have hhistory : (Volume.restore store).store.read? Save.historyKey = store.read? Save.historyKey :=
    Volume.read?_restore store (by decide) (by decide)
  simp only [opened, Session.restore, haliases, hhistory]

namespace Shell

theorem unique_invariant :
    Invariant fun state => state.volume.root.isDirectory ∧ state.volume.root.Unique where
  step hstep h := State.step_named (fun _ _ => trivial) hstep h
  stand _ h := h
  record line h := by rwa [State.record, State.root_setHistory]
  settle h := h
  atTime _ h := h

theorem unique_run (options : Options) (now : Moment) (store : Store) (inputs : List (Moment × String)) :
    let root := ((start options now store).1.run inputs).state.volume.root
    root.isDirectory ∧ root.Unique := by
  obtain ⟨hdirectory, hfits⟩ := Volume.fits_restore store
  exact unique_invariant.run (unique_invariant.start options now ⟨hdirectory, hfits.unique⟩) inputs

end Shell

end VirtualShell
