import VirtualShell.Files.Volume
import VirtualShell.Proofs.Paths.Segments
import VirtualShell.Proofs.Storage.Disk

/-! # Stores that keep what they are given

A text that was put under a key is what a store returns for that key, and the other keys keep theirs.
A store is reliable if this never fails for the keys of a shell.
-/

namespace VirtualShell

namespace DirectoryStore

theorem isName_file {key : String} (h : '/' ∉ key.toList) : Path.IsName (key ++ ".json") := by
  constructor
  · intro hempty
    have htext := congrArg String.toList hempty
    simp [String.toList_append] at htext
  · simp [String.toList_append, h]

theorem steps_path (store : DirectoryStore) {key : String} (h : '/' ∉ key.toList) :
    Disk.steps (store.path key) = Disk.steps store.directory ++ [key ++ ".json"] := by
  have hname := isName_file h
  have hsingle := Path.segments_of_isName hname
  change Path.segments (store.path key) = Path.segments store.directory ++ [key ++ ".json"]
  unfold path
  dsimp only
  split
  · rename_i hplain
    rcases hplain with hslash | hempty
    · exact absurd (List.mem_of_mem_head? hslash) hname.2
    · rw [hempty, hsingle]
      rfl
  split
  · rename_i hslash
    obtain ⟨front, hfront⟩ := List.getLast?_eq_some_iff.mp hslash
    have hdirectory : store.directory = String.ofList front ++ "/" ++ "" := by
      apply String.toList_injective
      simpa [String.toList_append] using hfront
    have hpath : store.directory ++ (key ++ ".json") = String.ofList front ++ "/" ++ (key ++ ".json") := by
      rw [hdirectory, String.append_empty]
    rw [hpath, Path.segments_append_slash, hsingle, hdirectory, Path.segments_append_slash]
    simp [Path.segments, Text.pieces_nil]
  · rw [Path.segments_append_slash, hsingle]

theorem origin_append {first : String} (h : first ≠ "") (second : String) :
    Disk.origin (first ++ second) = Disk.origin first := by
  obtain ⟨c, text, htext⟩ := List.exists_cons_of_ne_nil (mt String.toList_eq_nil_iff.mp h)
  simp [Disk.origin, String.toList_append, htext]

theorem origin_path (store : DirectoryStore) {key : String} (h : '/' ∉ key.toList) :
    Disk.origin (store.path key) = Disk.origin store.directory := by
  have hname := isName_file h
  have hhead : (key ++ ".json").toList.head? ≠ some '/' := fun hslash =>
    hname.2 (List.mem_of_mem_head? hslash)
  unfold path
  dsimp only
  split
  · rename_i hplain
    rw [hplain.resolve_left hhead, Disk.origin, if_neg hhead]
    rfl
  · rename_i hplain
    have hdirectory : store.directory ≠ "" := fun hempty => hplain (.inr hempty)
    split
    · exact origin_append hdirectory _
    · rw [String.append_assoc, origin_append hdirectory]

theorem file_ne_of_length_lt {key name : String} (h : name.length < 5) : key ++ ".json" ≠ name := by
  rintro rfl
  have hsuffix : ".json".length = 5 := rfl
  rw [String.length_append, hsuffix] at h
  omega

theorem names_path (store : DirectoryStore) {key : String} (h : '/' ∉ key.toList) :
    Disk.Names (store.path key) (Disk.origin store.directory) (Disk.steps store.directory)
      (key ++ ".json") where
  origin_eq := origin_path store h
  steps_eq := steps_path store h
  ne_dot := file_ne_of_length_lt (by decide)
  ne_dots := file_ne_of_length_lt (by decide)
  ne_slash := file_ne_of_length_lt (by decide)

theorem of_put_eq_ok {store next : DirectoryStore} {key text : String}
    (h : store.put key text = .ok next) :
    ∃ disk, store.disk.writeText (store.path key) text = .ok disk ∧ next = ⟨disk, store.directory⟩ := by
  unfold put at h
  cases hwrite : store.disk.writeText (store.path key) text with
  | error e => simp [hwrite] at h
  | ok disk =>
      rw [hwrite] at h
      cases h
      exact ⟨disk, rfl, rfl⟩

theorem get_of_readText {store : DirectoryStore} {key text : String}
    (h : store.disk.readText (store.path key) = .ok text) : store.get key = .ok (some text) := by
  unfold get
  rw [h]

theorem get_congr {store other : DirectoryStore} {key : String}
    (h : other.disk.readText (other.path key) = store.disk.readText (store.path key)) :
    other.get key = store.get key := by
  unfold get
  rw [h]

end DirectoryStore

theorem MemoryStore.of_put_eq_ok {store next : MemoryStore} {key text : String}
    (h : store.put key text = .ok next) : next = { store with entries := store.entries.put key text } := by
  unfold put at h
  split at h
  · cases h
  · cases h
    rfl

namespace Store

variable {store next : Store} {key other text : String}

/-! ## Reading after writing -/

theorem of_put_memory_eq_ok {store : MemoryStore} (h : (memory store).put key text = .ok next) :
    ∃ after, store.put key text = .ok after ∧ next = memory after := by
  change (store.put key text).map memory = .ok next at h
  cases hput : store.put key text with
  | error e => simp [hput, Except.map] at h
  | ok after =>
      rw [hput] at h
      cases h
      exact ⟨after, rfl, rfl⟩

theorem of_put_directory_eq_ok {store : DirectoryStore} (h : (directory store).put key text = .ok next) :
    ∃ after, store.put key text = .ok after ∧ next = directory after := by
  change (store.put key text).map directory = .ok next at h
  cases hput : store.put key text with
  | error e => simp [hput, Except.map] at h
  | ok after =>
      rw [hput] at h
      cases h
      exact ⟨after, rfl, rfl⟩

theorem get_put (hkey : '/' ∉ key.toList) (h : store.put key text = .ok next) {found : Option String}
    (hread : next.get key = .ok found) : found = some text := by
  cases store with
  | memory store =>
      obtain ⟨after, hput, rfl⟩ := of_put_memory_eq_ok h
      change after.get key = .ok found at hread
      rw [MemoryStore.of_put_eq_ok hput] at hread
      unfold MemoryStore.get at hread
      split at hread
      · cases hread
      · cases hread
        rw [Entries.get?_put, if_pos rfl]
  | directory store =>
      obtain ⟨after, hput, rfl⟩ := of_put_directory_eq_ok h
      obtain ⟨disk, hwrite, rfl⟩ := DirectoryStore.of_put_eq_ok hput
      have htext := Disk.readText_writeText (store.names_path hkey) hwrite
      have hget : (directory ⟨disk, store.directory⟩).get key = .ok (some text) :=
        DirectoryStore.get_of_readText htext
      exact (Except.ok.inj (hget.symm.trans hread)).symm

theorem read?_put (hkey : '/' ∉ key.toList) (h : store.put key text = .ok next)
    (hread : ∃ found, next.get key = .ok found) : next.read? key = some text := by
  obtain ⟨found, hfound⟩ := hread
  rw [read?, hfound]
  exact get_put hkey h hfound

theorem get_put_ne (hkey : '/' ∉ key.toList) (hother : '/' ∉ other.toList) (hne : key ≠ other)
    (h : store.put key text = .ok next) : next.get other = store.get other := by
  cases store with
  | memory store =>
      obtain ⟨after, hput, rfl⟩ := of_put_memory_eq_ok h
      rw [MemoryStore.of_put_eq_ok hput]
      simp only [get, MemoryStore.get, Entries.get?_put, if_neg hne]
  | directory store =>
      obtain ⟨after, hput, rfl⟩ := of_put_directory_eq_ok h
      obtain ⟨disk, hwrite, rfl⟩ := DirectoryStore.of_put_eq_ok hput
      have hfile : other ++ ".json" ≠ key ++ ".json" := by
        intro heq
        have htext := congrArg String.toList heq
        simp only [String.toList_append, List.append_cancel_right_eq] at htext
        exact hne (String.toList_injective htext.symm)
      exact DirectoryStore.get_congr
        (Disk.readText_writeText_ne (store.names_path hkey) (store.names_path hother) hfile hwrite)

/-- A save under one key leaves every other key alone, whether it succeeds or fails. -/
theorem get_carryOut_ne {save : Save} (hsave : '/' ∉ save.key.toList) (hkey : '/' ∉ key.toList)
    (hne : save.key ≠ key) : (store.carryOut save).get key = store.get key := by
  unfold carryOut
  cases hput : store.put save.key save.text with
  | error e => rfl
  | ok next => exact get_put_ne hsave hkey hne hput

end Store

/-! ## Reliable stores -/

def Save.keys : List String := [filesKey, aliasesKey, historyKey]

theorem Save.slash_not_mem_of_mem_keys {key : String} (h : key ∈ keys) : '/' ∉ key.toList := by
  revert key
  decide

namespace Store

theorem carryOutAll_cons (store : Store) (save : Save) (saves : List Save) :
    store.carryOutAll (save :: saves) = (store.carryOut save).carryOutAll saves :=
  List.foldl_cons

theorem carryOutAll_append (store : Store) (saves later : List Save) :
    store.carryOutAll (saves ++ later) = (store.carryOutAll saves).carryOutAll later :=
  List.foldl_append

/-- Saves under other keys of a shell leave a key alone. -/
theorem get_carryOutAll_ne {store : Store} {saves : List Save} {key : String} (hkey : key ∈ Save.keys)
    (hsaves : ∀ save ∈ saves, save.key ∈ Save.keys ∧ save.key ≠ key) :
    (store.carryOutAll saves).get key = store.get key := by
  induction saves generalizing store with
  | nil => rfl
  | cons save saves ih =>
      rw [List.forall_mem_cons] at hsaves
      obtain ⟨⟨hknown, hne⟩, hrest⟩ := hsaves
      rw [carryOutAll_cons, ih hrest]
      exact get_carryOut_ne (Save.slash_not_mem_of_mem_keys hknown) (Save.slash_not_mem_of_mem_keys hkey) hne

/-- Whatever was saved before, no key of a shell fails to be read or written. -/
def Reliable (store : Store) : Prop :=
  ∀ saves : List Save, (∀ save ∈ saves, save.key ∈ Save.keys) → ∀ key ∈ Save.keys,
    (∃ found, (store.carryOutAll saves).get key = .ok found) ∧
      ∀ text, ∃ next, (store.carryOutAll saves).put key text = .ok next

namespace Reliable

variable {store : Store} {save : Save}

theorem carryOut (h : store.Reliable) (hsave : save.key ∈ Save.keys) : (store.carryOut save).Reliable := by
  intro saves hsaves
  exact h (save :: saves) (List.forall_mem_cons.mpr ⟨hsave, hsaves⟩)

theorem put_carryOut (h : store.Reliable) (hsave : save.key ∈ Save.keys) :
    store.put save.key save.text = .ok (store.carryOut save) := by
  obtain ⟨next, hnext⟩ := (h [] (by simp) save.key hsave).2 save.text
  change store.put save.key save.text = .ok next at hnext
  rw [Store.carryOut, hnext]

theorem read?_carryOut_self (h : store.Reliable) (hsave : save.key ∈ Save.keys) :
    (store.carryOut save).read? save.key = some save.text := by
  have hread : ∃ found, (store.carryOut save).get save.key = .ok found :=
    (h.carryOut hsave [] (by simp) save.key hsave).1
  exact read?_put (Save.slash_not_mem_of_mem_keys hsave) (h.put_carryOut hsave) hread

theorem read?_carryOut (h : store.Reliable) (hsave : save.key ∈ Save.keys) {key : String}
    (hkey : key ∈ Save.keys) :
    (store.carryOut save).read? key = if save.key = key then some save.text else store.read? key := by
  split
  · rename_i heq
    subst heq
    exact h.read?_carryOut_self hsave
  · rename_i hne
    have hget : (store.carryOut save).get key = store.get key :=
      get_carryOut_ne (Save.slash_not_mem_of_mem_keys hsave) (Save.slash_not_mem_of_mem_keys hkey) hne
    rw [read?, hget, ← read?]

end Reliable

theorem put_memory {store : MemoryStore} (h : store.badWrites.contains key = false) (text : String) :
    (memory store).put key text =
      .ok (memory ⟨store.entries.put key text, store.badReads, store.badWrites⟩) := by
  change (store.put key text).map memory = _
  rw [MemoryStore.put, h]
  rfl

theorem reliable_memory {store : MemoryStore}
    (h : ∀ key ∈ Save.keys, store.badReads.contains key = false ∧ store.badWrites.contains key = false) :
    (memory store).Reliable := by
  intro saves hsaves
  induction saves generalizing store with
  | nil =>
      intro key hkey
      obtain ⟨hread, hwrite⟩ := h key hkey
      refine ⟨⟨store.entries.get? key, ?_⟩, fun text => ⟨_, put_memory hwrite text⟩⟩
      change store.get key = _
      rw [MemoryStore.get, hread]
      rfl
  | cons save saves ih =>
      rw [List.forall_mem_cons] at hsaves
      have hnext : (memory store).carryOut save =
          memory ⟨store.entries.put save.key save.text, store.badReads, store.badWrites⟩ := by
        rw [carryOut, put_memory (h save.key hsaves.1).2]
      rw [carryOutAll_cons, hnext]
      exact ih h hsaves.2

end Store

end VirtualShell
