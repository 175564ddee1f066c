import VirtualShell.Proofs.Shell.Restore
import VirtualShell.Proofs.State.Saved

/-! # The store of a shell

Over a reliable store each part of the state that is saved is either the one that a start read from the
store, which still holds what it held, or the one that the store holds now.
-/

namespace VirtualShell

/-- Since `origin` the value under the key was not saved, and is the one that is read from what `origin`
held there; or the store holds the value. -/
def Store.Mirrors {α : Type} (origin store : Store) (key : String) (read : Option String → Option α)
    (encode : α → String) (value : α) : Prop :=
  store.read? key = origin.read? key ∧ read (origin.read? key) = some value ∨
    store.read? key = some (encode value)

/-! The keys under which the parts of the state are saved. -/

namespace Save

theorem key_files_mem (root : Node) : (files root).key ∈ keys := by simp [files, keys]

theorem key_aliases_mem (table : AliasTable) : (aliases table).key ∈ keys := by simp [aliases, keys]

theorem key_history_mem (lines : List String) : (history lines).key ∈ keys := by simp [history, keys]

end Save

namespace Session

def startAliases (saved : Option String) : AliasTable := (saved.bind AliasTable.ofSaved?).getD .empty

def startHistory (saved : Option String) : List String := (saved.bind historyOfSaved?).getD []

theorem startAliases_saved (table : AliasTable) : startAliases (some table.toJson.render) = table := by
  unfold startAliases
  rw [Option.bind_some, AliasTable.ofSaved?_toJson]
  rfl

theorem startHistory_saved (history : List String) :
    startHistory (some (historyJson history).render) = history := by
  unfold startHistory
  rw [Option.bind_some, historyOfSaved?_historyJson]
  rfl

end Session

namespace Store.Mirrors

variable {α : Type} {origin store : Store} {key other text : String} {read : Option String → Option α}
  {encode : α → String} {value : α}

/-- What is read from the store is the value, if the value is read back from the form in which it is saved. -/
theorem read_eq (h : Mirrors origin store key read encode value)
    (hencode : read (some (encode value)) = some value) : read (store.read? key) = some value := by
  rcases h with ⟨hsame, hread⟩ | hsaved
  · rw [hsame]
    exact hread
  · rw [hsaved]
    exact hencode

theorem untouched (h : read (origin.read? key) = some value) : Mirrors origin origin key read encode value :=
  .inl ⟨rfl, h⟩

theorem carryOut_self {save : Save} (hsave : save = ⟨key, encode value⟩) (hreliable : store.Reliable)
    (hkey : key ∈ Save.keys) : Mirrors origin (store.carryOut save) key read encode value := by
  subst hsave
  have hread : (store.carryOut ⟨key, encode value⟩).read? key = some (encode value) :=
    hreliable.read?_carryOut_self hkey
  exact .inr hread

theorem carryOut_of_ne (h : Mirrors origin store key read encode value) (hreliable : store.Reliable)
    (hkeys : other ∈ Save.keys ∧ key ∈ Save.keys ∧ other ≠ key) :
    Mirrors origin (store.carryOut ⟨other, text⟩) key read encode value := by
  have hsave : (Save.mk other text).key ∈ Save.keys := hkeys.1
  unfold Mirrors
  rw [hreliable.read?_carryOut hsave hkeys.2.1, if_neg hkeys.2.2]
  exact h

end Store.Mirrors

namespace State

structure MirroredSince (origin : Store) (state : State) : Prop where
  reliable : state.volume.store.Reliable
  persistent : state.session.persistent = true
  files : Store.Mirrors origin state.volume.store Save.filesKey (·.bind Node.ofBlob?) Node.blob
    state.volume.root
  aliases : Store.Mirrors origin state.volume.store Save.aliasesKey (some ∘ Session.startAliases)
    (·.toJson.render) state.session.aliases
  history : Store.Mirrors origin state.volume.store Save.historyKey (some ∘ Session.startHistory)
    (Session.historyJson · |>.render) state.session.history

namespace MirroredSince

variable {origin : Store} {state : State}

theorem setRoot (h : MirroredSince origin state) (root : Node) :
    MirroredSince origin { state with volume := state.volume.saved root } where
  reliable := h.reliable.carryOut (Save.key_files_mem root)
  persistent := h.persistent
  files := .carryOut_self rfl h.reliable (by decide)
  aliases := h.aliases.carryOut_of_ne h.reliable (by decide)
  history := h.history.carryOut_of_ne h.reliable (by decide)

theorem setAliases (h : MirroredSince origin state) (table : AliasTable) :
    MirroredSince origin (state.setAliases table) := by
  unfold State.setAliases request
  rw [if_pos h.persistent]
  constructor
  · exact h.reliable.carryOut (Save.key_aliases_mem table)
  · exact h.persistent
  · exact h.files.carryOut_of_ne h.reliable (by decide)
  · exact .carryOut_self rfl h.reliable (by decide)
  · exact h.history.carryOut_of_ne h.reliable (by decide)

theorem setHistory (h : MirroredSince origin state) (lines : List String) :
    MirroredSince origin (state.setHistory lines) := by
  unfold State.setHistory request
  rw [if_pos h.persistent]
  constructor
  · exact h.reliable.carryOut (Save.key_history_mem lines)
  · exact h.persistent
  · exact h.files.carryOut_of_ne h.reliable (by decide)
  · exact h.aliases.carryOut_of_ne h.reliable (by decide)
  · exact .carryOut_self rfl h.reliable (by decide)

theorem step {part : Part} {before after : State} (hstep : Step part before after)
    (h : MirroredSince origin before) : MirroredSince origin after := by
  cases hstep with
  | edit change offered done =>
      rcases Change.of_edit_eq_ok done with ⟨_, rfl⟩ | ⟨_, root, rfl⟩
      · exact h
      · exact h.setRoot root
  | enter target found => exact ⟨h.reliable, h.persistent, h.files, h.aliases, h.history⟩
  | setAlias name value => exact h.setAliases _
  | dropAlias name => exact h.setAliases _
  | clearAliases => exact h.setAliases _
  | clearHistory => exact h.setHistory _

/-- A tree that cannot be read is saved as soon as another one is put in its place. -/
theorem opened (options : Options) (now : Moment) {store : Store} (hreliable : store.Reliable) :
    MirroredSince store (opened options now store) := by
  rw [opened_eq]
  cases hroot : (store.read? Save.filesKey).bind Node.ofBlob? with
  | some root =>
      have hvolume : Volume.restore store = ⟨⟨root, store⟩, []⟩ := by rw [Volume.restore, hroot]
      rw [hvolume]
      exact ⟨hreliable, rfl, .untouched hroot, .untouched rfl, .untouched rfl⟩
  | none =>
      have hvolume : Volume.restore store = Volume.saved .seed ⟨⟨.seed, store⟩, []⟩ := by
        rw [Volume.restore, hroot]
        rfl
      have haliases : Store.Mirrors store store Save.aliasesKey (some ∘ Session.startAliases)
        (·.toJson.render) _ := .untouched rfl
      have hhistory : Store.Mirrors store store Save.historyKey (some ∘ Session.startHistory)
        (Session.historyJson · |>.render) _ := .untouched rfl
      rw [hvolume]
      exact ⟨hreliable.carryOut (Save.key_files_mem _), rfl, .carryOut_self rfl hreliable (by decide),
        haliases.carryOut_of_ne hreliable (by decide), hhistory.carryOut_of_ne hreliable (by decide)⟩

end MirroredSince

end State

namespace Shell

theorem mirroredSince_invariant (origin : Store) : Invariant (State.MirroredSince origin) where
  step hstep h := h.step hstep
  stand _ h := ⟨h.reliable, h.persistent, h.files, h.aliases, h.history⟩
  record _ h := h.setHistory _
  settle h := ⟨h.reliable, h.persistent, h.files, h.aliases, h.history⟩
  atTime _ h := ⟨h.reliable, h.persistent, h.files, h.aliases, h.history⟩

theorem mirroredSince_run (options : Options) (now : Moment) {store : Store} (hreliable : store.Reliable)
    (inputs : List (Moment × String)) :
    State.MirroredSince store ((start options now store).1.run inputs).state := by
  have inv := mirroredSince_invariant store
  exact inv.run (inv.start options now (.opened options now hreliable)) inputs

/-! What a later start would read. -/

variable {store : Store}

/-- The tree is read back unless it is too deep. -/
theorem read_files_run (options : Options) (now : Moment) (hreliable : store.Reliable)
    (inputs : List (Moment × String)) :
    let shell := (start options now store).1.run inputs
    let root := shell.state.volume.root
    let read := (shell.store.read? Save.filesKey).bind Node.ofBlob?
    (read = some root ∧ ∀ names node, root.lookup names = some node → names.length ≤ 62) ∨
      read = none ∧ ∃ names node, root.lookup names = some node ∧ 62 < names.length := by
  intro shell root read
  obtain ⟨hdirectory, hunique⟩ := unique_run options now store inputs
  have hblob : Node.ofBlob? root.blob =
      if (Json.object [("/", root.toJson)]).nesting ≤ 127 then some root else none :=
    Node.ofBlob?_blob hunique hdirectory
  have hlimit := Volume.nesting_saved_le_iff hunique
  rcases (mirroredSince_run options now hreliable inputs).files with ⟨hsame, hfound⟩ | hsaved
  · obtain ⟨text, _, htext⟩ := Option.bind_eq_some_iff.mp hfound
    have hfits := (Node.fits_of_ofBlob? htext).2
    rw [Node.ofBlob?_blob_of_fits hdirectory hfits] at hblob
    refine .inl ⟨(congrArg (·.bind Node.ofBlob?) hsame).trans hfound, hlimit.mp ?_⟩
    by_contra hdeep
    have hnone := hblob.trans (if_neg hdeep)
    cases hnone
  · have hread : read = Node.ofBlob? root.blob := congrArg (·.bind Node.ofBlob?) hsaved
    rw [hread, hblob]
    by_cases hnesting : (Json.object [("/", root.toJson)]).nesting ≤ 127
    · exact .inl ⟨if_pos hnesting, hlimit.mp hnesting⟩
    · refine .inr ⟨if_neg hnesting, ?_⟩
      simpa using mt hlimit.mpr hnesting

/-- A shell that starts would find the aliases and the history of a shell that runs in its store. -/
theorem read_session_run (options : Options) (now : Moment) (hreliable : store.Reliable)
    (inputs : List (Moment × String)) :
    let shell := (start options now store).1.run inputs
    Session.startAliases (shell.store.read? Save.aliasesKey) = shell.state.session.aliases ∧
      Session.startHistory (shell.store.read? Save.historyKey) = shell.state.session.history := by
  intro shell
  have hshell := mirroredSince_run options now hreliable inputs
  have htable := hshell.aliases.read_eq (congrArg some (Session.startAliases_saved _))
  have hlines := hshell.history.read_eq (congrArg some (Session.startHistory_saved _))
  exact ⟨Option.some.inj htable, Option.some.inj hlines⟩

/-- After a start over a reliable store and any lines of input, each of the three keys either holds what
it held before the start, and the part of the state is still the one that was read from it; or it holds
the part of the state as it is now.  Where nothing can be read, the aliases and the history are empty.
Either way the state as it is now is read back from the keys, except for a tree in which a node is more
than 62 levels below the root: that tree cannot be read. -/
theorem store_mirrors (options : Options) (now : Moment) {store : Store} (hreliable : store.Reliable)
    (inputs : List (Moment × String)) :
    let shell := (start options now store).1.run inputs
    let root := shell.state.volume.root
    let session := shell.state.session
    let before := store.read?
    let after := shell.store.read?
    (after Save.filesKey = before Save.filesKey ∧ (before Save.filesKey).bind Node.ofBlob? = some root ∨
      after Save.filesKey = some root.blob) ∧
    (after Save.aliasesKey = before Save.aliasesKey ∧
        session.aliases = ((before Save.aliasesKey).bind AliasTable.ofSaved?).getD .empty ∨
      after Save.aliasesKey = some session.aliases.toJson.render) ∧
    (after Save.historyKey = before Save.historyKey ∧
        session.history = ((before Save.historyKey).bind Session.historyOfSaved?).getD [] ∨
      after Save.historyKey = some (Session.historyJson session.history).render) ∧
    ((after Save.filesKey).bind Node.ofBlob? = some root ∧
        (∀ names node, root.lookup names = some node → names.length ≤ 62) ∨
      (after Save.filesKey).bind Node.ofBlob? = none ∧
        ∃ names node, root.lookup names = some node ∧ 62 < names.length) ∧
    ((after Save.aliasesKey).bind AliasTable.ofSaved?).getD .empty = session.aliases ∧
    ((after Save.historyKey).bind Session.historyOfSaved?).getD [] = session.history := by
  intro shell root session before after
  have hshell := mirroredSince_run options now hreliable inputs
  refine ⟨hshell.files, hshell.aliases.imp_left ?_, hshell.history.imp_left ?_,
    read_files_run options now hreliable inputs, read_session_run options now hreliable inputs⟩
  · exact fun ⟨hsame, hread⟩ => ⟨hsame, (Option.some.inj hread).symm⟩
  · exact fun ⟨hsame, hread⟩ => ⟨hsame, (Option.some.inj hread).symm⟩

/-- A line that defines an alias replaces the table in the store. -/
theorem store_mirrors_listed :
    ∃ store : Store, store.Reliable ∧ store.read? Save.aliasesKey = some "\x7b\"ll\":\"ls\"\x7d" ∧
      let shell := (start {} .epoch store).1.run [(.epoch, "alias a=b")]
      let after := shell.store.read? Save.aliasesKey
      shell.state.session.aliases = .ofList [("a", "b"), ("ll", "ls")] ∧
        after = some "\x7b\"a\":\"b\",\"ll\":\"ls\"\x7d" ∧
        (after.bind AliasTable.ofSaved?).getD .empty = shell.state.session.aliases := by
  let store : Store := .memory ⟨[(Save.aliasesKey, "\x7b\"ll\":\"ls\"\x7d")], [], []⟩
  have hreliable : store.Reliable := Store.reliable_memory (by decide)
  have hfound : store.read? Save.aliasesKey = some "\x7b\"ll\":\"ls\"\x7d" := rfl
  have hread : AliasTable.ofSaved? "\x7b\"ll\":\"ls\"\x7d" = some (.ofList [("ll", "ls")]) := by
    decide +kernel
  let shell := (start {} .epoch store).1.run [(.epoch, "alias a=b")]
  have hchanged : shell.state.session.aliases = .ofList [("a", "b"), ("ll", "ls")] := by decide +kernel
  obtain ⟨_, haliases, _, _, hback, _⟩ := store_mirrors {} .epoch hreliable [(.epoch, "alias a=b")]
  refine ⟨store, hreliable, hfound, hchanged, ?_, hback⟩
  rcases haliases with ⟨_, hsame⟩ | hsaved
  · -- the table is not the one that was found at the start
    rw [hfound, Option.bind_some, hread, Option.getD_some] at hsame
    exact absurd (hchanged.symm.trans hsame) (by decide +kernel)
  · rw [hsaved]
    exact congrArg (fun table : AliasTable => some table.toJson.render) hchanged |>.trans (by decide +kernel)

end Shell

end VirtualShell
