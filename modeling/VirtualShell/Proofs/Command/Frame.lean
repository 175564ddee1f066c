import VirtualShell.Proofs.Run.Steps
import VirtualShell.Proofs.Storage.Stores

/-! # What a command leaves alone

A command changes nothing outside its own part of the state, and what it saves is of that part too.  So the
saved tree in the store stays as it is unless the command is one of those that change the tree.
-/

namespace VirtualShell

def Part.key? : Part → Option String
  | tree => some Save.filesKey
  | directory => none
  | aliases => some Save.aliasesKey
  | history => some Save.historyKey

theorem Part.mem_keys_of_key? {part : Part} {key : String} (h : part.key? = some key) :
    key ∈ Save.keys := by
  cases part with
  | directory => cases h
  | tree => cases h; decide
  | aliases => cases h; decide
  | history => cases h; decide

theorem Part.eq_tree_of_key? {part : Part} (h : part.key? = some Save.filesKey) : part = tree := by
  cases part with
  | tree => rfl
  | directory => cases h
  | aliases => exact absurd h (by decide)
  | history => exact absurd h (by decide)

namespace State

/-- Between two states nothing but the listed parts has changed. -/
structure Frame (parts : List Part) (before after : State) : Prop where
  tree : Part.tree ∉ parts → after.volume.root = before.volume.root
  directory : Part.directory ∉ parts →
    after.session.current = before.session.current ∧ after.session.previous = before.session.previous
  aliases : Part.aliases ∉ parts → after.session.aliases = before.session.aliases
  history : Part.history ∉ parts → after.session.history = before.session.history
  identity : after.session.user = before.session.user ∧ after.session.host = before.session.host ∧
    after.session.home = before.session.home
  saves : ∃ saves, after.volume.journal = before.volume.journal ++ saves ∧
    after.volume.store = before.volume.store.carryOutAll saves ∧
    ∀ save ∈ saves, ∃ part ∈ parts, part.key? = some save.key

theorem exists_saves_request (save : Save) (state : State) :
    ∃ saves, (state.request save).volume.journal = state.volume.journal ++ saves ∧
      (state.request save).volume.store = state.volume.store.carryOutAll saves ∧
      ∀ asked ∈ saves, asked = save := by
  unfold request
  split
  · exact ⟨[save], rfl, rfl, by simp⟩
  · exact ⟨[], by simp, rfl, by simp⟩

namespace Frame

variable {parts more : List Part} {before mid after : State}

theorem refl (parts : List Part) (state : State) : Frame parts state state where
  tree _ := rfl
  directory _ := ⟨rfl, rfl⟩
  aliases _ := rfl
  history _ := rfl
  identity := ⟨rfl, rfl, rfl⟩
  saves := ⟨[], by simp, rfl, by simp⟩

theorem trans (first : Frame parts before mid) (second : Frame parts mid after) :
    Frame parts before after where
  tree h := (second.tree h).trans (first.tree h)
  directory h :=
    ⟨(second.directory h).1.trans (first.directory h).1, (second.directory h).2.trans (first.directory h).2⟩
  aliases h := (second.aliases h).trans (first.aliases h)
  history h := (second.history h).trans (first.history h)
  identity := by
    obtain ⟨huser, hhost, hhome⟩ := first.identity
    rw [← huser, ← hhost, ← hhome]
    exact second.identity
  saves := by
    obtain ⟨saves, hsaves, hstore, hparts⟩ := first.saves
    obtain ⟨later, hlater, hlast, hothers⟩ := second.saves
    refine ⟨saves ++ later, ?_, ?_, List.forall_mem_append.mpr ⟨hparts, hothers⟩⟩
    · rw [hlater, hsaves, List.append_assoc]
    · rw [hlast, hstore, Store.carryOutAll_append]

theorem mono (hmore : parts ⊆ more) (h : Frame parts before after) : Frame more before after where
  tree hpart := h.tree fun hmem => hpart (hmore hmem)
  directory hpart := h.directory fun hmem => hpart (hmore hmem)
  aliases hpart := h.aliases fun hmem => hpart (hmore hmem)
  history hpart := h.history fun hmem => hpart (hmore hmem)
  identity := h.identity
  saves := by
    obtain ⟨saves, hsaves, hstore, hparts⟩ := h.saves
    refine ⟨saves, hsaves, hstore, fun save hsave => ?_⟩
    obtain ⟨part, hpart, hkey⟩ := hparts save hsave
    exact ⟨part, hmore hpart, hkey⟩

theorem get_filesKey (h : Frame parts before after) (htree : Part.tree ∉ parts) :
    ∃ saves, after.volume.journal = before.volume.journal ++ saves ∧
      after.volume.store = before.volume.store.carryOutAll saves ∧
      ∀ store : Store, (store.carryOutAll saves).get Save.filesKey = store.get Save.filesKey := by
  obtain ⟨saves, hsaves, hstore, hparts⟩ := h.saves
  refine ⟨saves, hsaves, hstore, fun store => Store.get_carryOutAll_ne (by decide) fun save hsave => ?_⟩
  obtain ⟨part, hpart, hkey⟩ := hparts save hsave
  refine ⟨Part.mem_keys_of_key? hkey, fun hfiles => ?_⟩
  rw [hfiles] at hkey
  exact htree (Part.eq_tree_of_key? hkey ▸ hpart)

theorem setAliases (table : AliasTable) (state : State) :
    Frame [.aliases] state (state.setAliases table) where
  tree _ := root_setAliases table state
  directory _ := by simp
  aliases h := absurd List.mem_cons_self h
  history _ := by simp
  identity := by simp
  saves := by
    obtain ⟨saves, hsaves, hstore, hasked⟩ := exists_saves_request (.aliases table)
      { state with session := { state.session with aliases := table } }
    refine ⟨saves, hsaves, hstore, fun save hsave => ⟨.aliases, List.mem_cons_self, ?_⟩⟩
    rw [hasked save hsave]
    rfl

theorem setHistory (lines : List String) (state : State) :
    Frame [.history] state (state.setHistory lines) where
  tree _ := root_setHistory lines state
  directory _ := by simp
  aliases _ := by simp
  history h := absurd List.mem_cons_self h
  identity := by simp
  saves := by
    obtain ⟨saves, hsaves, hstore, hasked⟩ := exists_saves_request (.history lines)
      { state with session := { state.session with history := lines } }
    refine ⟨saves, hsaves, hstore, fun save hsave => ⟨.history, List.mem_cons_self, ?_⟩⟩
    rw [hasked save hsave]
    rfl

end Frame

theorem Step.frame {part : Part} {before after : State} (h : Step part before after) :
    Frame [part] before after := by
  cases h with
  | edit change offered done =>
      rcases Change.of_edit_eq_ok done with ⟨_, rfl⟩ | ⟨_, root, rfl⟩
      · exact .refl _ _
      · exact {
          tree := fun h => absurd List.mem_cons_self h
          directory := fun _ => ⟨rfl, rfl⟩
          aliases := fun _ => rfl
          history := fun _ => rfl
          identity := ⟨rfl, rfl, rfl⟩
          saves := ⟨[.files root], rfl, rfl, by simp [Part.key?, Save.files]⟩ }
  | enter target found =>
      exact {
        tree := fun _ => rfl
        directory := fun h => absurd List.mem_cons_self h
        aliases := fun _ => rfl
        history := fun _ => rfl
        identity := ⟨rfl, rfl, rfl⟩
        saves := ⟨[], by simp, rfl, by simp⟩ }
  | setAlias name value => exact .setAliases _ _
  | dropAlias name => exact .setAliases _ _
  | clearAliases => exact .setAliases _ _
  | clearHistory => exact .setHistory _ _

theorem Steps.frame {parts : List Part} {before after : State} (h : Steps parts before after) :
    Frame parts before after := by
  induction h with
  | refl => exact .refl _ _
  | tail _ hlast ih =>
      obtain ⟨part, hpart, hone⟩ := hlast
      exact ih.trans (hone.frame.mono (by simpa using hpart))

end State

/-- Asking for the usage of a command does not run it. -/
theorem Interpreter.dispatch_help (registry : Registry) {line : String}
    (h : "--help" ∈ (Input.words line).tail) (state : State) : (dispatch registry line state).2 = state := by
  unfold dispatch
  cases hwords : Input.words line with
  | nil => rfl
  | cons first arguments =>
      rw [hwords, List.tail_cons] at h
      dsimp only
      cases registry.get? (Text.lowerOf first) with
      | none => rfl
      | some program =>
          dsimp only
          rw [if_pos (List.contains_iff_mem.mpr h)]
          rfl

namespace Builtin

theorem tree_mem_parts_iff {builtin : Builtin} :
    Part.tree ∈ builtin.parts ↔ builtin ∈ [touch, rm, mkdir, rmdir, cp, mv] := by
  cases builtin <;> decide

theorem directory_mem_parts_iff {builtin : Builtin} : Part.directory ∈ builtin.parts ↔ builtin = cd := by
  cases builtin <;> decide

theorem aliases_mem_parts_iff {builtin : Builtin} :
    Part.aliases ∈ builtin.parts ↔ builtin ∈ [aliases, unalias] := by
  cases builtin <;> decide

theorem history_mem_parts_iff {builtin : Builtin} : Part.history ∈ builtin.parts ↔ builtin = history := by
  cases builtin <;> decide

/-- Whether a command succeeds or fails, only six commands change the tree or what the store keeps of it,
only the change of the directory changes the working and the previous directory, only two commands
change the aliases and only one the history.  None changes who the user is.  A line that asks for the
usage of its command changes nothing. -/
theorem run_frame (registry : Registry) (builtin : Builtin) (given : List String) (state : State) :
    let after := (builtin.run registry given).after state
    (builtin ∉ [touch, rm, mkdir, rmdir, cp, mv] →
      after.volume.root = state.volume.root ∧
        after.volume.store.get Save.filesKey = state.volume.store.get Save.filesKey ∧
        ∃ saves, after.volume.journal = state.volume.journal ++ saves ∧
          after.volume.store = state.volume.store.carryOutAll saves ∧
          ∀ store : Store, (store.carryOutAll saves).get Save.filesKey = store.get Save.filesKey) ∧
    (builtin ≠ cd → after.session.current = state.session.current ∧
      after.session.previous = state.session.previous) ∧
    (builtin ∉ [aliases, unalias] → after.session.aliases = state.session.aliases) ∧
    (builtin ≠ history → after.session.history = state.session.history) ∧
    (after.session.user = state.session.user ∧ after.session.host = state.session.host ∧
      after.session.home = state.session.home) ∧
    ∀ line, "--help" ∈ (Input.words line).tail → (Interpreter.dispatch registry line state).2 = state := by
  intro after
  have hframe : State.Frame builtin.parts state after := ((run_within registry builtin given).steps state).frame
  refine ⟨fun htree => ?_, fun hcd => ?_, fun haliases => ?_, fun hhistory => ?_, hframe.identity, ?_⟩
  · rw [← tree_mem_parts_iff] at htree
    obtain ⟨saves, hsaves, hstore, hget⟩ := hframe.get_filesKey htree
    exact ⟨hframe.tree htree, hstore ▸ hget state.volume.store, saves, hsaves, hstore, hget⟩
  · exact hframe.directory (mt directory_mem_parts_iff.mp hcd)
  · exact hframe.aliases (mt aliases_mem_parts_iff.mp haliases)
  · exact hframe.history (mt history_mem_parts_iff.mp hhistory)
  · exact fun line hhelp => Interpreter.dispatch_help registry hhelp state

end Builtin

end VirtualShell
