import VirtualShell.Proofs.Shell.Mirror
import VirtualShell.Proofs.Shell.Start
import VirtualShell.Proofs.State.Saved

/-! # What a shell remembers

The aliases and the history that a shell has when it stops are those with which the next shell over the
same store starts.  Aliases that are defined at the start of that shell only fill the gaps.
-/

namespace VirtualShell

namespace State

theorem session_addAlias (state : State) (definition : String × String) :
    (state.addAlias definition).session =
      { state.session with aliases := state.session.aliases.offer definition } := by
  unfold addAlias AliasTable.offer
  by_cases hknown : (state.session.aliases.value? definition.1).isSome
  · rw [if_pos hknown, if_pos hknown]
  · rw [if_neg hknown, if_neg hknown, setAlias, session_setAliases]

theorem session_foldl_addAlias (state : State) (definitions : List (String × String)) :
    (definitions.foldl addAlias state).session =
      { state.session with aliases := definitions.foldl AliasTable.offer state.session.aliases } := by
  induction definitions generalizing state with
  | nil => rfl
  | cons definition definitions ih => rw [List.foldl_cons, ih, session_addAlias, List.foldl_cons]

/-- Only the directories of the session change when it is stood in its first working directory. -/
theorem remembered_standIn (home start : String) (state : State) :
    (state.standIn home start).session.aliases = state.session.aliases ∧
      (state.standIn home start).session.history = state.session.history := by
  unfold standIn
  split
  · exact ⟨rfl, rfl⟩
  · exact ⟨rfl, rfl⟩

/-- The aliases and the history of a start are those in the store, with the aliases offered to it. -/
theorem remembered_restore (options : Options) (now : Moment) (store : Store) :
    (restore options now store).session.aliases =
        options.aliases.foldl AliasTable.offer (Session.startAliases (store.read? Save.aliasesKey)) ∧
      (restore options now store).session.history =
        Session.startHistory (store.read? Save.historyKey) := by
  unfold restore
  dsimp only
  rw [(remembered_standIn _ _ _).1, (remembered_standIn _ _ _).2, session_ensureDirectories, Table.foldl,
    session_foldl_addAlias, opened_eq]
  exact ⟨rfl, rfl⟩

end State

namespace Shell

variable {store : Store}

/-- A shell that starts over the store that another shell leaves has the history of that shell, and the
aliases of that shell.  Of the aliases that are defined at the start it has those whose names in lower
case that shell did not know, each with the value of the first one in the order of the names. -/
theorem start_remembers (options again : Options) (now later : Moment) (hreliable : store.Reliable)
    (inputs : List (Moment × String)) :
    let left := (start options now store).1.run inputs
    let next := (start again later left.store).1
    let before := left.state.session.aliases
    next.state.session.history = left.state.session.history ∧
      ∀ name value, next.state.session.aliases.get? name = some value ↔
        before.get? name = some value ∨
          before.get? name = none ∧ ∃ written, (written, value) ∈ again.aliases.entries ∧
            Text.lowerOf written = name ∧
            ∀ other ∈ again.aliases.names, Text.lowerOf other = name → written ≤ other := by
  intro left next before
  have hfound : Session.startAliases (left.store.read? Save.aliasesKey) = before ∧
      Session.startHistory (left.store.read? Save.historyKey) = left.state.session.history :=
    read_session_run options now hreliable inputs
  obtain ⟨hoffered, hkept⟩ := State.remembered_restore again later left.store
  rw [hfound.1] at hoffered
  rw [hfound.2] at hkept
  have htable : next.state.session.aliases = again.aliases.foldl AliasTable.offer before := hoffered
  refine ⟨hkept, fun name value => ?_⟩
  have hfirst (written : String) : again.aliases.entries.find? (Text.lowerOf ·.1 = name) =
      some (written, value) ↔ _ :=
    Entries.find?_eq_some_iff again.aliases.sorted (Text.lowerOf · = name)
  rw [htable, Table.foldl, AliasTable.get?_foldl_offer]
  cases hknown : before.get? name with
  | some old => simp
  | none =>
      rw [Option.none_or, Option.map_eq_some_iff]
      constructor
      · rintro ⟨⟨written, first⟩, hfound, rfl⟩
        exact .inr ⟨rfl, written, (hfirst written).mp hfound⟩
      · rintro (hnever | ⟨_, written, hleast⟩)
        · cases hnever
        · exact ⟨(written, value), (hfirst written).mpr hleast, rfl⟩

/-- Three of the aliases that are offered have the same name in lower case. -/
theorem start_remembers_first_spelling :
    ∃ (store : Store) (again : Options), store.Reliable ∧ again.aliases.names = ["LL", "QQ", "Qq", "qq"] ∧
      let left := (start {} .epoch store).1.run [(.epoch, "alias g=grep")]
      let next := (start again .epoch left.store).1
      next.state.session.history = left.state.session.history ∧
        next.state.session.aliases.get? "ll" = some "ls" ∧
        next.state.session.aliases.get? "qq" = some "1" := by
  let store : Store := .memory ⟨[(Save.aliasesKey, "\x7b\"ll\":\"ls\"\x7d")], [], []⟩
  let again : Options := { aliases := .ofList [("qq", "3"), ("Qq", "2"), ("QQ", "1"), ("LL", "x")] }
  have hreliable : store.Reliable := Store.reliable_memory (by decide)
  have hnames : again.aliases.names = ["LL", "QQ", "Qq", "qq"] := by decide
  let left := (start {} .epoch store).1.run [(.epoch, "alias g=grep")]
  have hknown : left.state.session.aliases.get? "ll" = some "ls" := by decide +kernel
  have hnew : left.state.session.aliases.get? "qq" = none := by decide +kernel
  obtain ⟨hhistory, hiff⟩ := start_remembers {} again .epoch .epoch hreliable [(.epoch, "alias g=grep")]
  refine ⟨store, again, hreliable, hnames, hhistory, (hiff "ll" "ls").mpr (.inl hknown), ?_⟩
  have hlower : Text.lowerOf "QQ" = "qq" := by decide +kernel
  have hleast : ∀ other ∈ again.aliases.names, Text.lowerOf other = "qq" → "QQ" ≤ other := by
    decide +kernel
  have hoffered : ("QQ", "1") ∈ again.aliases.entries := by decide
  exact (hiff "qq" "1").mpr (.inr ⟨hnew, "QQ", hoffered, hlower, hleast⟩)

end Shell

end VirtualShell
