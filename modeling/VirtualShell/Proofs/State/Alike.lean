import VirtualShell.Proofs.Files.Changes
import VirtualShell.State.Action

/-! # States over different stores

Every save is written to the store at once, where it may fail.  Two runs of an action that differ in
nothing but the stores below them answer the same, and still differ in nothing but the stores when they
end, whichever of the saves failed in either.
-/

namespace VirtualShell

namespace State

def withStore (store : Store) (state : State) : State := { state with volume := { state.volume with store } }

/-- The states differ at most in their stores. -/
def Alike (first second : State) : Prop := ∃ store, second = first.withStore store

namespace Alike

variable {first second : State}

theorem session_eq (h : Alike first second) : second.session = first.session := by
  obtain ⟨store, rfl⟩ := h
  rfl

theorem root_eq (h : Alike first second) : second.volume.root = first.volume.root := by
  obtain ⟨store, rfl⟩ := h
  rfl

theorem journal_eq (h : Alike first second) : second.volume.journal = first.volume.journal := by
  obtain ⟨store, rfl⟩ := h
  rfl

/-- A save may fail in one of the stores and succeed in the other. -/
theorem request (h : Alike first second) (save : Save) : Alike (first.request save) (second.request save) := by
  unfold State.request
  rw [h.session_eq]
  obtain ⟨store, rfl⟩ := h
  by_cases hpersistent : first.session.persistent
  · rw [if_pos hpersistent, if_pos hpersistent]
    exact ⟨store.carryOut save, rfl⟩
  · rw [if_neg hpersistent, if_neg hpersistent]
    exact ⟨store, rfl⟩

theorem setAliases (h : Alike first second) (table : AliasTable) :
    Alike (first.setAliases table) (second.setAliases table) := by
  obtain ⟨store, rfl⟩ := h
  exact request ⟨store, rfl⟩ (.aliases table)

theorem setHistory (h : Alike first second) (lines : List String) :
    Alike (first.setHistory lines) (second.setHistory lines) := by
  obtain ⟨store, rfl⟩ := h
  exact request ⟨store, rfl⟩ (.history lines)

theorem setAlias (h : Alike first second) (name value : String) :
    Alike (first.setAlias name value) (second.setAlias name value) := by
  unfold State.setAlias
  rw [h.session_eq]
  exact h.setAliases _

theorem record (h : Alike first second) (line : String) : Alike (first.record line) (second.record line) := by
  unfold State.record
  rw [h.session_eq]
  exact h.setHistory _

end Alike

end State

namespace Action

variable {α β : Type}

/-- Two runs that answer the same and leave states that are alike. -/
inductive Agree : EStateM.Result ShellError State α → EStateM.Result ShellError State α → Prop
  | ok (a : α) {first second : State} (left : first.Alike second) : Agree (.ok a first) (.ok a second)
  | error (e : ShellError) {first second : State} (left : first.Alike second) :
      Agree (.error e first) (.error e second)

def Blind (action : Action α) : Prop :=
  ∀ ⦃first second : State⦄, first.Alike second → Agree (action first) (action second)

theorem blind_pure (a : α) : (pure a : Action α).Blind := fun _ _ h => .ok a h

theorem blind_throw (e : ShellError) : (throw e : Action α).Blind := fun _ _ h => .error e h

theorem blind_root : root.Blind := by
  rintro first _ ⟨store, rfl⟩
  exact .ok _ ⟨store, rfl⟩

theorem blind_session : session.Blind := by
  rintro first _ ⟨store, rfl⟩
  exact .ok _ ⟨store, rfl⟩

theorem blind_directory : directory.Blind := by
  rintro first _ ⟨store, rfl⟩
  exact .ok _ ⟨store, rfl⟩

theorem blind_moment : moment.Blind := by
  rintro first _ ⟨store, rfl⟩
  exact .ok _ ⟨store, rfl⟩

theorem blind_bind {first : Action α} {next : α → Action β} (hfirst : first.Blind)
    (hnext : ∀ a, (next a).Blind) : (first >>= next).Blind := by
  intro one other halike
  have hran := hfirst halike
  change Agree (EStateM.bind first next one) (EStateM.bind first next other)
  unfold EStateM.bind
  generalize first one = left at hran ⊢
  generalize first other = right at hran ⊢
  cases hran with
  | ok a halike => exact hnext a halike
  | error e halike => exact .error e halike

/-- An edit that is decided by the tree is decided alike over both stores. -/
theorem blind_edit (command operand : String) {change : Edit Unit} (h : change.Decided) :
    (edit command operand change).Blind := by
  rintro first _ ⟨store, rfl⟩
  obtain ⟨verdict, hverdict⟩ := h first.volume.root
  unfold edit
  rw [hverdict first.volume rfl, hverdict (first.withStore store).volume rfl]
  cases verdict with
  | error e => exact .error _ ⟨store, rfl⟩
  | ok changed =>
      cases changed with
      | none => exact .ok () ⟨store, rfl⟩
      | some root => exact .ok () ⟨store.carryOut (.files root), rfl⟩

theorem blind_modify {change : State → State}
    (h : ∀ first second, State.Alike first second → State.Alike (change first) (change second)) :
    (modify change : Action Unit).Blind := fun first second halike => .ok () (h first second halike)

end Action

end VirtualShell
