import Mathlib.Logic.Relation
import VirtualShell.Command.Editing
import VirtualShell.Proofs.State.Alike

/-! # What an action can do

The few steps by which actions change the state, sorted by the part of the state that they change.
Anything that every step keeps is kept by every action.
-/

namespace VirtualShell

inductive Part
  | tree
  | directory
  | aliases
  | history
deriving DecidableEq, Repr

/-- A change that a command may make of the tree.  An entry is renamed in place only if the old and the
new name are plain and nothing is found under the new one. -/
def Change.Offered (root : Node) : Change → Prop
  | rename current old new =>
    Command.isPlainName old ∧ Command.isPlainName new ∧ root.exists? (Path.resolve current new) = false
  | _ => True

namespace State

@[simp] theorem root_request (save : Save) (state : State) :
    (state.request save).volume.root = state.volume.root := by
  unfold request
  split <;> rfl

@[simp] theorem root_setAliases (table : AliasTable) (state : State) :
    (state.setAliases table).volume.root = state.volume.root := by
  unfold setAliases
  rw [root_request]

@[simp] theorem root_setHistory (lines : List String) (state : State) :
    (state.setHistory lines).volume.root = state.volume.root := by
  unfold setHistory
  rw [root_request]

@[simp] theorem session_request (save : Save) (state : State) :
    (state.request save).session = state.session := by
  unfold request
  split <;> rfl

@[simp] theorem session_setAliases (table : AliasTable) (state : State) :
    (state.setAliases table).session = { state.session with aliases := table } := by
  unfold setAliases
  rw [session_request]

@[simp] theorem session_setHistory (lines : List String) (state : State) :
    (state.setHistory lines).session = { state.session with history := lines } := by
  unfold setHistory
  rw [session_request]

/-- One change of a part of the state. -/
inductive Step : Part → State → State → Prop
  | edit {state : State} {volume : Volume} (change : Change) (offered : change.Offered state.volume.root)
      (done : change.edit state.volume = .ok () volume) : Step .tree state { state with volume }
  | enter {state : State} {path : String} (target : String)
      (found : state.volume.root.changePath state.session.current target = .ok path) :
      Step .directory state { state with session := state.session.changeDirectory path }
  | setAlias (state : State) (name value : String) : Step .aliases state (state.setAlias name value)
  | dropAlias (state : State) (name : String) :
      Step .aliases state (state.setAliases (state.session.aliases.erase (Text.lowerOf name)))
  | clearAliases (state : State) : Step .aliases state (state.setAliases .empty)
  | clearHistory (state : State) : Step .history state (state.setHistory [])

/-- Any number of changes of the listed parts. -/
def Steps (parts : List Part) : State → State → Prop :=
  Relation.ReflTransGen fun before after => ∃ part ∈ parts, Step part before after

namespace Steps

variable {parts more : List Part} {before mid after : State}

theorem refl (parts : List Part) (state : State) : Steps parts state state :=
  Relation.ReflTransGen.refl

theorem trans (first : Steps parts before mid) (second : Steps parts mid after) :
    Steps parts before after := Relation.ReflTransGen.trans first second

theorem single {part : Part} (hpart : part ∈ parts) (h : Step part before after) :
    Steps parts before after := Relation.ReflTransGen.single ⟨part, hpart, h⟩

theorem mono (hmore : parts ⊆ more) (h : Steps parts before after) : Steps more before after :=
  Relation.ReflTransGen.mono (fun _ _ ⟨part, hpart, hstep⟩ => ⟨part, hmore hpart, hstep⟩) _ _ h

/-- What every step keeps is kept by all of them. -/
theorem preserves {kept : State → Prop} (h : Steps parts before after)
    (hstep : ∀ part ∈ parts, ∀ before after, Step part before after → kept before → kept after)
    (hbefore : kept before) : kept after := by
  induction h with
  | refl => exact hbefore
  | tail _ hlast ih =>
      obtain ⟨part, hpart, hone⟩ := hlast
      exact hstep part hpart _ _ hone ih

end Steps

end State

namespace Action

variable {α β : Type} {parts more : List Part}

/-- The state in which an action ends, even if it fails. -/
def after (action : Action α) (state : State) : State :=
  match action state with
  | .ok _ state => state
  | .error _ state => state

/-- From every state the action only takes steps of the listed parts, and it does not see the store. -/
structure Within (parts : List Part) (action : Action α) : Prop where
  steps (state : State) : State.Steps parts state (action.after state)
  blind : action.Blind

/-! ## Actions that only look -/

theorem session_bind (next : Session → Action β) (state : State) :
    (session >>= next) state = next state.session state := rfl

theorem root_bind (next : Node → Action β) (state : State) :
    (root >>= next) state = next state.volume.root state := rfl

theorem directory_bind (next : String → Action β) (state : State) :
    (directory >>= next) state = next state.session.current state := rfl

theorem expect_bind {answer : Except FileError α} {value : α} (h : answer = .ok value)
    (command operand : String) (next : α → Action β) (state : State) :
    (expect command operand answer >>= next) state = next value state := by
  rw [h]
  rfl

theorem within_pure (a : α) : (pure a : Action α).Within parts := ⟨.refl parts, blind_pure a⟩

theorem within_throw (e : ShellError) : (throw e : Action α).Within parts := ⟨.refl parts, blind_throw e⟩

theorem within_misuse (message : String) : (misuse message : Action α).Within parts :=
  within_throw _

theorem within_root : root.Within parts := ⟨.refl parts, blind_root⟩

theorem within_session : session.Within parts := ⟨.refl parts, blind_session⟩

theorem within_directory : directory.Within parts := ⟨.refl parts, blind_directory⟩

theorem within_moment : moment.Within parts := ⟨.refl parts, blind_moment⟩

theorem within_expect (command operand : String) (answer : Except FileError α) :
    (expect command operand answer).Within parts := by
  cases answer with
  | error e => exact within_throw _
  | ok value => exact within_pure value

/-! ## One action after the other -/

theorem within_bind {first : Action α} {next : α → Action β} (hfirst : first.Within parts)
    (hnext : ∀ a, (next a).Within parts) : (first >>= next).Within parts := by
  refine ⟨fun state => ?_, blind_bind hfirst.blind fun a => (hnext a).blind⟩
  have hstate := hfirst.steps state
  unfold after at hstate ⊢
  change State.Steps parts state (match EStateM.bind first next state with
    | .ok _ state => state
    | .error _ state => state)
  unfold EStateM.bind
  cases hrun : first state with
  | error e mid =>
      rw [hrun] at hstate
      exact hstate
  | ok a mid =>
      rw [hrun] at hstate
      exact hstate.trans ((hnext a).steps mid)

theorem after_bind_pure (action : Action α) (b : α → β) (state : State) :
    (action >>= fun a => pure (b a)).after state = action.after state := by
  unfold after
  change (match EStateM.bind action (fun a => pure (b a)) state with
    | .ok _ state => state
    | .error _ state => state) = _
  unfold EStateM.bind
  cases action state <;> rfl

theorem within_ite {c : Prop} [Decidable c] {yes no : Action α} (hyes : yes.Within parts)
    (hno : no.Within parts) : (if c then yes else no).Within parts := by
  split
  · exact hyes
  · exact hno

/-- A check that comes first adds nothing but its own steps. -/
theorem within_guard {c : Prop} [Decidable c] {check : Action PUnit} {next : Action α}
    (hcheck : check.Within parts) (hnext : next.Within parts) :
    (if c then check >>= fun _ => next else next).Within parts :=
  within_ite (within_bind hcheck fun _ => hnext) hnext

theorem within_forM {items : List α} {run : α → Action PUnit} (h : ∀ item, (run item).Within parts) :
    (items.forM run).Within parts := by
  induction items with
  | nil => exact within_pure _
  | cons item items ih => exact within_bind (h item) fun _ => ih

theorem within_foldlM {items : List α} {run : β → α → Action β}
    (h : ∀ b item, (run b item).Within parts) (start : β) : (items.foldlM run start).Within parts := by
  induction items generalizing start with
  | nil => exact within_pure _
  | cons item items ih =>
      rw [List.foldlM_cons]
      exact within_bind (h start item) fun b => ih b

theorem Within.mono {action : Action α} (hmore : parts ⊆ more) (h : action.Within parts) :
    action.Within more := ⟨fun state => (h.steps state).mono hmore, h.blind⟩

/-! ## Actions that change something -/

/-- An edit on behalf of a command makes one of the changes or none. -/
theorem steps_edit (command operand : String) {change : Edit Unit} {state : State}
    (h : change state.volume = .ok () state.volume ∨
      ∃ made : Change, made.Offered state.volume.root ∧ change state.volume = made.edit state.volume) :
    State.Steps [.tree] state ((edit command operand change).after state) := by
  unfold after edit
  rcases h with hnothing | ⟨made, hoffered, hmade⟩
  · rw [hnothing]
    exact .refl _ _
  · cases hrun : made.edit state.volume with
    | error e volume =>
        rw [hmade, hrun, Change.edit_atomic made _ _ _ hrun]
        exact .refl _ _
    | ok u volume =>
        rw [hmade, hrun]
        exact .single List.mem_cons_self (.edit made hoffered hrun)

theorem within_edit (command operand : String) (made : Change) (h : ∀ root, made.Offered root) :
    (edit command operand made.edit).Within [.tree] where
  steps state := steps_edit command operand (.inr ⟨made, h state.volume.root, rfl⟩)
  blind := blind_edit command operand made.edit_decided

theorem within_setAlias (name value : String) : (setAlias name value).Within [.aliases] where
  steps state := .single List.mem_cons_self (.setAlias state name value)
  blind := blind_modify fun _ _ h => h.setAlias name value

theorem within_clearAliases : clearAliases.Within [.aliases] where
  steps state := .single List.mem_cons_self (.clearAliases state)
  blind := blind_modify fun _ _ h => h.setAliases .empty

theorem within_clearHistory : clearHistory.Within [.history] where
  steps state := .single List.mem_cons_self (.clearHistory state)
  blind := blind_modify fun _ _ h => h.setHistory []

theorem removeAlias_apply (name : String) (state : State) :
    removeAlias name state =
      if (state.session.aliases.value? name).isSome then
        .ok true (state.setAliases (state.session.aliases.erase (Text.lowerOf name)))
      else .ok false state := by
  change (if (state.session.aliases.value? name).isSome = true then _ else _ : Action Bool) state = _
  split <;> rfl

theorem within_removeAlias (name : String) : (removeAlias name).Within [.aliases] where
  steps state := by
    unfold after
    rw [removeAlias_apply]
    by_cases hlisted : (state.session.aliases.value? name).isSome
    · rw [if_pos hlisted]
      exact .single List.mem_cons_self (.dropAlias state name)
    · rw [if_neg hlisted]
      exact .refl _ _
  blind first second halike := by
    rw [removeAlias_apply, removeAlias_apply, halike.session_eq]
    split
    · exact .ok true (halike.setAliases _)
    · exact .ok false halike

end Action

end VirtualShell
