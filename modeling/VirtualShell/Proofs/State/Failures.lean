import VirtualShell.State.Action

/-! # How actions end

What holds when an action ends, and which errors it can fail with in the state that it leaves.  A sequence
of actions fails as one of its parts does, and a later part only runs on what the earlier ones gave.
-/

namespace VirtualShell.Action

variable {α β : Type}

/-- Started where `before` holds, the action ends where `after` holds, or it fails with an error that is
allowed in the state that it leaves. -/
def Ends (before after : State → Prop) (allowed : ShellError → State → Prop) (action : Action α) : Prop :=
  ∀ state, before state → match action state with
    | .ok _ left => after left
    | .error e left => allowed e left

theorem bind_of_eq_ok {first : Action α} {next : α → Action β} {state left : State} {a : α}
    (h : first state = .ok a left) : (first >>= next) state = next a left := by
  change EStateM.bind first next state = next a left
  unfold EStateM.bind
  rw [h]

section Ends

variable {inv before mid after : State → Prop} {allowed : ShellError → State → Prop}

theorem Ends.error {action : Action α} {state left : State} {e : ShellError}
    (h : action.Ends before after allowed) (hstate : before state) (hrun : action state = .error e left) :
    allowed e left := by
  have hran := h state hstate
  rw [hrun] at hran
  exact hran

theorem Ends.imp {start last : State → Prop} {action : Action α}
    (hbefore : ∀ state, start state → before state)
    (hafter : ∀ state, after state → last state) (h : action.Ends before after allowed) :
    action.Ends start last allowed := by
  intro state hstate
  have hran := h state (hbefore state hstate)
  cases hrun : action state with
  | error e left =>
      rw [hrun] at hran
      exact hran
  | ok a left =>
      rw [hrun] at hran
      exact hafter left hran

theorem ends_pure (a : α) : (pure a : Action α).Ends inv inv allowed := fun _ hstate => hstate

theorem ends_throw {e : ShellError} (he : ∀ state, before state → allowed e state) :
    (throw e : Action α).Ends before after allowed := he

theorem ends_bind {first : Action α} {next : α → Action β} (hfirst : first.Ends before mid allowed)
    (hnext : ∀ a, (next a).Ends mid after allowed) : (first >>= next).Ends before after allowed := by
  intro state hstate
  have hran := hfirst state hstate
  change match EStateM.bind first next state with
    | .ok _ left => after left
    | .error e left => allowed e left
  unfold EStateM.bind
  cases hrun : first state with
  | error e left =>
      rw [hrun] at hran
      exact hran
  | ok a left =>
      rw [hrun] at hran
      exact hnext a left hran

/-! An action that looks at a known state goes on with what is there. -/

theorem ends_root_bind {state : State} {next : Node → Action β}
    (hnext : (next state.volume.root).Ends (· = state) after allowed) :
    (root >>= next).Ends (· = state) after allowed := by
  rintro start rfl
  exact hnext start rfl

theorem ends_directory_bind {state : State} {next : String → Action β}
    (hnext : (next state.session.current).Ends (· = state) after allowed) :
    (directory >>= next).Ends (· = state) after allowed := by
  rintro start rfl
  exact hnext start rfl

theorem ends_expect {command operand : String} {answer : Except FileError α}
    (hrefused : ∀ e, answer = .error e → ∀ state, inv state → allowed (.files command operand e) state) :
    (expect command operand answer).Ends inv inv allowed := by
  cases answer with
  | error e => exact ends_throw (hrefused e rfl)
  | ok a => exact ends_pure a

/-- After an answer was expected the action goes on with that answer only. -/
theorem ends_expect_bind {command operand : String} {answer : Except FileError α} {next : α → Action β}
    (hrefused : ∀ e, answer = .error e → ∀ state, before state → allowed (.files command operand e) state)
    (hnext : ∀ a, answer = .ok a → (next a).Ends before after allowed) :
    (expect command operand answer >>= next).Ends before after allowed := by
  cases answer with
  | error e =>
      intro state hstate
      exact hrefused e rfl state hstate
  | ok a => exact hnext a rfl

theorem ends_guard {c : Prop} [Decidable c] {check : Action PUnit} {next : Action α}
    (hcheck : c → check.Ends before before allowed) (hnext : next.Ends before after allowed) :
    (if c then check >>= fun _ => next else next).Ends before after allowed := by
  split
  · rename_i hc
    exact ends_bind (hcheck hc) fun _ => hnext
  · exact hnext

theorem ends_forM {items : List α} {run : α → Action PUnit} (h : ∀ item, (run item).Ends inv inv allowed) :
    (items.forM run).Ends inv inv allowed := by
  induction items with
  | nil => exact ends_pure _
  | cons item items ih => exact ends_bind (h item) fun _ => ih

theorem ends_foldlM {items : List α} {run : β → α → Action β}
    (h : ∀ b item, (run b item).Ends inv inv allowed) (start : β) :
    (items.foldlM run start).Ends inv inv allowed := by
  induction items generalizing start with
  | nil => exact ends_pure _
  | cons item items ih =>
      rw [List.foldlM_cons]
      exact ends_bind (h start item) fun b => ih b

/-- An edit on behalf of a command ends as the edit does. -/
theorem ends_edit {command operand : String} {change : Edit Unit}
    (hdone : ∀ state volume, before state → change state.volume = .ok () volume →
      after { state with volume })
    (hrefused : ∀ state e volume, before state → change state.volume = .error e volume →
      allowed (.files command operand e) { state with volume }) :
    (edit command operand change).Ends before after allowed := by
  intro state hstate
  unfold edit
  cases hrun : change state.volume with
  | error e volume => exact hrefused state e volume hstate hrun
  | ok u volume => exact hdone state volume hstate hrun

end Ends

/-- When an edit was to be followed by an answer, only the edit can have failed. -/
theorem of_edit_bind_pure_eq_error {command operand : String} {change : Edit Unit} {a : α} {state left : State}
    {e : ShellError} (h : (edit command operand change >>= fun _ => pure a) state = .error e left) :
    ∃ cause volume, change state.volume = .error cause volume ∧ e = .files command operand cause ∧
      left = { state with volume } := by
  change EStateM.bind (edit command operand change) (fun _ => pure a) state = .error e left at h
  unfold EStateM.bind edit at h
  cases hrun : change state.volume with
  | error cause volume =>
      rw [hrun] at h
      cases h
      exact ⟨cause, volume, rfl, rfl, rfl⟩
  | ok u volume =>
      rw [hrun] at h
      cases h

/-! ## Errors alone -/

variable {allowed : ShellError → Prop}

def FailsWith (allowed : ShellError → Prop) (action : Action α) : Prop :=
  ∀ state e after, action state = .error e after → allowed e

theorem failsWith_iff_ends {action : Action α} :
    action.FailsWith allowed ↔ action.Ends (fun _ => True) (fun _ => True) fun e _ => allowed e := by
  constructor
  · intro h state _
    cases hrun : action state with
    | error e left => exact h state e left hrun
    | ok a left => trivial
  · intro h state e left hrun
    have hran := h state trivial
    rw [hrun] at hran
    exact hran

theorem failsWith_pure (a : α) : (pure a : Action α).FailsWith allowed :=
  failsWith_iff_ends.mpr (ends_pure a)

theorem failsWith_throw {e : ShellError} (he : allowed e) : (throw e : Action α).FailsWith allowed :=
  failsWith_iff_ends.mpr (ends_throw fun _ _ => he)

theorem failsWith_of_eq_ok {action : Action α} (h : ∀ state, ∃ a left, action state = .ok a left) :
    action.FailsWith allowed := by
  intro state e after hrun
  obtain ⟨a, left, hok⟩ := h state
  cases hok.symm.trans hrun

theorem failsWith_root : root.FailsWith allowed := failsWith_of_eq_ok fun _ => ⟨_, _, rfl⟩

theorem failsWith_directory : directory.FailsWith allowed := failsWith_of_eq_ok fun _ => ⟨_, _, rfl⟩

theorem failsWith_session : session.FailsWith allowed := failsWith_of_eq_ok fun _ => ⟨_, _, rfl⟩

theorem failsWith_moment : moment.FailsWith allowed := failsWith_of_eq_ok fun _ => ⟨_, _, rfl⟩

theorem failsWith_modify (change : State → State) : (modify change : Action Unit).FailsWith allowed :=
  failsWith_of_eq_ok fun _ => ⟨_, _, rfl⟩

theorem failsWith_bind {first : Action α} {next : α → Action β} (hfirst : first.FailsWith allowed)
    (hnext : ∀ a, (next a).FailsWith allowed) : (first >>= next).FailsWith allowed :=
  failsWith_iff_ends.mpr (ends_bind (failsWith_iff_ends.mp hfirst) fun a => failsWith_iff_ends.mp (hnext a))

theorem failsWith_foldlM {items : List α} {run : β → α → Action β}
    (h : ∀ b item, (run b item).FailsWith allowed) (start : β) : (items.foldlM run start).FailsWith allowed :=
  failsWith_iff_ends.mpr (ends_foldlM (fun b item => failsWith_iff_ends.mp (h b item)) start)

theorem failsWith_guard {c : Prop} [Decidable c] {check : Action PUnit} {next : Action α}
    (hcheck : check.FailsWith allowed) (hnext : next.FailsWith allowed) :
    (if c then check >>= fun _ => next else next).FailsWith allowed :=
  failsWith_iff_ends.mpr (ends_guard (fun _ => failsWith_iff_ends.mp hcheck) (failsWith_iff_ends.mp hnext))

/-- After an answer was expected the action goes on with that answer only. -/
theorem failsWith_expect_bind {command operand : String} {answer : Except FileError α}
    {next : α → Action β} (hrefused : ∀ e, allowed (.files command operand e))
    (hnext : ∀ a, answer = .ok a → (next a).FailsWith allowed) :
    (expect command operand answer >>= next).FailsWith allowed :=
  failsWith_iff_ends.mpr (ends_expect_bind (fun e _ _ _ => hrefused e) fun a ha =>
    failsWith_iff_ends.mp (hnext a ha))

end VirtualShell.Action
