import VirtualShell.Command.Run
import VirtualShell.Proofs.State.Steps

/-! # What each command can do

Which part of the state a built-in command may change, if any.  Most commands only look.
-/

namespace VirtualShell

namespace Command

open VirtualShell.Action

variable {parts : List Part}

/-! ## Commands that only look -/

theorem contentOf_within (command file : String) : (contentOf command file).Within parts := by
  unfold contentOf
  exact within_bind within_root fun root => within_bind within_directory fun directory =>
    within_expect _ _ _

theorem forEach_within {α : Type} {items : List α} {run : α → Action (List Line)}
    (h : ∀ item, (run item).Within parts) : (forEach items run).Within parts :=
  within_foldlM (fun _ item => within_bind (h item) fun _ => within_pure _) []

theorem arguments_within (command : String) (allowed : List Char) (given : List String) :
    (arguments command allowed given).Within parts := by
  unfold arguments
  split
  · exact within_pure _
  · exact within_throw _

theorem cat_within (given : List String) : (cat given).Within parts := by
  unfold cat
  exact within_guard (within_misuse _) (forEach_within fun file =>
    within_bind (contentOf_within _ file) fun content => within_pure _)

theorem selectLines_within (command : String) (select : Nat → String → List String)
    (given : List String) : (selectLines command select given).Within parts := by
  unfold selectLines
  dsimp only
  split
  · refine within_bind (within_pure _) fun options => forEach_within fun item => ?_
    exact within_bind (contentOf_within _ _) fun content => within_pure _
  · refine within_bind (within_throw _) fun options => forEach_within fun item => ?_
    exact within_bind (contentOf_within _ _) fun content => within_pure _

theorem wc_within (given : List String) : (wc given).Within parts := by
  unfold wc
  exact within_guard (within_misuse _) (forEach_within fun file =>
    within_bind (contentOf_within _ file) fun content => within_pure _)

theorem ls_within (given : List String) : (ls given).Within parts := by
  unfold ls
  refine within_bind (arguments_within _ _ _) fun options => forEach_within fun item => ?_
  exact within_bind within_root fun root => within_bind within_directory fun directory =>
    within_bind (within_expect _ _ _) fun entries => within_pure _

theorem tree_within (given : List String) : (tree given).Within parts := by
  unfold tree
  refine within_bind (arguments_within _ _ _) fun options => within_bind within_root fun root => ?_
  refine within_bind within_directory fun directory => within_bind (within_expect _ _ _) fun node => ?_
  exact within_guard (within_throw _) (within_pure _)

theorem pwd_within (given : List String) : (pwd given).Within parts :=
  within_bind within_directory fun _ => within_pure _

theorem findOperands_within (given : List String) : (findOperands given).Within parts := by
  unfold findOperands
  split
  · exact within_misuse _
  · exact within_pure _
  · exact within_pure _
  · exact within_misuse _

theorem find_within (given : List String) : (find given).Within parts := by
  unfold find
  refine within_bind (findOperands_within given) fun operands => within_bind within_root fun root => ?_
  exact within_bind within_directory fun directory => within_bind (within_expect _ _ _) fun found =>
    within_pure _

theorem grepOperands_within (given : List String) : (grepOperands given).Within parts := by
  unfold grepOperands
  split
  · exact within_misuse _
  · exact within_pure _
  · exact within_pure _
  · exact within_misuse _

theorem grep_within (given : List String) : (grep given).Within parts := by
  unfold grep
  refine within_bind (arguments_within _ _ _) fun options => ?_
  refine within_bind (grepOperands_within _) fun operands => ?_
  dsimp only
  split
  · exact within_misuse _
  · refine within_bind within_root fun root => within_bind within_directory fun directory => ?_
    refine within_bind (within_expect _ _ _) fun node => ?_
    split
    · split
      · exact within_misuse _
      · exact within_pure _
    · exact within_bind (within_expect _ _ _) fun files => within_pure _

theorem date_within (given : List String) : (date given).Within parts := by
  unfold date
  split
  · exact within_throw _
  · refine within_bind within_moment fun now => ?_
    split
    · exact within_pure _
    · exact within_misuse _

theorem help_within (registry : Registry) (given : List String) : (help registry given).Within parts := by
  unfold help
  split
  · split
    · exact within_pure _
    · exact within_misuse _
  · exact within_pure _

theorem which_within (registry : Registry) (given : List String) : (which registry given).Within parts := by
  unfold which
  exact within_guard (within_misuse _) (within_bind within_session fun session => within_pure _)

theorem whoami_within (given : List String) : (whoami given).Within parts :=
  within_bind within_session fun _ => within_pure _

theorem clear_within (given : List String) : (clear given).Within parts := within_pure _

theorem echo_within (given : List String) : (echo given).Within parts := within_pure _

/-! ## Commands that change the tree -/

theorem editEach_within {command missing : String} {change : String → String → Edit Unit}
    (h : ∀ directory operand, (edit command operand (change directory operand)).Within [.tree])
    (operands : List String) : (editEach command missing change operands).Within [.tree] := by
  unfold editEach
  refine within_guard (within_misuse _) (within_bind within_directory fun directory => ?_)
  exact within_bind (within_forM fun operand => h directory operand) fun _ => within_pure _

theorem touchFile_apply (directory file : String) (volume : Volume) :
    touchFile directory file volume =
      if volume.root.exists? (Path.resolve directory file) then .ok () volume
      else Edit.createFile directory file "" volume := by
  change (if volume.root.exists? (Path.resolve directory file) = true then _ else _ : Edit Unit) volume = _
  split <;> rfl

theorem touchFile_decided (directory file : String) : (touchFile directory file).Decided := by
  intro root
  by_cases hthere : root.exists? (Path.resolve directory file)
  · refine ⟨.ok none, ?_⟩
    rintro volume rfl
    rw [touchFile_apply, if_pos hthere]
    rfl
  · obtain ⟨verdict, hverdict⟩ := (Change.createFile directory file "").edit_decided root
    refine ⟨verdict, ?_⟩
    rintro volume rfl
    rw [touchFile_apply, if_neg hthere]
    exact hverdict volume rfl

theorem touch_within (given : List String) : (touch given).Within [.tree] := by
  refine editEach_within (fun directory file => ⟨fun state => steps_edit _ _ ?_, ?_⟩) given
  · rw [touchFile_apply]
    split
    · exact .inl rfl
    · exact .inr ⟨.createFile directory file "", trivial, rfl⟩
  · exact blind_edit _ _ (touchFile_decided directory file)

theorem mkdir_within (given : List String) : (mkdir given).Within [.tree] :=
  editEach_within (fun directory name => within_edit _ _ (.createDirectory directory name) fun _ => trivial)
    given

theorem rm_within (given : List String) : (rm given).Within [.tree] :=
  editEach_within (fun directory name => within_edit _ _ (.deleteFile directory name) fun _ => trivial) given

theorem rmdir_within (given : List String) : (rmdir given).Within [.tree] :=
  editEach_within (fun directory name => within_edit _ _ (.deleteDirectory directory name) fun _ => trivial)
    given

theorem sourceAndTarget_within (command synopsis : String) (given : List String) :
    (sourceAndTarget command synopsis given).Within parts := by
  unfold sourceAndTarget
  split
  · exact within_misuse _
  · exact within_misuse _
  · exact within_pure _
  · exact within_misuse _

theorem cp_within (given : List String) : (cp given).Within [.tree] := by
  unfold cp
  refine within_bind (arguments_within _ _ _) fun options => ?_
  refine within_bind (sourceAndTarget_within _ _ _) fun operands => ?_
  refine within_bind within_directory fun directory => within_bind within_root fun root => ?_
  refine within_bind (within_expect _ _ _) fun node => ?_
  have hdirectory := within_edit "cp" operands.2 (.copyDirectory directory operands.1 operands.2)
    fun _ => trivial
  have hfile := within_edit "cp" operands.2 (.copyFile directory operands.1 operands.2) fun _ => trivial
  refine within_ite (within_guard (within_misuse _) ?_) ?_
  · exact within_bind hdirectory fun _ => within_pure _
  · exact within_bind hfile fun _ => within_pure _

/-- A rename in place is only tried where nothing has the new name yet. -/
theorem mv_within (given : List String) : (mv given).Within [.tree] := by
  unfold mv
  refine within_bind (sourceAndTarget_within _ _ _) fun operands => ?_
  obtain ⟨source, target⟩ := operands
  constructor
  · intro state
    let directory := state.session.current
    let inPlace := isPlainName source && isPlainName target &&
      !state.volume.root.exists? (Path.resolve directory target)
    have hedit : State.Steps [.tree] state ((edit "mv" source
        (if inPlace then Edit.rename directory source target
          else Edit.move directory source target)).after state) := by
      refine steps_edit _ _ (.inr ?_)
      by_cases hplace : inPlace
      · have hoffered : isPlainName source = true ∧ isPlainName target = true ∧
            state.volume.root.exists? (Path.resolve directory target) = false := by
          simpa [inPlace, and_assoc] using hplace
        exact ⟨.rename directory source target, hoffered, by rw [if_pos hplace]; rfl⟩
      · exact ⟨.move directory source target, trivial, by rw [if_neg hplace]; rfl⟩
    rw [← after_bind_pure _ fun _ => ([] : List Line)] at hedit
    exact hedit
  · refine blind_bind blind_directory fun directory => blind_bind blind_root fun root => ?_
    refine blind_bind (blind_edit _ _ ?_) fun _ => blind_pure _
    split
    · exact Edit.rename_decided directory source target
    · exact Edit.move_decided directory source target

/-! ## Commands that change the session -/

theorem cd_apply (given : List String) (state : State) :
    cd given state =
      match state.volume.root.changePath state.session.current
        (directoryOperand state.session (given.headD "~")).1 with
      | .ok path => .ok (if (directoryOperand state.session (given.headD "~")).2 then [.output path] else [])
          { state with session := state.session.changeDirectory path }
      | .error e => .error (.files "cd" (given.headD "~") e) state := by
  unfold cd
  rw [session_bind]
  generalize directoryOperand state.session (given.headD "~") = goal
  obtain ⟨target, print⟩ := goal
  dsimp only
  rw [root_bind]
  cases state.volume.root.changePath state.session.current target <;> rfl

theorem cd_eq_ok {state : State} {operand target path : String} {print : Bool}
    (hoperand : directoryOperand state.session operand = (target, print))
    (hfound : state.volume.root.changePath state.session.current target = .ok path) :
    cd [operand] state = .ok (if print then [.output path] else [])
      { state with session := state.session.changeDirectory path } := by
  rw [cd_apply, List.headD_cons, hoperand]
  dsimp only
  rw [hfound]

theorem cd_within (given : List String) : (cd given).Within [.directory] where
  steps state := by
    rw [after, cd_apply]
    generalize (directoryOperand state.session (given.headD "~")).1 = target
    cases hfound : state.volume.root.changePath state.session.current target with
    | error e => exact .refl _ _
    | ok path => exact .single List.mem_cons_self (.enter target hfound)
  blind first second halike := by
    rw [cd_apply, cd_apply, halike.session_eq, halike.root_eq]
    obtain ⟨store, rfl⟩ := halike
    cases first.volume.root.changePath first.session.current _ with
    | error e => exact .error _ ⟨store, rfl⟩
    | ok path => exact .ok _ ⟨store, rfl⟩

theorem aliasArgument_within (argument : String) : (aliasArgument argument).Within [.aliases] := by
  unfold aliasArgument
  split
  · refine within_ite (within_pure _) ?_
    exact within_bind (within_setAlias _ _) fun _ => within_pure _
  · refine within_bind within_session fun session => ?_
    split
    · exact within_pure _
    · exact within_pure _

theorem aliases_within (given : List String) : (aliases given).Within [.aliases] := by
  unfold aliases
  refine within_ite (within_bind within_session fun session => within_pure _) ?_
  exact within_foldlM (fun _ argument => within_bind (aliasArgument_within argument) fun _ =>
    within_pure _) []

theorem unaliasArgument_within (name : String) : (unaliasArgument name).Within [.aliases] := by
  unfold unaliasArgument
  refine within_bind (within_removeAlias name) fun removed => ?_
  exact within_ite (within_pure _) (within_pure _)

theorem unalias_within (given : List String) : (unalias given).Within [.aliases] := by
  unfold unalias
  refine within_guard (within_misuse _) (within_ite ?_ ?_)
  · exact within_bind within_clearAliases fun _ => within_pure _
  · exact within_foldlM (fun _ argument => within_bind (unaliasArgument_within argument) fun _ =>
      within_pure _) []

theorem history_within (given : List String) : (history given).Within [.history] := by
  unfold history
  split
  · exact within_bind within_session fun session => within_pure _
  · exact within_bind within_clearHistory fun _ => within_pure _
  · split
    · exact within_misuse _
    · exact within_bind within_session fun session => within_pure _

end Command

namespace Builtin

/-- The parts of the state that a command may change. -/
def parts : Builtin → List Part
  | touch | mkdir | rm | rmdir | cp | mv => [.tree]
  | cd => [.directory]
  | aliases | unalias => [.aliases]
  | history => [.history]
  | _ => []

/-- A command changes nothing outside its own part of the state, whether it succeeds or fails. -/
theorem run_within (registry : Registry) (builtin : Builtin) (given : List String) :
    (builtin.run registry given).Within builtin.parts := by
  cases builtin with
  | aliases => exact Command.aliases_within given
  | cat => exact Command.cat_within given
  | cd => exact Command.cd_within given
  | clear => exact Command.clear_within given
  | cp => exact Command.cp_within given
  | date => exact Command.date_within given
  | echo => exact Command.echo_within given
  | find => exact Command.find_within given
  | grep => exact Command.grep_within given
  | head => exact Command.selectLines_within "head" Command.firstLines given
  | help => exact Command.help_within registry given
  | history => exact Command.history_within given
  | ls => exact Command.ls_within given
  | mkdir => exact Command.mkdir_within given
  | mv => exact Command.mv_within given
  | pwd => exact Command.pwd_within given
  | rm => exact Command.rm_within given
  | rmdir => exact Command.rmdir_within given
  | tail => exact Command.selectLines_within "tail" Command.lastLines given
  | touch => exact Command.touch_within given
  | tree => exact Command.tree_within given
  | unalias => exact Command.unalias_within given
  | wc => exact Command.wc_within given
  | which => exact Command.which_within registry given
  | whoami => exact Command.whoami_within given

end Builtin

end VirtualShell
