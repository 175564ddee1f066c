import VirtualShell.Command.Run
import VirtualShell.Proofs.State.Failures

/-! # Commands called in a wrong way

The errors of reading arguments only tell how a command is used.  A command that has nothing to do with
files has no other errors.
-/

namespace VirtualShell

def ShellError.IsUsage (e : ShellError) : Prop := ∃ message, e = usage message

theorem ShellError.isUsage (message : String) : (usage message).IsUsage := ⟨message, rfl⟩

namespace Command

variable {command : String} {e : ShellError}

/-! ## Reading arguments -/

theorem exists_flag_of_addFlags_eq_error {allowed : List Char} {arguments : Arguments}
    {letters : List Char} (h : Arguments.addFlags command allowed arguments letters = .error e) :
    ∃ flag : Char, e = .usage (command ++ ": invalid option -- '" ++ flag.toString ++ "'") := by
  induction letters generalizing arguments with
  | nil => cases h
  | cons flag rest ih =>
      unfold Arguments.addFlags at h
      by_cases hflag : allowed.contains flag
      · rw [if_pos hflag] at h
        exact ih h
      · rw [if_neg hflag] at h
        cases h
        exact ⟨flag, rfl⟩

/-- Flags and operands can be read unless there is a flag that is not allowed. -/
theorem exists_flag_of_read_eq_error {allowed : List Char} {arguments : Arguments} {given : List String}
    (h : Arguments.read command allowed arguments given = .error e) :
    ∃ flag : Char, e = .usage (command ++ ": invalid option -- '" ++ flag.toString ++ "'") := by
  induction given generalizing arguments with
  | nil => cases h
  | cons argument rest ih =>
      unfold Arguments.read at h
      split at h
      · cases h
      · rename_i first letters _ _
        cases hflags : Arguments.addFlags command allowed arguments (first :: letters) with
        | error cause =>
            rw [hflags] at h
            cases h
            exact exists_flag_of_addFlags_eq_error hflags
        | ok added =>
            rw [hflags] at h
            exact ih h
      · exact ih h

/-- A number is asked for before the other arguments are read. -/
theorem isUsage_of_value_bind_eq_error {α : Type} {text : List Char} {next : Nat → Except ShellError α}
    (h : (LineCount.value command text >>= next) = .error e) (hnext : ∀ n, next n = .error e → e.IsUsage) :
    e.IsUsage := by
  unfold LineCount.value at h
  split at h
  · exact hnext _ h
  · cases h
    exact ShellError.isUsage _

theorem isUsage_of_lineCount_eq_error {options : LineCount} {given : List String}
    (h : LineCount.read command options given = .error e) : e.IsUsage := by
  fun_induction LineCount.read command options given with
  | case1 options => cases h
  | case2 options argument hpart =>
      cases h
      exact ShellError.isUsage _
  | case3 options argument hpart number rest ih => exact isUsage_of_value_bind_eq_error h ih
  | case4 options argument rest text hpart ih => exact isUsage_of_value_bind_eq_error h ih
  | case5 options argument rest name hpart =>
      cases h
      exact ShellError.isUsage _
  | case6 options argument rest hpart ih => exact ih h

theorem isUsage_of_parseLineCount_eq_error {given : List String}
    (h : parseLineCount command given = .error e) : e.IsUsage := by
  unfold parseLineCount at h
  cases hread : LineCount.read command ⟨LineCount.standard, []⟩ given with
  | error cause =>
      rw [hread] at h
      cases h
      exact isUsage_of_lineCount_eq_error hread
  | ok options =>
      rw [hread] at h
      change (if options.files.isEmpty = true then _ else _ : Except ShellError LineCount) = _ at h
      split at h
      · cases h
        exact ShellError.isUsage _
      · cases h

theorem isUsage_of_options_eq_error {utc : Bool} {format : String} {given : List String}
    (h : Date.options utc format given = .error e) : e.IsUsage := by
  induction given generalizing utc format with
  | nil => cases h
  | cons argument rest ih =>
      unfold Date.options at h
      split at h
      · exact ih h
      · split at h
        · exact ih h
        · cases h
          exact ShellError.isUsage _

/-! ## Commands that have nothing to do with files -/

open VirtualShell.Action

variable {inv : State → Prop} {allowed : ShellError → State → Prop}

theorem misuse_ends {α : Type} (hallowed : ∀ e state, e.IsUsage → allowed e state) (message : String) :
    (misuse message : Action α).Ends inv inv allowed :=
  ends_throw fun state _ => hallowed _ state (ShellError.isUsage message)

theorem arguments_ends (hallowed : ∀ e state, e.IsUsage → allowed e state) (allowedFlags : List Char)
    (given : List String) : (arguments command allowedFlags given).Ends inv inv allowed := by
  unfold arguments
  split
  · exact ends_pure _
  · rename_i cause hread
    obtain ⟨flag, rfl⟩ := exists_flag_of_read_eq_error hread
    exact ends_throw fun state _ => hallowed _ state (ShellError.isUsage _)

theorem sourceAndTarget_ends (hallowed : ∀ e state, e.IsUsage → allowed e state) (synopsis : String)
    (given : List String) : (sourceAndTarget command synopsis given).Ends inv inv allowed := by
  unfold sourceAndTarget
  split
  · exact misuse_ends hallowed _
  · exact misuse_ends hallowed _
  · exact ends_pure _
  · exact misuse_ends hallowed _

theorem findOperands_ends (hallowed : ∀ e state, e.IsUsage → allowed e state) (given : List String) :
    (findOperands given).Ends inv inv allowed := by
  unfold findOperands
  split
  · exact misuse_ends hallowed _
  · exact ends_pure _
  · exact ends_pure _
  · exact misuse_ends hallowed _

theorem grepOperands_ends (hallowed : ∀ e state, e.IsUsage → allowed e state) (given : List String) :
    (grepOperands given).Ends inv inv allowed := by
  unfold grepOperands
  split
  · exact misuse_ends hallowed _
  · exact ends_pure _
  · exact ends_pure _
  · exact misuse_ends hallowed _

theorem failsWith_misuse {α : Type} (message : String) :
    (misuse message : Action α).FailsWith ShellError.IsUsage :=
  failsWith_throw (ShellError.isUsage message)

theorem aliasArgument_usage (argument : String) :
    (aliasArgument argument).FailsWith ShellError.IsUsage := by
  unfold aliasArgument
  split
  · split
    · exact failsWith_pure _
    · exact failsWith_bind (failsWith_modify _) fun _ => failsWith_pure _
  · refine failsWith_bind failsWith_session fun session => ?_
    split
    · exact failsWith_pure _
    · exact failsWith_pure _

theorem aliases_usage (given : List String) : (aliases given).FailsWith ShellError.IsUsage := by
  unfold aliases
  split
  · exact failsWith_bind failsWith_session fun session => failsWith_pure _
  · exact failsWith_foldlM (fun _ argument =>
      failsWith_bind (aliasArgument_usage argument) fun _ => failsWith_pure _) []

theorem unaliasArgument_usage (name : String) : (unaliasArgument name).FailsWith ShellError.IsUsage := by
  unfold unaliasArgument removeAlias
  refine failsWith_bind (failsWith_bind failsWith_session fun session => ?_) fun removed => ?_
  · dsimp only
    split
    · exact failsWith_bind (failsWith_modify _) fun _ => failsWith_pure _
    · exact failsWith_pure _
  · split
    · exact failsWith_pure _
    · exact failsWith_pure _

theorem unalias_usage (given : List String) : (unalias given).FailsWith ShellError.IsUsage := by
  unfold unalias
  refine failsWith_guard (failsWith_misuse _) ?_
  split
  · exact failsWith_bind (failsWith_modify _) fun _ => failsWith_pure _
  · exact failsWith_foldlM (fun _ argument =>
      failsWith_bind (unaliasArgument_usage argument) fun _ => failsWith_pure _) []

theorem history_usage (given : List String) : (history given).FailsWith ShellError.IsUsage := by
  unfold history
  split
  · exact failsWith_bind failsWith_session fun session => failsWith_pure _
  · exact failsWith_bind (failsWith_modify _) fun _ => failsWith_pure _
  · split
    · exact failsWith_misuse _
    · exact failsWith_bind failsWith_session fun session => failsWith_pure _

theorem date_usage (given : List String) : (date given).FailsWith ShellError.IsUsage := by
  unfold date
  split
  · rename_i cause hoptions
    exact failsWith_throw (isUsage_of_options_eq_error hoptions)
  · refine failsWith_bind failsWith_moment fun now => ?_
    split
    · exact failsWith_pure _
    · exact failsWith_misuse _

theorem help_usage (registry : Registry) (given : List String) :
    (help registry given).FailsWith ShellError.IsUsage := by
  unfold help
  split
  · split
    · exact failsWith_pure _
    · exact failsWith_misuse _
  · exact failsWith_pure _

theorem which_usage (registry : Registry) (given : List String) :
    (which registry given).FailsWith ShellError.IsUsage := by
  unfold which
  exact failsWith_guard (failsWith_misuse _)
    (failsWith_bind failsWith_session fun session => failsWith_pure _)

end Command

end VirtualShell
