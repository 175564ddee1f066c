import VirtualShell.Proofs.Command.Parts
import VirtualShell.Proofs.Command.Usage
import VirtualShell.Proofs.Files.Changes
import VirtualShell.Proofs.Files.Naming
import VirtualShell.Proofs.Files.Refusals

/-! # What errors say about operands

A command that fails because there is no such entry, or because something is not a directory, names one of
its operands.  Most commands are right about the operand that they name.
-/

namespace VirtualShell

/-- The names to which an operand leads from the working directory. -/
def State.place (state : State) (operand : String) : List String :=
  Path.segments (Path.resolve state.session.current operand)

namespace ShellError

/-- What is told by the error about the operand that it names, if any, is so in a state. -/
def Fits (told : Node → List String → FileError → Prop) (e : ShellError) (state : State) : Prop :=
  ∀ command operand cause, e = files command operand cause →
    told state.volume.root (state.place operand) cause

variable {told : Node → List String → FileError → Prop} {e : ShellError} {state : State}

theorem fits_files {command operand : String} {cause : FileError}
    (h : told state.volume.root (state.place operand) cause) :
    (files command operand cause).Fits told state := by
  rintro _ _ _ ⟨⟩
  exact h

theorem fits_of_isUsage (h : e.IsUsage) : e.Fits told state := by
  obtain ⟨message, rfl⟩ := h
  exact nofun

end ShellError

abbrev Action.Looks {α : Type} (state : State) (action : Action α) : Prop :=
  action.Ends (· = state) (· = state) (ShellError.Fits FileError.TrueAt)

namespace Command

open VirtualShell.Action ShellError

variable {state : State}

/-! ## Commands that only look -/

theorem contentOf_fits (command file : String) :
    (contentOf command file).Looks state := by
  unfold contentOf
  refine ends_root_bind (ends_directory_bind ?_)
  refine ends_expect fun e hrefused _ hstate => fits_files ?_
  subst hstate
  exact Node.trueAt_of_contentOf hrefused

theorem forEach_fits {α : Type} {items : List α} {run : α → Action (List Line)}
    {inv : State → Prop} {allowed : ShellError → State → Prop}
    (h : ∀ item, (run item).Ends inv inv allowed) : (forEach items run).Ends inv inv allowed :=
  ends_foldlM (fun _ item => ends_bind (h item) fun _ => ends_pure _) []

theorem cat_fits (given : List String) : (cat given).Looks state := by
  unfold cat
  refine ends_guard (fun _ => misuse_ends (fun _ _ => fits_of_isUsage) _) (forEach_fits fun file => ?_)
  exact ends_bind (contentOf_fits _ file) fun content => ends_pure _

theorem wc_fits (given : List String) : (wc given).Looks state := by
  unfold wc
  refine ends_guard (fun _ => misuse_ends (fun _ _ => fits_of_isUsage) _) (forEach_fits fun file => ?_)
  exact ends_bind (contentOf_fits _ file) fun content => ends_pure _

theorem selectLines_fits (command : String) (select : Nat → String → List String) (given : List String) :
    (selectLines command select given).Looks state := by
  unfold selectLines
  dsimp only
  split
  · refine ends_bind (ends_pure _) fun options => forEach_fits fun item => ?_
    exact ends_bind (contentOf_fits _ _) fun content => ends_pure _
  · rename_i cause hread
    refine ends_bind (ends_throw fun _ _ => fits_of_isUsage ?_) fun options => forEach_fits fun item => ?_
    · exact isUsage_of_parseLineCount_eq_error hread
    · exact ends_bind (contentOf_fits _ _) fun content => ends_pure _

theorem ls_fits (given : List String) : (ls given).Looks state := by
  unfold ls
  refine ends_bind (arguments_ends (fun _ _ => fits_of_isUsage) _ _) fun options => ?_
  refine forEach_fits fun item => ?_
  refine ends_root_bind (ends_directory_bind ?_)
  refine ends_bind (ends_expect fun e hrefused _ hstate => fits_files ?_) fun entries => ends_pure _
  subst hstate
  exact Node.trueAt_of_list hrefused

theorem tree_fits (given : List String) : (tree given).Looks state := by
  unfold tree
  refine ends_bind (arguments_ends (fun _ _ => fits_of_isUsage) _ _) fun options => ?_
  refine ends_root_bind (ends_directory_bind ?_)
  refine ends_expect_bind (fun e hrefused _ hstate => fits_files ?_) fun node hnode => ?_
  · subst hstate
    exact Node.trueAt_of_at? hrefused
  refine ends_guard (fun hfile => ends_throw fun _ hstate => fits_files ?_) (ends_pure _)
  subst hstate
  cases node with
  | file content => exact ⟨content, Node.at?_eq_ok_iff.mp hnode⟩
  | directory entries => cases hfile

theorem exists_reason_of_ofText_eq_error {text : String} {e : FileError}
    (h : NamePattern.ofText text = .error e) : ∃ reason, e = .invalidPattern text reason := by
  unfold NamePattern.ofText at h
  dsimp only at h
  split at h
  · cases h
  split at h
  · split at h
    · cases h
    · cases h
      exact ⟨_, rfl⟩
  · cases h

theorem trueAt_of_find {root : Node} {start pattern : String} {deep : Bool} {e : FileError}
    (h : root.find start pattern deep = .error e) : e.TrueAt root (Path.segments start) := by
  unfold Node.find at h
  cases hstart : root.at? start with
  | error cause =>
      rw [hstart] at h
      cases h
      exact Node.trueAt_of_at? hstart
  | ok node =>
      rw [hstart] at h
      cases hpattern : NamePattern.ofText pattern with
      | ok condition =>
          rw [hpattern] at h
          cases h
      | error cause =>
          rw [hpattern] at h
          cases h
          obtain ⟨reason, rfl⟩ := exists_reason_of_ofText_eq_error hpattern
          trivial

theorem find_fits (given : List String) : (find given).Looks state := by
  unfold find
  refine ends_bind (findOperands_ends (fun _ _ => fits_of_isUsage) _) fun operands => ?_
  obtain ⟨path, pattern⟩ := operands
  refine ends_root_bind (ends_directory_bind ?_)
  refine ends_bind (ends_expect fun e hrefused _ hstate => fits_files ?_) fun found => ends_pure _
  subst hstate
  exact trueAt_of_find hrefused

theorem trueAt_of_searchBelow {root : Node} {start pattern : String} {deep caseSensitive : Bool}
    {e : FileError} (h : root.searchBelow start pattern deep caseSensitive = .error e) :
    e.TrueAt root (Path.segments start) := by
  unfold Node.searchBelow at h
  cases hstart : root.at? start with
  | error cause =>
      rw [hstart] at h
      cases h
      exact Node.trueAt_of_at? hstart
  | ok node =>
      rw [hstart] at h
      cases hpattern : linePattern pattern caseSensitive with
      | error cause =>
          rw [hpattern] at h
          cases h
          unfold linePattern at hpattern
          split at hpattern
          · cases hpattern
          · cases hpattern
            trivial
      | ok compiled =>
          rw [hpattern] at h
          change (if node.isDirectory = true then _ else _ : Except FileError (List FileMatches)) = _ at h
          split at h
          · cases h
          · cases h

theorem grep_fits (given : List String) : (grep given).Looks state := by
  unfold grep
  refine ends_bind (arguments_ends (fun _ _ => fits_of_isUsage) _ _) fun options => ?_
  refine ends_bind (grepOperands_ends (fun _ _ => fits_of_isUsage) _) fun operands => ?_
  obtain ⟨pattern, path⟩ := operands
  dsimp only
  split
  · exact misuse_ends (fun _ _ => fits_of_isUsage) _
  refine ends_root_bind (ends_directory_bind ?_)
  refine ends_expect_bind (fun e hrefused _ hstate => fits_files ?_) fun node hnode => ?_
  · subst hstate
    exact Node.trueAt_of_at? hrefused
  cases node with
  | file content =>
      dsimp only
      split
      · exact misuse_ends (fun _ _ => fits_of_isUsage) _
      · exact ends_pure _
  | directory entries =>
      refine ends_bind (ends_expect fun e hrefused _ hstate => fits_files ?_) fun files => ends_pure _
      subst hstate
      exact trueAt_of_searchBelow hrefused

theorem contentOf_of_lookup (command : String) {operand content : String}
    (h : state.volume.root.lookup (state.place operand) = some (.file content)) :
    contentOf command operand state = .ok content state := by
  unfold contentOf
  rw [root_bind]
  change expect command operand (state.volume.root.contentOf state.session.current operand) state = _
  rw [Node.contentOf_eq_ok_iff.mpr h]
  rfl

theorem forEach_singleton {α : Type} {item : α} {run : α → Action (List Line)} {lines : List Line}
    {after : State} (h : run item state = .ok lines after) : forEach [item] run state = .ok lines after := by
  unfold forEach
  rw [List.foldlM_cons]
  exact (bind_of_eq_ok (bind_of_eq_ok h)).trans rfl

theorem cat_of_lookup {operand content : String}
    (h : state.volume.root.lookup (state.place operand) = some (.file content)) :
    cat [operand] state = .ok ((Text.linesOf content).map .output) state := by
  have hprint : (contentOf "cat" operand >>= fun content =>
      pure ((Text.linesOf content).map Line.output)) state =
        .ok ((Text.linesOf content).map .output) state := bind_of_eq_ok (contentOf_of_lookup "cat" h)
  exact forEach_singleton hprint

/-! ## The working directory -/

theorem of_cd_eq_error {given : List String} {e : ShellError} {after : State}
    (h : cd given state = .error e after) :
    after = state ∧ ∃ cause, e = .files "cd" (given.headD "~") cause ∧
      cause.TrueAt state.volume.root
        (state.place (directoryOperand state.session (given.headD "~")).1) := by
  rw [cd_apply] at h
  generalize (directoryOperand state.session (given.headD "~")).1 = target at h ⊢
  cases hfound : state.volume.root.changePath state.session.current target with
  | ok path =>
      rw [hfound] at h
      cases h
  | error cause =>
      rw [hfound] at h
      cases h
      exact ⟨rfl, cause, rfl, Node.trueAt_of_changePath hfound⟩

/-! ## Commands that change the tree -/

/-- The edit leaves no trace when it is refused, and that happens for what is at or right above the place
to which the operand leads. -/
def RefusedNear (directory operand : String) (change : Edit Unit) : Prop :=
  change.Atomic ∧ ∀ volume, change.FailsFrom volume fun e =>
    e.TrueNear volume.root (Path.segments (Path.resolve directory operand))

theorem edit_fits {command directory operand : String} {change : Edit Unit}
    (h : RefusedNear directory operand change) :
    (edit command operand change).Ends (·.session.current = directory) (·.session.current = directory)
      (Fits FileError.TrueNear) := by
  obtain ⟨hatomic, hrefused⟩ := h
  refine ends_edit (fun _ _ hstate _ => hstate) fun start e volume hstate hrun => fits_files ?_
  have hnear := hrefused start.volume e volume hrun
  rw [← hstate] at hnear
  rw [hatomic _ _ _ hrun]
  exact hnear

theorem editEach_fits {command missing : String} {change : (directory operand : String) → Edit Unit}
    (h : ∀ directory operand, RefusedNear directory operand (change directory operand))
    (operands : List String) :
    (editEach command missing change operands).Ends (· = state) (fun _ => True)
      (Fits FileError.TrueNear) := by
  unfold editEach
  refine ends_guard (fun _ => misuse_ends (fun _ _ => fits_of_isUsage) _) (ends_directory_bind ?_)
  have hloop : (operands.forM fun operand => edit command operand
      (change state.session.current operand)).Ends (·.session.current = state.session.current)
        (·.session.current = state.session.current) (Fits FileError.TrueNear) :=
    ends_forM fun operand => edit_fits (h _ operand)
  refine ends_bind (hloop.imp ?_ fun _ _ => trivial) fun _ => ends_pure _
  rintro _ rfl
  rfl

theorem touchFile_refusedNear (directory file : String) :
    RefusedNear directory file (touchFile directory file) := by
  refine ⟨(touchFile_decided directory file).atomic, ?_⟩
  intro volume e after hrun
  rw [touchFile_apply] at hrun
  split at hrun
  · cases hrun
  · exact Edit.create_refused _ _ _ _ _ hrun

theorem createDirectory_refusedNear (directory name : String) :
    RefusedNear directory name (Edit.createDirectory directory name) :=
  ⟨(Edit.create_decided _ _ _).atomic, fun _ => Edit.create_refused _ _ _⟩

theorem deleteFile_refusedNear (directory name : String) :
    RefusedNear directory name (Edit.deleteFile directory name) :=
  ⟨(Edit.deleteFile_decided _ _).atomic, fun _ => Edit.deleteFile_refused _ _⟩

theorem deleteDirectory_refusedNear (directory name : String) :
    RefusedNear directory name (Edit.deleteDirectory directory name) :=
  ⟨(Edit.deleteDirectory_decided _ _).atomic, fun _ => Edit.deleteDirectory_refused _ _⟩

/-- A copy looks at its source first, so what is refused later is the destination. -/
theorem cp_fits (given : List String) :
    (cp given).Ends (· = state) (fun _ => True) (Fits FileError.TrueNear) := by
  unfold cp
  refine ends_bind (arguments_ends (fun _ _ => fits_of_isUsage) _ _) fun options => ?_
  refine ends_bind (sourceAndTarget_ends (fun _ _ => fits_of_isUsage) _ _) fun operands => ?_
  obtain ⟨source, target⟩ := operands
  refine ends_directory_bind (ends_root_bind ?_)
  refine ends_expect_bind (fun e hrefused _ hstate => fits_files ?_) fun node hnode => ?_
  · subst hstate
    exact .inl (Node.trueAt_of_at? hrefused)
  have hedit : ∀ {change : Edit Unit}, change.Atomic →
      (change.FailsFrom state.volume fun e => e.TrueNear state.volume.root (state.place target)) →
      (edit "cp" target change).Ends (· = state) (fun _ => True) (Fits FileError.TrueNear) := by
    intro change hatomic hrefused
    refine ends_edit (fun _ _ _ _ => trivial) fun start e volume hstate hrun => fits_files ?_
    subst hstate
    rw [hatomic _ _ _ hrun]
    exact hrefused e volume hrun
  cases node with
  | directory entries =>
      refine ends_guard (fun _ => misuse_ends (fun _ _ => fits_of_isUsage) _) ?_
      exact ends_bind (hedit (Edit.copyDirectory_decided _ _ _).atomic (Edit.copyDirectory_refused hnode)) fun _ =>
        ends_pure _
  | file content =>
      exact ends_bind (hedit (Edit.copyFile_decided _ _ _).atomic (Edit.copyFile_refused hnode)) fun _ => ends_pure _

theorem place_of_isPlainName {operand : String} (h : isPlainName operand) (hempty : operand ≠ "")
    (hdot : operand ≠ ".") :
    state.place operand = Path.segments state.session.current ++ [operand] := by
  have hdots : operand ≠ ".." := by
    rintro rfl
    cases h
  exact Path.segments_resolve_of_isName (Path.isName_of_isPlainName h hempty) hdot hdots _

theorem place_of_dotted {operand : String} (h : operand = "" ∨ operand = ".") :
    state.place operand = Path.segments state.session.current := by
  rcases h with rfl | rfl
  · exact Path.segments_resolve_empty _
  · exact congrArg Path.segments (Path.resolve_dot _)

/-- A move or a rename names its source whatever the refusal is about.  What is missing may be the
directory of the destination instead, or an entry called by a single dot or by nothing; what is no
directory is always the one of the destination. -/
theorem of_mv_eq_error {given : List String} {command operand : String} {cause : FileError} {after : State}
    {entries : Entries Node} (hcurrent : state.volume.root.at? state.session.current = .ok (.directory entries))
    (h : mv given state = .error (.files command operand cause) after) :
    after = state ∧ ∃ target, given = [operand, target] ∧
      ((∃ missing, cause = .noSuchEntry missing) →
        state.volume.root.lookup (state.place operand) = none ∨
          state.volume.root.lookup (state.place operand) ≠ none ∧
            (state.volume.root.lookup (state.place target).dropLast = none ∨ operand = "" ∨ operand = ".")) ∧
      ((∃ barred, cause = .notADirectory barred) →
        state.volume.root.lookup (state.place operand) ≠ none ∧
          ∃ content, state.volume.root.lookup (state.place target).dropLast = some (.file content)) := by
  match given with
  | [] => cases h
  | [only] => cases h
  | _ :: _ :: _ :: _ => cases h
  | [source, target] =>
      obtain ⟨e, volume, hrun, he, rfl⟩ := of_edit_bind_pure_eq_error h
      cases he
      split at hrun
      · rename_i hplace
        rw [(Edit.rename_decided _ _ _).atomic _ _ _ hrun]
        obtain ⟨hdirectory, hmissing⟩ := Edit.rename_refused hcurrent cause volume hrun
        refine ⟨rfl, target, rfl, fun ⟨missing, hcause⟩ => ?_, fun ⟨barred, hcause⟩ =>
          absurd hcause (hdirectory barred)⟩
        have hplain : isPlainName operand := by
          simp only [Bool.and_eq_true] at hplace
          exact hplace.1.1
        rw [Node.at?_eq_ok_iff] at hcurrent
        by_cases hdotted : operand = "" ∨ operand = "."
        · refine .inr ⟨?_, .inr hdotted⟩
          rw [place_of_dotted hdotted, hcurrent]
          exact Option.some_ne_none _
        · rw [not_or] at hdotted
          refine .inl ?_
          rw [place_of_isPlainName hplain hdotted.1 hdotted.2, Node.lookup_append_of_some hcurrent,
            Node.lookup_cons_directory, hmissing missing hcause, Option.bind_none]
      · rw [(Edit.move_decided _ _ _).atomic _ _ _ hrun]
        rcases Edit.move_refused _ _ _ cause volume hrun with ⟨hnone, missing, rfl⟩ | ⟨hthere, habove⟩
        · exact ⟨rfl, target, rfl, fun _ => .inl hnone, nofun⟩
        · refine ⟨rfl, target, rfl, ?_, ?_⟩
          · rintro ⟨missing, rfl⟩
            exact .inr ⟨hthere, .inl habove⟩
          · rintro ⟨barred, rfl⟩
            exact ⟨hthere, habove⟩

end Command

namespace Builtin

open Command ShellError

variable {registry : Registry} {builtin : Builtin} {given : List String} {state after : State} {e : ShellError}

def edits : List Builtin := [touch, mkdir, rm, rmdir, cp]

theorem run_fits_edit (hedit : builtin ∈ edits) (h : builtin.run registry given state = .error e after) :
    e.Fits FileError.TrueNear after := by
  simp only [edits, List.mem_cons, List.not_mem_nil, or_false] at hedit
  rcases hedit with rfl | rfl | rfl | rfl | rfl
  · exact (editEach_fits touchFile_refusedNear given).error rfl h
  · exact (editEach_fits createDirectory_refusedNear given).error rfl h
  · exact (editEach_fits deleteFile_refusedNear given).error rfl h
  · exact (editEach_fits deleteDirectory_refusedNear given).error rfl h
  · exact (cp_fits given).error rfl h

theorem run_fits (hedit : builtin ∉ edits) (hcd : builtin ≠ cd) (hmv : builtin ≠ mv)
    (h : builtin.run registry given state = .error e after) : e.Fits FileError.TrueAt after := by
  cases builtin with
  | touch | mkdir | rm | rmdir | cp => exact absurd (by decide) hedit
  | cd => exact absurd rfl hcd
  | mv => exact absurd rfl hmv
  | cat => exact (cat_fits given).error rfl h
  | wc => exact (wc_fits given).error rfl h
  | head => exact (selectLines_fits "head" firstLines given).error rfl h
  | tail => exact (selectLines_fits "tail" lastLines given).error rfl h
  | ls => exact (ls_fits given).error rfl h
  | tree => exact (tree_fits given).error rfl h
  | find => exact (find_fits given).error rfl h
  | grep => exact (grep_fits given).error rfl h
  | aliases => exact fits_of_isUsage (aliases_usage given _ _ _ h)
  | unalias => exact fits_of_isUsage (unalias_usage given _ _ _ h)
  | history => exact fits_of_isUsage (history_usage given _ _ _ h)
  | date => exact fits_of_isUsage (date_usage given _ _ _ h)
  | help => exact fits_of_isUsage (help_usage registry given _ _ _ h)
  | which => exact fits_of_isUsage (which_usage registry given _ _ _ h)
  | clear | echo | pwd | whoami => cases h

/-- Except for a move, what is told is so of the operand that is named, or an edit was kept from going below
a file. -/
theorem run_fits_or_barred {command operand : String} {cause : FileError} (hmv : builtin ≠ mv)
    (h : builtin.run registry given state = .error (.files command operand cause) after) :
    cause.TrueAt after.volume.root
        (after.place (if builtin = cd then (directoryOperand after.session operand).1 else operand)) ∨
      builtin ∈ edits ∧ (∃ barred, cause = .notADirectory barred) ∧
        after.volume.root.lookup (after.place operand) = none ∧
        ∃ content, after.volume.root.lookup (after.place operand).dropLast = some (.file content) := by
  by_cases hcd : builtin = cd
  · subst hcd
    obtain ⟨rfl, _, he, htrue⟩ := of_cd_eq_error h
    cases he
    exact .inl htrue
  · rw [if_neg hcd]
    by_cases hedit : builtin ∈ edits
    · exact (run_fits_edit hedit h _ _ _ rfl).imp_right fun hnear => ⟨hedit, hnear⟩
    · exact .inl (run_fits hedit hcd hmv h _ _ _ rfl)

/-- A command that blames a missing entry on an operand is right, unless it is a move: a move names its
source also when the directory of its destination is missing, or when the source is called by a dot or by
nothing.  A command that blames an operand for not being a directory names a file that can be printed,
unless it is an edit whose operand has a file right above it, or a move, which names its source when the
directory of the destination is a file. -/
theorem run_blames (registry : Registry) (builtin : Builtin) (given : List String) {state after : State}
    {command operand : String} {cause : FileError} {entries : Entries Node}
    (hcurrent : state.volume.root.at? state.session.current = .ok (.directory entries))
    (h : builtin.run registry given state = .error (.files command operand cause) after) :
    let root := after.volume.root
    let resolve := Path.resolve after.session.current
    let meant := if builtin = cd then (directoryOperand after.session operand).1 else operand
    ((∃ missing, cause = .noSuchEntry missing) →
      root.exists? (resolve meant) = false ∨
        builtin = mv ∧ root.exists? (resolve operand) = true ∧ ∃ target, given = [operand, target] ∧
          (root.exists? (Path.parent (resolve target)) = false ∨ operand = "" ∨ operand = ".")) ∧
    ((∃ barred, cause = .notADirectory barred) →
      (∃ lines, Command.cat [meant] after = .ok lines after) ∨
        builtin ∈ [touch, mkdir, rm, rmdir, cp] ∧ root.exists? (resolve operand) = false ∧
          (∃ content, root.at? (Path.parent (resolve operand)) = .ok (.file content)) ∨
        builtin = mv ∧ root.exists? (resolve operand) = true ∧ ∃ target, given = [operand, target] ∧
          ∃ content, root.at? (Path.parent (resolve target)) = .ok (.file content)) := by
  intro root resolve meant
  by_cases hmv : builtin = mv
  · subst hmv
    obtain ⟨rfl, target, hgiven, hlost, hbarred⟩ := of_mv_eq_error hcurrent h
    refine ⟨fun hcause => ?_, fun hcause => ?_⟩
    · rcases hlost hcause with hnone | ⟨hthere, hgoal⟩
      · exact .inl (Node.exists?_eq_false_iff.mpr hnone)
      · refine .inr ⟨rfl, Node.exists?_eq_true_iff.mpr hthere, target, hgiven, hgoal.imp_left fun hnone => ?_⟩
        rwa [Node.exists?_eq_false_iff, Path.segments_parent]
    · obtain ⟨hthere, content, hfile⟩ := hbarred hcause
      refine .inr (.inr ⟨rfl, Node.exists?_eq_true_iff.mpr hthere, target, hgiven, content, ?_⟩)
      rwa [Node.at?_eq_ok_iff, Path.segments_parent]
  · rcases run_fits_or_barred hmv h with htrue | ⟨hedit, ⟨barred, rfl⟩, hnone, content, hfile⟩
    · constructor
      · rintro ⟨missing, rfl⟩
        exact .inl (Node.exists?_eq_false_iff.mpr htrue)
      · rintro ⟨barred, rfl⟩
        obtain ⟨content, hfile⟩ := htrue
        exact .inl ⟨_, cat_of_lookup hfile⟩
    · refine ⟨nofun, fun _ => .inr (.inl ⟨hedit, Node.exists?_eq_false_iff.mpr hnone, content, ?_⟩)⟩
      rwa [Node.at?_eq_ok_iff, Path.segments_parent]

def oneFile : State :=
  ⟨Session.start "user" "webterm" "/" true, ⟨Node.directory [("a", .file "1")], []⟩, .epoch⟩

/-- A move into a directory that is missing, and a new file below a file: the source of the one is there,
and what the other names cannot be printed. -/
theorem run_blames_elsewhere :
    mv.run .standard ["a", "n/x"] oneFile = .error (.files "mv" "a" (.noSuchEntry "/n")) oneFile ∧
      oneFile.volume.root.exists? "/a" = true ∧ oneFile.volume.root.exists? "/n" = false ∧
      touch.run .standard ["a/x"] oneFile = .error (.files "touch" "a/x" (.notADirectory "/a")) oneFile ∧
      Command.cat ["a/x"] oneFile = .error (.files "cat" "a/x" (.noSuchEntry "/a/x")) oneFile ∧
      ∃ content, oneFile.volume.root.at? "/a" = .ok (.file content) := by
  have hcurrent : oneFile.volume.root.at? oneFile.session.current = .ok (.directory [("a", .file "1")]) := rfl
  have hmv : mv.run .standard ["a", "n/x"] oneFile =
      .error (.files "mv" "a" (.noSuchEntry "/n")) oneFile := rfl
  have htouch : touch.run .standard ["a/x"] oneFile =
      .error (.files "touch" "a/x" (.notADirectory "/a")) oneFile := rfl
  have hthere : oneFile.volume.root.exists? "/a" = true := by decide
  have hbelow : Command.cat ["a/x"] oneFile = .error (.files "cat" "a/x" (.noSuchEntry "/a/x")) oneFile := rfl
  obtain ⟨hmissing, _⟩ := run_blames .standard mv _ hcurrent hmv
  obtain ⟨_, hbarred⟩ := run_blames .standard touch _ hcurrent htouch
  have hlost := (hmissing ⟨_, rfl⟩).resolve_left fun hnone => nomatch hthere.symm.trans hnone
  have hfile := (hbarred ⟨_, rfl⟩).resolve_left fun ⟨lines, hprinted⟩ => nomatch hbelow.symm.trans hprinted
  obtain ⟨_, _, target, hgiven, hgoal⟩ := hlost
  cases hgiven
  obtain ⟨_, _, content, habove⟩ := hfile.resolve_right nofun
  exact ⟨hmv, hthere, hgoal.resolve_right (by decide), htouch, hbelow, content, habove⟩

end Builtin

end VirtualShell
