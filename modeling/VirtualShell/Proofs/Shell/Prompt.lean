import VirtualShell.Proofs.Shell.Standing

/-! # The directory in the prompt

The prompt shows the working directory as a text that leads back to it, whatever the home directory and
the names below it look like.  So different working directories are shown differently.
-/

namespace VirtualShell

namespace Path

variable {path other directory : String}

theorem IsCanonical.eq_of_segments (h : IsCanonical path) (hother : IsCanonical other)
    (hsegments : segments path = segments other) : path = other :=
  bijOn_segments.injOn h.canonical_eq hother.canonical_eq hsegments

/-- The entry of an absolute directory is absolute, even if the directory is nothing but slashes. -/
theorem head?_child (h : directory.toList.head? = some '/') (name : String) :
    (child directory name).toList.head? = some '/' := by
  unfold child
  split
  · simp
  · have hkept : (directory.toList.reverse.dropWhile (· = '/')).reverse <+: directory.toList := by
      rw [← List.reverse_suffix, List.reverse_reverse]
      exact List.dropWhile_suffix _
    rw [String.toList_append, String.toList_append, String.toList_ofList]
    cases hfront : (directory.toList.reverse.dropWhile (· = '/')).reverse with
    | nil => rfl
    | cons c front =>
        obtain ⟨back, hback⟩ := hfront ▸ hkept
        rw [← hback] at h
        exact h

end Path

namespace Session

variable {session : Session}

/-- What the prompt shows is the home directory, a place below it, or the path itself. -/
theorem shownDirectory_cases (session : Session) :
    session.current = session.home ∧ session.shownDirectory = "~" ∨
      (∃ rest, session.current = session.home ++ "/" ++ rest ∧ session.shownDirectory = "~/" ++ rest) ∨
      session.shownDirectory = session.current := by
  unfold shownDirectory
  dsimp only
  split
  · rename_i hhome
    exact .inl ⟨hhome, rfl⟩
  · split
    · rename_i hbelow
      obtain ⟨rest, hrest⟩ := List.isPrefixOf_iff_prefix.mp hbelow
      refine .inr (.inl ⟨String.ofList rest, ?_, ?_⟩)
      · apply String.toList_injective
        rw [String.toList_append, String.toList_ofList, hrest]
      · rw [← hrest, List.drop_left]
    · exact .inr (.inr rfl)

theorem prompt_inj {other : Session} (huser : other.user = session.user) (hhost : other.host = session.host) :
    other.prompt = session.prompt ↔ other.shownDirectory = session.shownDirectory := by
  unfold prompt
  rw [huser, hhost, String.append_left_inj, String.append_right_inj]

end Session

namespace Command

variable {session : Session} {operand : String}

theorem directoryOperand_of_absolute (h : operand.toList.head? = some '/') :
    directoryOperand session operand = (operand, false) := by
  unfold directoryOperand
  split <;> simp_all

theorem directoryOperand_below_home (rest : String) :
    directoryOperand session ("~/" ++ rest) = (Path.child session.home rest, false) := by
  have htext : ("~/" ++ rest).toList = '~' :: '/' :: rest.toList := by
    rw [String.toList_append]
    rfl
  unfold directoryOperand
  rw [htext]
  simp only [String.ofList_toList]

/-- In every session with the same home directory the shown directory stands for an absolute path with the
segments of the working directory. -/
theorem directoryOperand_shownDirectory (hhome : session.home.toList.head? = some '/')
    (hcurrent : session.current.toList.head? = some '/') :
    ∃ target, target.toList.head? = some '/' ∧ Path.segments target = Path.segments session.current ∧
      ∀ other : Session, other.home = session.home →
        directoryOperand other session.shownDirectory = (target, false) := by
  rcases session.shownDirectory_cases with ⟨heq, hshown⟩ | ⟨rest, heq, hshown⟩ | hshown
  · refine ⟨session.home, hhome, by rw [heq], fun other hother => ?_⟩
    rw [hshown, ← hother]
    rfl
  · refine ⟨Path.child session.home rest, Path.head?_child hhome rest, ?_, fun other hother => ?_⟩
    · rw [heq, Path.segments_child, Path.segments_append_slash]
    · rw [hshown, ← hother]
      exact directoryOperand_below_home rest
  · refine ⟨session.current, hcurrent, rfl, fun other _ => ?_⟩
    rw [hshown]
    exact directoryOperand_of_absolute hcurrent

end Command

namespace Builtin

variable {state : State}

/-- The directory that the prompt shows leads where one is, and as long as the user, the host and the home
directory stay the same no other directory has the same prompt. -/
theorem cd_shownDirectory (registry : Registry) (hhome : state.session.home.toList.head? = some '/')
    (hcurrent : Path.IsCanonical state.session.current)
    (hthere : state.volume.root.HasDirectory state.session.current) :
    let shown := state.session.shownDirectory
    state.session.prompt = state.session.user ++ "@" ++ state.session.host ++ ":" ++ shown ++ "$" ∧
      run registry .cd [shown] state =
        .ok [] { state with session := state.session.changeDirectory state.session.current } ∧
      ∀ other : Session, other.user = state.session.user → other.host = state.session.host →
        other.home = state.session.home → Path.IsCanonical other.current →
          other.prompt = state.session.prompt → other.current = state.session.current := by
  intro shown
  obtain ⟨target, habsolute, hsegments, hoperand⟩ :=
    Command.directoryOperand_shownDirectory hhome hcurrent.absolute
  refine ⟨rfl, ?_, ?_⟩
  · have hresolve : Path.resolve state.session.current target = target := if_pos habsolute
    have hfound : state.volume.root.changePath state.session.current target =
        .ok state.session.current := by
      rw [Node.changePath_eq_ok_iff, hresolve, Node.hasDirectory_congr hsegments,
        Path.canonical_eq_iff.mpr hsegments, hcurrent.canonical_eq]
      exact ⟨hthere, rfl⟩
    exact Command.cd_eq_ok (hoperand state.session rfl) hfound
  · intro other huser hhost hsame hother hprompt
    obtain ⟨goal, _, hplace, hgoal⟩ := Command.directoryOperand_shownDirectory (hsame ▸ hhome) hother.absolute
    have hshown := (Session.prompt_inj huser hhost).mp hprompt
    have heq : goal = target := by
      have hboth := hgoal other rfl
      rw [hshown, hoperand other hsame] at hboth
      exact congrArg Prod.fst hboth.symm
    exact hother.eq_of_segments hcurrent (by rw [← hplace, heq, hsegments])

/-- The name of the home directory begins the name of another one, and a directory in it is called like the
way back. -/
theorem cd_shownDirectory_dash :
    let session := { Session.start "user" "webterm" "/a" false with current := "/a/-" }
    let root := Node.directory [("a", .directory [("-", .directory [])]), ("ab", .directory [])]
    let state : State := ⟨session, ⟨root, []⟩, .epoch⟩
    run .standard .cd ["~/-"] state = .ok [] { state with session := session.changeDirectory "/a/-" } ∧
      Session.prompt { session with current := "/ab" } ≠ session.prompt := by
  intro session root state
  have hshown : session.shownDirectory = "~/-" := by decide
  have hhome : state.session.home.toList.head? = some '/' := by decide
  have hcurrent : Path.IsCanonical state.session.current := ⟨by decide, by decide⟩
  have hbeside : Path.IsCanonical "/ab" := ⟨by decide, by decide⟩
  have hplace : root.lookup (Path.segments "/a/-") = some (.directory []) := by rfl
  have hthere : state.volume.root.HasDirectory state.session.current :=
    ⟨[], Node.entriesAt_eq_ok_iff.mpr hplace⟩
  obtain ⟨_, hdone, hdifferent⟩ := cd_shownDirectory .standard hhome hcurrent hthere
  rw [← hshown]
  refine ⟨hdone, fun hprompt => ?_⟩
  have hsame := hdifferent { session with current := "/ab" } rfl rfl rfl hbeside hprompt
  exact absurd hsame (by decide)

end Builtin

end VirtualShell
