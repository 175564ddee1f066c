import VirtualShell.Proofs.Files.Addresses
import VirtualShell.Proofs.Files.Naming
import VirtualShell.Proofs.Run.Steps

/-! # The shape of the tree over a run

No line of input can spoil a well-formed tree, whatever its commands, operands and aliases are and
wherever the session stands.  So after any run every node is found under its absolute path.
-/

namespace VirtualShell

namespace State

theorem step_wellFormed (part : Part) (before after : State) (hstep : Step part before after)
    (h : before.volume.root.WellFormed) : after.volume.root.WellFormed := by
  obtain ⟨hdirectory, hnamed⟩ := State.step_named (fun _ hname => hname) hstep ⟨h.directory, h.named⟩
  exact ⟨hdirectory, hnamed⟩

end State

namespace Interpreter

theorem run_wellFormed {state : State} (h : state.volume.root.WellFormed) (registry : Registry)
    (inputs : List (Moment × String)) : (run registry inputs state).volume.root.WellFormed :=
  run_preserves (fun state => state.volume.root.WellFormed) State.step_wellFormed
    (fun _ _ hbefore => hbefore) h registry inputs

/-- A well-formed tree is well-formed after every run, and then a node stands in it exactly where the
absolute path made of the names above the node leads. -/
theorem run_addressed {state : State} (h : state.volume.root.WellFormed) (registry : Registry)
    (inputs : List (Moment × String)) :
    let root := (run registry inputs state).volume.root
    root.WellFormed ∧ ∀ names node, Node.Occurs names node root ↔
      (∀ name ∈ names, Path.IsName name) ∧ root.at? (Path.ofSegments names) = .ok node := by
  intro root
  have hroot : root.WellFormed := run_wellFormed h registry inputs
  exact ⟨hroot, fun _ _ => Node.occurs_iff_at? hroot.named⟩

/-- The session stands in no directory, and the lines move and remove what is named in odd ways. -/
theorem run_addressed_astray :
    ∃ state : State, state.volume.root.WellFormed ∧ state.session.current = "/gone" ∧
      let root := (run .standard
        [(.epoch, "m /a/b '' && rmdir /a/"), (.epoch, "touch // ; mv 'c d' ..")] state).volume.root
      root.WellFormed ∧ ∀ names node, Node.Occurs names node root ↔
        (∀ name ∈ names, Path.IsName name) ∧ root.at? (Path.ofSegments names) = .ok node := by
  let root : Node := .directory [("a", .directory [("b", .file "1")]), ("c d", .file "2")]
  let session : Session :=
    { Session.start "user" "webterm" "/gone" false with aliases := .ofList [("m", "mv")] }
  let state : State := ⟨session, ⟨root, []⟩, .epoch⟩
  have hroot : state.volume.root.WellFormed :=
    ⟨rfl, by simp [state, root, Node.Named.directory_iff, Node.Named.file, Path.IsName]⟩
  refine ⟨state, hroot, rfl, ?_⟩
  exact run_addressed hroot .standard _

end Interpreter

end VirtualShell
