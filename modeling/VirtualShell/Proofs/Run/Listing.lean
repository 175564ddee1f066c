import VirtualShell.Proofs.Run.Chains
import VirtualShell.Proofs.Run.Shape
import VirtualShell.Tree.Node

/-! # Listed entries by name

What a directory lists is found under its absolute path, after every run.  From the directory itself the
bare name leads there as well, unless it is a name of dots: these two are read as directions, although
a longer path can give them to an entry.
-/

namespace VirtualShell

namespace Node

theorem seed_wellFormed : seed.WellFormed where
  directory := rfl
  named := by simp [seed, empty, Named.directory_iff, Named.file, Path.IsName]

variable {root node : Node} {directory name : String} {entries : Entries Node}

theorem list_eq_ok_iff {listing : List (String × Kind)} :
    root.list directory = .ok listing ↔ ∃ entries, root.at? directory = .ok (.directory entries) ∧
      listing = entries.map fun (name, node) => (name, node.kind) := by
  unfold list entriesAt
  cases root.at? directory with
  | error e => simp [Except.map]
  | ok node => cases node <;> simp [Except.map, eq_comm]

theorem lookup_ne_of_prefix {names place : List String} (hplace : names <+: place)
    (hdirectory : root.lookup place = some (.directory entries)) (hlisted : (name, node) ∈ entries) :
    root.lookup names ≠ some node := by
  obtain ⟨later, rfl⟩ := hplace
  intro hnode
  rw [lookup_append_of_some hnode] at hdirectory
  have hdown := height_add_length_le hdirectory
  have hentry : node.height + 1 ≤ levels entries :=
    levels_le_iff.mp (Nat.le_refl (levels entries)) _ hlisted
  rw [height_directory] at hdown
  omega

section Listed

variable (hroot : root.Named Path.IsName) (hdirectory : root.at? directory = .ok (.directory entries))
  (hlisted : (name, node) ∈ entries)

include hroot hdirectory hlisted

theorem isName_of_listed : Path.IsName name := by
  rw [at?_eq_ok_iff] at hdirectory
  obtain ⟨_, known, _⟩ := Named.directory_iff.mp (hroot.lookup hdirectory)
  exact known name (Entries.mem_names_of_mem hlisted)

theorem lookup_of_listed : root.lookup (Path.segments directory ++ [name]) = some node := by
  rw [at?_eq_ok_iff] at hdirectory
  obtain ⟨once, _, _⟩ := Named.directory_iff.mp (hroot.lookup hdirectory)
  rw [lookup_append_of_some hdirectory, lookup_cons_directory, Entries.get?_of_mem once hlisted,
    Option.bind_some, lookup_nil]

theorem at?_child_of_listed : root.at? (Path.child directory name) = .ok node := by
  have hname : Path.segments name = [name] :=
    Path.segments_of_isName (isName_of_listed hroot hdirectory hlisted)
  rw [at?_eq_ok_iff, Path.segments_child, hname]
  exact lookup_of_listed hroot hdirectory hlisted

/-- From its directory an entry is found under its name, unless the name is a direction. -/
theorem at?_resolve_listed_iff :
    root.at? (Path.resolve directory name) = .ok node ↔ name ≠ "." ∧ name ≠ ".." := by
  have hname := isName_of_listed hroot hdirectory hlisted
  have hnode := lookup_of_listed hroot hdirectory hlisted
  rw [at?_eq_ok_iff] at hdirectory ⊢
  constructor
  · intro hfound
    constructor
    · rintro rfl
      rw [Path.resolve_dot] at hfound
      exact lookup_ne_of_prefix List.prefix_rfl hdirectory hlisted hfound
    · rintro rfl
      rw [Path.resolve_dots, Path.segments_parent] at hfound
      exact lookup_ne_of_prefix (List.dropLast_prefix _) hdirectory hlisted hfound
  · rintro ⟨hdot, hdots⟩
    rw [Path.segments_resolve_of_isName hname hdot hdots]
    exact hnode

end Listed

end Node

namespace Interpreter

/-- After a run that began with the seed tree, a directory lists its entries by name and kind, and each
of them is the node under its absolute path.  From the directory the bare name of an entry leads to
exactly that node, unless the name is one or two dots. -/
theorem run_listed {state : State} (h : state.volume.root = .seed) (registry : Registry)
    (inputs : List (Moment × String)) :
    let root := (run registry inputs state).volume.root
    ∀ directory listing, root.list directory = .ok listing →
      ∃ entries, root.at? directory = .ok (.directory entries) ∧
        listing = entries.map (fun (name, node) => (name, node.kind)) ∧
        ∀ name node, (name, node) ∈ entries →
          root.at? (Path.child directory name) = .ok node ∧
          (root.at? (Path.resolve directory name) = .ok node ↔ name ≠ "." ∧ name ≠ "..") := by
  intro root directory listing hlist
  have hseed : state.volume.root.WellFormed := h ▸ Node.seed_wellFormed
  have hroot : root.WellFormed := run_wellFormed hseed registry inputs
  obtain ⟨entries, hdirectory, hlisting⟩ := Node.list_eq_ok_iff.mp hlist
  refine ⟨entries, hdirectory, hlisting, fun name node hlisted => ⟨?_, ?_⟩⟩
  · exact Node.at?_child_of_listed hroot.named hdirectory hlisted
  · exact Node.at?_resolve_listed_iff hroot.named hdirectory hlisted

def seeded : State := ⟨Session.start "user" "webterm" "/home/user" true, ⟨Node.seed, []⟩, .epoch⟩

def touchDots : String := "touch /tmp/.. /tmp/a"

theorem run_touchDots :
    run .standard [(.epoch, touchDots)] seeded =
      (runCommand .standard Input.aliasDepth [] touchDots (seeded.atTime .epoch)).2 := by
  have hshape : Input.shape touchDots = .single touchDots := by decide
  rw [run, List.foldl_cons, List.foldl_nil, execute, runLine_of_single hshape]

theorem run_listed_touched :
    let root := (run .standard [(.epoch, touchDots)] seeded).volume.root
    root.list "/tmp" = .ok [("..", .file), ("a", .file)] ∧
      root.at? (Path.child "/tmp" "..") = .ok (.file "") ∧
      root.at? (Path.resolve "/tmp" "..") ≠ .ok (.file "") ∧
      root.at? (Path.resolve "/tmp" "a") = .ok (.file "") := by
  intro root
  have hlist : root.list "/tmp" = .ok [("..", .file), ("a", .file)] := by
    simp only [root, run_touchDots]
    decide +kernel
  have hentries : root.at? "/tmp" = .ok (.directory [("..", .file ""), ("a", .file "")]) := by
    simp only [root, run_touchDots]
    decide +kernel
  obtain ⟨entries, hdirectory, _, hnamed⟩ := run_listed rfl .standard [(.epoch, touchDots)] "/tmp" _ hlist
  cases hentries.symm.trans hdirectory
  have hdots := hnamed ".." (.file "") (by simp)
  have hplain := hnamed "a" (.file "") (by simp)
  refine ⟨hlist, hdots.1, fun hfound => ?_, hplain.2.mpr (by decide)⟩
  exact (hdots.2.mp hfound).2 rfl

/-- A listed entry that cannot be named from its directory. -/
theorem run_hides_dots :
    let root := (run .standard [(.epoch, touchDots)] seeded).volume.root
    root.list "/tmp" = .ok [("..", .file), ("a", .file)] ∧
      root.at? "/tmp" = .ok (.directory [("..", .file ""), ("a", .file "")]) ∧
      root.at? (Path.resolve "/tmp" "..") = .ok root ∧ root ≠ .file "" := by
  intro root
  simp only [root, run_touchDots]
  decide +kernel

end Interpreter

end VirtualShell
