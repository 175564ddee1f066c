import VirtualShell.Proofs.Shell.Mirror
import VirtualShell.Proofs.Shell.Start

/-! # Restarting a shell

A shell that starts over the store that another shell leaves finds the tree of that shell again, or loses
it if it is too deep.
-/

namespace VirtualShell.Shell

variable {store : Store}

/-- A shell that starts over a reliable store leaves a tree there that is restored as it is, without a save,
exactly if no node of it is more than 62 levels below the root.  Any deeper tree is lost: the seed tree
comes back and is saved in its place. -/
theorem restore_run (options : Options) (now : Moment) (hreliable : store.Reliable)
    (inputs : List (Moment × String)) :
    let shell := (start options now store).1.run inputs
    (Volume.restore shell.store = ⟨⟨shell.state.volume.root, shell.store⟩, []⟩ ↔
        ∀ names node, shell.state.volume.root.lookup names = some node → names.length ≤ 62) ∧
      (Volume.restore shell.store ≠ ⟨⟨shell.state.volume.root, shell.store⟩, []⟩ →
        Volume.restore shell.store =
          ⟨⟨.seed, shell.store.carryOut (.files .seed)⟩, [.files .seed]⟩) := by
  intro shell
  rcases read_files_run options now hreliable inputs with ⟨hread, hshallow⟩ | ⟨hread, names, node, hnode, hdeep⟩
  · have hrestore : Volume.restore shell.store = ⟨⟨shell.state.volume.root, shell.store⟩, []⟩ := by
      rw [Volume.restore, hread]
    exact ⟨iff_of_true hrestore hshallow, fun hne => absurd hrestore hne⟩
  · have hrestore : Volume.restore shell.store =
        ⟨⟨.seed, shell.store.carryOut (.files .seed)⟩, [.files .seed]⟩ := by
      rw [Volume.restore, hread]
      rfl
    refine ⟨iff_of_false (fun hkept => ?_) fun hshallow => ?_, fun _ => hrestore⟩
    · -- the seed tree is saved at once, so even a tree equal to it does not come back without a save
      cases congrArg Volume.journal (hrestore.symm.trans hkept)
    · exact absurd (hshallow names node hnode) (Nat.not_le_of_lt hdeep)

theorem root_start (options : Options) (now : Moment) (store : Store) :
    (start options now store).1.state.volume.root = (State.restore options now store).volume.root := by
  simp only [start, settle, State.settled]

/-- A shell whose home directory is 63 levels deep loses its tree at the next start. -/
theorem restore_run_deep :
    ∃ (options : Options) (store : Store), store.Reliable ∧
      (store.read? Save.filesKey).bind Node.ofBlob? = none ∧
      let shell := (start options .epoch store).1.run []
      (∃ node, shell.state.volume.root.lookup (List.replicate 63 "d") = some node) ∧
        Volume.restore shell.store =
          ⟨⟨.seed, shell.store.carryOut (.files .seed)⟩, [.files .seed]⟩ := by
  let store : Store := .memory .empty
  have hreliable : store.Reliable := Store.reliable_memory (by decide)
  have hfresh : (store.read? Save.filesKey).bind Node.ofBlob? = none := rfl
  obtain ⟨names, hnames⟩ : ∃ names, names = List.replicate 63 "d" := ⟨_, rfl⟩
  have hname : ∀ name ∈ names, name = "d" := by
    rw [hnames]
    exact fun name => List.eq_of_mem_replicate
  obtain ⟨options, hhome⟩ : ∃ options : Options, Path.segments options.home = names := by
    refine ⟨{ home := Path.ofSegments names }, Path.segments_ofSegments fun name hmem => ?_⟩
    rw [hname name hmem]
    exact ⟨by decide, by decide⟩
  have hdeep : ∃ node, ((start options .epoch store).1.run []).state.volume.root.lookup names =
      some node := by
    have hfound := State.lookup_home options .epoch hfresh
    rw [hhome] at hfound
    obtain ⟨inner, hinner⟩ := hfound
      (fun name hmem => by rw [hname name hmem]; decide)
      (fun name hmem => by rw [hname name (List.mem_of_mem_head? hmem)]; decide)
    rw [run_nil, root_start]
    exact ⟨_, hinner⟩
  refine ⟨options, store, hreliable, hfresh, hnames ▸ hdeep, ?_⟩
  obtain ⟨hiff, hlost⟩ := restore_run options .epoch hreliable []
  refine hlost fun hkept => ?_
  obtain ⟨node, hnode⟩ := hdeep
  have hlength := hiff.mp hkept names node hnode
  rw [hnames, List.length_replicate] at hlength
  omega

end VirtualShell.Shell
