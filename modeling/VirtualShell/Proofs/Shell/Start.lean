import VirtualShell.Proofs.State.Steps
import VirtualShell.Shell

/-! # The start of a shell

The directories on the way to the home directory are created if they are missing, one inside the other.
-/

namespace VirtualShell.State

variable {state : State} {store : Store}

theorem ensureDirectories_cons {current name : String} {names : List String} {volume : Volume} {u : Unit}
    (hmissing : state.volume.root.exists? (Path.resolve current name) = false)
    (hcreated : Edit.createDirectory current name state.volume = .ok u volume) :
    state.ensureDirectories current (name :: names) =
      ensureDirectories (Path.resolve current name) names { state with volume } := by
  simp only [ensureDirectories, hmissing, hcreated, Bool.false_eq_true, if_false]

/-- A name that a directory does not list can be created there, and leads to an empty directory. -/
theorem createDirectory_inside {current name : String} {entries : Entries Node} {volume : Volume}
    (hname : Path.IsName name) (hdot : name ≠ ".") (hdots : name ≠ "..")
    (hcurrent : volume.root.lookup (Path.segments current) = some (.directory entries))
    (hfree : entries.get? name = none) :
    volume.root.exists? (Path.resolve current name) = false ∧
      ∃ after, Edit.createDirectory current name volume = .ok () after ∧
        after.root.lookup (Path.segments (Path.resolve current name)) = some .empty := by
  have hnext := Path.segments_resolve_of_isName hname hdot hdots current
  have hne : Path.segments (Path.resolve current name) ≠ [] := by simp [hnext]
  have hmissing : volume.root.lookup (Path.segments (Path.resolve current name)) = none := by
    rw [hnext, Node.lookup_append_of_some hcurrent, Node.lookup_cons_directory, hfree, Option.bind_none]
  have hparent : volume.root.lookup (Path.segments (Path.resolve current name)).dropLast =
      some (.directory entries) := by
    rw [hnext, List.dropLast_concat]
    exact hcurrent
  have hcreated : Edit.createDirectory current name volume = .ok () (volume.saved
      (volume.root.insertAt (Path.segments (Path.resolve current name)) .empty)) :=
    Edit.create_eq_ok_iff.mpr ⟨hne, ⟨entries, hparent⟩, hmissing, rfl⟩
  have hempty := Node.lookup_insertAt_below hne hparent .empty []
  rw [List.append_nil] at hempty
  refine ⟨Node.exists?_eq_false_iff.mpr hmissing, _, hcreated, ?_⟩
  rw [Volume.root_saved]
  exact hempty

/-- Directories that are missing are created one inside the other. -/
theorem lookup_ensureDirectories {names : List String}
    (hnames : ∀ name ∈ names, Path.IsName name ∧ name ≠ "." ∧ name ≠ "..") {current : String}
    {entries : Entries Node}
    (hcurrent : state.volume.root.lookup (Path.segments current) = some (.directory entries))
    (hfree : ∀ name ∈ names.head?, entries.get? name = none) :
    ∃ inner, (state.ensureDirectories current names).volume.root.lookup (Path.segments current ++ names) =
      some (.directory inner) := by
  induction names generalizing current state entries with
  | nil =>
      rw [List.append_nil]
      exact ⟨entries, hcurrent⟩
  | cons name names ih =>
      rw [List.forall_mem_cons] at hnames
      obtain ⟨⟨hname, hdot, hdots⟩, hrest⟩ := hnames
      obtain ⟨hmissing, volume, hcreated, hempty⟩ :=
        createDirectory_inside hname hdot hdots hcurrent (hfree name (by simp))
      let next : State := { state with volume }
      have hplace : next.volume.root.lookup (Path.segments (Path.resolve current name)) =
        some (.directory []) := hempty
      have hfound := ih hrest hplace fun _ _ => rfl
      rw [Path.segments_resolve_of_isName hname hdot hdots, List.append_assoc] at hfound
      rw [ensureDirectories_cons hmissing hcreated]
      exact hfound

theorem volume_standIn (home start : String) (state : State) :
    (state.standIn home start).volume = state.volume := by
  unfold standIn
  split <;> rfl

theorem root_addAlias (state : State) (definition : String × String) :
    (state.addAlias definition).volume.root = state.volume.root := by
  unfold addAlias
  split
  · rfl
  · rw [setAlias, root_setAliases]

theorem root_foldl_addAlias (state : State) (definitions : List (String × String)) :
    (definitions.foldl addAlias state).volume.root = state.volume.root := by
  induction definitions generalizing state with
  | nil => rfl
  | cons definition definitions ih => rw [List.foldl_cons, ih, root_addAlias]

theorem session_ensureDirectories (current : String) (names : List String) (state : State) :
    (state.ensureDirectories current names).session = state.session := by
  induction names generalizing current state with
  | nil => rfl
  | cons name names ih =>
      unfold ensureDirectories
      dsimp only
      split
      · exact ih _ _
      · split
        · exact ih _ _
        · rfl

theorem lookup_home (options : Options) (now : Moment)
    (hfresh : (store.read? Save.filesKey).bind Node.ofBlob? = none)
    (hnames : ∀ name ∈ Path.segments options.home, name ≠ "." ∧ name ≠ "..")
    (hfree : ∀ name ∈ (Path.segments options.home).head?, Node.seed.lookup [name] = none) :
    ∃ inner, (restore options now store).volume.root.lookup (Path.segments options.home) =
      some (.directory inner) := by
  have hall : ∀ name ∈ Path.segments options.home, Path.IsName name ∧ name ≠ "." ∧ name ≠ ".." :=
    fun name hname => ⟨Path.isName_of_mem_segments hname, hnames name hname⟩
  obtain ⟨entries, hseed⟩ : ∃ entries : Entries Node, Node.seed = .directory entries := ⟨_, rfl⟩
  have hempty : ∀ name ∈ (Path.segments options.home).head?, entries.get? name = none := by
    intro name hname
    have hlookup := hfree name hname
    rw [hseed, Node.lookup_cons_directory] at hlookup
    cases hget : Entries.get? name entries with
    | none => rfl
    | some node => simp [hget, Node.lookup] at hlookup
  unfold restore
  dsimp only
  rw [volume_standIn]
  have hroot : ((options.aliases.foldl addAlias (opened options now store)).volume.root).lookup
      (Path.segments "/") = some (.directory entries) := by
    rw [Table.foldl, root_foldl_addAlias, opened, Volume.restore, hfresh, Path.segments_slash, Node.lookup_nil,
      ← hseed]
    rfl
  have hfound := lookup_ensureDirectories hall hroot hempty
  rw [Path.segments_slash, List.nil_append] at hfound
  exact hfound

end VirtualShell.State
