import VirtualShell.Proofs.Files.Edits

/-! # Why edits are refused

What the tree is like when a question or an edit is refused because there is no such entry, or because
something is not a directory.
-/

namespace VirtualShell

namespace FileError

/-- What the error says is so of a place in a tree: nothing is there, or a file is there. -/
def TrueAt (root : Node) (names : List String) : FileError → Prop
  | noSuchEntry _ => root.lookup names = none
  | notADirectory _ => ∃ content, root.lookup names = some (.file content)
  | _ => True

/-- What the error says is so of a place, or nothing is there and a file is right above. -/
def TrueNear (root : Node) (names : List String) (e : FileError) : Prop :=
  e.TrueAt root names ∨ (∃ path, e = notADirectory path) ∧ root.lookup names = none ∧
    ∃ content, root.lookup names.dropLast = some (.file content)

end FileError

namespace Node

variable {root : Node} {current name path : String} {e : FileError}

theorem trueAt_of_at? (h : root.at? path = .error e) : e.TrueAt root (Path.segments path) := by
  unfold at? at h
  split at h
  · cases h
  · rename_i hnone
    cases h
    exact hnone

theorem trueAt_of_entriesAt (h : root.entriesAt path = .error e) : e.TrueAt root (Path.segments path) := by
  unfold entriesAt at h
  split at h
  · cases h
  · rename_i content hfile
    cases h
    exact ⟨content, at?_eq_ok_iff.mp hfile⟩
  · rename_i cause hnone
    cases h
    exact trueAt_of_at? hnone

theorem trueAt_of_list (h : root.list path = .error e) : e.TrueAt root (Path.segments path) := by
  unfold list at h
  cases hentries : root.entriesAt path with
  | ok entries =>
      rw [hentries] at h
      cases h
  | error cause =>
      rw [hentries] at h
      cases h
      exact trueAt_of_entriesAt hentries

theorem trueAt_of_changePath (h : root.changePath current name = .error e) :
    e.TrueAt root (Path.segments (Path.resolve current name)) := by
  unfold changePath at h
  dsimp only at h
  cases hentries : root.entriesAt (Path.resolve current name) with
  | ok entries =>
      rw [hentries] at h
      cases h
  | error cause =>
      rw [hentries] at h
      cases h
      exact trueAt_of_entriesAt hentries

theorem trueAt_of_contentOf (h : root.contentOf current name = .error e) :
    e.TrueAt root (Path.segments (Path.resolve current name)) := by
  unfold contentOf at h
  dsimp only at h
  split at h
  · cases h
  · cases h
    trivial
  · rename_i cause hnone
    cases h
    exact trueAt_of_at? hnone

/-- Below a file there is nothing, so what bars the way to a place is right above it. -/
theorem trueNear_of_entriesAt_parent (h : root.entriesAt (Path.parent path) = .error e) :
    e.TrueNear root (Path.segments path) := by
  by_cases hne : Path.segments path = []
  · have hroot : Path.segments (Path.parent path) = Path.segments path := by
      rw [Path.segments_parent, hne]
      rfl
    exact .inl (hroot ▸ trueAt_of_entriesAt h)
  have habove := trueAt_of_entriesAt h
  rw [Path.segments_parent] at habove
  have hmissing : (∀ entries, root.lookup (Path.segments path).dropLast ≠ some (.directory entries)) →
      root.lookup (Path.segments path) = none := by
    intro hbarred
    rw [← Path.dropLast_append_base hne, lookup_append]
    cases hparent : root.lookup (Path.segments path).dropLast with
    | none => rfl
    | some node =>
        cases node with
        | file content => rfl
        | directory entries => exact absurd hparent (hbarred entries)
  cases e with
  | noSuchEntry missing =>
      exact .inl (hmissing fun entries hentries => nomatch hentries.symm.trans habove)
  | notADirectory barred =>
      obtain ⟨content, hfile⟩ := habove
      refine .inr ⟨⟨barred, rfl⟩, hmissing fun entries hentries => ?_, content, hfile⟩
      exact nomatch hentries.symm.trans hfile
  | _ => exact .inl trivial

end Node

namespace Edit

variable {α β : Type} {volume : Volume} {allowed : FileError → Prop}

/-! ## Steps of an edit -/

/-- From the volume the edit only fails with allowed errors. -/
def FailsFrom (volume : Volume) (allowed : FileError → Prop) (edit : Edit α) : Prop :=
  ∀ e after, edit volume = .error e after → allowed e

theorem failsFrom_throw {e : FileError} (he : allowed e) : (throw e : Edit α).FailsFrom volume allowed := by
  intro other after h
  cases h
  exact he

theorem failsFrom_guard {c : Prop} [Decidable c] {e : FileError} {next : Edit β} (he : c → allowed e)
    (hnext : ¬ c → next.FailsFrom volume allowed) :
    (if c then (throw e : Edit PUnit) >>= fun _ => next else next).FailsFrom volume allowed := by
  split
  · rename_i hc
    intro other after h
    rw [throw_bind] at h
    cases h
    exact he hc
  · rename_i hc
    exact hnext hc

theorem failsFrom_ask_bind {question : Node → Except FileError α} {next : α → Edit β}
    (hrefused : ∀ e, question volume.root = .error e → allowed e)
    (hnext : ∀ a, question volume.root = .ok a → (next a).FailsFrom volume allowed) :
    (ask question >>= next).FailsFrom volume allowed := by
  intro e after h
  rw [ask_bind] at h
  cases hanswer : question volume.root with
  | error cause =>
      rw [hanswer] at h
      cases h
      exact hrefused e hanswer
  | ok a =>
      rw [hanswer] at h
      exact hnext a hanswer e after h

theorem failsFrom_commit (path : String) (entries : Entries Node) :
    (setEntries path entries >>= fun _ => save).FailsFrom volume allowed := nofun

/-- An edit that looks into the directory of a path is refused there for what bars the way, and else goes
on with what stands under the path. -/
theorem failsFrom_ask_parent_bind {path : String} {next : Entries Node → Edit β}
    (hne : ¬ (Path.segments path).isEmpty)
    (hnext : ∀ entries : Entries Node,
      entries.get? (Path.base path) = volume.root.lookup (Path.segments path) →
        (next entries).FailsFrom volume fun e => e.TrueNear volume.root (Path.segments path)) :
    (ask (·.entriesAt (Path.parent path)) >>= next).FailsFrom volume
      fun e => e.TrueNear volume.root (Path.segments path) := by
  refine failsFrom_ask_bind (fun e => Node.trueNear_of_entriesAt_parent) fun entries hentries => ?_
  rw [Node.entriesAt_eq_ok_iff, Path.segments_parent] at hentries
  rw [List.isEmpty_iff] at hne
  exact hnext entries (Node.lookup_segments hne hentries).symm

/-! ## The edits -/

theorem create_refused (current name : String) (node : Node) :
    (create current name node).FailsFrom volume
      fun e => e.TrueNear volume.root (Path.segments (Path.resolve current name)) := by
  unfold create
  refine failsFrom_guard (fun _ => .inl trivial) fun hne => failsFrom_ask_parent_bind hne fun entries _ => ?_
  exact failsFrom_guard (fun _ => .inl trivial) fun _ => failsFrom_commit _ _

theorem deleteFile_refused (current name : String) :
    (deleteFile current name).FailsFrom volume
      fun e => e.TrueNear volume.root (Path.segments (Path.resolve current name)) := by
  unfold deleteFile
  refine failsFrom_guard (fun _ => .inl trivial) fun hne => ?_
  refine failsFrom_ask_parent_bind hne fun entries hget => ?_
  split
  · rename_i hnone
    exact failsFrom_throw (.inl (hget.symm.trans hnone))
  · exact failsFrom_throw (.inl trivial)
  · exact failsFrom_commit _ _

theorem deleteDirectory_refused (current name : String) :
    (deleteDirectory current name).FailsFrom volume
      fun e => e.TrueNear volume.root (Path.segments (Path.resolve current name)) := by
  unfold deleteDirectory
  refine failsFrom_guard (fun _ => .inl trivial) fun hne => ?_
  refine failsFrom_ask_parent_bind hne fun entries hget => ?_
  split
  · rename_i hnone
    exact failsFrom_throw (.inl (hget.symm.trans hnone))
  · rename_i content hfile
    exact failsFrom_throw (.inl ⟨content, hget.symm.trans hfile⟩)
  · exact failsFrom_throw (.inl trivial)
  · exact failsFrom_commit _ _

/-- What lands in a directory finds it, so only a destination that is no directory can bar the way. -/
theorem landing_eq_of_barred {root : Node} {start goal : List String}
    (h : ∀ entries, root.lookup (root.landing start goal).dropLast ≠ some (.directory entries)) :
    root.landing start goal = goal := by
  unfold Node.landing at h ⊢
  split at h
  · rename_i entries hgoal
    exfalso
    cases hlast : start.getLast? with
    | some name =>
        rw [hlast, Option.toList_some, List.dropLast_concat] at h
        exact h entries hgoal
    | none =>
        rw [hlast, Option.toList_none, List.append_nil] at h
        rcases List.eq_nil_or_concat' goal with rfl | ⟨above, name, rfl⟩
        · exact h entries hgoal
        · rw [List.dropLast_concat] at h
          rw [Node.lookup_append] at hgoal
          obtain ⟨node, habove, hname⟩ := Option.bind_eq_some_iff.mp hgoal
          cases node with
          | file content => simp at hname
          | directory others => exact h others habove
  · rfl

theorem trueNear_of_entriesAt_landing {root : Node} {path goal : String} {e : FileError}
    (h : root.entriesAt (Path.parent (landingPath root path goal)) = .error e) :
    e.TrueNear root (Path.segments goal) := by
  have hlanding : root.landing (Path.segments path) (Path.segments goal) = Path.segments goal := by
    refine landing_eq_of_barred fun entries hentries => ?_
    rw [← segments_landingPath, ← Path.segments_parent, ← Node.entriesAt_eq_ok_iff] at hentries
    cases hentries.symm.trans h
  have hnear := Node.trueNear_of_entriesAt_parent h
  rwa [segments_landingPath, hlanding] at hnear

section Copy

variable {current source destination content : String} {copied : Entries Node}

theorem copyFile_refused
    (hsource : volume.root.at? (Path.resolve current source) = .ok (.file content)) :
    (copyFile current source destination).FailsFrom volume
      fun e => e.TrueNear volume.root (Path.segments (Path.resolve current destination)) := by
  have hcontent : volume.root.contentOf current source = .ok content :=
    Node.contentOf_eq_ok_iff.mpr (Node.at?_eq_ok_iff.mp hsource)
  unfold copyFile
  refine failsFrom_ask_bind (fun e hrefused => nomatch hcontent.symm.trans hrefused) fun _ _ => ?_
  refine failsFrom_ask_bind (fun e hrefused => ?_) fun target htarget => ?_
  · split at hrefused <;> cases hrefused
  obtain rfl := landing_eq_ok_iff.mp htarget
  refine failsFrom_guard (fun _ => .inl trivial) fun _ => ?_
  refine failsFrom_ask_bind (fun e => trueNear_of_entriesAt_landing) fun entries _ => ?_
  split
  · exact failsFrom_throw (.inl trivial)
  · exact failsFrom_commit _ _

theorem copyDirectory_refused
    (hsource : volume.root.at? (Path.resolve current source) = .ok (.directory copied)) :
    (copyDirectory current source destination).FailsFrom volume
      fun e => e.TrueNear volume.root (Path.segments (Path.resolve current destination)) := by
  unfold copyDirectory
  refine failsFrom_ask_bind (fun e hrefused => nomatch hsource.symm.trans hrefused) fun node hnode => ?_
  cases hsource.symm.trans hnode
  refine failsFrom_guard (fun hfile => absurd hfile (by simp [Node.isDirectory])) fun _ => ?_
  refine failsFrom_ask_bind (fun e hrefused => ?_) fun target htarget => ?_
  · split at hrefused
    · cases hrefused
    · cases hrefused
      exact .inl trivial
    · cases hrefused
  obtain ⟨_, rfl⟩ := freeLanding_eq_ok_iff.mp htarget
  refine failsFrom_guard (fun _ => .inl trivial) fun _ => ?_
  refine failsFrom_ask_bind (fun e => trueNear_of_entriesAt_landing) fun entries _ => ?_
  exact failsFrom_guard (fun _ => .inl trivial) fun _ => failsFrom_commit _ _

end Copy

/-! ## Renaming and moving -/

/-- A rename in place is refused if its directory does not list the old name, which is then only looked
for among the entries. -/
theorem rename_refused {current old new : String} {entries : Entries Node}
    (hcurrent : volume.root.at? current = .ok (.directory entries)) :
    (rename current old new).FailsFrom volume
      fun e => (∀ barred, e ≠ .notADirectory barred) ∧
        ∀ missing, e = .noSuchEntry missing → entries.get? old = none := by
  have hentries : volume.root.entriesAt current = .ok entries :=
    Node.entriesAt_eq_ok_iff.mpr (Node.at?_eq_ok_iff.mp hcurrent)
  unfold rename
  refine failsFrom_ask_bind (fun e hrefused => nomatch hentries.symm.trans hrefused) fun listed hlisted => ?_
  cases hentries.symm.trans hlisted
  refine failsFrom_guard (fun hnone => ⟨nofun, fun _ _ => Option.isNone_iff_eq_none.mp hnone⟩) fun _ => ?_
  exact failsFrom_guard (fun _ => ⟨nofun, nofun⟩) fun _ => failsFrom_commit _ _

/-- A move is refused if nothing is at its source.  Otherwise the source is there, and what is missing or
bars the way is the directory of the destination. -/
theorem move_refused (current source destination : String) :
    (move current source destination).FailsFrom volume fun e =>
      volume.root.lookup (Path.segments (Path.resolve current source)) = none ∧
          (∃ missing, e = .noSuchEntry missing) ∨
        volume.root.lookup (Path.segments (Path.resolve current source)) ≠ none ∧
          e.TrueAt volume.root (Path.segments (Path.resolve current destination)).dropLast := by
  intro e after h
  rw [move_apply] at h
  dsimp only at h
  have hnames : ∀ name ∈ volume.root.landing (Path.segments (Path.resolve current source))
      (Path.segments (Path.resolve current destination)), Path.IsName name := fun _ =>
    Node.isName_of_mem_landing
  generalize Path.segments (Path.resolve current source) = start at h hnames ⊢
  generalize Path.segments (Path.resolve current destination) = goal at h hnames ⊢
  split at h
  · rename_i hroot
    cases h
    exact .inr ⟨by simp [hroot, Node.lookup_nil], trivial⟩
  split at h
  · rename_i hnone
    cases h
    exact .inl ⟨hnone, _, rfl⟩
  rename_i node hnode
  have hthere : volume.root.lookup start ≠ none := by simp [hnode]
  split at h
  · cases h
    exact .inr ⟨hthere, trivial⟩
  split at h
  · cases h
  split at h
  · rename_i cause hrefused
    cases h
    have hplace : Path.segments (Path.ofSegments (volume.root.landing start goal).dropLast) =
        (volume.root.landing start goal).dropLast :=
      Path.segments_ofSegments fun name hname => hnames name (List.dropLast_subset _ hname)
    have hbarred := Node.trueAt_of_entriesAt hrefused
    rw [hplace] at hbarred
    have hlanding : volume.root.landing start goal = goal := by
      refine landing_eq_of_barred fun entries hentries => ?_
      rw [← hplace, ← Node.entriesAt_eq_ok_iff] at hentries
      cases hentries.symm.trans hrefused
    exact .inr ⟨hthere, hlanding ▸ hbarred⟩
  · cases h

end Edit

end VirtualShell
