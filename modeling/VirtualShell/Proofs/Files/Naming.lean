import VirtualShell.Proofs.State.Steps
import VirtualShell.Proofs.Tree.Shape

/-! # Changes keep a tree well-named

After a change that a command may make, every directory still lists each name once, and a name that is
new is one that a path can contain.  So every step of a run keeps the tree well-named.
-/

namespace VirtualShell

namespace Path

theorem isName_of_isPlainName {name : String} (h : Command.isPlainName name) (hne : name ≠ "") :
    IsName name := by
  simp only [Command.isPlainName, Bool.and_eq_true, Bool.not_eq_true', List.contains_eq_mem,
    decide_eq_false_iff_not] at h
  exact ⟨hne, h.1⟩

theorem segments_resolve_empty (current : String) : segments (resolve current "") = segments current := by
  have hnothing : segments "" = [] := by decide
  rw [segments_resolve_relative (by decide) (by decide) (by decide), hnothing, List.append_nil]

end Path

namespace Change

variable {change : Change} {volume after : Volume} {u : Unit}

/-- The new name of a rename that is offered is not empty: an empty one stands for the directory. -/
theorem isName_of_rename {current old new : String} {root : Node}
    (hoffered : (rename current old new).Offered root) {entries : Entries Node}
    (hentries : root.lookup (Path.segments current) = some (.directory entries)) : Path.IsName new := by
  obtain ⟨_, hnew, hmissing⟩ := hoffered
  refine Path.isName_of_isPlainName hnew ?_
  rintro rfl
  rw [Node.exists?, Path.segments_resolve_empty, hentries] at hmissing
  cases hmissing

theorem Effect.named {allowed : String → Prop} (hallowed : ∀ name, Path.IsName name → allowed name)
    {before after : Node} (hoffered : change.Offered before) (hbefore : before.Named allowed)
    (h : change.Effect before after) : after.Named allowed := by
  cases h with
  | create known bare =>
      refine hbefore.insertAt (fun name hname => hallowed name (known name hname)) ?_
      rcases bare with rfl | ⟨content, rfl⟩
      · exact Node.Named.directory_iff.mpr (by simp)
      · exact .file content
  | delete names => exact hbefore.removeAt names
  | copy known found =>
      exact hbefore.insertAt (fun name hname => hallowed name (known name hname)) (hbefore.lookup found)
  | move known found =>
      exact (hbefore.removeAt _).insertAt (fun name hname => hallowed name (known name hname))
        (hbefore.lookup found)
  | rename called found free =>
      subst called
      have hnew := hallowed _ (isName_of_rename hoffered found)
      exact hbefore.withEntries
        ((hbefore.lookup found).rename hnew (Entries.get?_eq_none_iff.mp free))

theorem edit_named {allowed : String → Prop} (hallowed : ∀ name, Path.IsName name → allowed name)
    (hoffered : change.Offered volume.root) (hroot : volume.root.Named allowed)
    (h : change.edit volume = .ok u after) : after.root.Named allowed := by
  rcases effect_of_edit_eq_ok h with ⟨_, rfl⟩ | ⟨_, root, heffect, rfl⟩
  · exact hroot
  · rw [Volume.root_saved]
    exact heffect.named hallowed hoffered hroot

theorem label_edit (h : change.edit volume = .ok u after) : after.root.label = volume.root.label := by
  rcases effect_of_edit_eq_ok h with ⟨_, rfl⟩ | ⟨_, root, heffect, rfl⟩
  · rfl
  · rw [Volume.root_saved]
    cases heffect with
    | create _ _ => exact Node.label_insertAt _ _ _
    | delete names => exact Node.label_removeAt _ _
    | copy _ _ => exact Node.label_insertAt _ _ _
    | move _ _ => rw [Node.label_insertAt, Node.label_removeAt]
    | rename _ _ _ => exact Node.label_withEntries _ _ _

end Change

theorem State.step_named {allowed : String → Prop} (hallowed : ∀ name, Path.IsName name → allowed name)
    {part : Part} {before after : State} (hstep : Step part before after)
    (h : before.volume.root.isDirectory ∧ before.volume.root.Named allowed) :
    after.volume.root.isDirectory ∧ after.volume.root.Named allowed := by
  cases hstep with
  | edit change offered done =>
      have hlabel := Change.label_edit done
      rw [Node.isDirectory_iff_label.mp h.1] at hlabel
      exact ⟨Node.isDirectory_iff_label.mpr hlabel, Change.edit_named hallowed offered h.2 done⟩
  | enter target found => exact h
  | setAlias name value => rwa [setAlias, root_setAliases]
  | dropAlias name => rwa [root_setAliases]
  | clearAliases => rwa [root_setAliases]
  | clearHistory => rwa [root_setHistory]

end VirtualShell
