import VirtualShell.Storage.Disk

/-! # Writing a file to a disk

A file that was written is read back as it was written, and the other files of its directory are still
found and read as before.
-/

namespace VirtualShell.Disk

variable {disk : Disk} {place target : Place} {names : List String}

/-! ## What stands at a place -/

theorem find?_map_replace (entries : List (Place × DiskEntry)) (target place : Place) (entry : DiskEntry) :
    (entries.map fun old => if old.1 = target then (target, entry) else old).find? (·.1 = place) =
      if place = target then (entries.find? (·.1 = target)).map fun _ => (target, entry)
      else entries.find? (·.1 = place) := by
  induction entries with
  | nil => simp
  | cons old rest ih =>
      rw [List.map_cons, List.find?_cons, ih]
      by_cases hold : old.1 = target
      · by_cases hplace : place = target
        · simp [hold, hplace]
        · simp [hold, hplace, Ne.symm hplace]
      · by_cases hplace : place = target
        · simp [hold, hplace]
        · simp [hold, hplace, List.find?_cons]

theorem at?_put (hbelow : (target.all fun name => name = ".." || name = "/") = false) (entry : DiskEntry) :
    (disk.put target entry).at? place = if place = target then some entry else disk.at? place := by
  unfold at?
  split
  · rename_i habove
    have hplace : place ≠ target := by
      rintro rfl
      rw [hbelow] at habove
      cases habove
    rw [if_neg hplace]
  · unfold put
    split
    · rename_i hany
      obtain ⟨old, hmem, hold⟩ := List.any_eq_true.mp hany
      have hsome : (disk.entries.find? (·.1 = target)).isSome :=
        List.find?_isSome.mpr ⟨old, hmem, hold⟩
      obtain ⟨found, hfound⟩ := Option.isSome_iff_exists.mp hsome
      rw [find?_map_replace]
      split
      · simp [hfound]
      · rfl
    · rename_i hany
      have hmissing : disk.entries.find? (·.1 = target) = none := by
        rw [List.find?_eq_none]
        intro old hmem hold
        exact hany (List.any_eq_true.mpr ⟨old, hmem, hold⟩)
      rw [List.find?_append]
      by_cases hplace : place = target
      · subst hplace
        simp [hmissing]
      · simp [hplace, Ne.symm hplace]

/-! ## Following names -/

theorem follow_append (place : Place) (names : List String) (name : String) :
    disk.follow place (names ++ [name]) = disk.follow place names >>= fun dir => disk.follow dir [name] := by
  induction names generalizing place with
  | nil => rfl
  | cons first names ih =>
      rw [List.cons_append, follow, follow]
      cases disk.at? place with
      | none => rfl
      | some entry =>
          cases entry with
          | file bytes => rfl
          | directory =>
              dsimp only
              split
              · rfl
              · exact ih _

/-- The last name of a way was entered in a directory. -/
theorem of_follow_append_eq_ok {name : String} (h : disk.follow place (names ++ [name]) = .ok target) :
    ∃ dir, disk.follow place names = .ok dir ∧ disk.at? dir = some .directory ∧ target = enter dir name := by
  rw [follow_append] at h
  cases hdir : disk.follow place names with
  | error e =>
      rw [hdir] at h
      cases h
  | ok dir =>
      rw [hdir] at h
      change disk.follow dir [name] = .ok target at h
      refine ⟨dir, rfl, ?_⟩
      rw [follow] at h
      cases hat : disk.at? dir with
      | none => simp [hat] at h
      | some entry =>
          cases entry with
          | file bytes => simp [hat] at h
          | directory =>
              simp only [hat] at h
              split at h
              · cases h
              · cases h
                exact ⟨rfl, rfl⟩

/-- A way through directories stays open when something is put where there was no directory. -/
theorem follow_put (hbelow : (target.all fun name => name = ".." || name = "/") = false)
    (htarget : disk.at? target ≠ some .directory) (entry : DiskEntry) {dir : Place}
    (h : disk.follow place names = .ok dir) : (disk.put target entry).follow place names = .ok dir := by
  induction names generalizing place with
  | nil => exact h
  | cons name names ih =>
      rw [follow] at h ⊢
      cases hat : disk.at? place with
      | none => simp [hat] at h
      | some found =>
          cases found with
          | file bytes => simp [hat] at h
          | directory =>
              have hplace : place ≠ target := by
                rintro rfl
                exact htarget hat
              rw [at?_put hbelow, if_neg hplace, hat]
              simp only [hat] at h ⊢
              split at h
              · cases h
              · rename_i hlength
                rw [if_neg hlength]
                exact ih h

/-! ## Writing and reading files -/

/-- The path begins at `start`, leads through `names` and ends with the name of a file. -/
structure Names (path : String) (start : Place) (names : List String) (name : String) : Prop where
  origin_eq : origin path = start
  steps_eq : steps path = names ++ [name]
  ne_dot : name ≠ "."
  ne_dots : name ≠ ".."
  ne_slash : name ≠ "/"

variable {path other text name sibling : String} {start : Place} {changed : Disk}

theorem Names.enter_eq (h : Names path start names name) (dir : Place) : enter dir name = dir ++ [name] := by
  rw [enter, if_neg h.ne_dot, if_pos h.ne_dots]

theorem Names.below (h : Names path start names name) (dir : Place) :
    ((dir ++ [name]).all fun name => name = ".." || name = "/") = false := by
  simp [h.ne_dots, h.ne_slash]

theorem of_locate_eq_ok (h : disk.locate path = .ok target) :
    disk.follow (origin path) (steps path) = .ok target := by
  unfold locate at h
  split at h
  · cases h
  split at h
  · cases h
  split at h
  · cases h
  · exact h

theorem of_writeText_eq_ok (hpath : Names path start names name)
    (h : disk.writeText path text = .ok changed) :
    ∃ dir, disk.locate path = .ok (dir ++ [name]) ∧ disk.follow start names = .ok dir ∧
      disk.at? dir = some .directory ∧ asksForDirectory path = false ∧
      disk.at? (dir ++ [name]) ≠ some .directory ∧
      changed = disk.put (dir ++ [name]) (.file text.toUTF8) := by
  unfold writeText at h
  cases hlocate : disk.locate path with
  | error e => simp [hlocate, bind, Except.bind] at h
  | ok place =>
      have hfollow := of_locate_eq_ok hlocate
      rw [hpath.origin_eq, hpath.steps_eq] at hfollow
      obtain ⟨dir, hnames, hdir, rfl⟩ := of_follow_append_eq_ok hfollow
      rw [hlocate] at h
      change (if asksForDirectory path then Except.error DiskError.isADirectory else _) = _ at h
      rw [hpath.enter_eq] at h
      split at h
      · cases h
      · rename_i hasks
        refine ⟨dir, by rw [hpath.enter_eq], hnames, hdir, by simpa using hasks, ?_⟩
        split at h
        · cases h
        · rename_i hfile
          cases h
          exact ⟨hfile, rfl⟩

/-- Each file of the directory is where it was after one of them was written. -/
theorem locate_writeText (hpath : Names path start names name) (hother : Names other start names sibling)
    (h : disk.writeText path text = .ok changed) : changed.locate other = disk.locate other := by
  obtain ⟨dir, _, hnames, hdir, _, hfile, rfl⟩ := of_writeText_eq_ok hpath h
  have hbelow := hpath.below dir
  have hkept := follow_put hbelow hfile (.file text.toUTF8) hnames
  have hne : dir ≠ dir ++ [name] := by simp
  have hstill : (disk.put (dir ++ [name]) (.file text.toUTF8)).at? dir = disk.at? dir := by
    rw [at?_put hbelow, if_neg hne]
  have hfollow : (disk.put (dir ++ [name]) (.file text.toUTF8)).follow start (names ++ [sibling]) =
      disk.follow start (names ++ [sibling]) := by
    rw [follow_append, follow_append, hkept, hnames]
    change follow _ dir [sibling] = disk.follow dir [sibling]
    simp only [follow, hstill]
  unfold locate
  rw [hother.origin_eq, hother.steps_eq, hfollow]

theorem readText_writeText (hpath : Names path start names name)
    (h : disk.writeText path text = .ok changed) : changed.readText path = .ok text := by
  have hlocate := locate_writeText hpath hpath h
  obtain ⟨dir, hplace, _, _, hasks, _, rfl⟩ := of_writeText_eq_ok hpath h
  have hbytes : (disk.put (dir ++ [name]) (.file text.toUTF8)).readBytes path = .ok text.toUTF8 := by
    unfold readBytes
    rw [hlocate, hplace]
    simp [bind, Except.bind, at?_put (hpath.below dir), hasks]
  have hvalid : text.toUTF8.IsValidUTF8 := text.isValidUTF8
  have hdecoded : String.fromUTF8? text.toUTF8 = some text := by
    rw [String.fromUTF8?, dif_pos hvalid]
    rfl
  unfold readText
  rw [hbytes]
  simp only [bind, Except.bind, hdecoded]

theorem readText_writeText_ne (hpath : Names path start names name)
    (hother : Names other start names sibling) (hne : sibling ≠ name)
    (h : disk.writeText path text = .ok changed) : changed.readText other = disk.readText other := by
  have hlocate := locate_writeText hpath hother h
  obtain ⟨dir, _, hnames, _, _, _, rfl⟩ := of_writeText_eq_ok hpath h
  unfold readText readBytes
  rw [hlocate]
  cases hplace : disk.locate other with
  | error e => rfl
  | ok place =>
      have hfollow := of_locate_eq_ok hplace
      rw [hother.origin_eq, hother.steps_eq] at hfollow
      obtain ⟨found, hfound, _, rfl⟩ := of_follow_append_eq_ok hfollow
      rw [hnames] at hfound
      cases hfound
      have hdiffer : dir ++ [sibling] ≠ dir ++ [name] := by simpa using hne
      have hat : (disk.put (dir ++ [name]) (.file text.toUTF8)).at? (dir ++ [sibling]) =
          disk.at? (dir ++ [sibling]) := by
        rw [at?_put (hpath.below dir), if_neg hdiffer]
      rw [hother.enter_eq]
      simp only [bind, Except.bind, hat]

end VirtualShell.Disk
