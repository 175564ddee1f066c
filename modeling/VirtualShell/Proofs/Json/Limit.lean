import VirtualShell.Proofs.Json.RoundTrip

/-! # The limit of the reader

Whatever text is read, the value that results is not nested deeper than the reader goes.  The items of
an array and the fields of an object come from a reader with a smaller limit, one value each.
-/

namespace VirtualShell.Json

theorem itemsNesting_le_iff {items : List Json} {n : Nat} :
    itemsNesting items ≤ n ↔ ∀ item ∈ items, item.nesting ≤ n := by
  induction items with
  | nil => simp [itemsNesting]
  | cons item items ih => rw [itemsNesting, Nat.max_le, ih, List.forall_mem_cons]

theorem fieldsNesting_le_iff {fields : List (String × Json)} {n : Nat} :
    fieldsNesting fields ≤ n ↔ ∀ field ∈ fields, field.2.nesting ≤ n := by
  induction fields with
  | nil => simp [fieldsNesting]
  | cons field fields ih => rw [fieldsNesting, Nat.max_le, ih, List.forall_mem_cons]

/-! ## Items and fields -/

section Lists

variable {value : Reader Json} {good : Json → Prop} {fuel : Nat} {text rest : List Char}

/-- What holds of every value that a reader gives holds of all items that are read with it. -/
theorem forall_mem_of_readItems
    (hvalue : ∀ text item rest, value text = some (item, rest) → good item) {done items : List Json}
    (hdone : ∀ item ∈ done, good item) (h : readItems value fuel done text = some (items, rest)) :
    ∀ item ∈ items, good item := by
  induction fuel generalizing done text with
  | zero => cases h
  | succ fuel ih =>
      obtain ⟨⟨item, later⟩, hitem, hlater⟩ := Option.bind_eq_some_iff.mp h
      have hmore : ∀ other ∈ item :: done, good other :=
        List.forall_mem_cons.mpr ⟨hvalue _ _ _ hitem, hdone⟩
      dsimp only at hlater
      split at hlater
      · exact ih hmore hlater
      · cases hlater
        intro other hother
        exact hmore other (List.mem_reverse.mp hother)
      · cases hlater

theorem forall_mem_of_readFields
    (hvalue : ∀ text item rest, value text = some (item, rest) → good item)
    {done fields : List (String × Json)} (hdone : ∀ field ∈ done, good field.2)
    (h : readFields value fuel done text = some (fields, rest)) : ∀ field ∈ fields, good field.2 := by
  induction fuel generalizing done text with
  | zero => cases h
  | succ fuel ih =>
      obtain ⟨⟨name, inner⟩, _, hinner⟩ := Option.bind_eq_some_iff.mp h
      obtain ⟨⟨item, later⟩, hitem, hlater⟩ := Option.bind_eq_some_iff.mp hinner
      have hmore : ∀ field ∈ (name, item) :: done, good field.2 :=
        List.forall_mem_cons.mpr ⟨hvalue _ _ _ hitem, hdone⟩
      dsimp only at hlater
      split at hlater
      · exact ih hmore hlater
      · cases hlater
        intro field hfield
        exact hmore field (List.mem_reverse.mp hfield)
      · cases hlater

end Lists

/-! ## Values -/

theorem nesting_of_readScalar {text rest : List Char} {value : Json}
    (h : readScalar text = some (value, rest)) : value.nesting = 0 := by
  unfold readScalar at h
  split at h
  · cases h
    rfl
  · cases h
    rfl
  · cases h
    rfl
  · obtain ⟨read, _, heq⟩ := Option.map_eq_some_iff.mp h
    cases heq
    rfl
  · obtain ⟨read, _, heq⟩ := Option.map_eq_some_iff.mp h
    cases heq
    rfl

/-- The reader refuses what is nested too deep, so nothing that it gives is. -/
theorem nesting_le_of_readValue {depth : Nat} {text rest : List Char} {value : Json}
    (h : readValue depth text = some (value, rest)) : value.nesting ≤ depth := by
  induction depth generalizing text value rest with
  | zero => exact Nat.le_of_eq (nesting_of_readScalar h)
  | succ depth ih =>
      have hbelow : ∀ text item rest, readValue depth text = some (item, rest) → item.nesting ≤ depth :=
        fun _ _ _ hitem => ih hitem
      rw [readValue] at h
      split at h
      · split at h
        · cases h
          simp [nesting, itemsNesting]
        · obtain ⟨⟨items, later⟩, hitems, heq⟩ := Option.map_eq_some_iff.mp h
          cases heq
          have heach := forall_mem_of_readItems hbelow (by simp) hitems
          rw [nesting, Nat.add_le_add_iff_right]
          exact itemsNesting_le_iff.mpr heach
      · split at h
        · cases h
          simp [nesting, fieldsNesting]
        · obtain ⟨⟨fields, later⟩, hfields, heq⟩ := Option.map_eq_some_iff.mp h
          cases heq
          have heach := forall_mem_of_readFields hbelow (by simp) hfields
          rw [nesting, Nat.add_le_add_iff_right]
          exact fieldsNesting_le_iff.mpr heach
      · exact Nat.le_trans (Nat.le_of_eq (nesting_of_readScalar h)) (Nat.zero_le _)

end VirtualShell.Json
