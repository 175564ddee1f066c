import VirtualShell.Json.Printer
import VirtualShell.Json.Reader

/-! # Reading what was written

A value without numbers that is written in front of a text is read back, with that text as the rest,
exactly when its arrays and objects are not nested deeper than the reader goes.
-/

namespace VirtualShell.Json

inductive Numberless : Json → Prop
  | null : Numberless .null
  | bool (value : Bool) : Numberless (.bool value)
  | string (value : String) : Numberless (.string value)
  | array (items : List Json) (each : ∀ item ∈ items, Numberless item) : Numberless (.array items)
  | object (fields : List (String × Json)) (each : ∀ field ∈ fields, Numberless field.2) :
      Numberless (.object fields)

mutual
/-- How deep arrays and objects are nested in a value. -/
def nesting : Json → Nat
  | .array items => itemsNesting items + 1
  | .object fields => fieldsNesting fields + 1
  | _ => 0

def itemsNesting : List Json → Nat
  | [] => 0
  | item :: items => max (nesting item) (itemsNesting items)

def fieldsNesting : List (String × Json) → Nat
  | [] => 0
  | (_, value) :: fields => max (nesting value) (fieldsNesting fields)
end

/-! ## Strings -/

theorem hexQuad?_hexDigit {n : Nat} (h : n < 0x20) :
    hexQuad? '0' '0' (hexDigit (n / 16)) (hexDigit (n % 16)) = some n := by
  revert n
  decide

/-- Each character is read back from its escape, whatever follows. -/
theorem stringRest_escapeChar (done : List Char) (c : Char) (rest : List Char) :
    stringRest done (escapeChar c ++ rest) = stringRest (c :: done) rest := by
  unfold escapeChar
  split
  · subst c; rfl
  split
  · subst c; rfl
  split
  · subst c; rfl
  split
  · subst c; rfl
  split
  · subst c; rfl
  split
  · subst c; rfl
  split
  · subst c; rfl
  split
  · -- a control character is written as its number in hexadecimal
    rename_i hlow
    have hquad := hexQuad?_hexDigit hlow
    have htrailing : isTrailing c.toNat = false := by
      simp [isTrailing]; omega
    have hleading : isLeading c.toNat = false := by
      simp [isLeading]; omega
    simp [stringRest, hquad, htrailing, hleading, Char.ofNat_toNat]
  · rename_i hslash _ _ _ _ _ hlow
    simp [stringRest, hslash, hlow]

theorem stringRest_escaped (done text rest : List Char) :
    stringRest done (text.foldr (fun c later => escapeChar c ++ later) ('"' :: rest)) =
      some (done.reverse ++ text, rest) := by
  induction text generalizing done with
  | nil => simp [stringRest]
  | cons c text ih =>
      rw [List.foldr_cons, stringRest_escapeChar, ih, List.reverse_cons, List.append_assoc,
        List.singleton_append]

theorem readString_quote (text : String) (rest : List Char) :
    readString (quote text.toList rest) = some (text, rest) := by
  have hinside := stringRest_escaped [] text.toList rest
  have hstep : readString (quote text.toList rest) =
      (stringRest [] (text.toList.foldr (fun c later => escapeChar c ++ later) ('"' :: rest))).map
        fun read => (String.ofList read.1, read.2) := rfl
  rw [hstep, hinside, Option.map_some, List.reverse_nil, List.nil_append, String.ofList_toList]

theorem skipSpace_cons {c : Char} (h : isSpace c = false) (rest : List Char) :
    skipSpace (c :: rest) = c :: rest := by
  simp [skipSpace, h]

theorem readName_quote (name : String) (rest : List Char) :
    readName (quote name.toList (':' :: rest)) = some (name, rest) := by
  have hspace : skipSpace (quote name.toList (':' :: rest)) = quote name.toList (':' :: rest) :=
    skipSpace_cons rfl _
  have hcolon : skipSpace (':' :: rest) = ':' :: rest := skipSpace_cons rfl _
  unfold readName
  rw [hspace, readString_quote, Option.bind_eq_bind, Option.bind_some]
  dsimp only
  rw [hcolon]
  rfl

/-! ## The ends of written values -/

/-- A written value begins with a character of its own. -/
theorem exists_write_eq_cons {value : Json} (h : Numberless value) (rest : List Char) :
    ∃ c text, value.write rest = c :: text ∧ isSpace c = false ∧ c ≠ ']' := by
  cases h with
  | null => exact ⟨'n', _, rfl, rfl, by decide⟩
  | bool value =>
      cases value with
      | true => exact ⟨'t', _, rfl, rfl, by decide⟩
      | false => exact ⟨'f', _, rfl, rfl, by decide⟩
  | string text => exact ⟨'"', _, rfl, rfl, by decide⟩
  | array items each => exact ⟨'[', _, rfl, rfl, by decide⟩
  | object fields each => exact ⟨'\x7b', _, rfl, rfl, by decide⟩

theorem length_quote (text rest : List Char) : rest.length < (quote text rest).length := by
  unfold quote
  induction text with
  | nil =>
      simp only [List.foldr_nil, List.length_cons]
      omega
  | cons c text ih =>
      simp only [List.foldr_cons, List.length_cons, List.length_append] at ih ⊢
      omega

theorem writeItems_cons_cons (item next : Json) (items : List Json) (rest : List Char) :
    writeItems (item :: next :: items) rest = item.write (',' :: writeItems (next :: items) rest) := rfl

theorem writeFields_cons_cons (name : String) (value : Json) (next : String × Json)
    (fields : List (String × Json)) (rest : List Char) :
    writeFields ((name, value) :: next :: fields) rest =
      quote name.toList (':' :: value.write (',' :: writeFields (next :: fields) rest)) := rfl

theorem length_writeItems {items : List Json}
    (h : ∀ item ∈ items, ∀ rest, rest.length < (item.write rest).length) (rest : List Char) :
    items.length + rest.length ≤ (writeItems items rest).length := by
  induction items with
  | nil => simp [writeItems]
  | cons item items ih =>
      have hitems := ih fun other hother => h other (List.mem_cons_of_mem _ hother)
      cases items with
      | nil =>
          have hitem := h item List.mem_cons_self rest
          rw [writeItems, List.length_singleton]
          omega
      | cons next items =>
          have hitem := h item List.mem_cons_self (',' :: writeItems (next :: items) rest)
          rw [writeItems_cons_cons]
          simp only [List.length_cons] at hitem hitems ⊢
          omega

theorem length_writeFields {fields : List (String × Json)}
    (h : ∀ field ∈ fields, ∀ rest, rest.length < (field.2.write rest).length) (rest : List Char) :
    fields.length + rest.length ≤ (writeFields fields rest).length := by
  induction fields with
  | nil => simp [writeFields]
  | cons field fields ih =>
      have hfields := ih fun other hother => h other (List.mem_cons_of_mem _ hother)
      obtain ⟨name, value⟩ := field
      cases fields with
      | nil =>
          have hvalue := h (name, value) List.mem_cons_self rest
          have hname := length_quote name.toList (':' :: value.write rest)
          rw [writeFields, List.length_singleton]
          simp only [List.length_cons] at hname hvalue
          omega
      | cons next fields =>
          have hvalue := h (name, value) List.mem_cons_self (',' :: writeFields (next :: fields) rest)
          have hname := length_quote name.toList
            (':' :: value.write (',' :: writeFields (next :: fields) rest))
          rw [writeFields_cons_cons]
          simp only [List.length_cons] at hvalue hname hfields ⊢
          omega

theorem length_write {value : Json} (h : Numberless value) (rest : List Char) :
    rest.length < (value.write rest).length := by
  induction h generalizing rest with
  | null =>
      simp only [write, List.length_cons]
      omega
  | bool value =>
      cases value <;> simp only [write, List.length_cons] <;> omega
  | string text => exact length_quote _ _
  | array items each ih =>
      have hitems := length_writeItems ih (']' :: rest)
      rw [write, List.length_cons]
      simp only [List.length_cons] at hitems
      omega
  | object fields each ih =>
      have hfields := length_writeFields ih ('\x7d' :: rest)
      rw [write, List.length_cons]
      simp only [List.length_cons] at hfields
      omega

/-! ## Items and fields -/

/-- A reader gives back exactly the values that are not nested deeper than `depth`. -/
def ReadsBack (depth : Nat) (value : Json) : Prop :=
  ∀ rest, readValue depth (value.write rest) = if value.nesting ≤ depth then some (value, rest) else none

theorem readItems_writeItems {depth : Nat} {items : List Json} (hne : items ≠ [])
    (h : ∀ item ∈ items, ReadsBack depth item) (done : List Json) (rest : List Char) {fuel : Nat}
    (hfuel : items.length ≤ fuel) :
    readItems (readValue depth) fuel done (writeItems items (']' :: rest)) =
      if itemsNesting items ≤ depth then some (done.reverse ++ items, rest) else none := by
  induction items generalizing done fuel with
  | nil => exact absurd rfl hne
  | cons item items ih =>
      obtain ⟨fuel, rfl⟩ := Nat.exists_eq_add_of_le' (Nat.le_trans (Nat.le_add_left 1 _) hfuel)
      have hitem := h item List.mem_cons_self
      have hclose : skipSpace (']' :: rest) = ']' :: rest := skipSpace_cons rfl _
      rw [readItems, itemsNesting]
      simp only [Nat.max_le]
      cases items with
      | nil =>
          rw [writeItems, hitem]
          by_cases hdeep : item.nesting ≤ depth
          · simp [hdeep, hclose, itemsNesting]
          · simp [hdeep]
      | cons next items =>
          have hcomma : skipSpace (',' :: writeItems (next :: items) (']' :: rest)) =
              ',' :: writeItems (next :: items) (']' :: rest) := skipSpace_cons rfl _
          have hless : (next :: items).length ≤ fuel := by simpa using hfuel
          have hrest := ih (List.cons_ne_nil _ _)
            (fun other hother => h other (List.mem_cons_of_mem _ hother)) (item :: done) hless
          rw [writeItems_cons_cons, hitem]
          by_cases hdeep : item.nesting ≤ depth
          · simp [hdeep, hcomma, hrest]
          · simp [hdeep]

theorem readFields_writeFields {depth : Nat} {fields : List (String × Json)} (hne : fields ≠ [])
    (h : ∀ field ∈ fields, ReadsBack depth field.2) (done : List (String × Json)) (rest : List Char)
    {fuel : Nat} (hfuel : fields.length ≤ fuel) :
    readFields (readValue depth) fuel done (writeFields fields ('\x7d' :: rest)) =
      if fieldsNesting fields ≤ depth then some (done.reverse ++ fields, rest) else none := by
  induction fields generalizing done fuel with
  | nil => exact absurd rfl hne
  | cons field fields ih =>
      obtain ⟨name, value⟩ := field
      obtain ⟨fuel, rfl⟩ := Nat.exists_eq_add_of_le' (Nat.le_trans (Nat.le_add_left 1 _) hfuel)
      have hvalue := h (name, value) List.mem_cons_self
      have hclose : skipSpace ('\x7d' :: rest) = '\x7d' :: rest := skipSpace_cons rfl _
      rw [readFields, fieldsNesting]
      simp only [Nat.max_le]
      cases fields with
      | nil =>
          rw [writeFields, readName_quote]
          have hread := hvalue ('\x7d' :: rest)
          by_cases hdeep : value.nesting ≤ depth
          · simp [hdeep] at hread
            simp [hread, hdeep, hclose, fieldsNesting]
          · simp [hdeep] at hread
            simp [hread, hdeep]
      | cons next fields =>
          have hcomma : skipSpace (',' :: writeFields (next :: fields) ('\x7d' :: rest)) =
              ',' :: writeFields (next :: fields) ('\x7d' :: rest) := skipSpace_cons rfl _
          have hless : (next :: fields).length ≤ fuel := by simpa using hfuel
          have hrest := ih (List.cons_ne_nil _ _)
            (fun other hother => h other (List.mem_cons_of_mem _ hother)) ((name, value) :: done) hless
          have hread := hvalue (',' :: writeFields (next :: fields) ('\x7d' :: rest))
          rw [writeFields_cons_cons, readName_quote]
          by_cases hdeep : value.nesting ≤ depth
          · simp [hdeep] at hread
            simp [hread, hdeep, hcomma, hrest]
          · simp [hdeep] at hread
            simp [hread, hdeep]

/-! ## Values -/

theorem readValue_zero_bracket (text : List Char) : readValue 0 ('[' :: text) = none := rfl

theorem readValue_zero_brace (text : List Char) : readValue 0 ('\x7b' :: text) = none := rfl

theorem readValue_bracket {depth : Nat} {c : Char} {text : List Char} (hspace : isSpace c = false)
    (hclose : c ≠ ']') :
    readValue (depth + 1) ('[' :: c :: text) =
      (readItems (readValue depth) (c :: text).length [] (c :: text)).map
        fun (list, rest) => (.array list, rest) := by
  have hopen : skipSpace ('[' :: c :: text) = '[' :: c :: text := skipSpace_cons rfl _
  simp [readValue, hopen, skipSpace_cons hspace, hclose]

theorem readValue_brace {depth : Nat} {c : Char} {text : List Char} (hspace : isSpace c = false)
    (hclose : c ≠ '\x7d') :
    readValue (depth + 1) ('\x7b' :: c :: text) =
      (readFields (readValue depth) (c :: text).length [] (c :: text)).map
        fun (list, rest) => (.object list, rest) := by
  have hopen : skipSpace ('\x7b' :: c :: text) = '\x7b' :: c :: text := skipSpace_cons rfl _
  simp [readValue, hopen, skipSpace_cons hspace, hclose]

theorem exists_writeItems_eq_cons {items : List Json} (hne : items ≠ [])
    (h : ∀ item ∈ items, Numberless item) (rest : List Char) :
    ∃ c text, writeItems items rest = c :: text ∧ isSpace c = false ∧ c ≠ ']' := by
  obtain ⟨item, items, rfl⟩ := List.exists_cons_of_ne_nil hne
  cases items with
  | nil => exact exists_write_eq_cons (h item List.mem_cons_self) _
  | cons next items => exact exists_write_eq_cons (h item List.mem_cons_self) _

theorem exists_writeFields_eq_cons {fields : List (String × Json)} (hne : fields ≠ []) (rest : List Char) :
    ∃ text, writeFields fields rest = '"' :: text := by
  obtain ⟨⟨name, value⟩, fields, rfl⟩ := List.exists_cons_of_ne_nil hne
  cases fields <;> exact ⟨_, rfl⟩

/-- The limit of the reader is the only thing that can go wrong. -/
theorem readValue_write {value : Json} (h : Numberless value) (depth : Nat) : ReadsBack depth value := by
  induction h generalizing depth with
  | null =>
      intro rest
      cases depth <;> rfl
  | bool value =>
      intro rest
      cases value <;> cases depth <;> rfl
  | string text =>
      intro rest
      have hscalar : readValue depth (quote text.toList rest) =
          (readString (quote text.toList rest)).map fun read => (.string read.1, read.2) := by
        cases depth <;> rfl
      have hflat : nesting (.string text) ≤ depth := by simp [nesting]
      rw [write, hscalar, readString_quote, if_pos hflat]
      rfl
  | array items each ih =>
      intro rest
      rw [write, nesting]
      cases depth with
      | zero => rw [readValue_zero_bracket, if_neg (Nat.not_succ_le_zero _)]
      | succ depth =>
          by_cases hne : items = []
          · subst hne
            rfl
          · -- each item takes a character at least, so the reader's fuel, the length of the text, is enough
            have hlength := length_writeItems (fun item hitem => length_write (each item hitem)) (']' :: rest)
            have hfuel := Nat.le_trans (Nat.le_add_right _ _) hlength
            have hread := readItems_writeItems hne (fun item hitem => ih item hitem depth) [] rest hfuel
            obtain ⟨c, text, htext, hspace, hclose⟩ := exists_writeItems_eq_cons hne each (']' :: rest)
            rw [htext] at hread ⊢
            rw [readValue_bracket hspace hclose, hread]
            simp only [Nat.add_le_add_iff_right, List.reverse_nil, List.nil_append]
            split <;> rfl
  | object fields each ih =>
      intro rest
      rw [write, nesting]
      cases depth with
      | zero => rw [readValue_zero_brace, if_neg (Nat.not_succ_le_zero _)]
      | succ depth =>
          by_cases hne : fields = []
          · subst hne
            rfl
          · have hlength := length_writeFields (fun field hfield => length_write (each field hfield))
              ('\x7d' :: rest)
            have hfuel := Nat.le_trans (Nat.le_add_right _ _) hlength
            have hread := readFields_writeFields hne (fun field hfield => ih field hfield depth) [] rest hfuel
            obtain ⟨text, htext⟩ := exists_writeFields_eq_cons hne ('\x7d' :: rest)
            rw [htext] at hread ⊢
            rw [readValue_brace rfl (by decide), hread]
            simp only [Nat.add_le_add_iff_right, List.reverse_nil, List.nil_append]
            split <;> rfl

theorem parse?_render {value : Json} (h : Numberless value) {depth : Nat} (hdepth : value.nesting ≤ depth) :
    parse? depth value.render.toList = some value := by
  have hread := readValue_write h depth []
  rw [if_pos hdepth] at hread
  have hend : (skipSpace []).isEmpty = true := rfl
  unfold parse? render
  rw [String.toList_ofList, hread, Option.bind_eq_bind, Option.bind_some]
  dsimp only
  rw [if_pos hend]
  rfl

end VirtualShell.Json
