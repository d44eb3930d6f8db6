import ClearNames.Proofs.Json.Strings

/-! A compact JSON text is read as the value it was written from.

A plain value holds no number and no string that is no text, also none that
names a field, and names no field of an object twice. No written value begins with a space or with the end of a
list, and reading one takes no more fuel than its text has characters.
-/

set_option autoImplicit false

namespace ClearNames.Json
open LooseText (ofString)

variable {fuel : Nat} {text rest more : List Char} {item value : Json}

/-- Values made of null, truth values, texts, and arrays and objects of these. -/
inductive Plain : Json → Prop where
  | null : Plain .null
  | bool (value : Bool) : Plain (.bool value)
  | string (text : String) : Plain (.string text)
  | array {items : List Json} (each : ∀ item ∈ items, Plain item) : Plain (.array items)
  | object {fields : List (LooseText × Json)} (named : ∀ field ∈ fields, ∃ name : String, field.1 = name)
      (distinct : (OrderedTable.keys fields).Nodup) (each : ∀ field ∈ fields, Plain field.2) : Plain (.object fields)

theorem Plain.ofOption (text : Option String) : Plain (.ofOption text) := by
  cases text with
  | none => exact .null
  | some text => exact .string text

/-! ## One round of a reader -/

section
variable {head : Char} {tail : List Char} (solid : skipSpace text = head :: tail)
include solid

theorem readValue_items (inside : head ≠ ']') : readValue (fuel + 1) ('[' :: text) = readItems fuel [] (head :: tail) := by
  rw [readValue, solid]
  split
  · rename_i same
    cases same
    exact absurd rfl inside
  · rfl

theorem readValue_fields (inside : head ≠ '\x7d') :
    readValue (fuel + 1) ('\x7b' :: text) = readFields fuel [] (head :: tail) := by
  rw [readValue, solid]
  split
  · rename_i same
    cases same
    exact absurd rfl inside
  · rfl

end

section
variable {done : List Json} (read : readValue fuel text = .ok (item, rest))
include read

theorem readItems_next (mark : skipSpace rest = ',' :: more) :
    readItems (fuel + 1) done text = readItems fuel (item :: done) (skipSpace more) := by
  rw [readItems, read]
  simp only [bind, Except.bind, mark]

theorem readItems_last (mark : skipSpace rest = ']' :: more) :
    readItems (fuel + 1) done text = .ok (.array (item :: done).reverse, more) := by
  rw [readItems, read]
  simp only [bind, Except.bind, mark]
  rfl

end

section
variable {done : OrderedTable LooseText Json} {list : List Nat} {body afterName : List Char}
variable (name : readString ⟨[], none⟩ body = .ok (list, afterName)) (colon : skipSpace afterName = ':' :: text)
variable (read : readValue fuel (skipSpace text) = .ok (value, rest))
include name colon read

theorem readFields_next (mark : skipSpace rest = ',' :: more) :
    readFields (fuel + 1) done ('"' :: body) =
      readFields fuel (OrderedTable.put (.ofCodes list) value done) (skipSpace more) := by
  rw [readFields, name]
  simp only [bind, Except.bind, colon, read, mark]

theorem readFields_last (mark : skipSpace rest = '\x7d' :: more) :
    readFields (fuel + 1) done ('"' :: body) =
      .ok (.object (OrderedTable.put (.ofCodes list) value done), more) := by
  rw [readFields, name]
  simp only [bind, Except.bind, colon, read, mark]
  rfl

end

/-! ## Values without any space -/

theorem skipSpace_cons {char : Char} (solid : isSpace char = false) : skipSpace (char :: rest) = char :: rest := by
  rw [skipSpace, List.dropWhile_cons_of_neg (by simp [solid])]

theorem Plain.compactChars_head (plain : Plain value) :
    ∃ head tail, compactChars value = head :: tail ∧ isSpace head = false ∧ head ≠ ']' ∧ head ≠ '\x7d' := by
  cases plain with
  | null => exact ⟨_, _, rfl, by decide⟩
  | bool value => cases value <;> exact ⟨_, _, rfl, by decide⟩
  | string text => exact ⟨_, _, rfl, by decide⟩
  | @array items each =>
    cases items with
    | nil => exact ⟨_, _, rfl, by decide⟩
    | cons first items => exact ⟨'[', _, by rw [compactChars, List.cons_append, List.cons_append], by decide⟩
  | @object fields named distinct each =>
    cases fields with
    | nil => exact ⟨_, _, rfl, by decide⟩
    | cons first fields =>
      exact ⟨'\x7b', _, by rw [compactChars, List.cons_append, List.cons_append, List.cons_append], by decide⟩

theorem Plain.skipSpace_compactChars (plain : Plain value) :
    skipSpace (compactChars value ++ rest) = compactChars value ++ rest := by
  obtain ⟨head, tail, begins, solid, -⟩ := plain.compactChars_head
  rw [begins, List.cons_append, skipSpace_cons solid]

/-- Read from its own text with enough fuel, the value is itself, whatever comes after it. -/
def ReadsBack (value : Json) : Prop :=
  ∀ fuel rest, (compactChars value).length ≤ fuel → readValue fuel (compactChars value ++ rest) = .ok (value, rest)

theorem ReadsBack.of_succ (plain : Plain value)
    (step : ∀ fuel rest, (compactChars value).length ≤ fuel + 1 →
      readValue (fuel + 1) (compactChars value ++ rest) = .ok (value, rest)) : ReadsBack value := by
  intro fuel rest enough
  obtain ⟨head, tail, begins, -⟩ := plain.compactChars_head
  obtain ⟨less, rfl⟩ : ∃ less, fuel = less + 1 := ⟨fuel - 1, by rw [begins, List.length_cons] at enough; omega⟩
  exact step less rest enough

theorem readItems_compact {first : Json} {items done : List Json} (each : ∀ item ∈ first :: items, ReadsBack item)
    (plain : ∀ item ∈ items, Plain item) (enough : (compactChars first ++ compactItems items).length < fuel) :
    readItems fuel done (compactChars first ++ (compactItems items ++ ']' :: rest)) =
      .ok (.array (done.reverse ++ first :: items), rest) := by
  obtain ⟨fuel, rfl⟩ : ∃ less, fuel = less + 1 := ⟨fuel - 1, by omega⟩
  rw [List.length_append] at enough
  induction items generalizing first done fuel with
  | nil =>
    have read := each first List.mem_cons_self fuel (']' :: rest) (by omega)
    rw [compactItems, List.nil_append, readItems_last read (skipSpace_cons (by decide)), List.reverse_cons]
  | cons second items ih =>
    rw [compactItems, List.cons_append, List.length_cons, List.length_append] at enough
    obtain ⟨less, rfl⟩ : ∃ less, fuel = less + 1 := ⟨fuel - 1, by omega⟩
    have read (later : List Char) := each first List.mem_cons_self (less + 1) later (by omega)
    have solid (later : List Char) := @Plain.skipSpace_compactChars later second (plain second List.mem_cons_self)
    rw [compactItems, List.cons_append, List.cons_append, List.append_assoc,
      readItems_next (read _) (skipSpace_cons (by decide)), solid,
      ih (fun item known => each item (.tail _ known)) (fun item known => plain item (.tail _ known)) less (by omega),
      List.reverse_cons, List.append_assoc, List.singleton_append]

theorem skipSpace_looseChars (name : LooseText) : skipSpace (looseChars name ++ rest) = looseChars name ++ rest := by
  rw [looseChars, List.cons_append, List.cons_append, skipSpace_cons (by decide)]

section
variable {name : String} {done fields : List (LooseText × Json)} (back : ReadsBack value) (plain : Plain value)
  (fresh : ofString name ∉ OrderedTable.keys done) (enough : (compactChars value).length ≤ fuel)
include back plain fresh enough

theorem readFields_compactField_next :
    readFields (fuel + 1) done (looseChars (ofString name) ++ ':' :: (compactChars value ++ ',' :: rest)) =
      readFields fuel (done ++ [(ofString name, value)]) (skipSpace rest) := by
  obtain ⟨body, begins, read⟩ := @readString_looseChars (':' :: (compactChars value ++ ',' :: rest)) name
  have solid := @Plain.skipSpace_compactChars (',' :: rest) value plain
  have entered := OrderedTable.put_of_find?_eq_none (OrderedTable.find?_eq_none_iff.mpr fresh) value
  rw [begins, readFields_next read (skipSpace_cons (by decide)) (solid ▸ back fuel _ enough) (skipSpace_cons (by decide)),
    LooseText.ofCodes_toNat, entered]

theorem readFields_compactField_last :
    readFields (fuel + 1) done (looseChars (ofString name) ++ ':' :: (compactChars value ++ '\x7d' :: rest)) =
      .ok (.object (done ++ [(ofString name, value)]), rest) := by
  obtain ⟨body, begins, read⟩ := @readString_looseChars (':' :: (compactChars value ++ '\x7d' :: rest)) name
  have solid := @Plain.skipSpace_compactChars ('\x7d' :: rest) value plain
  have entered := OrderedTable.put_of_find?_eq_none (OrderedTable.find?_eq_none_iff.mpr fresh) value
  rw [begins, readFields_last read (skipSpace_cons (by decide)) (solid ▸ back fuel _ enough) (skipSpace_cons (by decide)),
    LooseText.ofCodes_toNat, entered]

end

theorem compactFields_cons (name : String) (value : Json) (fields : List (LooseText × Json)) :
    compactFields ((ofString name, value) :: fields) ++ rest =
      ',' :: (looseChars (ofString name) ++ ':' :: (compactChars value ++ (compactFields fields ++ rest))) := by
  simp [compactFields]

theorem readFields_compact {name : String} {value : Json} {fields done : List (LooseText × Json)}
    (named : ∀ field ∈ fields, ∃ other : String, field.1 = other)
    (each : ∀ field ∈ (ofString name, value) :: fields, ReadsBack field.2 ∧ Plain field.2)
    (distinct : (OrderedTable.keys (done ++ (ofString name, value) :: fields)).Nodup)
    (enough : (compactChars value ++ compactFields fields).length < fuel) :
    readFields fuel done
        (looseChars (ofString name) ++ ':' :: (compactChars value ++ (compactFields fields ++ '\x7d' :: rest))) =
      .ok (.object (done ++ (ofString name, value) :: fields), rest) := by
  obtain ⟨fuel, rfl⟩ : ∃ less, fuel = less + 1 := ⟨fuel - 1, by omega⟩
  rw [List.length_append] at enough
  induction fields generalizing name value done fuel with
  | nil =>
    obtain ⟨back, plain⟩ : ReadsBack value ∧ Plain value := each _ List.mem_cons_self
    exact readFields_compactField_last back plain (OrderedTable.not_mem_keys_of_nodup distinct) (by omega)
  | cons second fields ih =>
    obtain ⟨back, plain⟩ : ReadsBack value ∧ Plain value := each _ List.mem_cons_self
    obtain ⟨key, next⟩ := second
    obtain ⟨other, rfl⟩ : ∃ other : String, key = other := named _ List.mem_cons_self
    have shorter : (compactChars next).length + (compactFields fields).length <
        (compactFields ((ofString other, next) :: fields)).length := by
      simp [compactFields]
      omega
    obtain ⟨less, rfl⟩ : ∃ less, fuel = less + 1 := ⟨fuel - 1, by omega⟩
    have fresh := OrderedTable.not_mem_keys_of_nodup distinct
    have moved : done ++ (ofString name, value) :: (ofString other, next) :: fields =
        done ++ [(ofString name, value)] ++ (ofString other, next) :: fields := by simp
    rw [moved] at distinct ⊢
    rw [compactFields_cons, readFields_compactField_next back plain fresh (by omega), skipSpace_looseChars,
      ih (fun field known => named field (.tail _ known)) (fun field known => each field (.tail _ known)) distinct less
        (by omega)]

theorem readsBack_array {items : List Json} (each : ∀ item ∈ items, ReadsBack item)
    (plain : ∀ item ∈ items, Plain item) : ReadsBack (.array items) := by
  refine .of_succ (.array plain) fun fuel rest enough => ?_
  cases items with
  | nil => rfl
  | cons first items =>
    obtain ⟨head, tail, begins, solid, inside, -⟩ := (plain first List.mem_cons_self).compactChars_head
    have long : (compactChars first ++ compactItems items).length + 2 ≤ fuel + 1 := by
      simpa [compactChars, Nat.add_assoc] using enough
    have whole : compactChars (.array (first :: items)) ++ rest =
        '[' :: (compactChars first ++ (compactItems items ++ ']' :: rest)) := by simp [compactChars]
    rw [whole, begins, List.cons_append, readValue_items (skipSpace_cons solid) inside, ← List.cons_append, ← begins]
    exact readItems_compact each (fun item known => plain item (.tail _ known)) (by omega)

theorem readsBack_object {fields : List (LooseText × Json)} (named : ∀ field ∈ fields, ∃ name : String, field.1 = name)
    (each : ∀ field ∈ fields, ReadsBack field.2 ∧ Plain field.2)
    (distinct : (OrderedTable.keys fields).Nodup) : ReadsBack (.object fields) := by
  refine .of_succ (.object named distinct fun field known => (each field known).2) fun fuel rest enough => ?_
  cases fields with
  | nil => rfl
  | cons first fields =>
    obtain ⟨key, value⟩ := first
    obtain ⟨name, rfl⟩ : ∃ name : String, key = name := named _ List.mem_cons_self
    have long : (compactChars value ++ compactFields fields).length + 2 ≤ fuel + 1 := by
      simp [compactChars] at enough ⊢
      omega
    have whole : compactChars (.object ((ofString name, value) :: fields)) ++ rest =
        '\x7b' :: (looseChars (ofString name) ++
          ':' :: (compactChars value ++ (compactFields fields ++ '\x7d' :: rest))) := by simp [compactChars]
    rw [whole, readValue_fields (skipSpace_looseChars (ofString name)) (by decide)]
    exact readFields_compact (fun field known => named field (.tail _ known)) each distinct (by omega)

theorem Plain.readsBack (plain : Plain value) : ReadsBack value := by
  induction plain with
  | null => exact .of_succ .null fun fuel rest enough => rfl
  | bool value => exact .of_succ (.bool value) fun fuel rest enough => by cases value <;> rfl
  | string text =>
    refine .of_succ (.string text) fun fuel rest enough => ?_
    obtain ⟨body, begins, read⟩ := @readString_stringChars rest true text
    rw [compactChars, begins, readValue, read]
    exact congrArg (fun value => Except.ok (value, rest)) (ofCodes_toNat text)
  | array each ih => exact readsBack_array ih each
  | object named distinct each ih =>
    exact readsBack_object named (fun field known => ⟨ih field known, each field known⟩) distinct

theorem Plain.read_compactChars (plain : Plain value) : read (compactChars value) = .ok value := by
  have solid := @Plain.skipSpace_compactChars [] value plain
  have back := plain.readsBack (2 * (compactChars value).length + 2) [] (by omega)
  rw [List.append_nil] at solid back
  rw [read, solid, back]
  rfl

/-! ## Characters below U+0080 -/

theorem ascii_compactItems {items : List Json} (each : ∀ item ∈ items, ∀ char ∈ compactChars item, char.toNat < 0x80) :
    ∀ char ∈ compactItems items, char.toNat < 0x80 := by
  induction items with
  | nil => exact List.forall_mem_nil _
  | cons item items ih =>
    rw [List.forall_mem_cons] at each
    simp only [compactItems, List.forall_mem_append, List.forall_mem_cons]
    exact ⟨⟨by decide, each.1⟩, ih each.2⟩

theorem ascii_compactFields {fields : List (LooseText × Json)}
    (each : ∀ field ∈ fields, ∀ char ∈ compactChars field.2, char.toNat < 0x80) :
    ∀ char ∈ compactFields fields, char.toNat < 0x80 := by
  induction fields with
  | nil => exact List.forall_mem_nil _
  | cons field fields ih =>
    rw [List.forall_mem_cons] at each
    simp only [compactFields, List.forall_mem_append, List.forall_mem_cons]
    exact ⟨⟨⟨by decide, ascii_looseChars field.1⟩, by decide, each.1⟩, ih each.2⟩

theorem Plain.ascii_compactChars (plain : Plain value) : ∀ char ∈ compactChars value, char.toNat < 0x80 := by
  induction plain with
  | null => simp [compactChars]
  | bool value => cases value <;> simp [compactChars]
  | string text => exact ascii_stringChars text
  | @array items each ih =>
    cases items with
    | nil => simp [compactChars]
    | cons first items =>
      rw [List.forall_mem_cons] at ih
      simp only [compactChars, List.forall_mem_append, List.forall_mem_cons]
      exact ⟨⟨⟨by decide, ih.1⟩, ascii_compactItems ih.2⟩, by decide, List.forall_mem_nil _⟩
  | @object fields named distinct each ih =>
    cases fields with
    | nil => simp [compactChars]
    | cons first fields =>
      rw [List.forall_mem_cons] at ih
      simp only [compactChars, List.forall_mem_append, List.forall_mem_cons]
      exact ⟨⟨⟨⟨by decide, ascii_looseChars first.1⟩, by decide, ih.1⟩, ascii_compactFields ih.2⟩, by decide,
        List.forall_mem_nil _⟩

end ClearNames.Json
