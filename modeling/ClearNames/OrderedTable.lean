/-! Tables that keep the order in which their keys were first entered.

A table is a list of entries. Entering a key again replaces its value and
leaves the entry at its place.
-/

set_option autoImplicit false

namespace ClearNames

abbrev OrderedTable (κ ν : Type) := List (κ × ν)

namespace OrderedTable

variable {κ ν : Type} [DecidableEq κ]

def find? (key : κ) : OrderedTable κ ν → Option ν
  | [] => none
  | (other, value) :: rest => if other = key then some value else find? key rest

def put (key : κ) (value : ν) : OrderedTable κ ν → OrderedTable κ ν
  | [] => [(key, value)]
  | (other, held) :: rest => if other = key then (key, value) :: rest else (other, held) :: put key value rest

def values (table : OrderedTable κ ν) : List ν := table.map Prod.snd

def keys (table : OrderedTable κ ν) : List κ := table.map Prod.fst

def update (table changes : OrderedTable κ ν) : OrderedTable κ ν :=
  changes.foldl (fun updated (key, value) => put key value updated) table

@[simp] theorem find?_put (key other : κ) (value : ν) (table : OrderedTable κ ν) :
    find? other (put key value table) = if key = other then some value else find? other table := by
  induction table with
  | nil => simp [put, find?]
  | cons head rest ih =>
    obtain ⟨held, old⟩ := head
    by_cases atHead : held = key
    · subst atHead
      by_cases same : held = other <;> simp [put, find?, same]
    · by_cases same : held = other
      · subst same
        simp [put, find?, atHead, Ne.symm atHead]
      · simp [put, find?, atHead, same, ih]

theorem keys_put_of_mem {key : κ} {table : OrderedTable κ ν} (known : key ∈ keys table) (value : ν) :
    keys (put key value table) = keys table := by
  induction table with
  | nil => simp [keys] at known
  | cons head rest ih =>
    obtain ⟨held, old⟩ := head
    by_cases atHead : held = key
    · subst atHead
      simp [put, keys]
    · have later : key ∈ keys rest := by
        simp only [keys, List.map_cons, List.mem_cons] at known
        exact known.resolve_left (fun same => atHead same.symm)
      have := ih later
      simp only [keys] at this
      simp [put, keys, atHead, this]

theorem put_of_find?_eq_none {key : κ} {table : OrderedTable κ ν} (unknown : find? key table = none)
    (value : ν) : put key value table = table ++ [(key, value)] := by
  induction table with
  | nil => rfl
  | cons head rest ih =>
    obtain ⟨held, old⟩ := head
    by_cases atHead : held = key
    · simp [find?, atHead] at unknown
    · simp [find?, atHead] at unknown
      simp [put, atHead, ih unknown]

theorem mem_of_find?_eq_some {key : κ} {value : ν} {table : OrderedTable κ ν}
    (found : find? key table = some value) : (key, value) ∈ table := by
  induction table with
  | nil => simp [find?] at found
  | cons head rest ih =>
    obtain ⟨held, old⟩ := head
    by_cases atHead : held = key
    · simp_all [find?]
    · simp only [find?, atHead, if_false] at found
      exact List.mem_cons_of_mem _ (ih found)

theorem find?_of_front {key : κ} {value : ν} {table later : OrderedTable κ ν} (front : table <+: later)
    (found : find? key table = some value) : find? key later = some value := by
  obtain ⟨rest, rfl⟩ := front
  induction table with
  | nil => cases found
  | cons head others ih =>
    by_cases atHead : head.1 = key
    · simpa [find?, atHead] using found
    · simp only [find?, atHead, if_false] at found
      simpa [find?, atHead] using ih found

omit [DecidableEq κ] in
theorem mem_keys_of_mem {key : κ} {value : ν} {table : OrderedTable κ ν} (entry : (key, value) ∈ table) :
    key ∈ keys table := List.mem_map_of_mem entry

theorem find?_eq_none_iff {key : κ} {table : OrderedTable κ ν} : find? key table = none ↔ key ∉ keys table := by
  induction table with
  | nil => simp [find?, keys]
  | cons head rest ih =>
    obtain ⟨held, old⟩ := head
    by_cases atHead : held = key
    · simp [find?, keys, atHead]
    · have distinct : key ≠ held := fun same => atHead same.symm
      simp only [find?, atHead, if_false, ih]
      simp [keys, distinct]

theorem find?_eq_some_of_mem {key : κ} {value : ν} {table : OrderedTable κ ν} (distinct : (keys table).Nodup)
    (entry : (key, value) ∈ table) : find? key table = some value := by
  induction table with
  | nil => simp at entry
  | cons head rest ih =>
    obtain ⟨held, old⟩ := head
    obtain ⟨apart, later⟩ := List.nodup_cons.mp distinct
    rcases List.mem_cons.mp entry with same | entry
    · cases same
      simp [find?]
    · have other : held ≠ key := fun same => apart (same ▸ mem_keys_of_mem entry)
      simp only [find?, other, if_false]
      exact ih later entry

theorem eq_of_mem {key : κ} {value other : ν} {table : OrderedTable κ ν} (distinct : (keys table).Nodup)
    (entry : (key, value) ∈ table) (again : (key, other) ∈ table) : value = other :=
  Option.some.inj ((find?_eq_some_of_mem distinct entry).symm.trans (find?_eq_some_of_mem distinct again))

omit [DecidableEq κ] in
theorem mem_values {value : ν} {table : OrderedTable κ ν} : value ∈ values table ↔ ∃ key, (key, value) ∈ table := by
  simp [values]

theorem mem_put (key : κ) (value : ν) (table : OrderedTable κ ν) : (key, value) ∈ put key value table :=
  mem_of_find?_eq_some (by simp)

/-- Where a value tells its key, a key finds the first value that tells it. -/
theorem find?_eq_find?_values {table : OrderedTable κ ν} (keyOf : ν → κ)
    (keyed : ∀ entry ∈ table, keyOf entry.2 = entry.1) (key : κ) :
    find? key table = (values table).find? fun value => keyOf value = key := by
  induction table with
  | nil => rfl
  | cons head rest ih =>
    obtain ⟨atHead, atRest⟩ := List.forall_mem_cons.mp keyed
    by_cases same : head.1 = key
    · simp [find?, values, atHead, same]
    · simp [find?, values, atHead, same, ih atRest]

omit [DecidableEq κ] in
theorem nodup_values {table : OrderedTable κ ν} (distinct : (keys table).Nodup) (keyOf : ν → κ)
    (keyed : ∀ {key value}, (key, value) ∈ table → keyOf value = key) : (values table).Nodup := by
  have told : (values table).map keyOf = keys table := by
    rw [values, List.map_map]
    exact List.map_congr_left fun entry member => keyed member
  exact List.Pairwise.of_map keyOf (fun _ _ apart same => apart (congrArg keyOf same)) (told ▸ distinct)

theorem eq_of_keyOf_eq {table : OrderedTable κ ν} (distinct : (keys table).Nodup) (keyOf : ν → κ)
    (keyed : ∀ {key value}, (key, value) ∈ table → keyOf value = key) {first second : ν}
    (firstIn : first ∈ values table) (secondIn : second ∈ values table) (same : keyOf first = keyOf second) :
    first = second := by
  obtain ⟨key, firstEntry⟩ := mem_values.mp firstIn
  obtain ⟨other, secondEntry⟩ := mem_values.mp secondIn
  have keys : key = other := (keyed firstEntry).symm.trans (same.trans (keyed secondEntry))
  have found := find?_eq_some_of_mem distinct firstEntry
  rw [keys, find?_eq_some_of_mem distinct secondEntry] at found
  exact (Option.some.inj found).symm

theorem mem_of_mem_put {key other : κ} {value held : ν} {table : OrderedTable κ ν}
    (entry : (other, held) ∈ put key value table) :
    (other = key ∧ held = value) ∨ (other, held) ∈ table := by
  induction table with
  | nil => simpa [put] using entry
  | cons head rest ih =>
    obtain ⟨first, old⟩ := head
    by_cases atHead : first = key
    · simp only [put, atHead, if_true, List.mem_cons, Prod.mk.injEq] at entry
      exact entry.imp_right (List.mem_cons_of_mem _)
    · simp only [put, atHead, if_false, List.mem_cons] at entry
      rcases entry with same | entry
      · exact Or.inr (same ▸ List.mem_cons_self)
      · exact (ih entry).imp_right (List.mem_cons_of_mem _)

theorem nodup_keys_put {table : OrderedTable κ ν} (distinct : (keys table).Nodup) (key : κ) (value : ν) :
    (keys (put key value table)).Nodup := by
  by_cases known : key ∈ keys table
  · rw [keys_put_of_mem known]
    exact distinct
  · rw [put_of_find?_eq_none (find?_eq_none_iff.mpr known)]
    simp only [keys, List.map_append, List.map_cons, List.map_nil] at known ⊢
    refine List.nodup_append.mpr ⟨distinct, by simp, ?_⟩
    intro held entry added same equal
    rw [List.mem_singleton.mp same] at equal
    exact known (equal ▸ entry)

omit [DecidableEq κ] in
theorem not_mem_keys_of_nodup {key : κ} {value : ν} {table rest : OrderedTable κ ν}
    (distinct : (keys (table ++ (key, value) :: rest)).Nodup) : key ∉ keys table := by
  simp only [keys, List.map_append, List.map_cons, List.nodup_append] at distinct
  exact fun known => distinct.2.2 key known key List.mem_cons_self rfl

theorem put_append_of_not_mem {key : κ} {front : OrderedTable κ ν} (unknown : key ∉ keys front) (value : ν)
    (back : OrderedTable κ ν) : put key value (front ++ back) = front ++ put key value back := by
  induction front with
  | nil => rfl
  | cons head rest ih =>
    simp only [keys, List.map_cons, List.mem_cons, not_or] at unknown
    have other : head.1 ≠ key := Ne.symm unknown.1
    simp [put, other, ih unknown.2]

theorem update_of_front {table changes : OrderedTable κ ν} (front : keys table <+: keys changes)
    (distinct : (keys changes).Nodup) : update table changes = changes := by
  -- On the changes, of which some are entered already: what is left of the table has keys in front of those left.
  suffices general : ∀ done table : OrderedTable κ ν, keys table <+: keys changes →
      (keys (done ++ changes)).Nodup → update (done ++ table) changes = done ++ changes from
    general [] table front distinct
  clear front distinct table
  induction changes with
  | nil =>
    intro done table front _
    have empty : table = [] := by simpa [keys] using front
    simp [update, empty]
  | cons change rest ih =>
    obtain ⟨key, value⟩ := change
    intro done table front distinct
    have unknown : key ∉ keys done := not_mem_keys_of_nodup distinct
    have entered : ∃ left, put key value (done ++ table) = (done ++ [(key, value)]) ++ left ∧
        keys left <+: keys rest := by
      rw [put_append_of_not_mem unknown]
      cases table with
      | nil => exact ⟨[], by simp [put], List.nil_prefix⟩
      | cons head left =>
        obtain ⟨same, others⟩ := List.cons_prefix_cons.mp front
        exact ⟨left, by simp [put, same], others⟩
    obtain ⟨left, put, others⟩ := entered
    have later := ih (done ++ [(key, value)]) left others (by simpa using distinct)
    simpa [update, put] using later

theorem nodup_keys_update {table : OrderedTable κ ν} (distinct : (keys table).Nodup) (changes : OrderedTable κ ν) :
    (keys (update table changes)).Nodup := by
  induction changes generalizing table with
  | nil => exact distinct
  | cons change rest ih => exact ih (nodup_keys_put distinct change.1 change.2)

theorem find?_append (key : κ) (front back : OrderedTable κ ν) :
    find? key (front ++ back) = (find? key front).or (find? key back) := by
  induction front with
  | nil => rfl
  | cons head rest ih =>
    by_cases same : head.1 = key
    · simp [find?, same]
    · simpa [find?, same] using ih

theorem find?_update (key : κ) (table changes : OrderedTable κ ν) :
    find? key (update table changes) = (find? key changes.reverse).or (find? key table) := by
  induction changes generalizing table with
  | nil => rfl
  | cons change rest ih =>
    have entered : find? key (update table (change :: rest)) = _ := ih (put change.1 change.2 table)
    rw [entered, find?_put, List.reverse_cons, find?_append]
    by_cases same : change.1 = key
    · simp [find?, same]
    · simp [find?, same]

/-- Where keys are entered once, a table is searched from either end alike. -/
theorem find?_reverse {table : OrderedTable κ ν} (distinct : (keys table).Nodup) (key : κ) :
    find? key table.reverse = find? key table := by
  have turned : keys table.reverse = (keys table).reverse := List.map_reverse
  cases found : find? key table with
  | none =>
    rw [find?_eq_none_iff, turned, List.mem_reverse]
    exact find?_eq_none_iff.mp found
  | some value =>
    refine find?_eq_some_of_mem ?_ (List.mem_reverse.mpr (mem_of_find?_eq_some found))
    rw [turned]
    exact List.pairwise_reverse.mpr (distinct.imp Ne.symm)

theorem find?_filter {test : κ × ν → Bool} {key : κ} {table : OrderedTable κ ν}
    (kept : ∀ value, test (key, value) = true) : find? key (table.filter test) = find? key table := by
  induction table with
  | nil => rfl
  | cons head rest ih =>
    by_cases same : head.1 = key
    · have holds : test head = true := by
        rw [← same] at kept
        exact kept head.2
      simp [find?, same, holds]
    · by_cases holds : test head = true
      · simp [find?, same, holds, ih]
      · simp [find?, same, holds, ih]

end OrderedTable

end ClearNames
