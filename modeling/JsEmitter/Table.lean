/-!
# Tables

A table maps keys to values. It is the list of its entries, with distinct keys; `put` replaces
the entry of a key where it stands and adds new keys at the end. What a table says about a key
is `get?`, and each operation has one law about it.
-/
namespace JsEmitter

/-- A finite map from keys to values. -/
structure Table (κ α : Type) where
  /-- The entries, in the order in which their keys were added. -/
  entries : List (κ × α)
  /-- No key has two entries. -/
  distinct : (entries.map Prod.fst).Nodup

namespace Table

variable {κ α β : Type} [DecidableEq κ]

/-- The table without entries. -/
def empty : Table κ α := ⟨[], .nil⟩

instance : EmptyCollection (Table κ α) := ⟨empty⟩

instance : Inhabited (Table κ α) := ⟨empty⟩

/-- The keys, in the order in which they were added. -/
def keys (table : Table κ α) : List κ := table.entries.map Prod.fst

/-- The value of a key. -/
def get? (table : Table κ α) (key : κ) : Option α := table.entries.lookup key

/-- Whether a key has an entry. -/
def contains (table : Table κ α) (key : κ) : Bool := table.keys.contains key

/-- Number of entries. -/
def size (table : Table κ α) : Nat := table.entries.length

/-- Whether there are no entries. -/
def isEmpty (table : Table κ α) : Bool := table.entries.isEmpty

/-- The entry with another value if it has the key. -/
def replaceIn (key : κ) (value : α) (entry : κ × α) : κ × α :=
  if entry.1 = key then (key, value) else entry

/-- Replacing a value leaves the key of an entry. -/
theorem replaceIn_fst (key : κ) (value : α) (entry : κ × α) :
    (replaceIn key value entry).1 = entry.1 := by
  unfold replaceIn
  split
  · rename_i same
    exact same.symm
  · rfl

/-- The table in which a key has a value. -/
def put (table : Table κ α) (key : κ) (value : α) : Table κ α :=
  if found : key ∈ table.keys then
    ⟨table.entries.map (replaceIn key value), by
      have same : (table.entries.map (replaceIn key value)).map Prod.fst = table.keys := by
        simp [keys, replaceIn_fst]
      rw [same]
      exact table.distinct⟩
  else
    ⟨table.entries ++ [(key, value)], by
      rw [List.map_append, List.nodup_append]
      refine ⟨table.distinct, by simp, ?_⟩
      rintro first inTable second inNew rfl
      simp only [List.map_cons, List.map_nil, List.mem_singleton] at inNew
      subst inNew
      exact found inTable⟩

/-- The table with a function applied to every value. -/
def mapValues (transform : α → β) (table : Table κ α) : Table κ β :=
  ⟨table.entries.map (fun entry => (entry.1, transform entry.2)), by
    have same : (table.entries.map (fun entry => (entry.1, transform entry.2))).map Prod.fst =
        table.keys := by
      simp [keys, Function.comp_def]
    rw [same]
    exact table.distinct⟩

/-- The entries whose value satisfies a predicate. -/
def filterValues (keep : α → Bool) (table : Table κ α) : Table κ α :=
  ⟨table.entries.filter (fun entry => keep entry.2),
    table.distinct.sublist (List.filter_sublist.map Prod.fst)⟩

/-- A lookup finds exactly the entries. -/
theorem get?_eq_some_iff {table : Table κ α} {key : κ} {value : α} :
    table.get? key = some value ↔ (key, value) ∈ table.entries := by
  obtain ⟨entries, distinct⟩ := table
  simp only [get?]
  induction entries with
  | nil => simp
  | cons head rest ih =>
    obtain ⟨name, content⟩ := head
    have parts := List.nodup_cons.1 distinct
    rw [List.lookup_cons]
    by_cases same : key = name
    · subst same
      simp only [BEq.rfl, List.mem_cons, Prod.mk.injEq, true_and]
      constructor
      · rintro found
        exact .inl (Option.some.inj found).symm
      · rintro (found | found)
        · exact congrArg some found.symm
        · exact (parts.1 (List.mem_map.2 ⟨_, found, rfl⟩)).elim
    · have differ : (key == name) = false := by simp [same]
      rw [differ]
      simp only [List.mem_cons, Prod.mk.injEq, same, false_and, false_or]
      exact ih parts.2

/-- The test for a key says whether a lookup finds something. -/
theorem contains_eq_isSome (table : Table κ α) (key : κ) :
    table.contains key = (table.get? key).isSome := by
  rw [Bool.eq_iff_iff, Option.isSome_iff_exists]
  simp only [contains, keys, List.contains_eq_mem, decide_eq_true_eq, List.mem_map,
    get?_eq_some_iff]
  constructor
  · rintro ⟨⟨name, value⟩, found, rfl⟩
    exact ⟨value, found⟩
  · rintro ⟨value, found⟩
    exact ⟨(key, value), found, rfl⟩

/-- The empty table has no entry to find. -/
@[simp] theorem get?_empty (key : κ) : (∅ : Table κ α).get? key = none := rfl

/-- Putting a value replaces the entry of its key and keeps the others. -/
theorem mem_put {table : Table κ α} {key other : κ} {value content : α} :
    (other, content) ∈ (table.put key value).entries ↔
      (other = key ∧ content = value) ∨ (other ≠ key ∧ (other, content) ∈ table.entries) := by
  unfold put
  split
  · rename_i found
    simp only [List.mem_map, replaceIn]
    constructor
    · rintro ⟨entry, inTable, equal⟩
      split at equal
      · cases equal
        exact .inl ⟨rfl, rfl⟩
      · rename_i differ
        subst equal
        exact .inr ⟨differ, inTable⟩
    · rintro (⟨rfl, rfl⟩ | ⟨differ, inTable⟩)
      · obtain ⟨entry, inTable, same⟩ := List.mem_map.1 found
        exact ⟨entry, inTable, by rw [if_pos same]⟩
      · exact ⟨_, inTable, by rw [if_neg differ]⟩
  · rename_i absent
    simp only [List.mem_append, List.mem_singleton, Prod.mk.injEq]
    constructor
    · rintro (inTable | same)
      · refine .inr ⟨fun equal => absent ?_, inTable⟩
        subst equal
        exact List.mem_map.2 ⟨_, inTable, rfl⟩
      · exact .inl same
    · rintro (same | ⟨_, inTable⟩)
      · exact .inr same
      · exact .inl inTable

/-- A lookup finds what was put last. -/
@[simp] theorem get?_put_self (table : Table κ α) (key : κ) (value : α) :
    (table.put key value).get? key = some value := by
  rw [get?_eq_some_iff, mem_put]
  exact .inl ⟨rfl, rfl⟩

/-- Putting a value does not change what a lookup of another key finds. -/
theorem get?_put_of_ne (table : Table κ α) {key other : κ} (value : α) (differ : other ≠ key) :
    (table.put key value).get? other = table.get? other := by
  refine Option.ext (fun content => ?_)
  rw [get?_eq_some_iff, get?_eq_some_iff, mem_put]
  simp [differ]

/-- A lookup in a table with changed values changes what it finds. -/
theorem get?_mapValues (transform : α → β) (table : Table κ α) (key : κ) :
    (table.mapValues transform).get? key = (table.get? key).map transform := by
  refine Option.ext (fun content => ?_)
  rw [get?_eq_some_iff, Option.map_eq_some_iff]
  simp only [mapValues, List.mem_map, Prod.mk.injEq, get?_eq_some_iff]
  constructor
  · rintro ⟨⟨name, value⟩, found, rfl, rfl⟩
    exact ⟨value, found, rfl⟩
  · rintro ⟨value, found, rfl⟩
    exact ⟨(key, value), found, rfl, rfl⟩

/-- A lookup in a filtered table finds the values that are kept. -/
theorem get?_filterValues (keep : α → Bool) (table : Table κ α) (key : κ) :
    (table.filterValues keep).get? key = (table.get? key).filter keep := by
  refine Option.ext (fun content => ?_)
  rw [get?_eq_some_iff, Option.filter_eq_some_iff, get?_eq_some_iff]
  simp [filterValues]

end Table

end JsEmitter
