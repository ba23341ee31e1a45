/-!
# Keyed tables

A keyed table maps keys to values in the order in which the keys first appeared.
Writing a key again changes its value and leaves its place. `get?` is the view of a table: each
operation is described by what it does to the value of every key.
-/

namespace ClassAtlas

/-- Values by key in the order of the keys' first appearance, no key twice. -/
structure KeyedTable (α β : Type) where
  entries : List (α × β)
  distinct : (entries.map Prod.fst).Nodup
  deriving DecidableEq

abbrev PropertyTable := KeyedTable String String

namespace KeyedTable

variable {α β : Type}

def empty : KeyedTable α β := ⟨[], by simp⟩

/-- The keys in order. -/
def keys (table : KeyedTable α β) : List α :=
  table.entries.map Prod.fst

def mapValues (table : KeyedTable α β) (change : β → β) : KeyedTable α β :=
  ⟨table.entries.map fun (key, value) => (key, change value), by
    have same : (table.entries.map fun (key, value) => (key, change value)).map Prod.fst =
        table.entries.map Prod.fst := by simp
    rw [same]
    exact table.distinct⟩

def filter (table : KeyedTable α β) (test : α → β → Bool) : KeyedTable α β :=
  ⟨table.entries.filter fun (key, value) => test key value,
    table.distinct.sublist (List.filter_sublist.map Prod.fst)⟩

variable [DecidableEq α]

def get? (table : KeyedTable α β) (key : α) : Option β :=
  table.entries.lookup key

/-- The entries with the value of one key replaced. -/
def replace (key : α) (value : β) (entries : List (α × β)) : List (α × β) :=
  entries.map fun entry => if entry.1 = key then (key, value) else entry

theorem keys_replace (key : α) (value : β) (entries : List (α × β)) :
    (replace key value entries).map Prod.fst = entries.map Prod.fst := by
  induction entries with
  | nil => rfl
  | cons entry rest ih =>
      simp only [replace, List.map_cons, List.map_map] at ih ⊢
      rw [ih]
      by_cases equal : entry.1 = key <;> simp [equal]

/-- Sets the value of a key, in its old place if it has one. -/
def insert (table : KeyedTable α β) (key : α) (value : β) : KeyedTable α β :=
  if member : key ∈ table.keys then
    ⟨replace key value table.entries, by rw [keys_replace]; exact table.distinct⟩
  else
    ⟨table.entries ++ [(key, value)], by
      rw [List.map_append, List.nodup_append]
      refine ⟨table.distinct, by simp, ?_⟩
      intro old old_mem new new_mem
      simp only [List.map_cons, List.map_nil, List.mem_singleton] at new_mem
      subst new_mem
      intro equal
      subst equal
      exact member old_mem⟩

/-- Sets the value of a key unless there is none for it. -/
def insertIfPresent (table : KeyedTable α β) (key : α) (value : Option β) :
    KeyedTable α β :=
  match value with
  | some value => table.insert key value
  | none => table

def erase (table : KeyedTable α β) (key : α) : KeyedTable α β :=
  table.filter fun other _ => other != key

/-- The table of these entries, set one after another. -/
def ofList (entries : List (α × β)) : KeyedTable α β :=
  entries.foldl (fun table (key, value) => table.insert key value) empty

/-- A key has a value exactly when it is among the keys. -/
theorem isSome_get?_iff {table : KeyedTable α β} {key : α} :
    (table.get? key).isSome ↔ key ∈ table.keys := by
  simp only [get?, keys, List.lookup_isSome_iff, List.mem_map, beq_iff_eq]
  exact ⟨fun ⟨entry, member, equal⟩ => ⟨entry, member, equal.symm⟩,
    fun ⟨entry, member, equal⟩ => ⟨entry, member, equal.symm⟩⟩

/-- The value of a key is the one with which it stands among the entries. -/
theorem get?_eq_some_iff {table : KeyedTable α β} {key : α} {value : β} :
    table.get? key = some value ↔ (key, value) ∈ table.entries := by
  obtain ⟨entries, distinct⟩ := table
  simp only [get?] at *
  induction entries with
  | nil => simp
  | cons entry rest ih =>
      obtain ⟨first, other⟩ := entry
      rw [List.map_cons, List.nodup_cons] at distinct
      by_cases equal : key = first
      · subst equal
        have gone : (key, value) ∉ rest := fun member =>
          distinct.1 (List.mem_map.2 ⟨(key, value), member, rfl⟩)
        simp [gone, eq_comm]
      · have apart : (key == first) = false := by simpa using equal
        simp [List.lookup_cons, apart, equal, ih distinct.2]

/-- The value of a key in a table whose values were changed. -/
@[simp] theorem get?_mapValues (table : KeyedTable α β) (change : β → β) (key : α) :
    (table.mapValues change).get? key = (table.get? key).map change := by
  simp only [get?, mapValues]
  induction table.entries with
  | nil => rfl
  | cons entry rest ih =>
      obtain ⟨first, value⟩ := entry
      by_cases equal : key = first
      · simp [equal]
      · have unequal : (key == first) = false := by simpa using equal
        simpa [List.lookup_cons, unequal] using ih

theorem lookup_replace (key other : α) (value : β) (entries : List (α × β)) :
    (replace key value entries).lookup other =
      if other = key then (entries.lookup key).map fun _ => value
      else entries.lookup other := by
  induction entries with
  | nil => simp [replace]
  | cons entry rest ih =>
      obtain ⟨first, old⟩ := entry
      simp only [replace, List.map_cons] at ih ⊢
      rw [List.lookup_cons, List.lookup_cons, List.lookup_cons]
      by_cases here : first = key
      · subst here
        by_cases equal : other = first
        · simp [equal]
        · have unequal : (other == first) = false := by simpa using equal
          rw [if_pos rfl, if_neg equal]
          simp only [unequal]
          rw [ih, if_neg equal]
      · have apart : (key == first) = false := by simpa using Ne.symm here
        rw [if_neg here]
        simp only [apart]
        by_cases equal : other = first
        · have unequal : ¬other = key := by rw [equal]; exact here
          simp [equal, here]
        · have unequal : (other == first) = false := by simpa using equal
          simp only [unequal]
          exact ih

/-- Setting a key changes the value of that key alone. -/
theorem get?_insert (table : KeyedTable α β) (key other : α) (value : β) :
    (table.insert key value).get? other =
      if other = key then some value else table.get? other := by
  unfold insert
  split
  · rename_i member
    have present := isSome_get?_iff.2 member
    simp only [get?, lookup_replace] at present ⊢
    split
    · obtain ⟨old, found⟩ := Option.isSome_iff_exists.1 present
      simp [found]
    · rfl
  · rename_i absent
    simp only [get?, List.lookup_append]
    split
    · rename_i equal
      subst equal
      have unset : table.entries.lookup other = none :=
        Option.not_isSome_iff_eq_none.1 (mt isSome_get?_iff.1 absent)
      simp [unset]
    · rename_i unequal
      have apart : (other == key) = false := by simpa using unequal
      simp [List.lookup_cons, apart]

theorem lookup_filter {entries : List (α × β)} (distinct : (entries.map Prod.fst).Nodup)
    (test : α → β → Bool) (key : α) :
    (entries.filter fun entry => test entry.1 entry.2).lookup key =
      (entries.lookup key).filter (test key) := by
  induction entries with
  | nil => rfl
  | cons entry rest ih =>
      obtain ⟨first, value⟩ := entry
      rw [List.map_cons, List.nodup_cons] at distinct
      have later := ih distinct.2
      by_cases equal : key = first
      · subst equal
        have gone : rest.lookup key = none := by
          rw [List.lookup_eq_none_iff]
          intro pair member
          have apart : pair.1 ≠ key := fun same =>
            distinct.1 (List.mem_map.2 ⟨pair, member, same⟩)
          simpa using Ne.symm apart
        cases passes : test key value with
        | true => simp [Option.filter, passes]
        | false =>
            rw [List.filter_cons, if_neg (by simpa using passes), later, gone]
            simp [Option.filter, passes]
      · have apart : (key == first) = false := by simpa using equal
        rw [List.lookup_cons, apart]
        cases passes : test first value with
        | true =>
            rw [List.filter_cons, if_pos passes, List.lookup_cons, apart]
            exact later
        | false =>
            rw [List.filter_cons, if_neg (by simpa using passes)]
            exact later

/-- Filtering keeps the value of a key when it passes. -/
theorem get?_filter (table : KeyedTable α β) (test : α → β → Bool) (key : α) :
    (table.filter test).get? key = (table.get? key).filter (test key) :=
  lookup_filter table.distinct test key

/-- Removing a key takes away its value alone. -/
theorem get?_erase (table : KeyedTable α β) (key other : α) :
    (table.erase key).get? other = if other = key then none else table.get? other := by
  rw [erase, get?_filter]
  by_cases equal : other = key
  · cases table.get? other <;> simp [equal]
  · cases table.get? other <;> simp [equal]

end KeyedTable
end ClassAtlas
