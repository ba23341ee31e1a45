import ClassAtlas.Cache.Basic
import Mathlib

/-!
# What the slots of a cache hold

Two views of a cache describe what its operations do to the slots: `stored?` is the value
under a key, whether expired or not, and `ticket?` is the ticket of a key's slot.  Each
operation has an equation for either view, so that nothing later looks at the table.

A slot is filled by its ticket.  `Ticketed` says that this finds one slot at most; it
holds of a new cache and every operation keeps it (`Ticketed.perform`), because an
operation adds one slot at most and that one has a new ticket (`Follows`).
-/

namespace ClassAtlas.Cache

variable {α β : Type}

/-! ## Views -/

/-- The value has reached its lifetime. -/
def hasLapsed (cache : Cache α β) (now : Nat) (stored : Stored β) : Bool :=
  stored.writtenAt + cache.lifetime ≤ now

theorem isExpired_eq (cache : Cache α β) (now : Nat) (slot : Slot β) :
    cache.isExpired now slot = slot.stored.any (cache.hasLapsed now) := rfl

theorem nodup_keys_filled (cache : Cache α β) : (cache.filled.map Prod.fst).Nodup := by
  have keys : cache.filled.map Prod.fst =
      (cache.slots.entries.filter fun entry => entry.2.stored.isSome).map Prod.fst := by
    rw [filled, List.map_filterMap, ← List.filterMap_eq_map, List.filterMap_filter]
    congr 1
    funext entry
    cases held : entry.2.stored <;> simp [held]
  rw [keys]
  exact cache.slots.distinct.sublist (List.filter_sublist.map Prod.fst)

/-- A count of slots by their values is a count of the stored values. -/
theorem countP_slots (cache : Cache α β) (test : Stored β → Bool) :
    cache.slots.entries.countP (fun entry => entry.2.stored.any test) =
      cache.filled.countP fun entry => test entry.2 := by
  rw [filled, List.countP_filterMap]
  congr 1
  funext entry
  cases held : entry.2.stored <;> simp [held]

theorem size_eq (cache : Cache α β) (now : Nat) :
    cache.size now = cache.filled.countP fun entry => !cache.hasLapsed now entry.2 := by
  rw [size, ← cache.countP_slots fun stored => !cache.hasLapsed now stored]
  congr 1
  funext entry
  cases held : entry.2.stored <;> simp [isLive, isExpired_eq, held]

variable [DecidableEq α]

/-- The value under a key, whether expired or not. -/
def stored? (cache : Cache α β) (key : α) : Option (Stored β) :=
  (cache.slots.get? key).bind Slot.stored

/-- The ticket of the slot of a key. -/
def ticket? (cache : Cache α β) (key : α) : Option Nat :=
  (cache.slots.get? key).map Slot.ticket

/-- The value under a key unless it is expired. -/
def visible? (cache : Cache α β) (now : Nat) (key : α) : Option (Stored β) :=
  (cache.stored? key).filter fun stored => !cache.hasLapsed now stored

theorem stored?_of_visible {cache : Cache α β} {now : Nat} {key : α} {stored : Stored β}
    (seen : cache.visible? now key = some stored) : cache.stored? key = some stored :=
  (Option.filter_eq_some_iff.1 seen).1

theorem stored?_of_get? {cache : Cache α β} {key : α} {slot : Slot β}
    (found : cache.slots.get? key = some slot) : cache.stored? key = slot.stored := by
  simp [stored?, found]

theorem mem_filled {cache : Cache α β} {key : α} {stored : Stored β} :
    (key, stored) ∈ cache.filled ↔ cache.stored? key = some stored := by
  simp only [filled, stored?, List.mem_filterMap, Option.map_eq_some_iff, Prod.mk.injEq,
    Option.bind_eq_some_iff, KeyedTable.get?_eq_some_iff]
  constructor
  · rintro ⟨⟨other, slot⟩, member, _, held, rfl, rfl⟩
    exact ⟨slot, member, held⟩
  · rintro ⟨slot, member, held⟩
    exact ⟨(key, slot), member, stored, held, rfl, rfl⟩

/-- A list is the list of the stored values, but for its order, when it has the same
members and each of them once. -/
theorem filled_perm {cache : Cache α β} {list : List (α × Stored β)} (nodup : list.Nodup)
    (members : ∀ key stored, (key, stored) ∈ list ↔ cache.stored? key = some stored) :
    cache.filled.Perm list := by
  rw [List.perm_ext_iff_of_nodup (.of_map Prod.fst cache.nodup_keys_filled) nodup]
  rintro ⟨key, stored⟩
  rw [mem_filled, members]

/-- The stored values of a cache that differs from another at one key. -/
theorem filled_update_perm {cache later : Cache α β} {key : α} {new : Option (Stored β)}
    (changed : ∀ other, later.stored? other = if other = key then new else cache.stored? other) :
    later.filled.Perm
      (new.toList.map (key, ·) ++ cache.filled.filter fun entry => entry.1 ≠ key) := by
  refine filled_perm ?_ fun other stored => ?_
  · have others := (List.Nodup.of_map Prod.fst cache.nodup_keys_filled).filter
      fun entry => entry.1 ≠ key
    cases new with
    | none => exact others
    | some stored => exact List.nodup_cons.2 ⟨by simp, others⟩
  · rw [changed, List.mem_append, List.mem_filter, mem_filled]
    by_cases same : other = key
    · cases new <;> simp [same, eq_comm]
    · have apart : key ≠ other := Ne.symm same
      simp [same, apart]

/-- How many values there are before and after a change at one key. -/
theorem length_filled_update {cache later : Cache α β} {key : α} {new : Option (Stored β)}
    (changed : ∀ other, later.stored? other = if other = key then new else cache.stored? other) :
    later.filled.length + (cache.stored? key).toList.length =
      cache.filled.length + new.toList.length := by
  have before : ∀ other, cache.stored? other =
      if other = key then cache.stored? key else cache.stored? other := by
    intro other
    split
    · rename_i same
      rw [same]
    · rfl
  have sizes := (filled_update_perm changed).length_eq
  have oldSizes := (filled_update_perm before).length_eq
  simp only [List.length_append, List.length_map] at sizes oldSizes
  omega

/-! ## New caches -/

@[simp] theorem stored?_new (name : String) (limit lifetime : Nat) (key : α) :
    (new name limit lifetime : Cache α β).stored? key = none := rfl

@[simp] theorem ticket?_new (name : String) (limit lifetime : Nat) (key : α) :
    (new name limit lifetime : Cache α β).ticket? key = none := rfl

/-! ## Counting changes neither view -/

@[simp] theorem stored?_countHit (cache : Cache α β) : cache.countHit.stored? = cache.stored? :=
  rfl

@[simp] theorem stored?_countMiss (cache : Cache α β) :
    cache.countMiss.stored? = cache.stored? := rfl

@[simp] theorem stored?_countEvictions (cache : Cache α β) (count : Nat) :
    (cache.countEvictions count).stored? = cache.stored? := rfl

@[simp] theorem ticket?_countMiss (cache : Cache α β) :
    cache.countMiss.ticket? = cache.ticket? := rfl

/-! ## Operations on single slots -/

theorem stored?_withNewSlot (cache : Cache α β) (key other : α) :
    (cache.withNewSlot key).stored? other = if other = key then none else cache.stored? other := by
  simp only [stored?, withNewSlot, KeyedTable.get?_insert]
  split <;> rfl

theorem ticket?_withNewSlot (cache : Cache α β) (key other : α) :
    (cache.withNewSlot key).ticket? other =
      if other = key then some cache.nextTicket else cache.ticket? other := by
  simp only [ticket?, withNewSlot, KeyedTable.get?_insert]
  split <;> rfl

@[simp] theorem ticket?_fill (cache : Cache α β) (ticket : Nat) (stored : Stored β) (key : α) :
    (cache.fill ticket stored).ticket? key = cache.ticket? key := by
  simp only [ticket?, fill, KeyedTable.get?_mapValues, Option.map_map]
  congr 1
  funext slot
  simp only [Function.comp_apply]
  split <;> rfl

/-- Filling reaches the empty slot of the ticket and no other. -/
theorem stored?_fill (cache : Cache α β) (ticket : Nat) (stored : Stored β) (key : α) :
    (cache.fill ticket stored).stored? key =
      if cache.ticket? key = some ticket then (cache.stored? key).or (some stored)
      else cache.stored? key := by
  cases found : cache.slots.get? key with
  | none => simp [stored?, ticket?, fill, found]
  | some slot =>
      by_cases same : slot.ticket = ticket
      · cases held : slot.stored <;> simp [stored?, ticket?, fill, found, same, held]
      · simp [stored?, ticket?, fill, found, same]

theorem enter_of_lapsed {cache : Cache α β} {now : Nat} {key : α} {stored : Stored β}
    (held : cache.stored? key = some stored) (lapsed : cache.hasLapsed now stored) :
    cache.enter now key =
      ((cache.withNewSlot key).countEvictions 1, { ticket := cache.nextTicket }) := by
  obtain ⟨slot, found, inside⟩ := Option.bind_eq_some_iff.1 held
  have expired : cache.isExpired now slot = true := by simp [isExpired_eq, inside, lapsed]
  simp only [enter, found, expired, if_true]

theorem enter_of_kept {cache : Cache α β} {now : Nat} {key : α} {slot : Slot β}
    (found : cache.slots.get? key = some slot) (kept : cache.isExpired now slot = false) :
    cache.enter now key = (cache, slot) := by
  simp [enter, found, kept]

theorem enter_of_absent {cache : Cache α β} {now : Nat} {key : α}
    (absent : cache.slots.get? key = none) :
    cache.enter now key = (cache.withNewSlot key, { ticket := cache.nextTicket }) := by
  simp only [enter, absent]

/-- The three ways in which a slot is found. -/
theorem enter_cases (cache : Cache α β) (now : Nat) (key : α) :
    (∃ stored, cache.stored? key = some stored ∧ cache.hasLapsed now stored ∧
        cache.enter now key =
          ((cache.withNewSlot key).countEvictions 1, { ticket := cache.nextTicket })) ∨
      (∃ slot, cache.slots.get? key = some slot ∧
        cache.visible? now key = slot.stored ∧ cache.stored? key = slot.stored ∧
        cache.enter now key = (cache, slot)) ∨
      (cache.slots.get? key = none ∧
        cache.enter now key = (cache.withNewSlot key, { ticket := cache.nextTicket })) := by
  cases found : cache.slots.get? key with
  | none => exact .inr (.inr ⟨rfl, enter_of_absent found⟩)
  | some slot =>
      have held : cache.stored? key = slot.stored := stored?_of_get? found
      cases expired : cache.isExpired now slot with
      | true =>
          rw [isExpired_eq, Option.any_eq_true] at expired
          obtain ⟨stored, inside, lapsed⟩ := expired
          exact .inl ⟨stored, held.trans inside, lapsed,
            enter_of_lapsed (held.trans inside) lapsed⟩
      | false =>
          refine .inr (.inl ⟨slot, rfl, ?_, held, enter_of_kept found expired⟩)
          rw [visible?, held]
          rw [isExpired_eq] at expired
          cases inside : slot.stored with
          | none => rfl
          | some stored =>
              have fresh : cache.hasLapsed now stored = false := by
                simpa [inside] using expired
              simp [Option.filter, fresh]

/-- The slot that is found holds what is visible, and stands under its key. -/
theorem enter_found (cache : Cache α β) (now : Nat) (key : α) :
    (cache.enter now key).1.slots.get? key = some (cache.enter now key).2 ∧
      (cache.enter now key).2.stored = cache.visible? now key := by
  rcases cache.enter_cases now key with
    ⟨stored, held, lapsed, entered⟩ | ⟨slot, found, seen, _, entered⟩ | ⟨absent, entered⟩
  · rw [entered]
    refine ⟨by simp [countEvictions, withNewSlot, KeyedTable.get?_insert], ?_⟩
    simp [visible?, held, Option.filter, lapsed]
  · rw [entered]
    exact ⟨found, seen.symm⟩
  · rw [entered]
    refine ⟨by simp [withNewSlot, KeyedTable.get?_insert], ?_⟩
    simp [visible?, stored?, absent]

theorem stored?_enter (cache : Cache α β) (now : Nat) (key other : α) :
    (cache.enter now key).1.stored? other =
      if other = key then cache.visible? now key else cache.stored? other := by
  by_cases same : other = key
  · subst same
    obtain ⟨found, inside⟩ := cache.enter_found now other
    rw [if_pos rfl, stored?_of_get? found, inside]
  · rw [if_neg same]
    rcases cache.enter_cases now key with
      ⟨_, _, _, entered⟩ | ⟨_, _, _, _, entered⟩ | ⟨_, entered⟩
    · rw [entered, stored?_countEvictions, stored?_withNewSlot, if_neg same]
    · rw [entered]
    · rw [entered, stored?_withNewSlot, if_neg same]

/-- Finding a slot leaves the limit and the lifetime alone. -/
theorem settings_enter (cache : Cache α β) (now : Nat) (key : α) :
    (cache.enter now key).1.limit = cache.limit ∧
      (cache.enter now key).1.lifetime = cache.lifetime := by
  rcases cache.enter_cases now key with
    ⟨_, _, _, entered⟩ | ⟨_, _, _, _, entered⟩ | ⟨_, entered⟩ <;> rw [entered] <;>
    exact ⟨rfl, rfl⟩

/-! ## Operations on the table -/

/-- The cache with a value written for a key, before room is made for it. -/
def written (cache : Cache α β) (now : Nat) (key : α) (value : β) : Cache α β :=
  { cache with
    slots := cache.slots.insert key ⟨cache.nextTicket, some ⟨value, now⟩⟩
    nextTicket := cache.nextTicket + 1 }

theorem insert_eq (cache : Cache α β) (now : Nat) (key : α) (value : β) :
    cache.insert now key value = (cache.written now key value).trim := rfl

theorem stored?_written (cache : Cache α β) (now : Nat) (key other : α) (value : β) :
    (cache.written now key value).stored? other =
      if other = key then some ⟨value, now⟩ else cache.stored? other := by
  simp only [stored?, written, KeyedTable.get?_insert]
  split <;> rfl

theorem ticket?_written (cache : Cache α β) (now : Nat) (key other : α) (value : β) :
    (cache.written now key value).ticket? other =
      if other = key then some cache.nextTicket else cache.ticket? other := by
  simp only [ticket?, written, KeyedTable.get?_insert]
  split <;> rfl

theorem stored?_trim (cache : Cache α β) (key : α) :
    cache.trim.stored? key =
      if key ∈ cache.surplus then none else cache.stored? key := by
  simp only [stored?, trim, countEvictions, KeyedTable.get?_filter]
  cases cache.slots.get? key <;> by_cases surplus : key ∈ cache.surplus <;>
    simp [Option.filter, surplus]

theorem ticket?_trim (cache : Cache α β) (key : α) :
    cache.trim.ticket? key =
      if key ∈ cache.surplus then none else cache.ticket? key := by
  simp only [ticket?, trim, countEvictions, KeyedTable.get?_filter]
  cases cache.slots.get? key <;> by_cases surplus : key ∈ cache.surplus <;>
    simp [Option.filter, surplus]

/-- The cache without the slot of a key. -/
def without (cache : Cache α β) (key : α) : Cache α β :=
  { cache with slots := cache.slots.erase key }

theorem stored?_without (cache : Cache α β) (key other : α) :
    (cache.without key).stored? other = if other = key then none else cache.stored? other := by
  simp only [stored?, without, KeyedTable.get?_erase]
  split <;> rfl

theorem ticket?_without (cache : Cache α β) (key other : α) :
    (cache.without key).ticket? other = if other = key then none else cache.ticket? other := by
  simp only [ticket?, without, KeyedTable.get?_erase]
  split <;> rfl

theorem invalidate_eq (cache : Cache α β) (key : α) :
    cache.invalidate key = (cache.without key, (cache.slots.get? key).isSome) := rfl

@[simp] theorem stored?_invalidateAll (cache : Cache α β) (key : α) :
    cache.invalidateAll.stored? key = none := rfl

@[simp] theorem ticket?_invalidateAll (cache : Cache α β) (key : α) :
    cache.invalidateAll.ticket? key = none := rfl

theorem stored?_sweep (cache : Cache α β) (now : Nat) (isHeld : Nat → Bool) (key : α) :
    (cache.sweep now isHeld).stored? key = cache.visible? now key := by
  simp only [visible?, stored?, sweep, countEvictions, KeyedTable.get?_filter, isExpired_eq]
  cases cache.slots.get? key with
  | none => rfl
  | some slot =>
      cases held : slot.stored with
      | none => cases held' : isHeld slot.ticket <;> simp [Option.filter, held, held']
      | some stored =>
          cases lapsed : cache.hasLapsed now stored <;> simp [Option.filter, held, lapsed]

/-- A slot outlives the sweep when its value is not expired, or it has none and somebody
holds it. -/
theorem get?_sweep (cache : Cache α β) (now : Nat) (isHeld : Nat → Bool) (key : α) :
    (cache.sweep now isHeld).slots.get? key =
      (cache.slots.get? key).filter fun slot =>
        !cache.isExpired now slot && (slot.stored.isSome || isHeld slot.ticket) := by
  simp only [sweep, countEvictions, KeyedTable.get?_filter]

/-! ## The operations that callers ask for -/

theorem lookup_of_lapsed {cache : Cache α β} {now : Nat} {key : α} {stored : Stored β}
    (held : cache.stored? key = some stored) (lapsed : cache.hasLapsed now stored) :
    cache.lookup now key = (((cache.without key).countEvictions 1).countMiss, none) := by
  obtain ⟨slot, found, inside⟩ := Option.bind_eq_some_iff.1 held
  have expired : cache.isExpired now slot = true := by simp [isExpired_eq, inside, lapsed]
  simp only [lookup, found, expired, if_true, without]

theorem lookup_of_visible {cache : Cache α β} {now : Nat} {key : α} {stored : Stored β}
    (seen : cache.visible? now key = some stored) :
    cache.lookup now key = (cache.countHit, some stored.value) := by
  rw [visible?, Option.filter_eq_some_iff] at seen
  obtain ⟨slot, found, inside⟩ := Option.bind_eq_some_iff.1 seen.1
  have fresh : cache.hasLapsed now stored = false := by simpa using seen.2
  have kept : cache.isExpired now slot = false := by simp [isExpired_eq, inside, fresh]
  simp [lookup, found, kept, inside]

theorem lookup_of_empty {cache : Cache α β} {now : Nat} {key : α}
    (empty : cache.stored? key = none) : cache.lookup now key = (cache.countMiss, none) := by
  cases found : cache.slots.get? key with
  | none => simp only [lookup, found]
  | some slot =>
      have inside : slot.stored = none := (stored?_of_get? found).symm.trans empty
      have kept : cache.isExpired now slot = false := by simp [isExpired_eq, inside]
      simp [lookup, found, kept, inside]

/-- The three ways in which a look-up ends. -/
theorem lookup_cases (cache : Cache α β) (now : Nat) (key : α) :
    (∃ stored, cache.stored? key = some stored ∧ cache.hasLapsed now stored ∧
        cache.lookup now key = (((cache.without key).countEvictions 1).countMiss, none)) ∨
      (∃ stored, cache.stored? key = some stored ∧ cache.visible? now key = some stored ∧
        cache.lookup now key = (cache.countHit, some stored.value)) ∨
      (cache.stored? key = none ∧ cache.lookup now key = (cache.countMiss, none)) := by
  cases held : cache.stored? key with
  | none => exact .inr (.inr ⟨rfl, lookup_of_empty held⟩)
  | some stored =>
      cases lapsed : cache.hasLapsed now stored with
      | true => exact .inl ⟨stored, rfl, lapsed, lookup_of_lapsed held lapsed⟩
      | false =>
          have seen : cache.visible? now key = some stored := by
            simp [visible?, held, Option.filter, lapsed]
          exact .inr (.inl ⟨stored, rfl, seen, lookup_of_visible seen⟩)

theorem stored?_lookup (cache : Cache α β) (now : Nat) (key other : α) :
    (cache.lookup now key).1.stored? other =
      if other = key then cache.visible? now key else cache.stored? other := by
  rcases cache.lookup_cases now key with
    ⟨stored, held, lapsed, looked⟩ | ⟨stored, held, seen, looked⟩ | ⟨empty, looked⟩
  · rw [looked, stored?_countMiss, stored?_countEvictions, stored?_without]
    simp [visible?, held, Option.filter, lapsed]
  · rw [looked, stored?_countHit, seen]
    split
    · rename_i same
      exact same ▸ held
    · rfl
  · rw [looked, stored?_countMiss, visible?, empty]
    split
    · rename_i same
      exact same ▸ empty
    · rfl

theorem snd_lookup (cache : Cache α β) (now : Nat) (key : α) :
    (cache.lookup now key).2 = (cache.visible? now key).map Stored.value := by
  rcases cache.lookup_cases now key with
    ⟨stored, held, lapsed, looked⟩ | ⟨stored, held, seen, looked⟩ | ⟨empty, looked⟩
  · simp [looked, visible?, held, Option.filter, lapsed]
  · simp [looked, seen]
  · simp [looked, visible?, empty]

theorem load_of_visible {cache : Cache α β} {began : Nat} {key : α} {stored : Stored β}
    (seen : cache.visible? began key = some stored) (ended : Nat)
    (brought : Except String β) :
    cache.load began ended key brought =
      ((cache.enter began key).1.countHit, ⟨.ok stored.value, false⟩) := by
  obtain ⟨_, inside⟩ := cache.enter_found began key
  simp only [load, inside, seen]

theorem load_ok {cache : Cache α β} {began : Nat} {key : α}
    (unseen : cache.visible? began key = none) (ended : Nat) (value : β) :
    cache.load began ended key (.ok value) =
      (((cache.enter began key).1.fill (cache.enter began key).2.ticket
        ⟨value, ended⟩).countLoad, ⟨.ok value, true⟩) := by
  obtain ⟨_, inside⟩ := cache.enter_found began key
  simp only [load, inside, unseen]

theorem load_error {cache : Cache α β} {began : Nat} {key : α}
    (unseen : cache.visible? began key = none) (ended : Nat) (error : String) :
    cache.load began ended key (.error error) =
      ((cache.enter began key).1.countFailure, ⟨.error error, true⟩) := by
  obtain ⟨_, inside⟩ := cache.enter_found began key
  simp only [load, inside, unseen]

/-- No operation changes the limit or the lifetime. -/
theorem settings_perform (cache : Cache α β) (began ended : Nat) (isHeld : Nat → Bool)
    (operation : Operation α β) :
    (cache.perform began ended isHeld operation).1.limit = cache.limit ∧
      (cache.perform began ended isHeld operation).1.lifetime = cache.lifetime := by
  cases operation with
  | lookup key =>
      rcases cache.lookup_cases began key with
        ⟨_, _, _, looked⟩ | ⟨_, _, _, looked⟩ | ⟨_, looked⟩ <;>
        simp only [perform, Prod.map, looked] <;> exact ⟨rfl, rfl⟩
  | load key brought =>
      have entered := cache.settings_enter began key
      cases seen : cache.visible? began key with
      | some stored =>
          simp only [perform, Prod.map, load_of_visible seen]
          exact entered
      | none =>
          cases brought with
          | ok value =>
              simp only [perform, Prod.map, load_ok seen]
              exact entered
          | error error =>
              simp only [perform, Prod.map, load_error seen]
              exact entered
  | _ => exact ⟨rfl, rfl⟩

/-! ## Tickets -/

/-- A ticket has one owner at most, and the tickets that are still to come have none. -/
structure Allotted (owns : α → Nat → Prop) (next : Nat) : Prop where
  below : ∀ key ticket, owns key ticket → ticket < next
  apart : ∀ left right ticket, owns left ticket → owns right ticket → left = right

/-- The owners are those of before, except for one that may have got the next ticket. -/
def Extends (owned : α → Nat → Prop) (next : Nat) (owns : α → Nat → Prop) (later : Nat) : Prop :=
  ∃ added : Option α, later = next + added.toList.length ∧
    ∀ key ticket, owns key ticket → owned key ticket ∨ added = some key ∧ ticket = next

omit [DecidableEq α] in
theorem Extends.le {owned owns : α → Nat → Prop} {next later : Nat}
    (grown : Extends owned next owns later) : next ≤ later := by
  obtain ⟨added, rfl, _⟩ := grown
  omega

omit [DecidableEq α] in
theorem Allotted.extend {owned owns : α → Nat → Prop} {next later : Nat}
    (allotted : Allotted owned next) (grown : Extends owned next owns later) :
    Allotted owns later := by
  obtain ⟨added, rfl, owner⟩ := grown
  refine ⟨fun key ticket held => ?_, fun left right ticket first second => ?_⟩
  · rcases owner key ticket held with old | ⟨rfl, rfl⟩
    · exact Nat.lt_add_right _ (allotted.below key ticket old)
    · simp
  · rcases owner left ticket first with old | ⟨isLeft, rfl⟩
    · rcases owner right ticket second with old' | ⟨_, rfl⟩
      · exact allotted.apart left right ticket old old'
      · exact absurd (allotted.below left _ old) (lt_irrefl _)
    · rcases owner right _ second with old' | ⟨isRight, _⟩
      · exact absurd (allotted.below right _ old') (lt_irrefl _)
      · exact Option.some.inj (isLeft.symm.trans isRight)

/-- A ticket belongs to one slot at most, and later slots get later tickets. -/
def Ticketed (cache : Cache α β) : Prop :=
  Allotted (fun key ticket => cache.ticket? key = some ticket) cache.nextTicket

/-- The slots of a cache are those of an earlier one, except for one that may have been
added with a new ticket. -/
def Follows (earlier later : Cache α β) : Prop :=
  Extends (fun key ticket => earlier.ticket? key = some ticket) earlier.nextTicket
    (fun key ticket => later.ticket? key = some ticket) later.nextTicket

theorem ticketed_new (name : String) (limit lifetime : Nat) :
    (new name limit lifetime : Cache α β).Ticketed where
  below key ticket held := by simp at held
  apart left right ticket held := by simp at held

theorem Ticketed.follows {earlier later : Cache α β} (ticketed : earlier.Ticketed)
    (follows : Follows earlier later) : later.Ticketed :=
  ticketed.extend follows

/-- An operation that adds no slot. -/
theorem Follows.of_ticket? {earlier later : Cache α β}
    (next : later.nextTicket = earlier.nextTicket)
    (slots : ∀ key ticket, later.ticket? key = some ticket → earlier.ticket? key = some ticket) :
    Follows earlier later :=
  ⟨none, next, fun key ticket held => .inl (slots key ticket held)⟩

/-- Slots may go after one has been added. -/
theorem Follows.shrink {earlier middle later : Cache α β} (follows : Follows earlier middle)
    (next : later.nextTicket = middle.nextTicket)
    (slots : ∀ key ticket, later.ticket? key = some ticket → middle.ticket? key = some ticket) :
    Follows earlier later := by
  obtain ⟨added, moved, old⟩ := follows
  exact ⟨added, next.trans moved, fun key ticket held => old key ticket (slots key ticket held)⟩

theorem Follows.refl (cache : Cache α β) : Follows cache cache :=
  .of_ticket? rfl fun _ _ held => held

theorem follows_withNewSlot (cache : Cache α β) (key : α) :
    Follows cache (cache.withNewSlot key) := by
  refine ⟨some key, rfl, fun other ticket held => ?_⟩
  change (cache.withNewSlot key).ticket? other = some ticket at held
  rw [ticket?_withNewSlot] at held
  split at held
  · rename_i same
    exact .inr ⟨by rw [same], (Option.some.inj held).symm⟩
  · exact .inl held

theorem follows_written (cache : Cache α β) (now : Nat) (key : α) (value : β) :
    Follows cache (cache.written now key value) := by
  refine ⟨some key, rfl, fun other ticket held => ?_⟩
  change (cache.written now key value).ticket? other = some ticket at held
  rw [ticket?_written] at held
  split at held
  · rename_i same
    exact .inr ⟨by rw [same], (Option.some.inj held).symm⟩
  · exact .inl held

theorem follows_enter (cache : Cache α β) (now : Nat) (key : α) :
    Follows cache (cache.enter now key).1 := by
  rcases cache.enter_cases now key with
    ⟨_, _, _, entered⟩ | ⟨_, _, _, _, entered⟩ | ⟨_, entered⟩
  · rw [entered]
    exact (follows_withNewSlot cache key).shrink rfl fun _ _ held => held
  · rw [entered]
    exact .refl cache
  · rw [entered]
    exact follows_withNewSlot cache key

theorem ticket?_of_trim {cache : Cache α β} {key : α} {ticket : Nat}
    (held : cache.trim.ticket? key = some ticket) : cache.ticket? key = some ticket := by
  rw [ticket?_trim] at held
  split at held
  · exact nomatch held
  · exact held

theorem ticket?_of_without {cache : Cache α β} {key other : α} {ticket : Nat}
    (held : (cache.without key).ticket? other = some ticket) :
    cache.ticket? other = some ticket := by
  rw [ticket?_without] at held
  split at held
  · exact nomatch held
  · exact held

theorem ticket?_of_sweep {cache : Cache α β} {now : Nat} {isHeld : Nat → Bool} {key : α}
    {ticket : Nat} (held : (cache.sweep now isHeld).ticket? key = some ticket) :
    cache.ticket? key = some ticket := by
  obtain ⟨slot, found, same⟩ := Option.map_eq_some_iff.1 held
  rw [get?_sweep, Option.filter_eq_some_iff] at found
  exact Option.map_eq_some_iff.2 ⟨slot, found.1, same⟩

theorem follows_lookup (cache : Cache α β) (now : Nat) (key : α) :
    Follows cache (cache.lookup now key).1 := by
  rcases cache.lookup_cases now key with
    ⟨_, _, _, looked⟩ | ⟨_, _, _, looked⟩ | ⟨_, looked⟩
  · rw [looked]
    exact .of_ticket? rfl fun _ _ held => ticket?_of_without held
  · rw [looked]
    exact .refl cache
  · rw [looked]
    exact .refl cache

theorem follows_load (cache : Cache α β) (began ended : Nat) (key : α)
    (brought : Except String β) : Follows cache (cache.load began ended key brought).1 := by
  have entered := follows_enter cache began key
  cases seen : cache.visible? began key with
  | some stored =>
      rw [load_of_visible seen]
      exact entered.shrink rfl fun _ _ held => held
  | none =>
      cases brought with
      | ok value =>
          rw [load_ok seen]
          refine entered.shrink rfl fun other ticket held => ?_
          have filled := ticket?_of_trim held
          rwa [ticket?_countMiss, ticket?_fill] at filled
      | error error =>
          rw [load_error seen]
          exact entered.shrink rfl fun _ _ held => held

theorem follows_perform (cache : Cache α β) (began ended : Nat) (isHeld : Nat → Bool)
    (operation : Operation α β) :
    Follows cache (cache.perform began ended isHeld operation).1 := by
  cases operation with
  | insert key value =>
      exact (follows_written cache ended key value).shrink rfl fun _ _ held =>
        ticket?_of_trim held
  | lookup key => exact follows_lookup cache began key
  | load key brought => exact follows_load cache began ended key brought
  | invalidate key => exact .of_ticket? rfl fun _ _ held => ticket?_of_without held
  | invalidateAll => exact .of_ticket? rfl fun _ _ held => nomatch held
  | cleanup =>
      exact .of_ticket? rfl fun _ _ held => ticket?_of_sweep (ticket?_of_trim held)
  | size => exact .refl cache

/-- Every operation keeps the tickets apart. -/
theorem Ticketed.perform {cache : Cache α β} (ticketed : cache.Ticketed)
    (began ended : Nat) (isHeld : Nat → Bool) (operation : Operation α β) :
    (cache.perform began ended isHeld operation).1.Ticketed :=
  ticketed.follows (follows_perform cache began ended isHeld operation)

/-- Filling the slot that was found for a key stores the value under that key alone. -/
theorem stored?_fill_found {cache : Cache α β} (ticketed : cache.Ticketed) {began : Nat}
    {key : α} (unseen : cache.visible? began key = none) (stored : Stored β) (other : α) :
    ((cache.enter began key).1.fill (cache.enter began key).2.ticket stored).stored? other =
      if other = key then some stored else (cache.enter began key).1.stored? other := by
  obtain ⟨found, _⟩ := cache.enter_found began key
  have own : (cache.enter began key).1.ticket? key = some (cache.enter began key).2.ticket := by
    simp [ticket?, found]
  have entered := ticketed.follows (follows_enter cache began key)
  rw [stored?_fill]
  by_cases same : other = key
  · rw [same, if_pos own, if_pos rfl, stored?_enter, if_pos rfl, unseen]
    rfl
  · rw [if_neg same]
    exact if_neg fun alike => same (entered.apart other key _ alike own)

theorem stored?_fill_enter {cache : Cache α β} (ticketed : cache.Ticketed) {began : Nat}
    {key : α} (unseen : cache.visible? began key = none) (stored : Stored β) (other : α) :
    ((cache.enter began key).1.fill (cache.enter began key).2.ticket stored).stored? other =
      if other = key then some stored else cache.stored? other := by
  rw [stored?_fill_found ticketed unseen, stored?_enter]
  split <;> rfl

end ClassAtlas.Cache
