import ClassAtlas.Proofs.Cache.Slots

/-!
# The limit of a cache

What `trim` leaves.  It drops as many values as there are too many
(`length_filled_trim`), and when no two values were written at the same instant it drops
exactly those than which enough others are newer (`mem_surplus_iff`).
-/

namespace ClassAtlas.Cache

variable {α β : Type}

/-- The stored values, those written first in front. -/
def byAge (cache : Cache α β) : List (α × Stored β) :=
  cache.filled.mergeSort fun left right => left.2.writtenAt ≤ right.2.writtenAt

/-- How many of the entries were written later than a value. -/
def newerThan (stored : Stored β) (entries : List (α × Stored β)) : Nat :=
  entries.countP fun entry => stored.writtenAt < entry.2.writtenAt

/-- No two values were written at the same instant. -/
def WrittenApart (cache : Cache α β) : Prop :=
  (cache.filled.map fun entry => entry.2.writtenAt).Nodup

theorem byAge_perm (cache : Cache α β) : cache.byAge.Perm cache.filled :=
  List.mergeSort_perm _ _

theorem nodup_keys_byAge (cache : Cache α β) : (cache.byAge.map Prod.fst).Nodup :=
  (cache.byAge_perm.map Prod.fst).nodup_iff.2 cache.nodup_keys_filled

theorem pairwise_byAge (cache : Cache α β) :
    cache.byAge.Pairwise fun left right => left.2.writtenAt ≤ right.2.writtenAt := by
  have sorted := @List.pairwise_mergeSort _
    (fun left right : α × Stored β => left.2.writtenAt ≤ right.2.writtenAt)
    (fun first second third => by simpa using le_trans)
    (fun left right => by simpa using le_total _ _) cache.filled
  exact sorted.imp fun older => by simpa using older

theorem WrittenApart.pairwise_byAge {cache : Cache α β} (apart : cache.WrittenApart) :
    cache.byAge.Pairwise fun left right => left.2.writtenAt < right.2.writtenAt := by
  have distinct : (cache.byAge.map fun entry => entry.2.writtenAt).Nodup :=
    (cache.byAge_perm.map _).nodup_iff.2 apart
  have unequal := List.pairwise_map.1 distinct
  exact (cache.pairwise_byAge.and unequal).imp fun ⟨le, ne⟩ => lt_of_le_of_ne le ne

/-- In a list that is sorted by age the newer entries are those behind. -/
theorem newerThan_of_split {entry : α × Stored β} {front back : List (α × Stored β)}
    (sorted : (front ++ entry :: back).Pairwise fun left right =>
      left.2.writtenAt < right.2.writtenAt) :
    newerThan entry.2 (front ++ entry :: back) = back.length := by
  obtain ⟨_, behind, before⟩ := List.pairwise_append.1 sorted
  have noneBefore : front.countP (fun other => entry.2.writtenAt < other.2.writtenAt) = 0 := by
    rw [List.countP_eq_zero]
    intro other member
    have older := before other member entry List.mem_cons_self
    simpa using older.le
  have allBehind : back.countP (fun other => entry.2.writtenAt < other.2.writtenAt) =
      back.length := by
    rw [List.countP_eq_length]
    intro other member
    simpa using (List.pairwise_cons.1 behind).1 other member
  rw [newerThan, List.countP_append, noneBefore, List.countP_cons, allBehind]
  simp

theorem mem_take_of_split {entry : α × Stored β} {front back : List (α × Stored β)}
    (nodup : (front ++ entry :: back).Nodup) (count : Nat) :
    entry ∈ (front ++ entry :: back).take count ↔ front.length < count := by
  rw [List.take_append, List.mem_append]
  have absent : entry ∉ front := fun member =>
    (List.nodup_append.1 nodup).2.2 entry member entry List.mem_cons_self rfl
  constructor
  · rintro (member | member)
    · exact absurd (List.mem_of_mem_take member) absent
    · by_contra short
      rw [Nat.sub_eq_zero_of_le (not_lt.1 short)] at member
      simp at member
  · intro long
    obtain ⟨rest, more⟩ := Nat.exists_eq_add_of_lt long
    right
    rw [more, show front.length + rest + 1 - front.length = rest + 1 by omega]
    simp

theorem surplus_eq (cache : Cache α β) :
    cache.surplus =
      (cache.byAge.take (cache.filled.length - cache.limit)).map Prod.fst := rfl

theorem length_surplus (cache : Cache α β) :
    cache.surplus.length = cache.filled.length - cache.limit := by
  rw [surplus_eq, List.length_map, List.length_take, cache.byAge_perm.length_eq]
  omega

/-- Nothing is dropped while there is room for everything. -/
theorem surplus_eq_nil {cache : Cache α β} (room : cache.filled.length ≤ cache.limit) :
    cache.surplus = [] := by
  rw [← List.length_eq_zero_iff, length_surplus]
  omega

variable [DecidableEq α]

theorem mem_byAge {cache : Cache α β} {key : α} {stored : Stored β} :
    (key, stored) ∈ cache.byAge ↔ cache.stored? key = some stored := by
  rw [cache.byAge_perm.mem_iff, mem_filled]

/-- The key of a stored value is in the surplus when the value is among those written
first. -/
theorem mem_surplus {cache : Cache α β} {key : α} {stored : Stored β}
    (held : cache.stored? key = some stored) :
    key ∈ cache.surplus ↔
      (key, stored) ∈ cache.byAge.take (cache.filled.length - cache.limit) := by
  simp only [surplus_eq, List.mem_map, Prod.exists, exists_and_right, exists_eq_right]
  constructor
  · rintro ⟨other, member⟩
    have alike := mem_byAge.1 (List.mem_of_mem_take member)
    rwa [Option.some.inj (held.symm.trans alike)]
  · exact fun member => ⟨stored, member⟩

theorem writtenApart_of {cache : Cache α β}
    (apart : ∀ left right first second, cache.stored? left = some first →
      cache.stored? right = some second → first.writtenAt = second.writtenAt → left = right) :
    cache.WrittenApart := by
  refine List.Nodup.map_on ?_ (.of_map Prod.fst cache.nodup_keys_filled)
  rintro ⟨left, first⟩ isFirst ⟨right, second⟩ isSecond same
  rw [mem_filled] at isFirst isSecond
  have equal := apart left right first second isFirst isSecond same
  subst equal
  rw [Option.some.inj (isFirst.symm.trans isSecond)]

/-- What stays is what was written last. -/
theorem filled_trim (cache : Cache α β) :
    cache.trim.filled.Perm (cache.byAge.drop (cache.filled.length - cache.limit)) := by
  have nodup : cache.byAge.Nodup := .of_map Prod.fst cache.nodup_keys_byAge
  refine filled_perm (nodup.sublist (List.drop_sublist _ _)) fun key stored => ?_
  rw [stored?_trim]
  have parts := List.take_append_drop (cache.filled.length - cache.limit) cache.byAge
  rw [← parts] at nodup
  have whole : (key, stored) ∈ cache.byAge ↔
      (key, stored) ∈ cache.byAge.take (cache.filled.length - cache.limit) ∨
        (key, stored) ∈ cache.byAge.drop (cache.filled.length - cache.limit) := by
    rw [← List.mem_append, parts]
  constructor
  · intro member
    have held := mem_byAge.1 (whole.2 (.inr member))
    have kept : key ∉ cache.surplus := fun dropped =>
      (List.nodup_append.1 nodup).2.2 _ ((mem_surplus held).1 dropped) _ member rfl
    rw [if_neg kept, held]
  · intro held
    split at held
    · cases held
    · rename_i kept
      exact (whole.1 (mem_byAge.2 held)).resolve_left fun dropped =>
        kept ((mem_surplus held).2 dropped)

/-- There are never more values than the limit after room has been made. -/
theorem length_filled_trim (cache : Cache α β) :
    cache.trim.filled.length = min cache.filled.length cache.limit := by
  rw [cache.filled_trim.length_eq, List.length_drop, cache.byAge_perm.length_eq]
  omega

/-- A value has to go when as many others as there is room for are newer. -/
theorem mem_surplus_iff {cache : Cache α β} (apart : cache.WrittenApart) {key : α}
    {stored : Stored β} (held : cache.stored? key = some stored) :
    key ∈ cache.surplus ↔ cache.limit ≤ newerThan stored cache.filled := by
  obtain ⟨front, back, split⟩ := List.append_of_mem (mem_byAge.2 held)
  have sorted := apart.pairwise_byAge
  have nodup : cache.byAge.Nodup := .of_map Prod.fst cache.nodup_keys_byAge
  have size : cache.filled.length = front.length + back.length + 1 := by
    rw [← cache.byAge_perm.length_eq, split]
    simp [Nat.add_assoc]
  have newer : newerThan stored cache.filled = back.length := by
    rw [newerThan, ← cache.byAge_perm.countP_eq, split]
    rw [split] at sorted
    exact newerThan_of_split sorted
  rw [mem_surplus held, split, mem_take_of_split (split ▸ nodup), newer]
  omega

theorem stored?_of_trim {cache : Cache α β} {key : α} {stored : Stored β}
    (held : cache.trim.stored? key = some stored) : cache.stored? key = some stored := by
  rw [stored?_trim] at held
  split at held
  · cases held
  · exact held

theorem stored?_trim_of_room {cache : Cache α β} (room : cache.filled.length ≤ cache.limit)
    (key : α) : cache.trim.stored? key = cache.stored? key := by
  rw [stored?_trim, surplus_eq_nil room]
  simp

end ClassAtlas.Cache
