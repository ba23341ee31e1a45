import ClassAtlas.Proofs.Cache.Course

/-!
# Caches as ageing maps

A map from keys to values with the instants at which they were written, and what the
operations of a cache mean for it.  It has neither slots nor tickets nor counters, an
expired value counts for nothing when its key is looked up, and a write keeps the newest
values.

The main statement is `answers_eq_ageingMap`: a cache that serves requests under a clock
that never goes back gives the answers of the map, and what it stores is what the map
holds.  From that follow the bounds on what is stored and on what is evicted
(`KeepsLimit`).  The relation is `Describes`, and `Timely` is what a cache keeps for it.
-/

namespace ClassAtlas

/-! ## The map -/

/-- Values by key with the instants at which they were written. -/
structure AgeingMap (α β : Type) where
  /-- The number of values that a write leaves, at most. -/
  limit : Nat
  /-- The age from which on a value is not seen. -/
  lifetime : Nat
  entries : KeyedTable α (Cache.Stored β) := .empty

namespace AgeingMap

open Cache (Stored Operation Answer Outcome Request)

variable {α β : Type}

/-- An empty map; there is room for at least one value. -/
def new (limit lifetime : Nat) : AgeingMap α β where
  limit := max 1 limit
  lifetime

/-- The age of the value is below the lifetime. -/
def isFresh (map : AgeingMap α β) (now : Nat) (stored : Stored β) : Bool :=
  now - stored.writtenAt < map.lifetime

/-- Keeps the newest values, as many as the limit allows. -/
def keepNewest (map : AgeingMap α β) : AgeingMap α β :=
  { map with
    entries := map.entries.filter fun _ stored =>
      Cache.newerThan stored map.entries.entries < map.limit }

/-- How many values are fresh. -/
def size (map : AgeingMap α β) (now : Nat) : Nat :=
  map.entries.entries.countP fun entry => map.isFresh now entry.2

/-- Drops what is expired, and tells how much that was. -/
def cleanup (map : AgeingMap α β) (now : Nat) : AgeingMap α β × Nat :=
  ({ map with entries := map.entries.filter fun _ stored => map.isFresh now stored },
    map.entries.entries.countP fun entry => !map.isFresh now entry.2)

variable [DecidableEq α]

/-- The value under a key, if it is fresh. -/
def sees (map : AgeingMap α β) (now : Nat) (key : α) : Option β :=
  ((map.entries.get? key).filter (map.isFresh now)).map Stored.value

/-- Drops the value under a key when it is expired. -/
def dropExpired (map : AgeingMap α β) (now : Nat) (key : α) : AgeingMap α β :=
  { map with
    entries := map.entries.filter fun other stored => other != key || map.isFresh now stored }

/-- Writes a value, and keeps the newest. -/
def write (map : AgeingMap α β) (now : Nat) (key : α) (value : β) : AgeingMap α β :=
  { map with entries := map.entries.insert key ⟨value, now⟩ : AgeingMap α β }.keepNewest

/-- Looks up a key, and writes what the loader brings if nothing is seen. -/
def load (map : AgeingMap α β) (began ended : Nat) (key : α) (brought : Except String β) :
    AgeingMap α β × Outcome β :=
  match map.sees began key, brought with
  | some value, _ => (map.dropExpired began key, ⟨.ok value, false⟩)
  | none, .ok value => ((map.dropExpired began key).write ended key value, ⟨.ok value, true⟩)
  | none, .error error => (map.dropExpired began key, ⟨.error error, true⟩)

/-- Serves a request.  Whether an invalidated key was there is not told. -/
def serve (map : AgeingMap α β) (request : Request α β) : AgeingMap α β × Answer β :=
  match request.operation with
  | .insert key value => (map.write request.ended key value, .done)
  | .lookup key => (map.dropExpired request.began key, .found (map.sees request.began key))
  | .load key brought =>
      (map.load request.began request.ended key brought).map id .loaded
  | .invalidate key => ({ map with entries := map.entries.erase key }, .done)
  | .invalidateAll => ({ map with entries := .empty }, .done)
  | .cleanup => (map.cleanup request.began).map id .count
  | .size => (map, .count (map.size request.began))

end AgeingMap

namespace Cache

variable {α β : Type}

/-- The answer without the flag of an invalidation. -/
def Answer.unflagged : Answer β → Answer β
  | .removed _ => .done
  | answer => answer

variable [DecidableEq α]

/-! ## What relates a cache to a map -/

/-- The map holds what the cache stores. -/
structure Describes (map : AgeingMap α β) (cache : Cache α β) : Prop where
  limit : map.limit = cache.limit
  lifetime : map.lifetime = cache.lifetime
  entries : ∀ key, map.entries.get? key = cache.stored? key

/-- What holds of a cache while the clock does not go back and all writes are told apart
by their instants. -/
structure Timely (cache : Cache α β) (now : Nat) : Prop where
  ticketed : cache.Ticketed
  bounded : cache.filled.length ≤ cache.limit
  past : ∀ key stored, cache.stored? key = some stored → stored.writtenAt ≤ now
  apart : ∀ left right first second, cache.stored? left = some first →
    cache.stored? right = some second → first.writtenAt = second.writtenAt → left = right

theorem length_filled_le {earlier later : Cache α β}
    (kept : ∀ key stored, later.stored? key = some stored → earlier.stored? key = some stored) :
    later.filled.length ≤ earlier.filled.length := by
  refine ((List.Nodup.of_map Prod.fst later.nodup_keys_filled).subperm ?_).length_le
  rintro ⟨key, stored⟩ member
  exact mem_filled.2 (kept key stored (mem_filled.1 member))

/-- Values may go while time passes. -/
theorem Timely.shrink {earlier later : Cache α β} {since now : Nat}
    (timely : earlier.Timely since) (passed : since ≤ now) (ticketed : later.Ticketed)
    (limit : later.limit = earlier.limit)
    (kept : ∀ key stored, later.stored? key = some stored → earlier.stored? key = some stored) :
    later.Timely now where
  ticketed
  bounded := limit ▸ (length_filled_le kept).trans timely.bounded
  past key stored held := (timely.past key stored (kept key stored held)).trans passed
  apart left right first second isFirst isSecond :=
    timely.apart left right first second (kept left first isFirst) (kept right second isSecond)

theorem timely_new (name : String) (limit lifetime now : Nat) :
    (new name limit lifetime : Cache α β).Timely now where
  ticketed := ticketed_new name limit lifetime
  bounded := Nat.zero_le _
  past key stored held := by simp at held
  apart left right first second held := by simp at held

theorem describes_new (name : String) (limit lifetime : Nat) :
    Describes (.new limit lifetime) (new name limit lifetime : Cache α β) where
  limit := max_comm 1 limit
  lifetime := rfl
  entries _ := rfl

theorem Describes.perm {map : AgeingMap α β} {cache : Cache α β}
    (describes : Describes map cache) : cache.filled.Perm map.entries.entries :=
  filled_perm (.of_map Prod.fst map.entries.distinct) fun key stored => by
    rw [← KeyedTable.get?_eq_some_iff, describes.entries]

theorem Describes.isFresh {map : AgeingMap α β} {cache : Cache α β}
    (describes : Describes map cache) {now : Nat} {stored : Stored β}
    (past : stored.writtenAt ≤ now) : map.isFresh now stored = !cache.hasLapsed now stored := by
  rw [AgeingMap.isFresh, hasLapsed, describes.lifetime, ← decide_not, decide_eq_decide]
  omega

/-- What the map takes for fresh is what the cache shows. -/
theorem Describes.filter_get? {map : AgeingMap α β} {cache : Cache α β} {now : Nat}
    (describes : Describes map cache) (timely : cache.Timely now) (key : α) :
    (map.entries.get? key).filter (map.isFresh now) = cache.visible? now key := by
  rw [visible?, describes.entries]
  cases held : cache.stored? key with
  | none => rfl
  | some stored => simp [Option.filter, describes.isFresh (timely.past key stored held)]

theorem Describes.sees {map : AgeingMap α β} {cache : Cache α β} {now : Nat}
    (describes : Describes map cache) (timely : cache.Timely now) (key : α) :
    map.sees now key = (cache.visible? now key).map Stored.value := by
  rw [AgeingMap.sees, describes.filter_get? timely]

/-- Counting fresh or expired values gives the same number on both sides. -/
theorem Describes.countP {map : AgeingMap α β} {cache : Cache α β} {now : Nat}
    (describes : Describes map cache) (timely : cache.Timely now) (test : Bool → Bool) :
    map.entries.entries.countP (fun entry => test (map.isFresh now entry.2)) =
      cache.filled.countP fun entry => test (!cache.hasLapsed now entry.2) := by
  rw [← describes.perm.countP_eq]
  refine List.countP_congr fun entry member => ?_
  have held := mem_filled.1 (show (entry.1, entry.2) ∈ cache.filled from member)
  rw [describes.isFresh (timely.past _ _ held)]

theorem get?_dropExpired {map : AgeingMap α β} {cache : Cache α β} {now : Nat}
    (describes : Describes map cache) (timely : cache.Timely now) (key other : α) :
    (map.dropExpired now key).entries.get? other =
      if other = key then cache.visible? now key else cache.stored? other := by
  rw [AgeingMap.dropExpired, KeyedTable.get?_filter]
  by_cases same : other = key
  · subst same
    simpa using describes.filter_get? timely other
  · rw [describes.entries, if_neg same]
    cases cache.stored? other <;> simp [Option.filter, same]

/-! ## Writing -/

theorem Writes.apart {cache full : Cache α β} {since : Nat} {key : α} {stored : Stored β}
    (writes : Writes cache full key stored) (timely : cache.Timely since)
    (unused : ∀ other old, cache.stored? other = some old → old.writtenAt ≠ stored.writtenAt)
    (left right : α) (first second : Stored β) (isFirst : full.stored? left = some first)
    (isSecond : full.stored? right = some second)
    (same : first.writtenAt = second.writtenAt) : left = right := by
  rw [writes.stored?] at isFirst isSecond
  split at isFirst <;> split at isSecond
  · rename_i isLeft isRight
    rw [isLeft, isRight]
  · cases isFirst
    exact absurd same.symm (unused right second isSecond)
  · cases isSecond
    exact absurd same (unused left first isFirst)
  · exact timely.apart left right first second isFirst isSecond same

theorem Writes.timely_trim {cache full : Cache α β} {since now : Nat} {key : α}
    {stored : Stored β} (writes : Writes cache full key stored) (timely : cache.Timely since)
    (passed : since ≤ now) (ticketed : full.trim.Ticketed) (writtenNow : stored.writtenAt = now)
    (unused : ∀ other old, cache.stored? other = some old → old.writtenAt ≠ stored.writtenAt) :
    full.trim.Timely now where
  ticketed
  bounded := full.length_filled_trim.trans_le (min_le_right _ _)
  past other old held := by
    have inFull := stored?_of_trim held
    rw [writes.stored?] at inFull
    split at inFull
    · cases inFull
      exact writtenNow.le
    · exact (timely.past other old inFull).trans passed
  apart left right first second isFirst isSecond :=
    writes.apart timely unused left right first second (stored?_of_trim isFirst)
      (stored?_of_trim isSecond)

/-- Making room in the cache is keeping the newest in the map. -/
theorem Describes.keepNewest {map : AgeingMap α β} {cache : Cache α β}
    (describes : Describes map cache) (apart : cache.WrittenApart) :
    Describes map.keepNewest cache.trim where
  limit := describes.limit
  lifetime := describes.lifetime
  entries key := by
    rw [AgeingMap.keepNewest, KeyedTable.get?_filter, stored?_trim, describes.entries]
    cases held : cache.stored? key with
    | none => simp
    | some stored =>
        have newer : newerThan stored map.entries.entries = newerThan stored cache.filled :=
          (describes.perm.countP_eq _).symm
        have dropped := mem_surplus_iff apart held
        rw [Option.filter, newer, describes.limit]
        by_cases kept : newerThan stored cache.filled < cache.limit
        · rw [if_pos (by simpa using kept), if_neg (by rw [dropped]; omega)]
        · rw [if_neg (by simpa using kept), if_pos (by rw [dropped]; omega)]

/-- Writing into a map that agrees with the cache on the other keys. -/
theorem describes_write {base : AgeingMap α β} {cache full : Cache α β} {now : Nat} {key : α}
    {value : β} (limit : base.limit = cache.limit) (lifetime : base.lifetime = cache.lifetime)
    (others : ∀ other, other ≠ key → base.entries.get? other = cache.stored? other)
    (writes : Writes cache full key ⟨value, now⟩) (apart : full.WrittenApart) :
    Describes (base.write now key value) full.trim := by
  refine @Describes.keepNewest _ _ _ _ full ⟨limit.trans writes.limit.symm,
    lifetime.trans writes.lifetime.symm, fun other => ?_⟩ apart
  rw [KeyedTable.get?_insert, writes.stored?]
  split
  · rfl
  · rename_i different
    exact others other different

/-! ## Serving one request -/

/-- The instant at which a request writes is that of no stored value. -/
def Unused (cache : Cache α β) (request : Request α β) : Prop :=
  ∀ key stored, request.written? (cache.serve request).2 = some (key, stored) →
    ∀ other old, cache.stored? other = some old → old.writtenAt ≠ stored.writtenAt

theorem Timely.serve {cache : Cache α β} {since : Nat} {request : Request α β}
    (timely : cache.Timely since) (passed : since ≤ request.ended)
    (unused : cache.Unused request) : (cache.serve request).1.Timely request.ended := by
  cases written : request.written? (cache.serve request).2 with
  | some entry =>
      obtain ⟨key, stored⟩ := entry
      obtain ⟨full, served, writes⟩ := serve_of_written timely.ticketed written
      rw [served]
      exact writes.timely_trim timely passed (served ▸ timely.ticketed.serve request)
        (writtenAt_of_written written) (unused key stored written)
  | none =>
      exact timely.shrink passed (timely.ticketed.serve request) (cache.settings_serve request).1
        fun _ _ => stored?_of_unwritten written

theorem Timely.later {cache : Cache α β} {since now : Nat} (timely : cache.Timely since)
    (passed : since ≤ now) : cache.Timely now :=
  timely.shrink passed timely.ticketed rfl fun _ _ held => held

/-- A look-up drops an expired value on both sides. -/
theorem describes_dropExpired {map : AgeingMap α β} {cache later : Cache α β} {now : Nat}
    {key : α} (describes : Describes map cache) (timely : cache.Timely now)
    (limit : later.limit = cache.limit) (lifetime : later.lifetime = cache.lifetime)
    (stored? : ∀ other, later.stored? other =
      if other = key then cache.visible? now key else cache.stored? other) :
    Describes (map.dropExpired now key) later where
  limit := describes.limit.trans limit.symm
  lifetime := describes.lifetime.trans lifetime.symm
  entries other := (get?_dropExpired describes timely key other).trans (stored? other).symm

/-- What the sweep of a clean-up leaves is within the limit. -/
theorem length_filled_sweep_le (cache : Cache α β) (now : Nat) (isHeld : Nat → Bool) :
    (cache.sweep now isHeld).filled.length ≤ cache.filled.length :=
  length_filled_le fun key stored held => by
    rw [stored?_sweep] at held
    exact stored?_of_visible held

theorem stored?_cleanup {cache : Cache α β} {since : Nat} (timely : cache.Timely since)
    (now : Nat) (isHeld : Nat → Bool) (key : α) :
    (cache.cleanup now isHeld).1.stored? key = cache.visible? now key := by
  have room := (cache.length_filled_sweep_le now isHeld).trans timely.bounded
  exact (stored?_trim_of_room room key).trans (stored?_sweep cache now isHeld key)

/-- A clean-up drops what is expired and nothing else. -/
theorem snd_cleanup {cache : Cache α β} {since : Nat} (timely : cache.Timely since)
    (now : Nat) (isHeld : Nat → Bool) :
    (cache.cleanup now isHeld).2 =
      cache.filled.countP fun entry => cache.hasLapsed now entry.2 := by
  have room := (cache.length_filled_sweep_le now isHeld).trans timely.bounded
  have noSurplus : (cache.sweep now isHeld).surplus = [] := surplus_eq_nil room
  rw [← cache.countP_slots (cache.hasLapsed now)]
  simp only [cleanup, noSurplus, List.length_nil, Nat.add_zero]
  rfl

/-- A cache and the map that describes it give the same answer to a request, and the map
describes the cache afterwards. -/
theorem Describes.serve {map : AgeingMap α β} {cache : Cache α β} {since : Nat}
    {request : Request α β} (describes : Describes map cache) (timely : cache.Timely since)
    (begins : since ≤ request.began) (unused : cache.Unused request) :
    (cache.serve request).2.unflagged = (map.serve request).2 ∧
      Describes (map.serve request).1 (cache.serve request).1 := by
  obtain ⟨began, ended, operation⟩ := request
  have timely' : cache.Timely began := timely.later begins
  have sees := describes.sees timely'
  cases operation with
  | insert key value =>
      have writes := writes_written cache ended key value
      exact ⟨rfl, describes_write describes.limit describes.lifetime
        (fun other _ => describes.entries other) writes
        (writtenApart_of (writes.apart timely (unused key _ rfl)))⟩
  | lookup key =>
      have settings := cache.settings_serve ⟨began, ended, .lookup key⟩
      refine ⟨?_, describes_dropExpired describes timely' settings.1 settings.2
        (stored?_lookup cache began key)⟩
      simp only [Cache.serve, perform, Prod.map, AgeingMap.serve, Answer.unflagged, snd_lookup,
        sees]
  | load key brought =>
      have settings := cache.settings_enter began key
      have dropped := describes_dropExpired describes
        timely' settings.1 settings.2 (stored?_enter cache began key)
      cases seen : cache.visible? began key with
      | some stored =>
          simp only [Cache.serve, perform, Prod.map, load_of_visible seen, AgeingMap.serve,
            AgeingMap.load, sees, seen, Option.map_some]
          exact ⟨rfl, dropped.limit, dropped.lifetime, dropped.entries⟩
      | none =>
          cases brought with
          | error error =>
              simp only [Cache.serve, perform, Prod.map, load_error seen, AgeingMap.serve,
                AgeingMap.load, sees, seen, Option.map_none]
              exact ⟨rfl, dropped.limit, dropped.lifetime, dropped.entries⟩
          | ok value =>
              have writes := writes_fill_enter timely.ticketed seen (⟨value, ended⟩ : Stored β)
              have isWrite : (⟨began, ended, .load key (.ok value)⟩ : Request α β).written?
                  (cache.serve ⟨began, ended, .load key (.ok value)⟩).2 =
                    some (key, ⟨value, ended⟩) := by
                simp only [Cache.serve, perform, Prod.map, load_ok seen]
                rfl
              simp only [Cache.serve, perform, Prod.map, load_ok seen, AgeingMap.serve,
                AgeingMap.load, sees, seen, Option.map_none]
              refine ⟨rfl, describes_write describes.limit describes.lifetime
                (fun other different => ?_) writes
                (writtenApart_of (writes.apart timely (unused key _ isWrite)))⟩
              rw [get?_dropExpired describes timely', if_neg different]
  | invalidate key =>
      refine ⟨rfl, describes.limit, describes.lifetime, fun other => ?_⟩
      simp only [Cache.serve, perform, Prod.map, invalidate_eq, AgeingMap.serve, id_eq,
        stored?_without, KeyedTable.get?_erase, describes.entries]
  | invalidateAll => exact ⟨rfl, describes.limit, describes.lifetime, fun _ => rfl⟩
  | cleanup =>
      have count := describes.countP timely' (! ·)
      refine ⟨?_, describes.limit, describes.lifetime, fun key => ?_⟩
      · simp only [Cache.serve, perform, Prod.map, AgeingMap.serve, Answer.unflagged,
          AgeingMap.cleanup, count, snd_cleanup timely', Bool.not_not]
      · have swept := stored?_cleanup timely' began (fun _ => false) key
        have kept := describes.filter_get? timely' key
        simp only [Cache.serve, perform, Prod.map, AgeingMap.serve, AgeingMap.cleanup, id_eq,
          KeyedTable.get?_filter]
        exact kept.trans swept.symm
  | size =>
      have count := describes.countP timely' id
      refine ⟨?_, describes⟩
      simp only [id_eq] at count
      simp only [Cache.serve, perform, AgeingMap.serve, Answer.unflagged, AgeingMap.size, count,
        size_eq]

/-! ## Room for a value -/

theorem Writes.not_mem_surplus {cache full : Cache α β} {key : α} {stored : Stored β}
    (writes : Writes cache full key stored) (apart : full.WrittenApart)
    (newest : ∀ other old, cache.stored? other = some old → old.writtenAt ≤ stored.writtenAt) :
    key ∉ full.surplus := by
  have held : full.stored? key = some stored := by rw [writes.stored?, if_pos rfl]
  have newer : newerThan stored full.filled = 0 := by
    rw [newerThan, List.countP_eq_zero]
    rintro ⟨other, old⟩ member
    have inFull := mem_filled.1 member
    rw [writes.stored?] at inFull
    split at inFull
    · cases inFull
      simp
    · simpa using newest other old inFull
  rw [mem_surplus_iff apart held, newer, not_le]
  exact full.limit_pos

/-- What a request writes is apart from everything else that is stored, and stays when room
is made. -/
theorem Timely.stays {cache full : Cache α β} {since : Nat} {request : Request α β}
    (timely : cache.Timely since) (passed : since ≤ request.ended)
    (unused : cache.Unused request) {key : α} {stored : Stored β}
    (written : request.written? (cache.serve request).2 = some (key, stored))
    (writes : Writes cache full key stored) : full.WrittenApart ∧ key ∉ full.surplus := by
  have apart := writtenApart_of (writes.apart timely (unused key stored written))
  refine ⟨apart, writes.not_mem_surplus apart fun other old held => ?_⟩
  rw [writtenAt_of_written written]
  exact (timely.past other old held).trans passed

/-- The values of a cache in which one has been written. -/
theorem Writes.filled_perm {cache full : Cache α β} {key : α} {stored : Stored β}
    (writes : Writes cache full key stored) :
    full.filled.Perm ((key, stored) :: cache.filled.filter fun entry => entry.1 ≠ key) :=
  filled_update_perm writes.stored?

/-- When a value has not expired, neither has any that was written later. -/
theorem newerThan_lt_countP {cache : Cache α β} {now : Nat} {key : α} {stored : Stored β}
    (held : cache.stored? key = some stored) (fresh : cache.hasLapsed now stored = false) :
    newerThan stored cache.filled <
      cache.filled.countP fun entry => !cache.hasLapsed now entry.2 := by
  obtain ⟨front, back, split⟩ := List.append_of_mem (mem_filled.2 held)
  have later (entries : List (α × Stored β)) :
      newerThan stored entries ≤ entries.countP fun entry => !cache.hasLapsed now entry.2 := by
    refine List.countP_mono_left fun entry _ newer => ?_
    simp only [hasLapsed, decide_eq_true_eq, decide_eq_false_iff_not, Bool.not_eq_true'] at *
    omega
  have inFront := later front
  have inBack := later back
  rw [split]
  simp only [newerThan, List.countP_append, List.countP_cons, lt_irrefl, decide_false, fresh,
    Bool.not_false, if_true, Bool.false_eq_true, if_false] at *
  omega

/-- An operation that takes away the value of a key on purpose. -/
def Operation.Withdraws (operation : Operation α β) (key : α) : Prop :=
  match operation with
  | .invalidate other => other = key
  | .invalidateAll => True
  | _ => False

/-- What a cache that serves a request stores and drops when it has room for so many
values. -/
structure KeepsLimit (limit : Nat) (cache : Cache α β) (request : Request α β) : Prop where
  bounded : (cache.serve request).1.filled.length ≤ limit
  /-- What is written is stored. -/
  survives : ∀ key stored, request.written? (cache.serve request).2 = some (key, stored) →
    (cache.serve request).1.stored? key = some stored
  /-- A request that writes nothing drops no value that has not expired. -/
  spares : request.written? (cache.serve request).2 = none →
    ∀ key stored, cache.visible? request.began key = some stored →
      ¬request.operation.Withdraws key → (cache.serve request).1.stored? key = some stored
  /-- When a write drops a value that has not expired, there are too many of those. -/
  crowded : ∀ key stored, request.written? (cache.serve request).2 = some (key, stored) →
    ∀ other old, cache.stored? other = some old → cache.hasLapsed request.ended old = false →
      (cache.serve request).1.stored? other = none →
      limit < ((key, stored) :: cache.filled.filter fun entry => entry.1 ≠ key).countP
        fun entry => !cache.hasLapsed request.ended entry.2

theorem visible?_serve {cache : Cache α β} {since : Nat} {request : Request α β}
    (timely : cache.Timely since)
    (unwritten : request.written? (cache.serve request).2 = none) {key : α} {stored : Stored β}
    (seen : cache.visible? request.began key = some stored)
    (kept : ¬request.operation.Withdraws key) :
    (cache.serve request).1.stored? key = some stored := by
  have of_ite {other : α} : (if key = other then cache.visible? request.began other
      else cache.stored? key) = some stored := by
    split
    · rename_i same
      exact same ▸ seen
    · exact stored?_of_visible seen
  obtain ⟨began, ended, operation⟩ := request
  cases operation with
  | insert key' value => cases unwritten
  | lookup key' => exact (stored?_lookup cache began key' key).trans of_ite
  | load key' brought =>
      have entered := (stored?_enter cache began key' key).trans of_ite
      cases found : cache.visible? began key' with
      | some old =>
          simp only [Cache.serve, perform, Prod.map, load_of_visible found]
          exact entered
      | none =>
          cases brought with
          | ok value =>
              simp only [Cache.serve, perform, Prod.map, load_ok found] at unwritten
              cases unwritten
          | error error =>
              simp only [Cache.serve, perform, Prod.map, load_error found]
              exact entered
  | invalidate key' =>
      refine (stored?_without cache key' key).trans ?_
      rw [if_neg fun same => kept same.symm]
      exact stored?_of_visible seen
  | invalidateAll => exact absurd trivial kept
  | cleanup => exact (stored?_cleanup timely began _ key).trans seen
  | size => exact stored?_of_visible seen

theorem keepsLimit {cache : Cache α β} {since : Nat} {request : Request α β}
    (timely : cache.Timely since) (passed : since ≤ request.ended)
    (unused : cache.Unused request) : KeepsLimit cache.limit cache request where
  bounded := (cache.settings_serve request).1 ▸ (timely.serve passed unused).bounded
  survives key stored written := by
    obtain ⟨full, served, writes⟩ := serve_of_written timely.ticketed written
    obtain ⟨_, stays⟩ := timely.stays passed unused written writes
    rw [served, stored?_trim, if_neg stays, writes.stored?, if_pos rfl]
  spares unwritten key stored := visible?_serve timely unwritten
  crowded key stored written other old held fresh dropped := by
    obtain ⟨full, served, writes⟩ := serve_of_written timely.ticketed written
    obtain ⟨apart, stays⟩ := timely.stays passed unused written writes
    rw [served, stored?_trim] at dropped
    have different : other ≠ key := by
      rintro rfl
      rw [if_neg stays, writes.stored?, if_pos rfl] at dropped
      exact nomatch dropped
    have inFull : full.stored? other = some old := by
      rw [writes.stored?, if_neg different, held]
    have surplus : other ∈ full.surplus := by
      by_contra kept
      rw [if_neg kept, inFull] at dropped
      exact nomatch dropped
    have sameLapse (entry : Stored β) : full.hasLapsed request.ended entry =
        cache.hasLapsed request.ended entry := by
      rw [hasLapsed, hasLapsed, writes.lifetime]
    have newer := (mem_surplus_iff apart inFull).1 surplus
    have more := newerThan_lt_countP inFull ((sameLapse old).trans fresh)
    rw [writes.limit] at newer
    rw [writes.filled_perm.countP_eq] at more
    simp only [sameLapse] at more
    exact newer.trans_lt more

/-! ## Courses -/

/-- A cache before requests that come in time and write at instants of their own. -/
structure Ready (cache : Cache α β) (since : Nat) (requests : List (Request α β)) : Prop where
  timely : cache.Timely since
  chronological : Chronological since requests
  distinct : (cache.writeTimes requests).Nodup
  unused : ∀ key stored, cache.stored? key = some stored →
    stored.writtenAt ∉ cache.writeTimes requests

theorem Ready.passed {cache : Cache α β} {since : Nat} {request : Request α β}
    {rest : List (Request α β)} (ready : cache.Ready since (request :: rest)) :
    since ≤ request.ended :=
  ready.chronological.1.trans ready.chronological.2.1

theorem Ready.unusedHead {cache : Cache α β} {since : Nat} {request : Request α β}
    {rest : List (Request α β)} (ready : cache.Ready since (request :: rest)) :
    cache.Unused request := by
  intro key stored written other old held same
  refine ready.unused other old held ?_
  simp [writeTimes, written, same]

/-- What was ready for a request and more is ready for the rest when it has been served. -/
theorem Ready.serve {cache : Cache α β} {since : Nat} {request : Request α β}
    {rest : List (Request α β)} (ready : cache.Ready since (request :: rest)) :
    (cache.serve request).1.Ready request.ended rest where
  timely := ready.timely.serve ready.passed ready.unusedHead
  chronological := ready.chronological.2.2
  distinct := (List.nodup_append.1 ready.distinct).2.1
  unused key stored held := by
    cases written : request.written? (cache.serve request).2 with
    | none =>
        have old := ready.unused key stored (stored?_of_unwritten written held)
        exact fun member => old (List.mem_append_right _ member)
    | some entry =>
        obtain ⟨other, new⟩ := entry
        obtain ⟨full, served, writes⟩ := serve_of_written ready.timely.ticketed written
        rw [served] at held
        have inFull := stored?_of_trim held
        rw [writes.stored?] at inFull
        split at inFull
        · cases inFull
          have times := ready.distinct
          rw [writeTimes_cons, written, Option.map_some, Option.toList_some,
            List.singleton_append, List.nodup_cons] at times
          exact times.1
        · exact fun member =>
            ready.unused key stored inFull (List.mem_append_right _ member)

theorem ready_new (name : String) (limit lifetime : Nat) {requests : List (Request α β)}
    (chronological : Chronological 0 requests)
    (distinct : (writeTimes (new name limit lifetime) requests).Nodup) :
    (new name limit lifetime : Cache α β).Ready 0 requests where
  timely := timely_new name limit lifetime 0
  chronological
  distinct
  unused key stored held := by simp at held

/-- A course of requests gets the same answers on both sides. -/
theorem Describes.answers {map : AgeingMap α β} {cache : Cache α β} {since : Nat}
    {requests : List (Request α β)} (describes : Describes map cache)
    (ready : cache.Ready since requests) :
    (course Cache.serve cache requests).2.map Answer.unflagged =
      (course AgeingMap.serve map requests).2 := by
  induction requests generalizing map cache since with
  | nil => rfl
  | cons request rest ih =>
      obtain ⟨answer, after⟩ :=
        describes.serve ready.timely ready.chronological.1 ready.unusedHead
      simp only [course, List.map_cons]
      rw [answer, ih after ready.serve]

/-- After some of the requests the map still describes the cache, which is ready for the
others. -/
theorem Describes.course {map : AgeingMap α β} {cache : Cache α β} {since : Nat}
    {earlier later : List (Request α β)} (describes : Describes map cache)
    (ready : cache.Ready since (earlier ++ later)) :
    Describes (Cache.course AgeingMap.serve map earlier).1
        (Cache.course Cache.serve cache earlier).1 ∧
      ∃ now, (Cache.course Cache.serve cache earlier).1.Ready now later := by
  induction earlier generalizing map cache since with
  | nil => exact ⟨describes, since, ready⟩
  | cons request rest ih =>
      obtain ⟨_, after⟩ :=
        describes.serve ready.timely ready.chronological.1 ready.unusedHead
      exact ih after ready.serve

theorem limit_course (cache : Cache α β) (requests : List (Request α β)) :
    (course serve cache requests).1.limit = cache.limit := by
  induction requests generalizing cache with
  | nil => rfl
  | cons request rest ih => exact (ih _).trans (cache.settings_serve request).1

/-- Whatever it is asked, in whatever order, a cache answers as an ageing map does, except
for the flag of an invalidation, and stores what the map holds; and it keeps its limit
with every request. -/
theorem answers_eq_ageingMap (name : String) (limit lifetime : Nat)
    (requests : List (Request α β)) (chronological : Chronological 0 requests)
    (distinct : (writeTimes (new name limit lifetime) requests).Nodup) :
    (course serve (new name limit lifetime) requests).2.map Answer.unflagged =
        (course AgeingMap.serve (.new limit lifetime) requests).2 ∧
      ∀ earlier request later, requests = earlier ++ request :: later →
        let before := (course serve (new name limit lifetime) earlier).1
        let described := (course AgeingMap.serve (.new limit lifetime) earlier).1
        (∀ key, (described.serve request).1.entries.get? key =
            (before.serve request).1.stored? key) ∧
          KeepsLimit (max 1 limit) before request := by
  have ready := ready_new name limit lifetime chronological distinct
  have describes : Describes (.new limit lifetime) (new name limit lifetime : Cache α β) :=
    describes_new name limit lifetime
  refine ⟨describes.answers ready, ?_⟩
  rintro earlier request later rfl
  obtain ⟨middle, now, readyNow⟩ := describes.course ready
  have step := middle.serve readyNow.timely readyNow.chronological.1 readyNow.unusedHead
  have keeps := keepsLimit readyNow.timely readyNow.passed readyNow.unusedHead
  rw [limit_course, show (new name limit lifetime : Cache α β).limit = max 1 limit from
    max_comm limit 1] at keeps
  exact ⟨step.2.entries, keeps⟩

/-- Three writes into a cache with room for two, the last after the first has expired. -/
theorem answers_eq_ageingMap_crowded :
    let requests : List (Request String Nat) :=
      [⟨1, 2, .insert "first" 1⟩, ⟨3, 4, .load "second" (.ok 2)⟩, ⟨5, 6, .lookup "first"⟩,
        ⟨20, 21, .load "third" (.error "gone")⟩, ⟨22, 23, .load "third" (.ok 3)⟩,
        ⟨24, 25, .size⟩]
    Chronological 0 requests ∧ (writeTimes (new "modules" 2 10) requests).Nodup ∧
      (course serve (new "modules" 2 10) requests).2.map Answer.unflagged =
        (course AgeingMap.serve (.new 2 10) requests).2 := by
  intro requests
  have chronological : Chronological 0 requests := by simp [requests, Chronological]
  have distinct : (writeTimes (new "modules" 2 10) requests).Nodup := by decide +kernel
  exact ⟨chronological, distinct,
    (answers_eq_ageingMap "modules" 2 10 requests chronological distinct).1⟩

end Cache
end ClassAtlas
