import ClassAtlas.KeyedTable

/-!
# Bounded caches

A cache keeps values by key for a limited time and in a limited number.  Each key has a
slot, which is empty until its value has been loaded.  A value expires when its age
reaches the lifetime; it is dropped when somebody next asks for the key or when the cache
is cleaned up.  When more values are stored than the limit allows, those written first
go.

The cache does not read a clock: each operation is told the instants, in nanoseconds, at
which it looks at the clock.  The operations are also given as data, with what each of them
answers, so that a course of events is a list.
-/

namespace ClassAtlas

namespace Cache

/-- A value with the instant at which it was written. -/
structure Stored (β : Type) where
  value : β
  writtenAt : Nat
  deriving DecidableEq, Repr

/-- The place for the value of a key.  A slot keeps its ticket and is filled at most once;
a value that has to go takes its slot with it. -/
structure Slot (β : Type) where
  ticket : Nat
  stored : Option (Stored β) := none
  deriving DecidableEq, Repr

/-- What has happened to a cache so far.  The counts have no bound here; one of 64 bits is
not reached in the life of a cache. -/
structure Counters where
  hits : Nat := 0
  misses : Nat := 0
  evictions : Nat := 0
  loadFailures : Nat := 0
  deriving DecidableEq, Repr

/-- The share of lookups that found a value. -/
def Counters.hitRate (counters : Counters) : Float :=
  if counters.hits + counters.misses = 0 then 0.0
  else Float.ofNat counters.hits / Float.ofNat (counters.hits + counters.misses)

end Cache

open Cache in
/-- A cache of values by key. -/
structure Cache (α β : Type) where
  name : String
  /-- The number of values that may be stored. -/
  limit : Nat
  limit_pos : 0 < limit
  /-- The age at which a value expires, in nanoseconds. -/
  lifetime : Nat
  slots : KeyedTable α (Slot β) := .empty
  nextTicket : Nat := 0
  counters : Counters := {}

namespace Cache

variable {α β : Type}

/-- An empty cache; there is room for at least one value. -/
def new (name : String) (limit lifetime : Nat) : Cache α β where
  name
  limit := max limit 1
  limit_pos := Nat.le_max_right limit 1
  lifetime

/-! ## Slots -/

/-- The value in a slot has reached its lifetime. -/
def isExpired (cache : Cache α β) (now : Nat) (slot : Slot β) : Bool :=
  slot.stored.any fun stored => stored.writtenAt + cache.lifetime ≤ now

/-- The slot has a value that is not expired. -/
def isLive (cache : Cache α β) (now : Nat) (slot : Slot β) : Bool :=
  slot.stored.isSome && !cache.isExpired now slot

/-- How many values are stored and not expired. -/
def size (cache : Cache α β) (now : Nat) : Nat :=
  cache.slots.entries.countP fun (_, slot) => cache.isLive now slot

/-- The stored values, whether expired or not. -/
def filled (cache : Cache α β) : List (α × Stored β) :=
  cache.slots.entries.filterMap fun (key, slot) => slot.stored.map (key, ·)

/-- Fills the slot of a ticket, unless it is filled or gone. -/
def fill (cache : Cache α β) (ticket : Nat) (stored : Stored β) : Cache α β :=
  { cache with
    slots := cache.slots.mapValues fun slot =>
      if slot.ticket = ticket ∧ slot.stored.isNone then { slot with stored := some stored }
      else slot }

/-! ## Counting -/

def countHit (cache : Cache α β) : Cache α β :=
  { cache with counters := { cache.counters with hits := cache.counters.hits + 1 } }

def countMiss (cache : Cache α β) : Cache α β :=
  { cache with counters := { cache.counters with misses := cache.counters.misses + 1 } }

def countEvictions (cache : Cache α β) (count : Nat) : Cache α β :=
  { cache with
    counters := { cache.counters with evictions := cache.counters.evictions + count } }

/-- Counts a lookup whose loader failed. -/
def countFailure (cache : Cache α β) : Cache α β :=
  { cache with
    counters := { cache.counters with
      misses := cache.counters.misses + 1
      loadFailures := cache.counters.loadFailures + 1 } }

/-! ## The limit -/

variable [DecidableEq α]

/-- The keys of the values that were written first. -/
def oldest (cache : Cache α β) (count : Nat) : List α :=
  ((cache.filled.mergeSort fun left right =>
    left.2.writtenAt ≤ right.2.writtenAt).take count).map Prod.fst

/-- The keys of the values for which there is no room. -/
def surplus (cache : Cache α β) : List α :=
  cache.oldest (cache.filled.length - cache.limit)

/-- The cache without the values for which there is no room. -/
def trim (cache : Cache α β) : Cache α β :=
  { cache with
    slots := cache.slots.filter fun key _ => !cache.surplus.contains key }.countEvictions
      cache.surplus.length

/-- Counts a lookup that loaded a value, and makes room for it. -/
def countLoad (cache : Cache α β) : Cache α β :=
  cache.countMiss.trim

/-! ## Operations -/

/-- The cache with a new empty slot for a key. -/
def withNewSlot (cache : Cache α β) (key : α) : Cache α β :=
  { cache with
    slots := cache.slots.insert key { ticket := cache.nextTicket }
    nextTicket := cache.nextTicket + 1 }

/-- Makes sure that a key has a slot without an expired value, and gives that slot. -/
def enter (cache : Cache α β) (now : Nat) (key : α) : Cache α β × Slot β :=
  match cache.slots.get? key with
  | some slot =>
      if cache.isExpired now slot then
        ((cache.withNewSlot key).countEvictions 1, { ticket := cache.nextTicket })
      else (cache, slot)
  | none => (cache.withNewSlot key, { ticket := cache.nextTicket })

/-- The outcome of a call: a value or the error of its own loader, and whether that loader
ran. -/
structure Outcome (β : Type) where
  answer : Except String β
  ran : Bool

/-- The value of a key, loaded if there is none.  `brought` is what the loader brings if
it runs, which it does from the instant `began` to the instant `ended`.  What fails to
load leaves its slot empty. -/
def load (cache : Cache α β) (began ended : Nat) (key : α) (brought : Except String β) :
    Cache α β × Outcome β :=
  let (cache, slot) := cache.enter began key
  match slot.stored, brought with
  | some stored, _ => (cache.countHit, ⟨.ok stored.value, false⟩)
  | none, .ok value =>
      ((cache.fill slot.ticket ⟨value, ended⟩).countLoad, ⟨.ok value, true⟩)
  | none, .error error => (cache.countFailure, ⟨.error error, true⟩)

/-- The value of a key if there is one; an expired one is dropped. -/
def lookup (cache : Cache α β) (now : Nat) (key : α) : Cache α β × Option β :=
  match cache.slots.get? key with
  | some slot =>
      if cache.isExpired now slot then
        (({ cache with slots := cache.slots.erase key }.countEvictions 1).countMiss, none)
      else
        match slot.stored with
        | some stored => (cache.countHit, some stored.value)
        | none => (cache.countMiss, none)
  | none => (cache.countMiss, none)

/-- Writes a value, in a slot of its own. -/
def insert (cache : Cache α β) (now : Nat) (key : α) (value : β) : Cache α β :=
  { cache with
    slots := cache.slots.insert key ⟨cache.nextTicket, some ⟨value, now⟩⟩
    nextTicket := cache.nextTicket + 1 }.trim

/-- Removes the slot of a key, and tells whether there was one. -/
def invalidate (cache : Cache α β) (key : α) : Cache α β × Bool :=
  ({ cache with slots := cache.slots.erase key }, (cache.slots.get? key).isSome)

def invalidateAll (cache : Cache α β) : Cache α β :=
  { cache with slots := .empty }

def expiredCount (cache : Cache α β) (now : Nat) : Nat :=
  cache.slots.entries.countP fun (_, slot) => cache.isExpired now slot

/-- The cache without expired values and without empty slots whose ticket nobody holds. -/
def sweep (cache : Cache α β) (now : Nat) (isHeld : Nat → Bool) : Cache α β :=
  { cache with
    slots := cache.slots.filter fun _ slot =>
      !cache.isExpired now slot && (slot.stored.isSome || isHeld slot.ticket)
    }.countEvictions (cache.expiredCount now)

/-- Drops what is expired, abandoned or beyond the limit, and tells how many values were
dropped. -/
def cleanup (cache : Cache α β) (now : Nat) (isHeld : Nat → Bool) : Cache α β × Nat :=
  let swept := cache.sweep now isHeld
  (swept.trim, cache.expiredCount now + swept.surplus.length)

/-! ## Operations as data -/

/-- What can be asked of a cache. -/
inductive Operation (α β : Type) where
  | insert (key : α) (value : β)
  | lookup (key : α)
  /-- Looks up a key and loads its value if there is none. -/
  | load (key : α) (brought : Except String β)
  | invalidate (key : α)
  | invalidateAll
  | cleanup
  | size

inductive Answer (β : Type) where
  | done
  | found (value : Option β)
  | loaded (outcome : Outcome β)
  | removed (existed : Bool)
  | count (number : Nat)

/-- Performs an operation that begins and ends at the given instants, while the tickets of
some slots are held. -/
def perform (cache : Cache α β) (began ended : Nat) (isHeld : Nat → Bool) :
    Operation α β → Cache α β × Answer β
  | .insert key value => (cache.insert ended key value, .done)
  | .lookup key => (cache.lookup began key).map id .found
  | .load key brought => (cache.load began ended key brought).map id .loaded
  | .invalidate key => (cache.invalidate key).map id .removed
  | .invalidateAll => (cache.invalidateAll, .done)
  | .cleanup => (cache.cleanup began isHeld).map id .count
  | .size => (cache, .count (cache.size began))

end Cache
end ClassAtlas
