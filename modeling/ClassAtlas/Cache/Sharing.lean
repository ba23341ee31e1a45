import ClassAtlas.Cache.Basic
import ClassAtlas.Weight

/-!
# Shared caches

Callers who ask for the same missing key at the same time share one load.  Each caller
holds the slot that it found for its key.  While one of the callers of a slot loads, the
others wait; when the load brings a value they are all served with it, and when it fails
the next of them may load.  A slot that has been dropped from the cache in the meantime
still serves its callers.

What happens is a sequence of moves.  A course of moves need not follow any order beyond
what `step?` demands; `settle` takes the moves that can be taken, always for the caller
who came first.
-/

namespace ClassAtlas.Cache

/-- Where a caller stands. -/
inductive Phase (β : Type) where
  | waiting
  | loading
  /-- A value is there for it, which its own loader has brought or not. -/
  | served (value : β) (ran : Bool)
  /-- Its own loader has failed. -/
  | refused (error : String)

/-- Somebody who has asked for a key. -/
structure Caller (α β : Type) where
  name : String
  key : α
  /-- The ticket of the slot that it holds. -/
  ticket : Nat
  /-- What is loaded when its loader fails, for a caller who takes no errors. -/
  fallback : Option β
  /-- What its loader will bring, as soon as that is known. -/
  brought : Option (Except String β) := none
  phase : Phase β

/-- A cache with the callers who have not got their answer, in the order in which they
came, and the clock in nanoseconds. -/
structure Shared (α β : Type) where
  cache : Cache α β
  callers : List (Caller α β) := []
  now : Nat := 0

/-- A caller that has its answer. -/
structure Departure (β : Type) where
  name : String
  outcome : Outcome β

/-- What may happen to a shared cache; callers are named by their position. -/
inductive Move where
  /-- A waiting caller starts its loader. -/
  | start (position : Nat)
  /-- A loader ends. -/
  | finish (position : Nat)
  /-- A caller leaves with its answer. -/
  | leave (position : Nat)
  deriving DecidableEq, Repr

namespace Phase

variable {β : Type}

def isLoading : Phase β → Bool
  | .loading => true
  | _ => false

/-- The moves that a caller can still make. -/
def weight : Phase β → Nat
  | .waiting => 3
  | .loading => 2
  | .served .. | .refused _ => 1

/-- A caller is served when it waits. -/
def serve (value : β) : Phase β → Phase β
  | .waiting => .served value false
  | phase => phase

theorem weight_serve_le (value : β) (phase : Phase β) :
    (phase.serve value).weight ≤ phase.weight := by
  cases phase <;> simp [serve, weight]

end Phase

namespace Caller

variable {α β : Type}

/-- The caller with what its loader brings, unless that was known before. -/
def supplied (caller : Caller α β) (brought : Except String β) : Caller α β :=
  { caller with brought := caller.brought.orElse fun _ => some brought }

/-- What a load by the caller comes to. -/
def settled (caller : Caller α β) (brought : Except String β) : Except String β :=
  match brought, caller.fallback with
  | .error _, some value => .ok value
  | brought, _ => brought

/-- The caller after a load has brought a value for the slot of a ticket. -/
def served (ticket : Nat) (value : β) (caller : Caller α β) : Caller α β :=
  if caller.ticket = ticket then { caller with phase := caller.phase.serve value }
  else caller

/-- The moves that a caller can still make. -/
def weight (caller : Caller α β) : Nat := caller.phase.weight

theorem weight_served_le (ticket : Nat) (value : β) (caller : Caller α β) :
    (caller.served ticket value).weight ≤ caller.weight := by
  unfold served weight
  split
  · exact Phase.weight_serve_le value caller.phase
  · exact Nat.le_refl _

theorem served_of_loading {caller : Caller α β} (loading : caller.phase = .loading)
    (ticket : Nat) (value : β) : caller.served ticket value = caller := by
  cases caller
  simp only at loading
  subst loading
  simp [served, Phase.serve]

end Caller

namespace Shared

variable {α β : Type}

def advance (shared : Shared α β) (nanoseconds : Nat) : Shared α β :=
  { shared with now := shared.now + nanoseconds }

/-- Somebody holds the slot of the ticket. -/
def isHeld (shared : Shared α β) (ticket : Nat) : Bool :=
  shared.callers.any (·.ticket == ticket)

def isLoading (shared : Shared α β) (ticket : Nat) : Bool :=
  shared.callers.any fun caller => caller.ticket == ticket && caller.phase.isLoading

/-- It becomes known what the loader of a caller brings. -/
def supply (shared : Shared α β) (name : String) (brought : Except String β) :
    Shared α β :=
  { shared with
    callers := shared.callers.map fun caller =>
      if caller.name = name then caller.supplied brought else caller }

/-- A caller goes away without an answer. -/
def cancel (shared : Shared α β) (name : String) : Shared α β :=
  { shared with callers := shared.callers.filter (·.name != name) }

/-- The state after a load by the caller at a position has come to an end. -/
def afterLoad (shared : Shared α β) (position : Nat) (caller : Caller α β) :
    Except String β → Shared α β
  | .ok value =>
      { shared with
        cache := shared.cache.fill caller.ticket ⟨value, shared.now⟩
        callers := (shared.callers.map (Caller.served caller.ticket value)).set position
          { caller with phase := .served value true }
        : Shared α β }.advance 1
  | .error error =>
      { shared with
        callers := shared.callers.set position { caller with phase := .refused error } }

/-- The number of moves that the callers can still make, at most. -/
def weight (shared : Shared α β) : Nat :=
  weightOf Caller.weight shared.callers

theorem weight_afterLoad {shared : Shared α β} {position : Nat} {caller : Caller α β}
    (found : shared.callers[position]? = some caller) (loading : caller.phase = .loading)
    (brought : Except String β) :
    (shared.afterLoad position caller brought).weight < shared.weight := by
  have before : caller.weight = 2 := by simp [Caller.weight, loading, Phase.weight]
  cases brought with
  | ok value =>
      have mapped : (shared.callers.map (Caller.served caller.ticket value))[position]? =
          some caller := by
        rw [List.getElem?_map, found, Option.map_some, Caller.served_of_loading loading]
      have changed := weightOf.set Caller.weight
        { caller with phase := .served value true } mapped
      have lighter := weightOf.map_le Caller.weight
        (Caller.weight_served_le caller.ticket value) shared.callers
      have after : Caller.weight { caller with phase := .served value true } = 1 := rfl
      simp only [afterLoad, advance, weight]
      omega
  | error error =>
      have changed := weightOf.set Caller.weight
        { caller with phase := .refused error } found
      have after : Caller.weight { caller with phase := .refused error } = 1 := rfl
      simp only [afterLoad, weight]
      omega

variable [DecidableEq α]

/-- Performs an operation that no other caller delays. -/
def perform (shared : Shared α β) (operation : Operation α β) : Shared α β × Answer β :=
  let (cache, answer) :=
    shared.cache.perform shared.now (shared.now + 1) shared.isHeld operation
  ({ shared with cache }.advance 2, answer)

/-- A new caller asks for a key.  If the value is there it is served at once. -/
def arrive (shared : Shared α β) (name : String) (key : α) (fallback : Option β) :
    Shared α β :=
  let (cache, slot) := shared.cache.enter shared.now key
  let phase := match slot.stored with
    | some stored => .served stored.value false
    | none => .waiting
  { shared with
    cache
    callers := shared.callers ++ [{ name, key, ticket := slot.ticket, fallback, phase }]
    : Shared α β }.advance 1

/-- What a caller with an answer leaves behind in the cache, and the answer. -/
def depart (cache : Cache α β) : Phase β → Option (Cache α β × Outcome β)
  | .served value true => some (cache.countLoad, ⟨.ok value, true⟩)
  | .served value false => some (cache.countHit, ⟨.ok value, false⟩)
  | .refused error => some (cache.countFailure, ⟨.error error, true⟩)
  | .waiting | .loading => none

/-- The state after a move, when the move is possible, and who has left by it. -/
def step? (shared : Shared α β) : Move → Option (Shared α β × Option (Departure β))
  | .start position =>
      match shared.callers[position]? with
      | some caller =>
          match caller.phase with
          | .waiting =>
              if shared.isLoading caller.ticket then none
              else
                some ({ shared with
                  callers := shared.callers.set position
                    { caller with phase := .loading } }, none)
          | _ => none
      | none => none
  | .finish position =>
      match shared.callers[position]? with
      | some caller =>
          match caller.phase, caller.brought with
          | .loading, some brought =>
              some (shared.afterLoad position caller (caller.settled brought), none)
          | _, _ => none
      | none => none
  | .leave position =>
      match shared.callers[position]? with
      | some caller =>
          (depart shared.cache caller.phase).map fun (cache, outcome) =>
            ({ shared with cache, callers := shared.callers.eraseIdx position },
              some ⟨caller.name, outcome⟩)
      | none => none

theorem one_le_weight_of_depart {cache : Cache α β} {phase : Phase β}
    {result : Cache α β × Outcome β} (gone : depart cache phase = some result) :
    1 ≤ phase.weight := by
  cases phase <;> simp_all [depart, Phase.weight]

/-- Each move leaves the callers fewer moves to make. -/
theorem weight_of_step? {shared next : Shared α β} {move : Move}
    {gone : Option (Departure β)} (made : shared.step? move = some (next, gone)) :
    next.weight < shared.weight := by
  cases move with
  | start position =>
      simp only [step?] at made
      split at made
      · rename_i caller found
        split at made
        · rename_i waiting
          split at made
          · simp at made
          · simp only [Option.some.injEq, Prod.mk.injEq] at made
            obtain ⟨rfl, _⟩ := made
            have changed := weightOf.set Caller.weight { caller with phase := .loading } found
            have before : caller.weight = 3 := by
              simp [Caller.weight, waiting, Phase.weight]
            have after : Caller.weight { caller with phase := .loading } = 2 := rfl
            simp only [weight]
            omega
        · simp at made
      · simp at made
  | finish position =>
      simp only [step?] at made
      split at made
      · rename_i caller found
        split at made
        · rename_i brought loading _
          simp only [Option.some.injEq, Prod.mk.injEq] at made
          obtain ⟨rfl, _⟩ := made
          exact weight_afterLoad found loading _
        · simp at made
      · simp at made
  | leave position =>
      simp only [step?] at made
      split at made
      · rename_i caller found
        simp only [Option.map_eq_some_iff, Prod.exists] at made
        obtain ⟨cache, outcome, left, same⟩ := made
        simp only [Prod.mk.injEq] at same
        obtain ⟨rfl, _⟩ := same
        have removed := weightOf.eraseIdx Caller.weight found
        have some_left : 1 ≤ caller.weight := one_le_weight_of_depart left
        simp only [weight]
        omega
      · simp at made

/-- The moves that concern the caller at a position. -/
def movesAt (position : Nat) : List Move :=
  [.leave position, .start position, .finish position]

/-- The first move that is possible. -/
def nextMove? (shared : Shared α β) : Option Move :=
  ((List.range shared.callers.length).flatMap movesAt).find? fun move =>
    (shared.step? move).isSome

/-- Takes moves as long as there are any; gives those who have left, in order. -/
def settle (shared : Shared α β) : Shared α β × List (Departure β) :=
  match shared.nextMove? with
  | some move =>
      match _made : shared.step? move with
      | some (next, gone) =>
          let (last, others) := settle next
          (last, gone.toList ++ others)
      | none => (shared, [])
  | none => (shared, [])
termination_by shared.weight
decreasing_by exact weight_of_step? _made

end Shared
end ClassAtlas.Cache
