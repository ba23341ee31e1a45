import ClassAtlas.Proofs.Cache.Origins

/-!
# Calm at a shared cache

Nothing is inserted or invalidated, nobody goes away without an answer, nothing expires,
and there is room for the values of all keys that are asked for.  Then nothing that anybody
holds is lost: the table keeps the slots that the callers have got
(`Calm.ticket?_of_held`), and what is stored changes by the loads that succeed and by
nothing else (`Calm.value?_step`).
-/

namespace ClassAtlas.Cache

variable {α β : Type}

/-- Callers ask for keys out of these only, and nothing is inserted, invalidated or
cancelled. -/
def Occurrence.IsCalm (keys : Finset α) : Occurrence α β → Prop
  | .arrived _ key => key ∈ keys
  | .performed operation _ =>
      match operation with
      | .lookup _ | .cleanup | .size => True
      | .insert .. | .load .. | .invalidate _ | .invalidateAll => False
  | .cancelled _ => False
  | .supplied .. | .began .. | .ended .. | .answered .. | .clock _ => True

instance [DecidableEq α] (keys : Finset α) :
    DecidablePred (Occurrence.IsCalm (β := β) keys) := fun occurrence =>
  match occurrence with
  | .arrived _ key => inferInstanceAs (Decidable (key ∈ keys))
  | .performed (.lookup _) _ | .performed .cleanup _ | .performed .size _
  | .supplied .. | .began .. | .ended .. | .answered .. | .clock _ => .isTrue trivial
  | .performed (.insert ..) _ | .performed (.load ..) _ | .performed (.invalidate _) _
  | .performed .invalidateAll _ | .cancelled _ => .isFalse id

/-- A load has brought this value for the key. -/
def Occurrence.success? [DecidableEq α] (key : α) : Occurrence α β → Option (String × β)
  | .ended name other (.ok value) => if other = key then some (name, value) else none
  | _ => none

variable [DecidableEq α]

/-- The value that is stored for a key. -/
def value? (cache : Cache α β) (key : α) : Option β :=
  (cache.stored? key).map Stored.value

/-- While nothing is expired, everything is visible. -/
theorem visible?_of_unexpired {cache : Cache α β} {now : Nat}
    (unexpired : cache.expiredCount now = 0) (key : α) :
    cache.visible? now key = cache.stored? key := by
  have none' := cache.countP_slots (cache.hasLapsed now)
  have kept : ∀ entry ∈ cache.filled, cache.hasLapsed now entry.2 = false := by
    rw [expiredCount] at unexpired
    have zero := none'.symm.trans unexpired
    rw [List.countP_eq_zero] at zero
    exact fun entry member => by simpa using zero entry member
  cases held : cache.stored? key with
  | none => rw [visible?, held]; rfl
  | some stored =>
      simp [visible?, held, Option.filter, kept (key, stored) (mem_filled.2 held)]

/-- There is room for everything when all keys are among so many. -/
theorem room_of_keys {cache : Cache α β} {keys : Finset α} (few : keys.card ≤ cache.limit)
    (known : ∀ key stored, cache.stored? key = some stored → key ∈ keys) :
    cache.filled.length ≤ cache.limit := by
  have within : (cache.filled.map Prod.fst).toFinset ⊆ keys := by
    intro key member
    simp only [List.mem_toFinset, List.mem_map, Prod.exists, exists_and_right,
      exists_eq_right] at member
    obtain ⟨stored, held⟩ := member
    exact known key stored (mem_filled.1 held)
  have size := Finset.card_le_card within
  rw [List.toFinset_card_of_nodup cache.nodup_keys_filled, List.length_map] at size
  exact size.trans few

/-- Finding a slot for one key leaves the slots of all keys where they are, as long as
nothing is expired. -/
theorem ticket?_enter_of_held {cache : Cache α β} {now : Nat}
    (unexpired : cache.expiredCount now = 0) {key other : α} {ticket : Nat}
    (held : cache.ticket? key = some ticket) :
    (cache.enter now other).1.ticket? key = some ticket := by
  rcases cache.enter_cases now other with
    ⟨stored, found, lapsed, _⟩ | ⟨_, _, _, _, entered⟩ | ⟨absent, entered⟩
  · have seen := visible?_of_unexpired unexpired other
    rw [visible?, found] at seen
    simp [Option.filter, lapsed] at seen
  · rw [entered]
    exact held
  · rw [entered, ticket?_withNewSlot]
    have apart : key ≠ other := by
      rintro rfl
      simp [ticket?, absent] at held
    rw [if_neg apart]
    exact held

/-- A look-up takes nothing away, as long as nothing is expired. -/
theorem views_lookup {cache : Cache α β} {now : Nat} (unexpired : cache.expiredCount now = 0)
    (key : α) :
    (cache.lookup now key).1.stored? = cache.stored? ∧
      (cache.lookup now key).1.ticket? = cache.ticket? := by
  rcases cache.lookup_cases now key with
    ⟨stored, held, lapsed, _⟩ | ⟨_, _, _, looked⟩ | ⟨_, looked⟩
  · have seen := visible?_of_unexpired unexpired key
    rw [visible?, held] at seen
    simp [Option.filter, lapsed] at seen
  · rw [looked]
    exact ⟨rfl, rfl⟩
  · rw [looked]
    exact ⟨rfl, rfl⟩

/-- Sweeping leaves the slots that somebody holds. -/
theorem ticket?_sweep_of_held {cache : Cache α β} {now : Nat} {isHeld : Nat → Bool}
    (unexpired : cache.expiredCount now = 0) {key : α} {ticket : Nat}
    (held : cache.ticket? key = some ticket) (holds : isHeld ticket = true) :
    (cache.sweep now isHeld).ticket? key = some ticket := by
  obtain ⟨slot, found, rfl⟩ := Option.map_eq_some_iff.1 held
  have kept : cache.isExpired now slot = false := by
    rw [expiredCount, List.countP_eq_zero] at unexpired
    have entry := KeyedTable.get?_eq_some_iff.1 found
    simpa using unexpired (key, slot) entry
  rw [ticket?, get?_sweep, found]
  simp [Option.filter, kept, holds]

theorem ticket?_trim_of_room {cache : Cache α β} (room : cache.filled.length ≤ cache.limit)
    (key : α) : cache.trim.ticket? key = cache.ticket? key := by
  rw [ticket?_trim, surplus_eq_nil room]
  simp

namespace Shared

/-- Nothing that is stored has expired when something calm happens. -/
def Calm (keys : Finset α) (shared : Shared α β) (occurrence : Occurrence α β) : Prop :=
  shared.cache.expiredCount shared.now = 0 ∧ occurrence.IsCalm keys

instance (keys : Finset α) (shared : Shared α β) (occurrence : Occurrence α β) :
    Decidable (Calm keys shared occurrence) :=
  inferInstanceAs (Decidable (_ ∧ _))

/-- Every caller holds the slot that the table has for its key, and there is room for all
keys for which there is a value or anybody is there. -/
structure InPlace (keys : Finset α) (shared : Shared α β) : Prop where
  ticketed : shared.Ticketed
  held : ∀ caller ∈ shared.callers, shared.cache.ticket? caller.key = some caller.ticket
  few : keys.card ≤ shared.cache.limit
  known : ∀ key stored, shared.cache.stored? key = some stored → key ∈ keys
  asked : ∀ caller ∈ shared.callers, caller.key ∈ keys

variable {keys : Finset α} {shared next : Shared α β} {occurrence : Occurrence α β}

theorem inPlace_fresh (name : String) {limit lifetime : Nat} (few : keys.card ≤ max limit 1) :
    InPlace keys (fresh name limit lifetime : Shared α β) where
  ticketed := ticketed_fresh name limit lifetime
  held _ member := nomatch member
  few := few
  known _ _ held := nomatch held
  asked _ member := nomatch member

theorem InPlace.room (inPlace : InPlace keys shared) :
    shared.cache.filled.length ≤ shared.cache.limit :=
  room_of_keys inPlace.few inPlace.known

/-- The key of a caller is the only one that has its ticket. -/
theorem InPlace.ticket?_eq (inPlace : InPlace keys shared) {caller : Caller α β}
    (present : caller ∈ shared.callers) (key : α) :
    shared.cache.ticket? key = some caller.ticket ↔ caller.key = key := by
  constructor
  · intro owned
    exact inPlace.ticketed.key_of_ticket? present owned
  · rintro rfl
    exact inPlace.held caller present

/-- A caller who leaves takes nothing away while there is room. -/
theorem views_depart {cache after : Cache α β} {phase : Phase β} {outcome : Outcome β}
    (room : cache.filled.length ≤ cache.limit)
    (left : depart cache phase = some (after, outcome)) :
    after.limit = cache.limit ∧ (∀ key, after.stored? key = cache.stored? key) ∧
      ∀ key, after.ticket? key = cache.ticket? key := by
  rcases of_depart left with ⟨_, _ | _, _, _, rfl⟩ | ⟨_, _, _, rfl⟩
  · exact ⟨rfl, fun _ => rfl, fun _ => rfl⟩
  · have roomy : cache.countMiss.filled.length ≤ cache.countMiss.limit := room
    exact ⟨rfl, fun key => stored?_trim_of_room roomy key,
      fun key => ticket?_trim_of_room roomy key⟩
  · exact ⟨rfl, fun _ => rfl, fun _ => rfl⟩

/-- Cleaning up takes no value away while nothing is expired and there is room. -/
theorem stored?_cleanup_of_room {cache : Cache α β} {now : Nat} {isHeld : Nat → Bool}
    (unexpired : cache.expiredCount now = 0)
    (room : (cache.sweep now isHeld).filled.length ≤ (cache.sweep now isHeld).limit)
    (key : α) :
    (cache.cleanup now isHeld).1.stored? key = cache.stored? key := by
  change (cache.sweep now isHeld).trim.stored? key = cache.stored? key
  rw [stored?_trim_of_room room, stored?_sweep, visible?_of_unexpired unexpired]

theorem InPlace.room_sweep (inPlace : InPlace keys shared) (isHeld : Nat → Bool) :
    (shared.cache.sweep shared.now isHeld).filled.length ≤
      (shared.cache.sweep shared.now isHeld).limit := by
  refine room_of_keys inPlace.few fun key stored held => ?_
  rw [stored?_sweep] at held
  exact inPlace.known key stored (stored?_of_visible held)

/-- A calm step stores what a successful load has brought, and takes nothing away. -/
theorem Calm.value?_step (calm : Calm keys shared occurrence) (inPlace : InPlace keys shared)
    (step : Step shared occurrence next) (key : α) :
    next.cache.value? key =
      (shared.cache.value? key).or ((occurrence.success? key).map Prod.snd) := by
  obtain ⟨unexpired, isCalm⟩ := calm
  cases step with
  | arrive name other fallback =>
      change (shared.cache.enter shared.now other).1.value? key = _
      rw [value?, stored?_enter, visible?_of_unexpired unexpired]
      split
      · rename_i same
        simp [Occurrence.success?, value?, same]
      · simp [Occurrence.success?, value?]
  | supply name brought => simp [Occurrence.success?, supply]
  | start position found made =>
      obtain ⟨_, _, _, _, _, rfl⟩ := of_start found made
      simp [Occurrence.success?]
  | finish position found known made =>
      rename_i loader brought
      obtain ⟨front, back, split, loading, ⟨value, settled, rfl⟩ | ⟨error, settled, rfl⟩⟩ :=
        of_finish found known made
      · have loads : loader ∈ shared.callers := (mem_of_split split).2 (.inl rfl)
        simp only [value?, stored?_fill, inPlace.ticket?_eq loads, settled,
          Occurrence.success?]
        split
        · cases shared.cache.stored? key <;> rfl
        · simp
      · simp [Occurrence.success?, settled]
  | leave position found made =>
      obtain ⟨_, _, cache, _, left, rfl⟩ := of_leave found made
      obtain ⟨_, stored, _⟩ := views_depart inPlace.room left
      simp [Occurrence.success?, value?, stored]
  | cancel name => exact isCalm.elim
  | perform operation immediate =>
      cases operation with
      | lookup other =>
          change (shared.cache.lookup shared.now other).1.value? key = _
          rw [value?, (views_lookup unexpired other).1]
          simp [Occurrence.success?, value?]
      | cleanup =>
          change (shared.cache.cleanup shared.now shared.isHeld).1.value? key = _
          rw [value?, stored?_cleanup_of_room unexpired (inPlace.room_sweep _)]
          simp [Occurrence.success?, value?]
      | size => simp [Occurrence.success?, Shared.perform, Cache.perform, advance]
      | _ => exact isCalm.elim
  | clock now => simp [Occurrence.success?]

/-- A calm step leaves every slot that somebody holds in the table. -/
theorem Calm.ticket?_of_held (calm : Calm keys shared occurrence)
    (inPlace : InPlace keys shared) (step : Step shared occurrence next) {caller : Caller α β}
    (present : caller ∈ shared.callers) :
    next.cache.ticket? caller.key = some caller.ticket := by
  obtain ⟨unexpired, isCalm⟩ := calm
  have held := inPlace.held caller present
  cases step with
  | arrive name other fallback => exact ticket?_enter_of_held unexpired held
  | supply name brought => exact held
  | start position found made =>
      obtain ⟨_, _, _, _, _, rfl⟩ := of_start found made
      exact held
  | finish position found known made =>
      obtain ⟨_, _, _, _, ⟨value, _, rfl⟩ | ⟨error, _, rfl⟩⟩ := of_finish found known made
      · simpa using held
      · exact held
  | leave position found made =>
      obtain ⟨_, _, cache, _, left, rfl⟩ := of_leave found made
      obtain ⟨_, _, tickets⟩ := views_depart inPlace.room left
      exact (tickets caller.key).trans held
  | cancel name => exact isCalm.elim
  | perform operation immediate =>
      cases operation with
      | lookup other =>
          change (shared.cache.lookup shared.now other).1.ticket? caller.key = _
          rw [(views_lookup unexpired other).2]
          exact held
      | cleanup =>
          have holds : shared.isHeld caller.ticket = true :=
            List.any_eq_true.2 ⟨caller, present, by simp⟩
          change (shared.cache.sweep shared.now shared.isHeld).trim.ticket? caller.key = _
          rw [ticket?_trim_of_room (inPlace.room_sweep _)]
          exact ticket?_sweep_of_held unexpired held holds
      | size => exact held
      | _ => exact isCalm.elim
  | clock now => exact held

theorem InPlace.limit (inPlace : InPlace keys shared) (step : Step shared occurrence next) :
    next.cache.limit = shared.cache.limit := by
  cases step with
  | arrive name key fallback => exact (shared.cache.settings_enter shared.now key).1
  | supply name brought => rfl
  | start position found made =>
      obtain ⟨_, _, _, _, _, rfl⟩ := of_start found made
      rfl
  | finish position found known made =>
      obtain ⟨_, _, _, _, ⟨_, _, rfl⟩ | ⟨_, _, rfl⟩⟩ := of_finish found known made <;> rfl
  | leave position found made =>
      obtain ⟨_, _, cache, _, left, rfl⟩ := of_leave found made
      exact (views_depart inPlace.room left).1
  | cancel name => rfl
  | perform operation immediate => exact (shared.cache.settings_perform _ _ _ operation).1
  | clock now => rfl

theorem InPlace.step (inPlace : InPlace keys shared) (calm : Calm keys shared occurrence)
    (step : Step shared occurrence next) : InPlace keys next where
  ticketed := inPlace.ticketed.step step
  held caller present := by
    rcases step.origin present with ⟨earlier, remains⟩ | comes
    · rw [← remains.key, ← remains.ticket]
      exact calm.ticket?_of_held inPlace step remains.present
    · exact comes.ticket
  few := inPlace.few.trans_eq (inPlace.limit step).symm
  known key stored held := by
    rcases step.stored held with old | ⟨answer, rfl⟩ | ⟨loader, loads, _, owned, _⟩
    · exact inPlace.known key stored old
    · exact calm.2.elim
    · exact (inPlace.ticket?_eq loads key).1 owned ▸ inPlace.asked loader loads
  asked caller present := by
    rcases step.origin present with ⟨earlier, remains⟩ | comes
    · exact remains.key ▸ inPlace.asked earlier remains.present
    · have isCalm := calm.2
      rwa [comes.arrival] at isCalm

end Shared
end ClassAtlas.Cache
