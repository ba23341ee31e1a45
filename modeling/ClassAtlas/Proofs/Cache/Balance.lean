import ClassAtlas.Proofs.Cache.Course

/-!
# The balance of a cache

What the counters of a cache add up to.  Each lookup is counted once, as a hit or as a
miss, and each failed load once more; and every value that was ever stored is still
there, or was evicted, taken away or overwritten, and is counted as one of these only
(`counters_balance`).

Each operation keeps the balance (`balanced_serve`); a course adds up what its requests
do (`tally`).
-/

namespace ClassAtlas.Cache

variable {α β : Type}

/-! ## What is counted -/

/-- The request looks up a key, whether it loads a missing value or not. -/
def Request.isLookup (request : Request α β) : Bool :=
  match request.operation with
  | .lookup _ | .load _ _ => true
  | _ => false

/-- The request writes a value of its own. -/
def Request.isInsert (request : Request α β) : Bool :=
  match request.operation with
  | .insert _ _ => true
  | _ => false

/-- A loader ran and brought a value. -/
def Answer.isLoad : Answer β → Bool
  | .loaded ⟨.ok _, true⟩ => true
  | _ => false

/-- A loader ran and failed. -/
def Answer.isFailure : Answer β → Bool
  | .loaded ⟨.error _, true⟩ => true
  | _ => false

/-! ## The balance of one request -/

/-- A cache that turns into another over some lookups, failed loads, new values and values
that are gone without being evicted. -/
structure Balanced (cache later : Cache α β) (looked failed new gone : Nat) : Prop where
  lookups : later.counters.hits + later.counters.misses =
    cache.counters.hits + cache.counters.misses + looked
  failures : later.counters.loadFailures = cache.counters.loadFailures + failed
  /-- Misses grow at least as fast as failures. -/
  misses : cache.counters.misses + failed ≤ later.counters.misses
  values : cache.filled.length + cache.counters.evictions + new =
    later.filled.length + later.counters.evictions + gone

theorem Balanced.trans {first second third : Cache α β}
    {looked looked' failed failed' new new' gone gone' : Nat}
    (one : Balanced first second looked failed new gone)
    (two : Balanced second third looked' failed' new' gone') :
    Balanced first third (looked + looked') (failed + failed') (new + new') (gone + gone') where
  lookups := by
    have before := one.lookups
    have after := two.lookups
    omega
  failures := by
    have before := one.failures
    have after := two.failures
    omega
  misses := by
    have before := one.misses
    have after := two.misses
    omega
  values := by
    have before := one.values
    have after := two.values
    omega

theorem Balanced.refl (cache : Cache α β) : Balanced cache cache 0 0 0 0 :=
  ⟨rfl, rfl, le_rfl, rfl⟩

theorem balanced_countHit (cache : Cache α β) : Balanced cache cache.countHit 1 0 0 0 :=
  ⟨Nat.add_right_comm _ _ _, rfl, le_rfl, rfl⟩

theorem balanced_countMiss (cache : Cache α β) : Balanced cache cache.countMiss 1 0 0 0 :=
  ⟨rfl, rfl, Nat.le_succ _, rfl⟩

theorem balanced_countFailure (cache : Cache α β) : Balanced cache cache.countFailure 1 1 0 0 :=
  ⟨rfl, rfl, le_rfl, rfl⟩

variable [DecidableEq α]

/-- What is dropped to make room is evicted. -/
theorem balanced_trim (cache : Cache α β) : Balanced cache cache.trim 0 0 0 0 where
  lookups := rfl
  failures := rfl
  misses := le_rfl
  values := by
    have left := cache.length_filled_trim
    have evicted : cache.trim.counters.evictions =
        cache.counters.evictions + (cache.filled.length - cache.limit) := by
      rw [← length_surplus]
      rfl
    omega

/-- A change at one key that leaves the counters alone. -/
theorem balanced_update {cache later : Cache α β} {key : α} {new : Option (Stored β)}
    (changed : ∀ other, later.stored? other = if other = key then new else cache.stored? other)
    (counters : later.counters = cache.counters) :
    Balanced cache later 0 0 new.toList.length (cache.stored? key).toList.length where
  lookups := by rw [counters, Nat.add_zero]
  failures := by rw [counters, Nat.add_zero]
  misses := by rw [counters, Nat.add_zero]
  values := by
    have sizes := length_filled_update changed
    rw [counters]
    omega

/-- An expired value that is dropped when its key is looked up is evicted. -/
theorem balanced_drop {cache later : Cache α β} {key : α} {stored : Stored β}
    (held : cache.stored? key = some stored)
    (changed : ∀ other, later.stored? other = if other = key then none else cache.stored? other)
    (counters : later.counters = cache.counters) :
    Balanced cache (later.countEvictions 1) 0 0 0 0 where
  lookups := by simp only [countEvictions, counters, Nat.add_zero]
  failures := by simp only [countEvictions, counters, Nat.add_zero]
  misses := by simp only [countEvictions, counters, Nat.add_zero, le_refl]
  values := by
    have sizes := length_filled_update changed
    simp only [held, Option.toList_some, Option.toList_none, List.length_singleton,
      List.length_nil] at sizes
    have same : (later.countEvictions 1).filled = later.filled := rfl
    have evicted : (later.countEvictions 1).counters.evictions =
        cache.counters.evictions + 1 := by rw [← counters]; rfl
    rw [same, evicted]
    omega

theorem balanced_enter (cache : Cache α β) (now : Nat) (key : α) :
    Balanced cache (cache.enter now key).1 0 0 0 0 := by
  rcases cache.enter_cases now key with
    ⟨stored, held, _, entered⟩ | ⟨_, _, _, _, entered⟩ | ⟨absent, entered⟩
  · rw [entered]
    exact balanced_drop held (stored?_withNewSlot cache key) rfl
  · rw [entered]
    exact .refl cache
  · have empty : cache.stored? key = none := by simp [stored?, absent]
    have balanced := balanced_update (stored?_withNewSlot cache key) rfl
    simpa [entered, empty] using balanced

theorem balanced_sweep (cache : Cache α β) (now : Nat) (isHeld : Nat → Bool) :
    Balanced cache (cache.sweep now isHeld) 0 0 0 0 where
  lookups := rfl
  failures := rfl
  misses := le_rfl
  values := by
    have expired : cache.expiredCount now =
        cache.filled.countP fun entry => cache.hasLapsed now entry.2 :=
      cache.countP_slots (cache.hasLapsed now)
    have left : (cache.sweep now isHeld).filled.Perm
        (cache.filled.filter fun entry => !cache.hasLapsed now entry.2) := by
      refine filled_perm ((List.Nodup.of_map Prod.fst cache.nodup_keys_filled).filter _)
        fun key stored => ?_
      rw [stored?_sweep, visible?, List.mem_filter, mem_filled, Option.filter_eq_some_iff]
    have whole : cache.filled.length = _ :=
      List.length_eq_countP_add_countP fun entry => cache.hasLapsed now entry.2
    have evicted : (cache.sweep now isHeld).counters.evictions =
        cache.counters.evictions + cache.expiredCount now := rfl
    rw [left.length_eq, ← List.countP_eq_length_filter, evicted, expired]
    simp only [Bool.not_eq_true, Bool.decide_eq_false] at whole
    omega

/-! ## The balance of a course -/

/-- How many values the request takes away by invalidating their keys. -/
def withdrawn (cache : Cache α β) (request : Request α β) : Nat :=
  match request.operation with
  | .invalidate key => (cache.stored? key).toList.length
  | .invalidateAll => cache.filled.length
  | _ => 0

/-- How many values the request overwrites. -/
def overwritten (cache : Cache α β) (request : Request α β) : Nat :=
  match request.operation with
  | .insert key _ => (cache.stored? key).toList.length
  | _ => 0

/-- The sum over a course of what each request comes to in the cache that serves it. -/
def tally (measure : Cache α β → Request α β → Nat) (cache : Cache α β) :
    List (Request α β) → Nat
  | [] => 0
  | request :: rest => measure cache request + tally measure (cache.serve request).1 rest

/-- Every request keeps the balance. -/
theorem balanced_serve {cache : Cache α β} (ticketed : cache.Ticketed)
    (request : Request α β) :
    Balanced cache (cache.serve request).1 request.isLookup.toNat
      (cache.serve request).2.isFailure.toNat
      (request.isInsert.toNat + (cache.serve request).2.isLoad.toNat)
      (cache.withdrawn request + cache.overwritten request) := by
  obtain ⟨began, ended, operation⟩ := request
  cases operation with
  | insert key value =>
      have written := balanced_update
        (fun other => stored?_written cache ended key other value) rfl
      have balanced := written.trans (balanced_trim _)
      simpa [serve, perform, insert_eq, withdrawn, overwritten, Request.isInsert,
        Request.isLookup, Answer.isLoad, Answer.isFailure] using balanced
  | lookup key =>
      simp only [serve, perform, Prod.map, id_eq, withdrawn, overwritten, Request.isInsert,
        Request.isLookup, Answer.isLoad, Answer.isFailure, Bool.toNat_true, Bool.toNat_false]
      rcases cache.lookup_cases began key with
        ⟨stored, held, _, looked⟩ | ⟨_, _, _, looked⟩ | ⟨_, looked⟩
      · have dropped := balanced_drop held (stored?_without cache key) rfl
        simpa [looked] using dropped.trans (balanced_countMiss _)
      · simpa [looked] using balanced_countHit cache
      · simpa [looked] using balanced_countMiss cache
  | load key brought =>
      have entered := balanced_enter cache began key
      simp only [withdrawn, overwritten, Request.isInsert, Request.isLookup, Bool.toNat_true,
        Bool.toNat_false]
      cases seen : cache.visible? began key with
      | some stored =>
          have balanced := entered.trans (balanced_countHit _)
          simpa [serve, perform, load_of_visible seen, Answer.isLoad, Answer.isFailure]
            using balanced
      | none =>
          cases brought with
          | error error =>
              have balanced := entered.trans (balanced_countFailure _)
              simpa [serve, perform, load_error seen, Answer.isLoad, Answer.isFailure]
                using balanced
          | ok value =>
              have empty : (cache.enter began key).1.stored? key = none := by
                rw [stored?_enter, if_pos rfl, seen]
              have filled := balanced_update
                (stored?_fill_found ticketed seen (⟨value, ended⟩ : Stored β)) rfl
              have balanced := ((entered.trans filled).trans (balanced_countMiss _)).trans
                (balanced_trim _)
              simpa [serve, perform, load_ok seen, countLoad, empty, Answer.isLoad,
                Answer.isFailure] using balanced
  | invalidate key =>
      have balanced := balanced_update (stored?_without cache key) rfl
      simpa [serve, perform, invalidate_eq, withdrawn, overwritten, Request.isInsert,
        Request.isLookup, Answer.isLoad, Answer.isFailure] using balanced
  | invalidateAll =>
      refine ⟨rfl, rfl, le_rfl, ?_⟩
      have nothing : cache.invalidateAll.filled = [] := rfl
      simp only [serve, perform, nothing, withdrawn, overwritten, Request.isInsert,
        Answer.isLoad, Bool.toNat_false, List.length_nil]
      have counters : cache.invalidateAll.counters = cache.counters := rfl
      rw [counters]
      omega
  | cleanup =>
      have balanced := (balanced_sweep cache began fun _ => false).trans (balanced_trim _)
      simpa [serve, perform, cleanup, withdrawn, overwritten, Request.isInsert,
        Request.isLookup, Answer.isLoad, Answer.isFailure] using balanced
  | size =>
      simpa [serve, perform, withdrawn, overwritten, Request.isInsert,
        Request.isLookup, Answer.isLoad, Answer.isFailure] using Balanced.refl cache

/-- A clean-up tells by how much the evictions grow. -/
theorem evictions_cleanup (cache : Cache α β) (now : Nat) (isHeld : Nat → Bool) :
    (cache.cleanup now isHeld).1.counters.evictions =
      cache.counters.evictions + (cache.cleanup now isHeld).2 :=
  Nat.add_assoc _ _ _

/-- A course keeps the balance. -/
theorem balanced_course {cache : Cache α β} (ticketed : cache.Ticketed)
    (requests : List (Request α β)) :
    Balanced cache (course serve cache requests).1 (requests.countP Request.isLookup)
      ((course serve cache requests).2.countP Answer.isFailure)
      (requests.countP Request.isInsert + (course serve cache requests).2.countP Answer.isLoad)
      (tally withdrawn cache requests + tally overwritten cache requests) := by
  induction requests generalizing cache with
  | nil => exact .refl cache
  | cons request rest ih =>
      have balanced := (balanced_serve ticketed request).trans (ih (ticketed.serve request))
      have count {γ : Type} (test : γ → Bool) (head : γ) (tail : List γ) :
          (head :: tail).countP test = (test head).toNat + tail.countP test := by
        rw [List.countP_cons, Nat.add_comm]
        cases test head <;> rfl
      simp only [course, count, tally]
      convert balanced using 1 <;> omega

/-- After any course of requests the counters add up: the lookups are the hits and the
misses, the failed loads are counted and are among the misses, and the values that were
inserted or loaded are those still stored, those evicted, those taken away and those
overwritten.  A clean-up, whenever it comes, tells by how much it makes the evictions
grow. -/
theorem counters_balance (name : String) (limit lifetime : Nat)
    (requests : List (Request α β)) :
    let cache : Cache α β := new name limit lifetime
    let last := (course serve cache requests).1
    let answers := (course serve cache requests).2
    last.counters.hits + last.counters.misses = requests.countP Request.isLookup ∧
      last.counters.loadFailures = answers.countP Answer.isFailure ∧
      last.counters.loadFailures ≤ last.counters.misses ∧
      requests.countP Request.isInsert + answers.countP Answer.isLoad =
        last.filled.length + last.counters.evictions + tally withdrawn cache requests +
          tally overwritten cache requests ∧
      ∀ began ended, ∃ count,
        (last.serve ⟨began, ended, .cleanup⟩).2 = .count count ∧
          (last.serve ⟨began, ended, .cleanup⟩).1.counters.evictions =
            last.counters.evictions + count := by
  intro cache last answers
  have counted : (new name limit lifetime : Cache α β).counters = {} := rfl
  have empty : (new name limit lifetime : Cache α β).filled = [] := rfl
  obtain ⟨lookups, failures, misses, values⟩ :=
    balanced_course (ticketed_new name limit lifetime) requests
  simp only [counted, empty, List.length_nil, Nat.zero_add, Nat.add_zero]
    at lookups failures misses values
  refine ⟨lookups, failures, failures.trans_le misses, ?_, ?_⟩
  · exact values.trans (Nat.add_assoc _ _ _).symm
  · intro began ended
    exact ⟨_, rfl, evictions_cleanup last began _⟩

end ClassAtlas.Cache
