import ClassAtlas.Proofs.Cache.Origins

/-!
# The accounts of a shared cache

What the counters of a shared cache say about a history in which nobody goes away without
an answer.  A caller is counted when it leaves, so those who are still there are owed
(`Accounted`); once all have left, the misses are the loads that have begun and the look-ups
that found nothing, and the hits are the callers who have not loaded and the look-ups that
found something (`Accounted.settled`).
-/

namespace ClassAtlas.Cache

variable {α β : Type}

/-- The loader of a caller has failed. -/
def Phase.isRefused : Phase β → Bool
  | .refused _ => true
  | _ => false

/-- A load has failed. -/
def Occurrence.isFailure : Occurrence α β → Bool
  | .ended _ _ (.error _) => true
  | _ => false

/-- A look-up has found a value. -/
def Occurrence.isFound : Occurrence α β → Bool
  | .performed (.lookup _) (.found (some _)) => true
  | _ => false

/-- A look-up has found nothing. -/
def Occurrence.isMissed : Occurrence α β → Bool
  | .performed (.lookup _) (.found none) => true
  | _ => false

variable [DecidableEq α]

/-- Of the immediate operations only a look-up counts as a hit or a miss. -/
theorem counters_perform (cache : Cache α β) (began ended : Nat) (isHeld : Nat → Bool)
    {operation : Operation α β} (immediate : operation.IsImmediate) :
    (cache.perform began ended isHeld operation).1.counters.hits = cache.counters.hits +
        (Occurrence.performed operation
          (cache.perform began ended isHeld operation).2).isFound.toNat ∧
      (cache.perform began ended isHeld operation).1.counters.misses = cache.counters.misses +
        (Occurrence.performed operation
          (cache.perform began ended isHeld operation).2).isMissed.toNat ∧
      (cache.perform began ended isHeld operation).1.counters.loadFailures =
        cache.counters.loadFailures := by
  cases operation with
  | lookup key =>
      rcases cache.lookup_cases began key with
        ⟨_, _, _, looked⟩ | ⟨_, _, _, looked⟩ | ⟨_, looked⟩ <;>
      · simp only [perform, Prod.map, looked]
        exact ⟨rfl, rfl, rfl⟩
  | load key brought => exact immediate.elim
  | _ => exact ⟨rfl, rfl, rfl⟩

/-- Finding a slot counts nothing but evictions. -/
theorem counters_enter (cache : Cache α β) (now : Nat) (key : α) :
    (cache.enter now key).1.counters.hits = cache.counters.hits ∧
      (cache.enter now key).1.counters.misses = cache.counters.misses ∧
      (cache.enter now key).1.counters.loadFailures = cache.counters.loadFailures := by
  rcases cache.enter_cases now key with
    ⟨_, _, _, entered⟩ | ⟨_, _, _, _, entered⟩ | ⟨_, entered⟩ <;> rw [entered] <;>
    exact ⟨rfl, rfl, rfl⟩

namespace Shared

/-- How many callers stand where a test says. -/
def census (test : Phase β → Bool) (callers : List (Caller α β)) : Nat :=
  callers.countP fun caller => test caller.phase

section

omit [DecidableEq α]

@[simp] theorem census_append (test : Phase β → Bool) (front back : List (Caller α β)) :
    census test (front ++ back) = census test front + census test back :=
  List.countP_append

@[simp] theorem census_cons (test : Phase β → Bool) (caller : Caller α β)
    (callers : List (Caller α β)) :
    census test (caller :: callers) = census test callers + (test caller.phase).toNat := by
  rw [census, List.countP_cons]
  cases test caller.phase <;> rfl

/-- A census does not change when those who wait are served, if it does not tell the two
apart. -/
theorem census_served {test : Phase β → Bool}
    (blind : ∀ value, test (.served value false) = test .waiting) (ticket : Nat) (value : β)
    (callers : List (Caller α β)) :
    census test (callers.map (Caller.served ticket value)) = census test callers := by
  rw [census, List.countP_map]
  refine List.countP_congr fun caller _ => ?_
  simp only [Function.comp_apply, Caller.served]
  split
  · cases caller.phase <;> simp [Phase.serve, blind]
  · rfl

@[simp] theorem census_supply (test : Phase β → Bool) (shared : Shared α β) (name : String)
    (brought : Except String β) :
    census test (shared.supply name brought).callers = census test shared.callers := by
  rw [census, supply, List.countP_map]
  refine List.countP_congr fun caller _ => ?_
  simp only [Function.comp_apply]
  split <;> rfl

@[simp] theorem census_nil (test : Phase β → Bool) :
    census test ([] : List (Caller α β)) = 0 := rfl

@[simp] theorem length_supply (shared : Shared α β) (name : String)
    (brought : Except String β) :
    (shared.supply name brought).callers.length = shared.callers.length :=
  List.length_map _

theorem Comes.isRefused [DecidableEq α] {cache : Cache α β} {occurrence : Occurrence α β}
    {caller : Caller α β} (comes : Comes cache occurrence caller) :
    caller.phase.isRefused = false := by
  have idle := comes.hasRun
  cases phase : caller.phase with
  | refused error =>
      rw [phase] at idle
      exact nomatch idle
  | _ => rfl

end

/-- An occurrence adds to both sides of each account alike. -/
structure Adds (occurrence : Occurrence α β) (shared next : Shared α β) : Prop where
  misses : next.cache.counters.misses + census Phase.hasRun next.callers =
    shared.cache.counters.misses + census Phase.hasRun shared.callers +
      (begunNames [occurrence]).length + occurrence.isMissed.toNat
  failures : next.cache.counters.loadFailures + census Phase.isRefused next.callers =
    shared.cache.counters.loadFailures + census Phase.isRefused shared.callers +
      occurrence.isFailure.toNat
  lookups : next.cache.counters.hits + next.cache.counters.misses + next.callers.length =
    shared.cache.counters.hits + shared.cache.counters.misses + shared.callers.length +
      (arrivedNames [occurrence]).length + occurrence.isFound.toNat + occurrence.isMissed.toNat

theorem adds_leave {shared : Shared α β} {front back : List (Caller α β)}
    {caller : Caller α β} (split : shared.callers = front ++ caller :: back)
    {cache : Cache α β} {outcome : Outcome β}
    (left : depart shared.cache caller.phase = some (cache, outcome)) (name : String) (key : α)
    (answer : Except String β) :
    Adds (.answered name key answer) shared { shared with cache, callers := front ++ back } := by
  generalize phase : caller.phase = now at left
  cases now with
  | waiting => exact nomatch left
  | loading => exact nomatch left
  | served value ran =>
      cases ran <;> cases left <;> constructor <;>
        simp [split, phase, countHit, countLoad, countMiss, trim, countEvictions, begunNames,
          arrivedNames, Phase.hasRun, Phase.isRefused, Occurrence.isMissed, Occurrence.isFailure,
          Occurrence.isFound] <;> omega
  | refused error =>
      cases left
      constructor <;>
        simp [split, phase, countFailure, begunNames, arrivedNames, Phase.hasRun,
          Phase.isRefused, Occurrence.isMissed, Occurrence.isFailure, Occurrence.isFound] <;>
        omega

/-- Every step adds to the accounts what it should, except that a caller who goes away
without an answer stays owed for ever. -/
theorem Adds.of_step {shared next : Shared α β} {occurrence : Occurrence α β}
    (stays : ∀ name, occurrence ≠ .cancelled name) (step : Step shared occurrence next) :
    Adds occurrence shared next := by
  cases step with
  | arrive name key fallback =>
      obtain ⟨newcomer, callers, rfl, rfl, comes⟩ := of_arrive shared name key fallback
      obtain ⟨hits, misses, failures⟩ := counters_enter shared.cache shared.now newcomer.key
      have cache : (shared.arrive newcomer.name newcomer.key fallback).cache =
          (shared.cache.enter shared.now newcomer.key).1 := rfl
      constructor <;>
        simp [callers, cache, hits, misses, failures, comes.hasRun, comes.isRefused, begunNames,
          arrivedNames, Occurrence.isMissed, Occurrence.isFailure, Occurrence.isFound]
      omega
  | supply name brought =>
      have cache : (shared.supply name brought).cache = shared.cache := rfl
      constructor <;>
        simp [cache, begunNames, arrivedNames, Occurrence.isMissed, Occurrence.isFailure,
          Occurrence.isFound]
  | start position found made =>
      obtain ⟨front, back, split, waiting, _, rfl⟩ := of_start found made
      constructor <;>
        simp [split, waiting, begunNames, arrivedNames, Phase.hasRun, Phase.isRefused,
          Occurrence.isMissed, Occurrence.isFailure, Occurrence.isFound]
      omega
  | finish position found known made =>
      obtain ⟨front, back, split, loading, ⟨value, settled, rfl⟩ | ⟨error, settled, rfl⟩⟩ :=
        of_finish found known made
      · have ran := @census_served α β Phase.hasRun fun _ => rfl
        have refused := @census_served α β Phase.isRefused fun _ => rfl
        constructor <;>
          simp [split, loading, settled, ran, refused, fill, begunNames, arrivedNames,
            Phase.hasRun, Phase.isRefused, Occurrence.isMissed, Occurrence.isFailure,
            Occurrence.isFound]
      · constructor <;>
          simp [split, loading, settled, begunNames, arrivedNames, Phase.hasRun,
            Phase.isRefused, Occurrence.isMissed, Occurrence.isFailure, Occurrence.isFound]
        omega
  | leave position found made =>
      obtain ⟨front, back, cache, split, left, rfl⟩ := of_leave found made
      exact adds_leave split left _ _ _
  | cancel name => exact absurd rfl (stays name)
  | perform operation immediate =>
      obtain ⟨hits, misses, failures⟩ :=
        counters_perform shared.cache shared.now (shared.now + 1) shared.isHeld immediate
      constructor <;>
        simp only [Shared.perform, advance, hits, misses, failures, begunNames, arrivedNames,
          Occurrence.isFailure, List.filterMap_cons_none, List.filterMap_nil, List.length_nil,
          Bool.toNat_false] <;>
        omega
  | clock now => exact ⟨rfl, rfl, rfl⟩

/-- The counters together with what the callers who are still there will add to them. -/
structure Accounted (log : List (Occurrence α β)) (shared : Shared α β) : Prop where
  misses : shared.cache.counters.misses + census Phase.hasRun shared.callers =
    (begunNames log).length + log.countP Occurrence.isMissed
  failures : shared.cache.counters.loadFailures + census Phase.isRefused shared.callers =
    log.countP Occurrence.isFailure
  lookups : shared.cache.counters.hits + shared.cache.counters.misses + shared.callers.length =
    (arrivedNames log).length + log.countP Occurrence.isFound + log.countP Occurrence.isMissed

omit [DecidableEq α] in
theorem accounted_fresh (name : String) (limit lifetime : Nat) :
    Accounted [] (fresh name limit lifetime : Shared α β) :=
  ⟨rfl, rfl, rfl⟩

omit [DecidableEq α] in
theorem countP_snoc (test : Occurrence α β → Bool) (past : List (Occurrence α β))
    (occurrence : Occurrence α β) :
    (past ++ [occurrence]).countP test = past.countP test + (test occurrence).toNat := by
  rw [List.countP_append, List.countP_singleton]
  cases test occurrence <;> rfl

theorem Accounted.step {past : List (Occurrence α β)} {shared next : Shared α β}
    {occurrence : Occurrence α β} (accounted : Accounted past shared)
    (stays : ∀ name, occurrence ≠ .cancelled name) (step : Step shared occurrence next) :
    Accounted (past ++ [occurrence]) next := by
  obtain ⟨misses, failures, lookups⟩ := accounted
  obtain ⟨moreMisses, moreFailures, moreLookups⟩ := Adds.of_step stays step
  constructor <;>
    simp only [begunNames_append, arrivedNames_append, countP_snoc, List.length_append] <;> omega

omit [DecidableEq α] in
/-- Once nobody is there any more the accounts are settled: the misses are the loads that
were run and the look-ups that found nothing, and the hits are the callers who ran none and
the look-ups that found something. -/
theorem Accounted.settled {log : List (Occurrence α β)} {shared : Shared α β}
    (accounted : Accounted log shared) (recorded : Recorded log shared)
    (gone : shared.callers = []) :
    shared.cache.counters.misses =
        (begunNames log).length + log.countP Occurrence.isMissed ∧
      shared.cache.counters.loadFailures = log.countP Occurrence.isFailure ∧
      shared.cache.counters.hits =
        ((arrivedNames log).filter fun name => name ∉ begunNames log).length +
          log.countP Occurrence.isFound := by
  obtain ⟨misses, failures, lookups⟩ := accounted
  simp only [gone, census_nil, List.length_nil, Nat.add_zero] at misses failures lookups
  have loaders : ((arrivedNames log).filter fun name => name ∈ begunNames log).length =
      (begunNames log).length := by
    refine List.Perm.length_eq ?_
    rw [List.perm_ext_iff_of_nodup (recorded.arrived.filter _) recorded.begun]
    intro name
    simpa using recorded.begun_arrived name
  have parts := List.length_eq_countP_add_countP (l := arrivedNames log)
    fun name => name ∈ begunNames log
  simp only [List.countP_eq_length_filter, decide_eq_true_eq] at parts
  exact ⟨misses, failures, by omega⟩

end Shared
end ClassAtlas.Cache
