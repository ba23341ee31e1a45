import ClassAtlas.Proofs.Cache.Accounts
import ClassAtlas.Proofs.Cache.Calm

/-!
# Single flight

Callers who ask for the same key at the same time share one load.  In a history in which
nothing disturbs them (`Shared.Calm`) no two loads of a key run at the same time and one at
most succeeds, everybody gets what it has brought, and an error goes to the caller whose
loader it came from (`single_flight`).

The reason is that all callers of a key hold the one slot that the table has for it
(`InPlace`): the empty slots that a cleanup drops are those that nobody holds.
-/

namespace ClassAtlas.Cache

variable {α β : Type}

/-- The loads of a key that have succeeded, by their callers, with what they have
brought. -/
def successes [DecidableEq α] (key : α) (log : List (Occurrence α β)) : List (String × β) :=
  log.filterMap (Occurrence.success? key)

/-- Somebody gets the value for the key. -/
def Occurrence.Gives (key : α) (value : β) (occurrence : Occurrence α β) : Prop :=
  (∃ name, occurrence = .answered name key (.ok value)) ∨
    occurrence = .performed (.lookup key) (.found (some value))

namespace Shared

variable [DecidableEq α]

/-- What it means for a history that callers share their loads. -/
structure SingleFlight (log : List (Occurrence α β)) (shared : Shared α β) : Prop where
  /-- A load of a key begins when the one before it has ended. -/
  alone : ∀ past between later first second key,
    log = past ++ .began first key :: between ++ .began second key :: later →
      ∃ result, .ended first key result ∈ between
  /-- One load of a key succeeds at most. -/
  once : ∀ key, (successes key log).length ≤ 1
  /-- Whoever gets a value gets what that load has brought. -/
  value : ∀ occurrence ∈ log, ∀ key value, occurrence.Gives key value →
    ∃ loader, successes key log = [(loader, value)]
  /-- Whoever gets an error gets that of its own loader. -/
  error : ∀ name key error, .answered name key (.error error) ∈ log →
    .ended name key (.error error) ∈ log
  /-- Once all have left, each of them has been counted as what it was. -/
  counted : shared.callers = [] →
    shared.cache.counters.misses =
        (begunNames log).length + log.countP Occurrence.isMissed ∧
      shared.cache.counters.loadFailures = log.countP Occurrence.isFailure ∧
      shared.cache.counters.hits =
        ((arrivedNames log).filter fun name => name ∉ begunNames log).length +
          log.countP Occurrence.isFound

/-- How things stand while nothing disturbs the callers. -/
structure Flight (keys : Finset α) (log : List (Occurrence α β)) (shared : Shared α β) :
    Prop where
  inPlace : InPlace keys shared
  recorded : Recorded log shared
  /-- Nobody waits or loads once there is a value. -/
  empty : ∀ caller ∈ shared.callers, caller.phase = .waiting ∨ caller.phase = .loading →
    shared.cache.value? caller.key = none
  single : ∀ left ∈ shared.callers, ∀ right ∈ shared.callers, left.phase = .loading →
    right.phase = .loading → left.key = right.key → left.name = right.name
  loaded : ∀ key, (successes key log).map Prod.snd = (shared.cache.value? key).toList
  served : ∀ caller ∈ shared.callers, ∀ value ran, caller.phase = .served value ran →
    shared.cache.value? caller.key = some value
  refused : ∀ caller ∈ shared.callers, ∀ error, caller.phase = .refused error →
    .ended caller.name caller.key (.error error) ∈ log
  given : ∀ occurrence ∈ log, ∀ key value, occurrence.Gives key value →
    shared.cache.value? key = some value
  errors : ∀ name key error, .answered name key (.error error) ∈ log →
    .ended name key (.error error) ∈ log

variable {keys : Finset α} {log past : List (Occurrence α β)} {shared next : Shared α β}
  {occurrence : Occurrence α β} {caller : Caller α β} {phase : Phase β}

/-! ## Turns -/

omit [DecidableEq α]

theorem Turn.of_idle (turn : Turn shared caller occurrence phase)
    (idle : phase = .waiting ∨ phase = .loading) :
    caller.phase = .waiting ∨ caller.phase = .loading := by
  cases turn with
  | stays => exact idle
  | begins waiting => exact .inl waiting
  | _ => simp at idle

theorem Turn.of_loading (turn : Turn shared caller occurrence phase)
    (loading : phase = .loading) :
    caller.phase = .loading ∨ occurrence = .began caller.name caller.key := by
  cases turn with
  | stays => exact .inl loading
  | begins waiting => exact .inr rfl
  | _ => exact nomatch loading

theorem Turn.of_served (turn : Turn shared caller occurrence phase)
    (present : caller ∈ shared.callers) {value : β} {ran : Bool}
    (served : phase = .served value ran) :
    caller.phase = .served value ran ∨
      (caller.phase = .waiting ∨ caller.phase = .loading) ∧
        ∃ loader ∈ shared.callers, loader.ticket = caller.ticket ∧
          occurrence = .ended loader.name loader.key (.ok value) := by
  cases turn with
  | stays => exact .inl served
  | begins waiting => exact nomatch served
  | loads loading value =>
      cases served
      exact .inr ⟨.inr loading, caller, present, rfl, rfl⟩
  | fails loading error => exact nomatch served
  | shares waiting loads loading same value =>
      cases served
      exact .inr ⟨.inl waiting, _, loads, same, rfl⟩

theorem Turn.of_refused (turn : Turn shared caller occurrence phase) {error : String}
    (refused : phase = .refused error) :
    caller.phase = .refused error ∨
      occurrence = .ended caller.name caller.key (.error error) := by
  cases turn with
  | stays => exact .inl refused
  | fails loading error =>
      cases refused
      exact .inr rfl
  | _ => exact nomatch refused

variable [DecidableEq α]

/-- A caller who loads goes on until its load has ended. -/
theorem Step.loading_stays (step : Step shared occurrence next)
    (present : caller ∈ shared.callers) (loading : caller.phase = .loading) :
    (∃ result, occurrence = .ended caller.name caller.key result) ∨
      occurrence = .cancelled caller.name ∨
      ∃ later ∈ next.callers, later.name = caller.name ∧ later.key = caller.key ∧
        later.phase = .loading := by
  have kept : ∀ {callers : List (Caller α β)}, caller ∈ callers →
      ∃ later ∈ callers, later.name = caller.name ∧ later.key = caller.key ∧
        later.phase = .loading := fun member => ⟨caller, member, rfl, rfl, loading⟩
  cases step with
  | arrive name key fallback =>
      obtain ⟨newcomer, callers, _⟩ := of_arrive shared name key fallback
      rw [callers]
      exact .inr (.inr (kept (List.mem_append_left _ present)))
  | supply name brought =>
      refine .inr (.inr ⟨_, List.mem_map_of_mem present, ?_⟩)
      split <;> exact ⟨rfl, rfl, loading⟩
  | start position found made =>
      obtain ⟨front, back, split, waiting, _, rfl⟩ := of_start found made
      rcases (mem_of_split split).1 present with rfl | member
      · exact nomatch waiting.symm.trans loading
      · exact .inr (.inr (kept ((mem_of_split rfl).2 (.inr member))))
  | finish position found known made =>
      rename_i loader brought
      obtain ⟨front, back, split, _, ⟨value, settled, rfl⟩ | ⟨error, settled, rfl⟩⟩ :=
        of_finish found known made
      · rcases (mem_of_split split).1 present with rfl | member
        · exact .inl ⟨_, rfl⟩
        · have mapped := List.mem_map_of_mem (f := Caller.served loader.ticket value) member
          rw [Caller.served_of_loading loading, List.map_append] at mapped
          exact .inr (.inr (kept ((mem_of_split rfl).2 (.inr mapped))))
      · rcases (mem_of_split split).1 present with rfl | member
        · exact .inl ⟨_, rfl⟩
        · exact .inr (.inr (kept ((mem_of_split rfl).2 (.inr member))))
  | leave position found made =>
      obtain ⟨front, back, cache, split, left, rfl⟩ := of_leave found made
      rcases (mem_of_split split).1 present with rfl | member
      · rw [loading] at left
        exact nomatch left
      · exact .inr (.inr (kept member))
  | cancel name =>
      by_cases same : caller.name = name
      · exact .inr (.inl (same ▸ rfl))
      · exact .inr (.inr (kept (List.mem_filter.2 ⟨present, by simpa using same⟩)))
  | perform operation immediate => exact .inr (.inr (kept present))
  | clock now => exact .inr (.inr (kept present))

theorem successes_snoc (key : α) (past : List (Occurrence α β)) (occurrence : Occurrence α β) :
    successes key (past ++ [occurrence]) =
      successes key past ++ (occurrence.success? key).toList := by
  rw [successes, List.filterMap_append]
  cases found : occurrence.success? key <;> simp [successes, found]

theorem success?_eq_some {key : α} {name : String} {value : β} :
    occurrence.success? key = some (name, value) ↔
      occurrence = .ended name key (.ok value) := by
  constructor
  · intro success
    cases occurrence with
    | ended other otherKey result =>
        cases result with
        | ok brought =>
            simp only [Occurrence.success?] at success
            split at success
            · rename_i same
              cases success
              rw [same]
            · cases success
        | error error => cases success
    | _ => cases success
  · rintro rfl
    simp [Occurrence.success?]

/-! ## What holds of every calm history -/

theorem flight_fresh (name : String) {limit lifetime : Nat} (few : keys.card ≤ max limit 1) :
    Flight keys [] (fresh name limit lifetime : Shared α β) where
  inPlace := inPlace_fresh name few
  recorded := recorded_fresh name limit lifetime
  empty _ member := nomatch member
  single _ member := nomatch member
  loaded _ := rfl
  served _ member := nomatch member
  refused _ member := nomatch member
  given _ member := nomatch member
  errors _ _ _ member := nomatch member

/-- No value is there yet when a load succeeds. -/
theorem Flight.value?_of_success (flight : Flight keys past shared)
    (step : Step shared occurrence next) {key : α} {name : String} {value : β}
    (success : occurrence.success? key = some (name, value)) :
    shared.cache.value? key = none := by
  rw [success?_eq_some] at success
  subst success
  obtain ⟨front, loader, back, split, loading, rfl, rfl, _⟩ := step.of_loaded
  exact flight.empty loader ((mem_of_split split).2 (.inl rfl)) (.inr loading)

/-- Callers of one key hold one slot. -/
theorem Flight.ticket_eq (flight : Flight keys past shared) {left right : Caller α β}
    (isLeft : left ∈ shared.callers) (isRight : right ∈ shared.callers)
    (same : left.key = right.key) : left.ticket = right.ticket := by
  have held := flight.inPlace.held left isLeft
  rw [same, flight.inPlace.held right isRight] at held
  exact (Option.some.inj held).symm

/-- When a load of the key succeeds, nobody who has asked for the key goes on waiting. -/
theorem Flight.not_idle (flight : Flight keys past shared) {name : String} {key : α}
    {value : β} (step : Step shared (.ended name key (.ok value)) next)
    (present : caller ∈ next.callers) (ofKey : caller.key = key) :
    ¬(caller.phase = .waiting ∨ caller.phase = .loading) := by
  obtain ⟨front, loader, back, split, loading, rfl, rfl, rfl⟩ := step.of_loaded
  have loads : loader ∈ shared.callers := (mem_of_split split).2 (.inl rfl)
  rcases (mem_of_split rfl).1 present with rfl | member
  · simp
  · rw [← List.map_append] at member
    obtain ⟨other, old, rfl⟩ := List.mem_map.1 member
    rw [Caller.key_served] at ofKey
    have stood : other ∈ shared.callers := (mem_of_split split).2 (.inr old)
    rw [Caller.phase_served, if_pos (flight.ticket_eq stood loads ofKey)]
    cases now : other.phase with
    | loading =>
        exact absurd (flight.single other stood loader loads now loading ofKey)
          (flight.recorded.name_ne split old)
    | _ => simp [Phase.serve]

/-- When a load of the key begins, no other one is running. -/
theorem Flight.not_loading (flight : Flight keys past shared) {name : String} {key : α}
    (step : Step shared (.began name key) next) (present : caller ∈ shared.callers)
    (ofKey : caller.key = key) : caller.phase ≠ .loading := by
  intro loading
  obtain ⟨front, starter, back, split, _, rfl, rfl, idle, _⟩ := step.starter
  have same := flight.ticket_eq present ((mem_of_split split).2 (.inl rfl)) ofKey
  have busy : shared.isLoading starter.ticket = true :=
    List.any_eq_true.2 ⟨caller, present, by simp [same, loading, Phase.isLoading]⟩
  exact Bool.false_ne_true (idle.symm.trans busy)

/-- What somebody gets is stored. -/
theorem Flight.value?_of_gives (flight : Flight keys past shared)
    (step : Step shared occurrence next) {key : α} {value : β}
    (gives : occurrence.Gives key value) : shared.cache.value? key = some value := by
  rcases gives with ⟨name, rfl⟩ | rfl
  · obtain ⟨caller, present, rfl, rfl, ⟨_, ran, served, same⟩ | ⟨error, _, same⟩⟩ :=
      step.of_answered
    · cases same
      exact flight.served caller present value ran served
    · exact nomatch same
  · obtain ⟨stored, held, rfl⟩ := step.of_found
    rw [value?, held]
    rfl

/-- In a calm step no value is lost. -/
theorem Flight.persists (flight : Flight keys past shared)
    (calm : Calm keys shared occurrence) (step : Step shared occurrence next) {key : α}
    {value : β} (held : shared.cache.value? key = some value) :
    next.cache.value? key = some value := by
  rw [calm.value?_step flight.inPlace step, held]
  rfl

/-- What a load has brought is stored, since there was nothing before. -/
theorem Flight.brought (flight : Flight keys past shared) {key : α} {name : String}
    {value : β} (calm : Calm keys shared (.ended name key (.ok value)))
    (step : Step shared (.ended name key (.ok value)) next) :
    next.cache.value? key = some value := by
  have success : (Occurrence.ended name key (.ok value)).success? key = some (name, value) :=
    success?_eq_some.2 rfl
  rw [calm.value?_step flight.inPlace step, flight.value?_of_success step success, success]
  rfl

theorem Flight.step (flight : Flight keys past shared) (calm : Calm keys shared occurrence)
    (isNew : occurrence.IsNew past) (step : Step shared occurrence next) :
    Flight keys (past ++ [occurrence]) next where
  inPlace := flight.inPlace.step calm step
  recorded := flight.recorded.step isNew step
  empty caller present idle := by
    rcases step.origin present with ⟨earlier, remains⟩ | comes
    · have before := flight.empty earlier remains.present (remains.turn.of_idle idle)
      rw [remains.key] at before
      rw [calm.value?_step flight.inPlace step, before]
      cases success : occurrence.success? caller.key with
      | none => rfl
      | some result =>
          cases success?_eq_some.1 success
          exact absurd idle (flight.not_idle step present rfl)
    · rcases comes.phase with ⟨_, nothing⟩ | ⟨stored, _, served⟩
      · rw [value?, nothing]
        rfl
      · rw [served] at idle
        simp at idle
  single left isLeft right isRight leftLoads rightLoads same := by
    have comes_idle : ∀ caller : Caller α β, caller.phase = .loading →
        ¬Comes next.cache occurrence caller := fun caller loading comes => by
      have idle := comes.hasRun
      rw [loading] at idle
      cases idle
    obtain ⟨former, wasLeft⟩ := (step.origin isLeft).resolve_right (comes_idle left leftLoads)
    obtain ⟨other, wasRight⟩ :=
      (step.origin isRight).resolve_right (comes_idle right rightLoads)
    have alike : former.key = other.key := wasLeft.key.trans (same.trans wasRight.key.symm)
    rw [← wasLeft.name, ← wasRight.name]
    rcases wasLeft.turn.of_loading leftLoads with leftOld | rfl
    · rcases wasRight.turn.of_loading rightLoads with rightOld | rfl
      · exact flight.single former wasLeft.present other wasRight.present leftOld rightOld alike
      · exact absurd leftOld (flight.not_loading step wasLeft.present alike)
    · rcases wasRight.turn.of_loading rightLoads with rightOld | begun
      · exact absurd rightOld (flight.not_loading step wasRight.present alike.symm)
      · exact (Occurrence.began.inj begun).1
  loaded key := by
    rw [successes_snoc, List.map_append, flight.loaded, calm.value?_step flight.inPlace step]
    cases success : occurrence.success? key with
    | none => simp
    | some result => simp [flight.value?_of_success step success]
  served caller present value ran served := by
    rcases step.origin present with ⟨earlier, remains⟩ | comes
    · rw [← remains.key]
      rcases remains.turn.of_served remains.present served with
        before | ⟨idle, loader, loads, same, rfl⟩
      · exact flight.persists calm step (flight.served earlier remains.present value ran before)
      · rw [← flight.inPlace.ticketed.key_eq loads remains.present same]
        exact flight.brought calm step
    · rcases comes.phase with ⟨waiting, _⟩ | ⟨stored, held, has⟩
      · cases waiting.symm.trans served
      · cases has.symm.trans served
        rw [value?, held]
        rfl
  refused caller present error refused := by
    rw [List.mem_append, List.mem_singleton]
    rcases step.origin present with ⟨earlier, remains⟩ | comes
    · rw [← remains.name, ← remains.key]
      rcases remains.turn.of_refused refused with before | rfl
      · exact .inl (flight.refused earlier remains.present error before)
      · exact .inr rfl
    · rcases comes.phase with ⟨waiting, _⟩ | ⟨stored, held, has⟩
      · cases waiting.symm.trans refused
      · cases has.symm.trans refused
  given other member key value gives := by
    rcases List.mem_append.1 member with old | new
    · exact flight.persists calm step (flight.given other old key value gives)
    · cases List.mem_singleton.1 new
      exact flight.persists calm step (flight.value?_of_gives step gives)
  errors name key error member := by
    rcases List.mem_append.1 member with old | new
    · exact List.mem_append_left _ (flight.errors name key error old)
    · cases List.mem_singleton.1 new
      obtain ⟨caller, present, rfl, rfl, ⟨value, _, _, same⟩ | ⟨_, refused, same⟩⟩ :=
        step.of_answered
      · cases same
      · cases same
        exact List.mem_append_left _ (flight.refused caller present error refused)

theorem History.flight {name : String} {limit lifetime : Nat} (few : keys.card ≤ max limit 1)
    (history : History (fresh name limit lifetime) (Calm keys) log shared) :
    Flight keys log shared ∧ Accounted log shared := by
  induction history with
  | nil => exact ⟨flight_fresh name few, accounted_fresh name limit lifetime⟩
  | snoc _ calm isNew step ih =>
      refine ⟨ih.1.step calm isNew step, ih.2.step ?_ step⟩
      rintro name rfl
      exact calm.2

/-- A load that has begun has ended, or is still running. -/
theorem History.running {name : String} {limit lifetime : Nat} {past between :
    List (Occurrence α β)} {loader : String} {key : α}
    (history : History (fresh name limit lifetime) (Calm keys)
      (past ++ .began loader key :: between) shared) :
    (∃ result, .ended loader key result ∈ between) ∨
      ∃ caller ∈ shared.callers, caller.key = key ∧ caller.phase = .loading := by
  have running := history.after
    (motive := fun between shared => (∃ result, .ended loader key result ∈ between) ∨
      ∃ caller ∈ shared.callers, caller.name = loader ∧ caller.key = key ∧
        caller.phase = .loading) ?_ ?_
  · exact running.imp_right fun ⟨caller, present, _, rest⟩ => ⟨caller, present, rest⟩
  · intro before next _ _ step
    obtain ⟨front, starter, back, _, _, rfl, rfl, _, rfl⟩ := step.starter
    exact .inr ⟨_, List.mem_append_right _ List.mem_cons_self, rfl, rfl, rfl⟩
  · rintro since before other next (⟨result, ended⟩ | ⟨caller, present, rfl, rfl, loading⟩)
      calm step
    · exact .inl ⟨result, List.mem_append_left _ ended⟩
    · rcases step.loading_stays present loading with ⟨result, rfl⟩ | rfl | stays
      · exact .inl ⟨result, List.mem_append_right _ List.mem_cons_self⟩
      · exact calm.2.elim
      · exact .inr stays

/-- While nothing is inserted, invalidated or cancelled, nothing expires, and there is room
for the values of all keys that are asked for, callers share their loads. -/
theorem single_flight {name : String} {limit lifetime : Nat} (few : keys.card ≤ max limit 1)
    (history : History (fresh name limit lifetime) (Calm keys) log shared) :
    SingleFlight log shared where
  alone past between later first second key whole := by
    rw [whole] at history
    obtain ⟨before, next, earlier, _, step⟩ := history.moment
    rcases earlier.running with ended | ⟨caller, present, ofKey, loading⟩
    · exact ended
    · exact absurd loading ((earlier.flight few).1.not_loading step present ofKey)
  once key := by
    have loaded := congrArg List.length ((history.flight few).1.loaded key)
    rw [List.length_map] at loaded
    rw [loaded]
    cases shared.cache.value? key <;> simp
  value occurrence member key value gives := by
    have flight := (history.flight few).1
    have loaded := flight.loaded key
    rw [flight.given occurrence member key value gives, Option.toList_some,
      List.map_eq_singleton_iff] at loaded
    obtain ⟨⟨loader, brought⟩, only, rfl⟩ := loaded
    exact ⟨loader, only⟩
  error := (history.flight few).1.errors
  counted gone := by
    obtain ⟨flight, accounted⟩ := history.flight few
    exact accounted.settled flight.recorded gone

/-- Two callers come at the same time.  The load of the first fails while a cleanup goes on,
the second loads in its turn, and a third caller and a look-up find what it has brought. -/
theorem single_flight_handover :
    ∃ shared : Shared Nat Nat,
      History (fresh "numbers" 1 100) (Calm {1})
        [.arrived "first" 1, .arrived "second" 1, .supplied "first" (.error "broken"),
          .supplied "second" (.ok 7), .began "first" 1, .performed .cleanup (.count 0),
          .ended "first" 1 (.error "broken"), .began "second" 1, .ended "second" 1 (.ok 7),
          .answered "first" 1 (.error "broken"), .arrived "third" 1,
          .answered "second" 1 (.ok 7), .answered "third" 1 (.ok 7),
          .performed (.lookup 1) (.found (some 7))] shared ∧
      SingleFlight
        [.arrived "first" 1, .arrived "second" 1, .supplied "first" (.error "broken"),
          .supplied "second" (.ok 7), .began "first" 1, .performed .cleanup (.count 0),
          .ended "first" 1 (.error "broken"), .began "second" 1, .ended "second" 1 (.ok 7),
          .answered "first" 1 (.error "broken"), .arrived "third" 1,
          .answered "second" 1 (.ok 7), .answered "third" 1 (.ok 7),
          .performed (.lookup 1) (.found (some 7))] shared := by
  let deeds : List (Deed Nat Nat) :=
    [.arrive "first" 1 none, .arrive "second" 1 none, .supply "first" (.error "broken"),
      .supply "second" (.ok 7), .start 0, .perform .cleanup, .finish 0, .start 1, .finish 1,
      .leave 0, .arrive "third" 1 none, .leave 0, .leave 0, .perform (.lookup 1)]
  refine (exists_history deeds ?_).imp fun shared history =>
    ⟨history, single_flight (by decide) history⟩
  decide +kernel

end Shared
end ClassAtlas.Cache
