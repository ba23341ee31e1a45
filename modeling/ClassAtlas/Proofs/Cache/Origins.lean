import ClassAtlas.Proofs.Cache.Histories

/-!
# Where things come from at a shared cache

What a step can do is said once, seen from the state after it.  `Step.origin` tells where a
caller who is there then comes from, `Step.stored` where a stored value comes from, and
`Step.follows` what becomes of the tickets.

Two invariants of all histories follow.  `Ticketed` says that whoever holds a slot, the
table or a caller, agrees on the key to which it belongs; `Recorded` ties the callers who
are still there to what the history tells of them.
-/

namespace ClassAtlas.Cache

variable {α β : Type}

namespace Caller

@[simp] theorem name_served (ticket : Nat) (value : β) (caller : Caller α β) :
    (caller.served ticket value).name = caller.name := by
  rw [served]
  split <;> rfl

@[simp] theorem key_served (ticket : Nat) (value : β) (caller : Caller α β) :
    (caller.served ticket value).key = caller.key := by
  rw [served]
  split <;> rfl

@[simp] theorem ticket_served (ticket : Nat) (value : β) (caller : Caller α β) :
    (caller.served ticket value).ticket = caller.ticket := by
  rw [served]
  split <;> rfl

theorem phase_served (ticket : Nat) (value : β) (caller : Caller α β) :
    (caller.served ticket value).phase =
      if caller.ticket = ticket then caller.phase.serve value else caller.phase := by
  rw [served]
  split <;> rfl

end Caller

namespace Shared

/-! ## Lists with one member in view -/

theorem mem_of_split {γ : Type} {list front back : List γ} {middle member : γ}
    (split : list = front ++ middle :: back) :
    member ∈ list ↔ member = middle ∨ member ∈ front ++ back := by
  rw [split, List.perm_middle.mem_iff, List.mem_cons]

/-- The members before and behind one, and what becomes of the list when that member is
replaced or removed. -/
theorem split_of_getElem? {γ : Type} {list : List γ} {position : Nat} {member : γ}
    (found : list[position]? = some member) :
    ∃ front back, list = front ++ member :: back ∧
      (∀ (change : γ → γ) (other : γ), (list.map change).set position other =
        front.map change ++ other :: back.map change) ∧
      (∀ other : γ, list.set position other = front ++ other :: back) ∧
      list.eraseIdx position = front ++ back := by
  obtain ⟨bound, rfl⟩ := List.getElem?_eq_some_iff.1 found
  refine ⟨list.take position, list.drop (position + 1), ?_, fun change other => ?_,
    fun other => ?_, List.eraseIdx_eq_take_drop_succ list position⟩
  · rw [← List.drop_eq_getElem_cons bound, List.take_append_drop]
  · rw [List.set_eq_take_append_cons_drop, if_pos (by simpa using bound), List.map_take,
      List.map_drop]
  · rw [List.set_eq_take_append_cons_drop, if_pos bound]

/-! ## How a caller goes on -/

/-- What an occurrence can make of the phase of a caller who stays. -/
inductive Turn (shared : Shared α β) (caller : Caller α β) : Occurrence α β → Phase β → Prop
    where
  | stays (occurrence : Occurrence α β) : Turn shared caller occurrence caller.phase
  | begins (waiting : caller.phase = .waiting) :
      Turn shared caller (.began caller.name caller.key) .loading
  | loads (loading : caller.phase = .loading) (value : β) :
      Turn shared caller (.ended caller.name caller.key (.ok value)) (.served value true)
  | fails (loading : caller.phase = .loading) (error : String) :
      Turn shared caller (.ended caller.name caller.key (.error error)) (.refused error)
  /-- Somebody else has loaded a value for the same slot. -/
  | shares (waiting : caller.phase = .waiting) {other : Caller α β}
      (present : other ∈ shared.callers) (loading : other.phase = .loading)
      (same : other.ticket = caller.ticket) (value : β) :
      Turn shared caller (.ended other.name other.key (.ok value)) (.served value false)

/-- A caller is the one that it was before an occurrence. -/
structure Remains (shared : Shared α β) (occurrence : Occurrence α β)
    (earlier caller : Caller α β) : Prop where
  present : earlier ∈ shared.callers
  name : earlier.name = caller.name
  key : earlier.key = caller.key
  ticket : earlier.ticket = caller.ticket
  turn : Turn shared earlier occurrence caller.phase

variable {shared next : Shared α β} {occurrence : Occurrence α β} {caller : Caller α β}
  {name : String} {key : α}

theorem Turn.hasRun {phase : Phase β} (turn : Turn shared caller occurrence phase)
    (noneBegins : begunNames [occurrence] = []) : phase.hasRun = caller.phase.hasRun := by
  cases turn with
  | stays => rfl
  | begins waiting => exact nomatch noneBegins
  | loads loading value => simp [Phase.hasRun, loading]
  | fails loading error => simp [Phase.hasRun, loading]
  | shares waiting present loading same value => simp [Phase.hasRun, waiting]

theorem Remains.of_mem (present : caller ∈ shared.callers) (occurrence : Occurrence α β) :
    Remains shared occurrence caller caller :=
  ⟨present, rfl, rfl, rfl, .stays occurrence⟩

/-- A caller of the same slot when somebody has loaded a value for it. -/
theorem Remains.served {loader : Caller α β} (loads : loader ∈ shared.callers)
    (loading : loader.phase = .loading) (present : caller ∈ shared.callers) (value : β) :
    Remains shared (.ended loader.name loader.key (.ok value)) caller
      (caller.served loader.ticket value) := by
  refine ⟨present, by simp, by simp, by simp, ?_⟩
  rw [Caller.phase_served]
  split
  · rename_i same
    cases phase : caller.phase with
    | waiting => exact .shares phase loads loading same.symm value
    | _ =>
        simp only [Phase.serve, ← phase]
        exact .stays _
  · exact .stays _

/-! ## Callers and what is told of them -/

/-- What a history tells of the callers who are still there: no two of them have one name,
each has arrived, and those whose loader has run or runs are those who have begun. -/
structure Recorded (log : List (Occurrence α β)) (shared : Shared α β) : Prop where
  arrived : (arrivedNames log).Nodup
  begun : (begunNames log).Nodup
  begun_arrived : ∀ name ∈ begunNames log, name ∈ arrivedNames log
  callers : (shared.callers.map Caller.name).Nodup
  present : ∀ caller ∈ shared.callers, .arrived caller.name caller.key ∈ log
  hasRun : ∀ caller ∈ shared.callers,
    caller.phase.hasRun = true ↔ caller.name ∈ begunNames log

theorem recorded_fresh (name : String) (limit lifetime : Nat) :
    Recorded [] (fresh name limit lifetime : Shared α β) where
  arrived := List.nodup_nil
  begun := List.nodup_nil
  begun_arrived _ member := nomatch member
  callers := List.nodup_nil
  present _ member := nomatch member
  hasRun _ member := nomatch member

/-- The callers before and behind one have other names. -/
theorem Recorded.name_ne {log : List (Occurrence α β)} (recorded : Recorded log shared)
    {front back : List (Caller α β)} (split : shared.callers = front ++ caller :: back)
    {other : Caller α β} (member : other ∈ front ++ back) : other.name ≠ caller.name := by
  have distinct := recorded.callers
  rw [split, (List.perm_middle.map Caller.name).nodup_iff, List.map_cons,
    List.nodup_cons] at distinct
  exact fun same => distinct.1 (same ▸ List.mem_map_of_mem member)

theorem Recorded.arrivedName {log : List (Occurrence α β)} (recorded : Recorded log shared)
    (present : caller ∈ shared.callers) : caller.name ∈ arrivedNames log :=
  mem_arrivedNames.2 ⟨caller.key, recorded.present caller present⟩

variable [DecidableEq α]

/-! ## What the moves do -/

/-- A caller has just come, to a slot of the cache. -/
structure Comes (cache : Cache α β) (occurrence : Occurrence α β) (caller : Caller α β) :
    Prop where
  arrival : occurrence = .arrived caller.name caller.key
  ticket : cache.ticket? caller.key = some caller.ticket
  phase : caller.phase = .waiting ∧ cache.stored? caller.key = none ∨
    ∃ stored, cache.stored? caller.key = some stored ∧
      caller.phase = .served stored.value false

theorem Comes.hasRun {cache : Cache α β} (comes : Comes cache occurrence caller) :
    caller.phase.hasRun = false := by
  rcases comes.phase with ⟨waiting, _⟩ | ⟨stored, _, served⟩
  · rw [waiting]
    rfl
  · rw [served]
    rfl

theorem of_arrive (shared : Shared α β) (name : String) (key : α) (fallback : Option β) :
    ∃ newcomer, (shared.arrive name key fallback).callers = shared.callers ++ [newcomer] ∧
      newcomer.name = name ∧ newcomer.key = key ∧
      Comes (shared.cache.enter shared.now key).1 (.arrived name key) newcomer := by
  obtain ⟨found, _⟩ := shared.cache.enter_found shared.now key
  have held := stored?_of_get? found
  have owned : (shared.cache.enter shared.now key).1.ticket? key =
      some (shared.cache.enter shared.now key).2.ticket := by simp [ticket?, found]
  simp only [arrive, advance]
  generalize shared.cache.enter shared.now key = entered at held owned
  refine ⟨_, rfl, rfl, rfl, rfl, owned, ?_⟩
  cases stored : entered.2.stored with
  | none => exact .inl ⟨by simp, held.trans stored⟩
  | some value => exact .inr ⟨value, held.trans stored, by simp⟩

theorem of_start {position : Nat} {gone : Option (Departure β)}
    (found : shared.callers[position]? = some caller)
    (made : shared.step? (.start position) = some (next, gone)) :
    ∃ front back, shared.callers = front ++ caller :: back ∧ caller.phase = .waiting ∧
      shared.isLoading caller.ticket = false ∧
      next = { shared with callers := front ++ { caller with phase := .loading } :: back } := by
  obtain ⟨front, back, split, _, set, _⟩ := split_of_getElem? found
  simp only [step?, found] at made
  split at made
  · rename_i waiting
    split at made
    · cases made
    · rename_i idle
      cases made
      exact ⟨front, back, split, waiting, by simpa using idle, by rw [set]⟩
  · cases made

theorem of_finish {position : Nat} {brought : Except String β} {gone : Option (Departure β)}
    (found : shared.callers[position]? = some caller) (known : caller.brought = some brought)
    (made : shared.step? (.finish position) = some (next, gone)) :
    ∃ front back, shared.callers = front ++ caller :: back ∧ caller.phase = .loading ∧
      ((∃ value, caller.settled brought = .ok value ∧
          next = { shared with
            cache := shared.cache.fill caller.ticket ⟨value, shared.now⟩
            callers := front.map (Caller.served caller.ticket value) ++
              { caller with phase := .served value true } ::
                back.map (Caller.served caller.ticket value)
            now := shared.now + 1 }) ∨
        ∃ error, caller.settled brought = .error error ∧
          next = { shared with
            callers := front ++ { caller with phase := .refused error } :: back }) := by
  obtain ⟨front, back, split, setMapped, set, _⟩ := split_of_getElem? found
  simp only [step?, found, known] at made
  split at made
  · rename_i brought' loading same
    cases same
    cases made
    refine ⟨front, back, split, loading, ?_⟩
    cases settled : caller.settled brought with
    | ok value =>
        refine .inl ⟨value, rfl, ?_⟩
        simp only [afterLoad, advance, setMapped]
    | error error =>
        refine .inr ⟨error, rfl, ?_⟩
        simp only [afterLoad, set]
  · cases made

theorem of_leave {position : Nat} {departure : Departure β}
    (found : shared.callers[position]? = some caller)
    (made : shared.step? (.leave position) = some (next, some departure)) :
    ∃ front back cache, shared.callers = front ++ caller :: back ∧
      depart shared.cache caller.phase = some (cache, departure.outcome) ∧
      next = { shared with cache, callers := front ++ back } := by
  obtain ⟨front, back, split, _, _, erase⟩ := split_of_getElem? found
  simp only [step?, found, Option.map_eq_some_iff, Prod.exists] at made
  obtain ⟨cache, outcome, left, same⟩ := made
  cases same
  exact ⟨front, back, cache, split, left, by rw [erase]⟩

/-- A caller who leaves has a value or an error. -/
theorem of_depart {cache after : Cache α β} {phase : Phase β} {outcome : Outcome β}
    (left : depart cache phase = some (after, outcome)) :
    (∃ value ran, phase = .served value ran ∧ outcome = ⟨.ok value, ran⟩ ∧
        after = if ran then cache.countLoad else cache.countHit) ∨
      ∃ error, phase = .refused error ∧ outcome = ⟨.error error, true⟩ ∧
        after = cache.countFailure := by
  cases phase with
  | waiting => exact nomatch left
  | loading => exact nomatch left
  | served value ran =>
      cases ran <;> cases left
      · exact .inl ⟨value, false, rfl, rfl, rfl⟩
      · exact .inl ⟨value, true, rfl, rfl, rfl⟩
  | refused error =>
      cases left
      exact .inr ⟨error, rfl, rfl, rfl⟩

/-- What a caller leaves behind was there before. -/
theorem views_of_depart {cache after : Cache α β} {phase : Phase β} {outcome : Outcome β}
    (left : depart cache phase = some (after, outcome)) :
    after.nextTicket = cache.nextTicket ∧
      (∀ key ticket, after.ticket? key = some ticket → cache.ticket? key = some ticket) ∧
      ∀ key stored, after.stored? key = some stored → cache.stored? key = some stored := by
  rcases of_depart left with ⟨_, _ | _, _, _, rfl⟩ | ⟨_, _, _, rfl⟩
  · exact ⟨rfl, fun _ _ held => held, fun _ _ held => held⟩
  · exact ⟨rfl, fun _ _ held => ticket?_of_trim held, fun _ _ held => stored?_of_trim held⟩
  · exact ⟨rfl, fun _ _ held => held, fun _ _ held => held⟩

/-! ## What an occurrence tells of its step -/

/-- The loader that starts belongs to a caller who was waiting. -/
theorem Step.starter (step : Step shared (.began name key) next) :
    ∃ front starter back, shared.callers = front ++ starter :: back ∧
      starter.phase = .waiting ∧ starter.name = name ∧ starter.key = key ∧
      shared.isLoading starter.ticket = false ∧
      next = { shared with
        callers := front ++ { starter with phase := .loading } :: back } := by
  cases step with
  | start position found made =>
      rename_i starter
      obtain ⟨front, back, split, waiting, idle, rfl⟩ := of_start found made
      exact ⟨front, starter, back, split, waiting, rfl, rfl, idle, rfl⟩

/-- A load that ends well fills the slot of its caller and serves all who hold it. -/
theorem Step.of_loaded {value : β} (step : Step shared (.ended name key (.ok value)) next) :
    ∃ front loader back, shared.callers = front ++ loader :: back ∧
      loader.phase = .loading ∧ loader.name = name ∧ loader.key = key ∧
      next = { shared with
        cache := shared.cache.fill loader.ticket ⟨value, shared.now⟩
        callers := front.map (Caller.served loader.ticket value) ++
          { loader with phase := .served value true } ::
            back.map (Caller.served loader.ticket value)
        now := shared.now + 1 } := by
  generalize seen : Occurrence.ended name key (.ok value) = occurrence at step
  cases step with
  | finish position found known made =>
      rename_i loader brought
      obtain ⟨front, back, split, loading, ⟨value', settled, rfl⟩ | ⟨error, settled, rfl⟩⟩ :=
        of_finish found known made
      · rw [settled] at seen
        cases seen
        exact ⟨front, loader, back, split, loading, rfl, rfl, rfl⟩
      · rw [settled] at seen
        exact nomatch seen
  | _ => exact nomatch seen

/-- An answer is what its caller has been served or refused with. -/
theorem Step.of_answered {answer : Except String β}
    (step : Step shared (.answered name key answer) next) :
    ∃ caller ∈ shared.callers, caller.name = name ∧ caller.key = key ∧
      ((∃ value ran, caller.phase = .served value ran ∧ answer = .ok value) ∨
        ∃ error, caller.phase = .refused error ∧ answer = .error error) := by
  generalize seen : Occurrence.answered name key answer = occurrence at step
  cases step with
  | leave position found made =>
      rename_i caller departure
      cases seen
      obtain ⟨front, back, cache, split, left, _⟩ := of_leave found made
      refine ⟨caller, (mem_of_split split).2 (.inl rfl), rfl, rfl, ?_⟩
      rcases of_depart left with ⟨value, ran, served, has, _⟩ | ⟨error, refused, has, _⟩
      · exact .inl ⟨value, ran, served, by rw [has]⟩
      · exact .inr ⟨error, refused, by rw [has]⟩
  | _ => exact nomatch seen

theorem Step.of_performed {operation : Operation α β} {answer : Answer β}
    (step : Step shared (.performed operation answer) next) :
    operation.IsImmediate ∧ answer = (shared.perform operation).2 ∧
      next = (shared.perform operation).1 := by
  generalize seen : Occurrence.performed operation answer = occurrence at step
  cases step with
  | perform operation immediate =>
      cases seen
      exact ⟨immediate, rfl, rfl⟩
  | _ => exact nomatch seen

/-- What a look-up finds is stored. -/
theorem Step.of_found {value : β}
    (step : Step shared (.performed (.lookup key) (.found (some value))) next) :
    ∃ stored, shared.cache.stored? key = some stored ∧ stored.value = value := by
  obtain ⟨_, answer, _⟩ := step.of_performed
  have found : (shared.cache.lookup shared.now key).2 = some value := by
    simpa [Shared.perform, Cache.perform] using answer.symm
  rw [snd_lookup, Option.map_eq_some_iff] at found
  obtain ⟨stored, seen, same⟩ := found
  exact ⟨stored, stored?_of_visible seen, same⟩

/-! ## Where things come from -/

/-- Whoever is there after a step was there before it or has just come. -/
theorem Step.origin (step : Step shared occurrence next) (present : caller ∈ next.callers) :
    (∃ earlier, Remains shared occurrence earlier caller) ∨
      Comes next.cache occurrence caller := by
  cases step with
  | arrive name key fallback =>
      obtain ⟨newcomer, callers, rfl, rfl, comes⟩ := of_arrive shared name key fallback
      rw [callers, List.mem_append, List.mem_singleton] at present
      rcases present with old | rfl
      · exact .inl ⟨caller, .of_mem old _⟩
      · exact .inr comes
  | supply name brought =>
      obtain ⟨earlier, old, rfl⟩ := List.mem_map.1 present
      refine .inl ⟨earlier, ?_⟩
      split
      · exact ⟨old, rfl, rfl, rfl, .stays _⟩
      · exact .of_mem old _
  | start position found made =>
      rename_i starter
      obtain ⟨front, back, split, waiting, _, rfl⟩ := of_start found made
      rcases (mem_of_split rfl).1 present with rfl | member
      · have starts := (mem_of_split split).2 (.inl rfl)
        exact .inl ⟨starter, starts, rfl, rfl, rfl, .begins waiting⟩
      · exact .inl ⟨caller, .of_mem ((mem_of_split split).2 (.inr member)) _⟩
  | finish position found known made =>
      rename_i loader brought
      obtain ⟨front, back, split, loading, ends⟩ := of_finish found known made
      have loads : loader ∈ shared.callers := (mem_of_split split).2 (.inl rfl)
      rcases ends with ⟨value, settled, rfl⟩ | ⟨error, settled, rfl⟩
      · rw [settled]
        rcases (mem_of_split rfl).1 present with rfl | member
        · exact .inl ⟨loader, loads, rfl, rfl, rfl, .loads loading value⟩
        · rw [← List.map_append] at member
          obtain ⟨earlier, old, rfl⟩ := List.mem_map.1 member
          exact .inl ⟨earlier,
            .served loads loading ((mem_of_split split).2 (.inr old)) value⟩
      · rw [settled]
        rcases (mem_of_split rfl).1 present with rfl | member
        · exact .inl ⟨loader, loads, rfl, rfl, rfl, .fails loading error⟩
        · exact .inl ⟨caller, .of_mem ((mem_of_split split).2 (.inr member)) _⟩
  | leave position found made =>
      obtain ⟨front, back, cache, split, _, rfl⟩ := of_leave found made
      exact .inl ⟨caller, .of_mem ((mem_of_split split).2 (.inr present)) _⟩
  | cancel name => exact .inl ⟨caller, .of_mem (List.mem_of_mem_filter present) _⟩
  | perform operation immediate => exact .inl ⟨caller, present, rfl, rfl, rfl, .stays _⟩
  | clock now => exact .inl ⟨caller, present, rfl, rfl, rfl, .stays _⟩

/-- The callers after a step are known by the names of those before it and of the one who
has come. -/
theorem Step.names (step : Step shared occurrence next) :
    (next.callers.map Caller.name).Sublist
      (shared.callers.map Caller.name ++ arrivedNames [occurrence]) := by
  cases step with
  | arrive name key fallback =>
      obtain ⟨newcomer, callers, rfl, _⟩ := of_arrive shared name key fallback
      rw [callers, List.map_append]
      exact .refl _
  | supply name brought =>
      have same : (shared.supply name brought).callers.map Caller.name =
          shared.callers.map Caller.name := by
        rw [Shared.supply, List.map_map]
        refine List.map_congr_left fun caller _ => ?_
        simp only [Function.comp_apply]
        split <;> rfl
      rw [same]
      exact List.sublist_append_left _ _
  | start position found made =>
      obtain ⟨front, back, split, _, _, rfl⟩ := of_start found made
      simp [split, arrivedNames]
  | finish position found known made =>
      obtain ⟨front, back, split, _, ⟨value, _, rfl⟩ | ⟨error, _, rfl⟩⟩ :=
        of_finish found known made
      · simp [split, arrivedNames, Function.comp_def]
      · simp [split, arrivedNames]
  | leave position found made =>
      obtain ⟨front, back, cache, split, _, rfl⟩ := of_leave found made
      simp only [split, List.map_append, List.map_cons]
      exact ((List.Sublist.refl _).append (List.sublist_cons_self _ _)).trans
        (List.sublist_append_left _ _)
  | cancel name =>
      exact (List.filter_sublist.map _).trans (List.sublist_append_left _ _)
  | perform operation immediate => exact List.sublist_append_left _ _
  | clock now => exact List.sublist_append_left _ _

/-- What is stored after an immediate operation was stored before or has been inserted. -/
theorem stored?_of_perform {cache : Cache α β} {began ended : Nat} {isHeld : Nat → Bool}
    {operation : Operation α β} (immediate : operation.IsImmediate) {stored : Stored β}
    (held : (cache.perform began ended isHeld operation).1.stored? key = some stored) :
    cache.stored? key = some stored ∨ operation = .insert key stored.value := by
  cases operation with
  | insert other value =>
      have inserted : (cache.written ended other value).stored? key = some stored :=
        stored?_of_trim held
      rw [stored?_written] at inserted
      split at inserted
      · rename_i same
        cases inserted
        exact .inr (by rw [same])
      · exact .inl inserted
  | lookup other =>
      change (cache.lookup began other).1.stored? key = some stored at held
      rw [stored?_lookup] at held
      split at held
      · rename_i same
        exact .inl (same ▸ stored?_of_visible held)
      · exact .inl held
  | load other brought => exact immediate.elim
  | invalidate other =>
      change (cache.without other).stored? key = some stored at held
      rw [stored?_without] at held
      split at held
      · cases held
      · exact .inl held
  | invalidateAll => cases held
  | cleanup =>
      have swept := stored?_of_trim held
      rw [stored?_sweep] at swept
      exact .inl (stored?_of_visible swept)
  | size => exact .inl held

/-- A value that is stored after a step was stored before it, or has just been inserted or
loaded into the slot of its key. -/
theorem Step.stored (step : Step shared occurrence next) {stored : Stored β}
    (held : next.cache.stored? key = some stored) :
    shared.cache.stored? key = some stored ∨
      (∃ answer, occurrence = .performed (.insert key stored.value) answer) ∨
      ∃ loader ∈ shared.callers, loader.phase = .loading ∧
        shared.cache.ticket? key = some loader.ticket ∧
        occurrence = .ended loader.name loader.key (.ok stored.value) := by
  cases step with
  | arrive name other fallback =>
      change (shared.cache.enter shared.now other).1.stored? key = some stored at held
      rw [stored?_enter] at held
      split at held
      · rename_i same
        exact .inl (same ▸ stored?_of_visible held)
      · exact .inl held
  | supply name brought => exact .inl held
  | start position found made =>
      obtain ⟨_, _, _, _, _, rfl⟩ := of_start found made
      exact .inl held
  | finish position found known made =>
      rename_i loader brought
      obtain ⟨front, back, split, loading, ⟨value, settled, rfl⟩ | ⟨error, settled, rfl⟩⟩ :=
        of_finish found known made
      · have loads : loader ∈ shared.callers := (mem_of_split split).2 (.inl rfl)
        simp only [stored?_fill] at held
        split at held
        · rename_i owned
          rcases Option.or_eq_some_iff.1 held with old | ⟨_, new⟩
          · exact .inl old
          · cases new
            exact .inr (.inr ⟨loader, loads, loading, owned, by rw [settled]⟩)
        · exact .inl held
      · exact .inl held
  | leave position found made =>
      obtain ⟨_, _, cache, _, left, rfl⟩ := of_leave found made
      obtain ⟨_, _, kept⟩ := views_of_depart left
      exact .inl (kept key stored held)
  | cancel name => exact .inl held
  | perform operation immediate =>
      rcases stored?_of_perform immediate held with old | rfl
      · exact .inl old
      · exact .inr (.inl ⟨_, rfl⟩)
  | clock now => exact .inl held

/-- A step adds one slot to the table at most, with a new ticket. -/
theorem Step.follows (step : Step shared occurrence next) :
    Follows shared.cache next.cache := by
  cases step with
  | arrive name key fallback => exact follows_enter shared.cache shared.now key
  | supply name brought => exact .refl _
  | start position found made =>
      obtain ⟨_, _, _, _, _, rfl⟩ := of_start found made
      exact .refl _
  | finish position found known made =>
      obtain ⟨_, _, _, _, ⟨value, _, rfl⟩ | ⟨error, _, rfl⟩⟩ := of_finish found known made
      · exact .of_ticket? rfl fun key ticket held => by simpa using held
      · exact .refl _
  | leave position found made =>
      obtain ⟨_, _, cache, _, left, rfl⟩ := of_leave found made
      obtain ⟨next, kept, _⟩ := views_of_depart left
      exact .of_ticket? next kept
  | cancel name => exact .refl _
  | perform operation immediate => exact follows_perform shared.cache _ _ _ operation
  | clock now => exact .refl _

/-! ## Tickets -/

/-- A slot of this ticket is in the table under the key, or in the hands of a caller who
has asked for it. -/
def Holds (shared : Shared α β) (key : α) (ticket : Nat) : Prop :=
  shared.cache.ticket? key = some ticket ∨
    ∃ caller ∈ shared.callers, caller.key = key ∧ caller.ticket = ticket

/-- A ticket belongs to one key, wherever its slot is. -/
def Ticketed (shared : Shared α β) : Prop :=
  Allotted shared.Holds shared.cache.nextTicket

theorem ticketed_fresh (name : String) (limit lifetime : Nat) :
    (fresh name limit lifetime : Shared α β).Ticketed where
  below key ticket held := by simp [Holds, fresh] at held
  apart left right ticket held := by simp [Holds, fresh] at held

/-- A caller who comes holds what the table holds, so no step gives out a ticket other than
through the table. -/
theorem Step.extends (step : Step shared occurrence next) :
    Extends shared.Holds shared.cache.nextTicket next.Holds next.cache.nextTicket := by
  obtain ⟨added, moved, owner⟩ := step.follows
  refine ⟨added, moved, fun key ticket held => ?_⟩
  rcases held with held | ⟨caller, present, rfl, rfl⟩
  · exact (owner key ticket held).imp_left .inl
  · rcases step.origin present with ⟨earlier, remains⟩ | comes
    · exact .inl (.inr ⟨earlier, remains.present, remains.key, remains.ticket⟩)
    · exact (owner _ _ comes.ticket).imp_left .inl

theorem Ticketed.step (ticketed : shared.Ticketed) (step : Step shared occurrence next) :
    next.Ticketed :=
  ticketed.extend step.extends

/-- Callers who hold the same slot have asked for the same key. -/
theorem Ticketed.key_eq (ticketed : shared.Ticketed) {left right : Caller α β}
    (isLeft : left ∈ shared.callers) (isRight : right ∈ shared.callers)
    (same : left.ticket = right.ticket) : left.key = right.key :=
  ticketed.apart _ _ _ (.inr ⟨left, isLeft, rfl, same⟩) (.inr ⟨right, isRight, rfl, rfl⟩)

/-- A caller who holds the slot of a key in the table has asked for that key. -/
theorem Ticketed.key_of_ticket? (ticketed : shared.Ticketed)
    (present : caller ∈ shared.callers)
    (owned : shared.cache.ticket? key = some caller.ticket) : caller.key = key :=
  ticketed.apart _ _ _ (.inr ⟨caller, present, rfl, rfl⟩) (.inl owned)

/-! ## The record of every history -/

theorem Recorded.step {past : List (Occurrence α β)} (recorded : Recorded past shared)
    (isNew : occurrence.IsNew past) (step : Step shared occurrence next) :
    Recorded (past ++ [occurrence]) next where
  arrived := nodup_arrivedNames_snoc recorded.arrived isNew
  begun := by
    rw [begunNames_append]
    cases occurrence with
    | began name key =>
        obtain ⟨front, starter, back, split, waiting, rfl, _⟩ := step.starter
        have idle := recorded.hasRun starter ((mem_of_split split).2 (.inl rfl))
        rw [waiting] at idle
        refine List.nodup_append.2 ⟨recorded.begun, by simp [begunNames], ?_⟩
        rintro name earlier _ now rfl
        cases List.mem_singleton.1 now
        exact absurd (idle.2 earlier) Bool.false_ne_true
    | _ => simpa [begunNames] using recorded.begun
  begun_arrived name begun := by
    rw [begunNames_append, List.mem_append] at begun
    rw [arrivedNames_append, List.mem_append]
    rcases begun with earlier | now
    · exact .inl (recorded.begun_arrived name earlier)
    · cases occurrence with
      | began name key =>
          obtain ⟨front, starter, back, split, _, rfl, _⟩ := step.starter
          cases List.mem_singleton.1 now
          exact .inl (recorded.arrivedName ((mem_of_split split).2 (.inl rfl)))
      | _ => cases now
  callers := by
    refine step.names.nodup (List.nodup_append.2 ⟨recorded.callers, ?_, ?_⟩)
    · cases occurrence <;> simp [arrivedNames]
    · rintro name earlier _ now rfl
      obtain ⟨caller, present, rfl⟩ := List.mem_map.1 earlier
      cases occurrence with
      | arrived name key =>
          cases List.mem_singleton.1 now
          exact isNew (recorded.arrivedName present)
      | _ => cases now
  present caller present := by
    rw [List.mem_append, List.mem_singleton]
    rcases step.origin present with ⟨earlier, remains⟩ | comes
    · exact .inl (remains.name ▸ remains.key ▸ recorded.present earlier remains.present)
    · exact .inr comes.arrival.symm
  hasRun caller present := by
    rw [begunNames_append, List.mem_append]
    by_cases noneBegins : begunNames [occurrence] = []
    · rcases step.origin present with ⟨earlier, remains⟩ | comes
      · rw [remains.turn.hasRun noneBegins, recorded.hasRun earlier remains.present,
          remains.name, noneBegins]
        simp
      · have unheard : caller.name ∉ begunNames past := fun begun => by
          have arrived := recorded.begun_arrived caller.name begun
          rw [comes.arrival] at isNew
          exact isNew arrived
        simp [comes.hasRun, unheard, noneBegins]
    · cases occurrence with
      | began name key =>
          obtain ⟨front, starter, back, split, waiting, rfl, rfl, _, rfl⟩ := step.starter
          rcases (mem_of_split rfl).1 present with rfl | member
          · exact ⟨fun _ => .inr List.mem_cons_self, fun _ => rfl⟩
          · rw [recorded.hasRun caller ((mem_of_split split).2 (.inr member))]
            simp [begunNames, recorded.name_ne split member]
      | _ => exact absurd rfl noneBegins

/-- Every history is recorded, and its slots are told apart by their tickets. -/
theorem History.recorded {limit lifetime : Nat} {allowed : Shared α β → Occurrence α β → Prop}
    {log : List (Occurrence α β)}
    (history : History (fresh name limit lifetime) allowed log shared) :
    Recorded log shared ∧ shared.Ticketed := by
  induction history with
  | nil => exact ⟨recorded_fresh name limit lifetime, ticketed_fresh name limit lifetime⟩
  | snoc _ _ isNew step ih => exact ⟨ih.1.step isNew step, ih.2.step step⟩

end Shared
end ClassAtlas.Cache
