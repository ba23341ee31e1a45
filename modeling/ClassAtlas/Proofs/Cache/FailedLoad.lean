import ClassAtlas.Proofs.Cache.Echo
import ClassAtlas.Proofs.Cache.Origins

/-!
# What a failed load leaves behind

A caller whose key has no slot is given an empty one, and when its load fails the slot stays.
Whatever is done afterwards, what is seen is what would have been seen without the call, until
an invalidation of the key finds the slot (`observe_failedCall`).  The two runs are compared
deed by deed: their states differ in that slot and in the tickets that it has displaced
(`Echo`), and each deed leaves them so.
-/

namespace ClassAtlas.Cache

variable {α β : Type} [DecidableEq α]

namespace Occurrence

/-- After the occurrence an empty slot of the key that nobody holds is gone, has a value or
has been given to a caller. -/
def takesSpare (key : α) : Occurrence α β → Bool
  | .arrived _ other => other = key
  | .performed operation _ => operation.takesSpare key
  | _ => false

/-- The occurrence as it is seen when there is an empty slot of the key to spare. -/
def answerWith (key : α) (spare : Bool) : Occurrence α β → Occurrence α β
  | .performed operation answer => .performed operation (operation.answerWith key spare answer)
  | occurrence => occurrence

end Occurrence

namespace Caller

omit [DecidableEq α]

/-- The caller with another ticket in its hand. -/
def relabel (rename : Nat → Nat) (caller : Caller α β) : Caller α β :=
  { caller with ticket := rename caller.ticket }

variable (rename : Nat → Nat) (caller : Caller α β)

@[simp] theorem name_relabel : (caller.relabel rename).name = caller.name := rfl

@[simp] theorem key_relabel : (caller.relabel rename).key = caller.key := rfl

@[simp] theorem ticket_relabel : (caller.relabel rename).ticket = rename caller.ticket := rfl

@[simp] theorem brought_relabel : (caller.relabel rename).brought = caller.brought := rfl

@[simp] theorem phase_relabel : (caller.relabel rename).phase = caller.phase := rfl

@[simp] theorem settled_relabel (brought : Except String β) :
    (caller.relabel rename).settled brought = caller.settled brought := rfl

end Caller

namespace Shared

/-! ## What is seen -/

/-- The clock is not turned back. -/
def Onward (shared : Shared α β) : Occurrence α β → Prop
  | .clock now => shared.now ≤ now
  | _ => True

instance (shared : Shared α β) : DecidablePred shared.Onward := fun occurrence =>
  match occurrence with
  | .clock now => inferInstanceAs (Decidable (shared.now ≤ now))
  | .arrived .. | .supplied .. | .began .. | .ended .. | .answered .. | .cancelled _
  | .performed .. => .isTrue trivial

/-- What happens when something is done, and the state after it.  What cannot be done is
passed over. -/
def attempt (shared : Shared α β) (deed : Deed α β) : Option (Occurrence α β) × Shared α β :=
  match shared.happen? deed with
  | some (occurrence, next) =>
      if shared.Onward occurrence then (some occurrence, next) else (none, shared)
  | none => (none, shared)

/-- What is seen of each deed when one is done after another. -/
def observe (shared : Shared α β) : List (Deed α β) → List (Option (Occurrence α β))
  | [] => []
  | deed :: deeds => (shared.attempt deed).1 :: observe (shared.attempt deed).2 deeds

/-- The state when all has been done. -/
def after (shared : Shared α β) (deeds : List (Deed α β)) : Shared α β :=
  deeds.foldl (fun shared deed => (shared.attempt deed).2) shared

/-- What would be seen if there were an empty slot of the key to spare. -/
def withSpare (key : α) : Bool → List (Option (Occurrence α β)) → List (Option (Occurrence α β))
  | _, [] => []
  | spare, seen :: rest =>
      seen.map (·.answerWith key spare) ::
        withSpare key (spare && !seen.any (·.takesSpare key)) rest

/-! ## States in order -/

/-- Tickets and instants are not used twice. -/
structure InOrder (shared : Shared α β) : Prop where
  ticketed : shared.Ticketed
  dated : shared.cache.Dated shared.now

variable {shared next : Shared α β} {occurrence : Occurrence α β}

theorem InOrder.step (inOrder : shared.InOrder) (onward : shared.Onward occurrence)
    (step : Step shared occurrence next) : next.InOrder := by
  refine ⟨inOrder.ticketed.step step, ?_⟩
  have dated := inOrder.dated
  cases step with
  | arrive name asked fallback =>
      refine dated.mono (Nat.le_succ _) fun other stored held => ?_
      change (shared.cache.enter shared.now asked).1.stored? other = some stored at held
      rw [stored?_enter] at held
      split at held
      · rename_i same
        exact same ▸ stored?_of_visible held
      · exact held
  | supply name brought => exact dated
  | start position found made =>
      obtain ⟨_, _, _, _, _, rfl⟩ := of_start found made
      exact dated
  | finish position found known made =>
      rename_i caller brought
      obtain ⟨_, _, split, _, ⟨value, _, rfl⟩ | ⟨_, _, rfl⟩⟩ := of_finish found known made
      · refine dated.write caller.key ⟨value, shared.now⟩ le_rfl (Nat.lt_succ_self _)
          fun other stored held => ?_
        rw [stored?_fill] at held
        split at held
        · rename_i owned
          have present : caller ∈ shared.callers := (mem_of_split split).2 (.inl rfl)
          rcases Option.or_eq_some_iff.1 held with old | ⟨_, new⟩
          · exact .inl old
          · exact .inr ⟨(inOrder.ticketed.key_of_ticket? present owned).symm,
              (Option.some.inj new).symm⟩
        · exact .inl held
      · exact dated
  | leave position found made =>
      obtain ⟨_, _, cache, _, left, rfl⟩ := of_leave found made
      obtain ⟨_, _, kept⟩ := views_of_depart left
      exact dated.mono le_rfl kept
  | cancel name => exact dated
  | perform operation immediate =>
      have origin : ∀ other stored,
          (shared.perform operation).1.cache.stored? other = some stored →
            shared.cache.stored? other = some stored ∨ operation = .insert other stored.value := by
        intro other stored held
        change (shared.cache.perform shared.now (shared.now + 1) shared.isHeld
          operation).1.stored? other = some stored at held
        exact stored?_of_perform immediate held
      have passed : shared.now ≤ shared.now + 2 := Nat.le_add_right _ _
      cases operation with
      | insert key value =>
          have later := dated.mono (Nat.le_succ shared.now) fun _ _ held => held
          exact (later.written key value).mono le_rfl fun _ _ held => stored?_of_trim held
      | _ => exact dated.mono passed fun other stored held =>
          (origin other stored held).resolve_right fun same => by cases same
  | clock now => exact dated.mono onward fun _ _ held => held

theorem History.inOrder {name : String} {limit lifetime : Nat} {log : List (Occurrence α β)}
    (history : History (fresh name limit lifetime) Onward log shared) : shared.InOrder := by
  induction history with
  | nil => exact ⟨ticketed_fresh name limit lifetime, dated_new name limit lifetime⟩
  | snoc _ onward _ step ih => exact ih.step onward step

/-! ## Two runs -/

/-- The left state is the right one but for a slot to spare and the tickets. -/
structure Echo (key : α) (rename : Nat → Nat) (spare : Option Nat) (left right : Shared α β) :
    Prop where
  cache : Echoes key rename spare left.cache right.cache
  callers : left.callers = right.callers.map (Caller.relabel rename)
  now : left.now = right.now

/-- The same can be done in both states; it is seen as it must be, and leads to such states
again. -/
inductive Echoed (key : α) (spare : Option Nat) :
    Option (Occurrence α β × Shared α β) → Option (Occurrence α β × Shared α β) → Prop where
  | impossible : Echoed key spare none none
  | happens (occurrence : Occurrence α β) {rename : Nat → Nat} {left right : Shared α β}
      (echo : Echo key rename (if occurrence.takesSpare key then none else spare) left right) :
      Echoed key spare (some (occurrence.answerWith key spare.isSome, left))
        (some (occurrence, right))

namespace Echo

variable {key : α} {rename : Nat → Nat} {spare : Option Nat} {left right : Shared α β}

theorem isHeld (echo : Echo key rename spare left right) (ticket : Nat) :
    left.isHeld (rename ticket) = right.isHeld ticket := by
  rw [Shared.isHeld, Shared.isHeld, echo.callers, List.any_map]
  congr 1
  funext caller
  exact echo.cache.injective.beq_eq

theorem isHeld_spare (echo : Echo key rename spare left right) {ticket : Nat}
    (spared : spare = some ticket) : left.isHeld ticket = false := by
  rw [Shared.isHeld, echo.callers, List.any_map, List.any_eq_false]
  intro caller _ same
  refine echo.cache.notSpare caller.ticket ?_
  rw [spared, ← eq_of_beq same]
  rfl

theorem isLoading (echo : Echo key rename spare left right) (ticket : Nat) :
    left.isLoading (rename ticket) = right.isLoading ticket := by
  rw [Shared.isLoading, Shared.isLoading, echo.callers, List.any_map]
  congr 1
  funext caller
  simp only [Function.comp_apply, Caller.relabel, echo.cache.injective.beq_eq]

omit [DecidableEq α] in
/-- The callers who hold a slot are served whatever its ticket. -/
theorem served_relabel (injective : Function.Injective rename) (ticket : Nat) (value : β)
    (caller : Caller α β) :
    (caller.relabel rename).served (rename ticket) value =
      (caller.served ticket value).relabel rename := by
  by_cases same : caller.ticket = ticket
  · simp [Caller.relabel, Caller.served, same]
  · simp [Caller.relabel, Caller.served, same, injective.eq_iff]

theorem arrive (echo : Echo key rename spare left right) (inOrder : right.InOrder)
    (name : String) (asked : α) (fallback : Option β) :
    ∃ rename', Echo key rename' (if asked = key then none else spare)
      (left.arrive name asked fallback) (right.arrive name asked fallback) := by
  obtain ⟨rename', cache, slot, old⟩ := echo.cache.enter
    (fun other ticket held => inOrder.ticketed.below other ticket (.inl held)) right.now asked
  have relabelled : right.callers.map (Caller.relabel rename) =
      right.callers.map (Caller.relabel rename') := by
    refine List.map_congr_left fun caller present => ?_
    rw [Caller.relabel, Caller.relabel,
      old _ (inOrder.ticketed.below caller.key _ (.inr ⟨caller, present, rfl, rfl⟩))]
  refine ⟨rename', ?_, ?_, ?_⟩
  · simpa only [Shared.arrive, advance, echo.now] using cache
  · simp only [Shared.arrive, advance, echo.now, slot, echo.callers, relabelled,
      List.map_append, List.map_singleton]
    rfl
  · simp only [Shared.arrive, advance, echo.now]

theorem supply (echo : Echo key rename spare left right) (name : String)
    (brought : Except String β) :
    Echo key rename spare (left.supply name brought) (right.supply name brought) where
  cache := echo.cache
  callers := by
    simp only [Shared.supply, echo.callers, List.map_map]
    refine List.map_congr_left fun caller _ => ?_
    simp only [Function.comp_apply]
    by_cases same : caller.name = name
    · simp [Caller.relabel, Caller.supplied, same]
    · simp [Caller.relabel, same]
  now := echo.now

theorem cancel (echo : Echo key rename spare left right) (name : String) :
    Echo key rename spare (left.cancel name) (right.cancel name) where
  cache := echo.cache
  callers := by
    simp only [Shared.cancel, echo.callers, List.filter_map]
    rfl
  now := echo.now

theorem perform (echo : Echo key rename spare left right) (inOrder : right.InOrder)
    {operation : Operation α β} (immediate : operation.IsImmediate) :
    Echo key rename (if operation.takesSpare key then none else spare)
        (left.perform operation).1 (right.perform operation).1 ∧
      (left.perform operation).2 =
        operation.answerWith key spare.isSome (right.perform operation).2 := by
  have dated : right.cache.Dated (right.now + 1) :=
    inOrder.dated.mono (Nat.le_succ _) fun _ _ held => held
  have held : ∀ ticket, left.isHeld (rename ticket) = right.isHeld ticket := echo.isHeld
  obtain ⟨cache, answer⟩ := echo.cache.perform right.now dated held
    (fun _ spared => echo.isHeld_spare spared) immediate
  refine ⟨⟨?_, echo.callers, ?_⟩, ?_⟩
  · simpa only [Shared.perform, advance, echo.now] using cache
  · simp only [Shared.perform, advance, echo.now]
  · simpa only [Shared.perform, advance, echo.now] using answer

/-- At each position there is the same caller in both states, or in neither. -/
theorem caller_cases (echo : Echo key rename spare left right) (position : Nat) :
    left.callers[position]? = none ∧ right.callers[position]? = none ∨
      ∃ caller, left.callers[position]? = some (caller.relabel rename) ∧
        right.callers[position]? = some caller := by
  rw [echo.callers, List.getElem?_map]
  cases found : right.callers[position]? with
  | none => exact .inl ⟨rfl, rfl⟩
  | some caller => exact .inr ⟨caller, rfl, rfl⟩

theorem start (echo : Echo key rename spare left right) (position : Nat) :
    Echoed key spare (left.happen? (.start position)) (right.happen? (.start position)) := by
  rcases echo.caller_cases position with ⟨foundLeft, found⟩ | ⟨caller, foundLeft, found⟩
  · simp only [Shared.happen?, foundLeft, found]
    exact .impossible
  · simp only [Shared.happen?, step?, foundLeft, found, Caller.phase_relabel,
      Caller.ticket_relabel, echo.isLoading]
    cases caller.phase with
    | waiting =>
        cases right.isLoading caller.ticket with
        | true => exact .impossible
        | false =>
            refine .happens (.began caller.name caller.key) ⟨echo.cache, ?_, echo.now⟩
            rw [echo.callers, List.map_set]
            rfl
    | loading => exact .impossible
    | served value ran => exact .impossible
    | refused error => exact .impossible

theorem afterLoad (echo : Echo key rename spare left right) (position : Nat)
    (caller : Caller α β) (brought : Except String β) :
    Echo key rename spare (left.afterLoad position (caller.relabel rename) brought)
      (right.afterLoad position caller brought) := by
  cases brought with
  | ok value =>
      have served : left.callers.map (Caller.served (rename caller.ticket) value) =
          (right.callers.map (Caller.served caller.ticket value)).map (Caller.relabel rename) := by
        rw [echo.callers, List.map_map, List.map_map]
        refine List.map_congr_left fun other _ => ?_
        exact served_relabel echo.cache.injective caller.ticket value other
      refine ⟨?_, ?_, congrArg (· + 1) echo.now⟩
      · simpa only [Shared.afterLoad, advance, Caller.ticket_relabel, echo.now] using
          echo.cache.fill caller.ticket ⟨value, right.now⟩
      · simp only [Shared.afterLoad, advance, Caller.ticket_relabel, served, List.map_set]
        rfl
  | error error =>
      refine ⟨echo.cache, ?_, echo.now⟩
      simp only [Shared.afterLoad, echo.callers, List.map_set]
      rfl

theorem finish (echo : Echo key rename spare left right) (position : Nat) :
    Echoed key spare (left.happen? (.finish position)) (right.happen? (.finish position)) := by
  rcases echo.caller_cases position with ⟨foundLeft, found⟩ | ⟨caller, foundLeft, found⟩
  · simp only [Shared.happen?, foundLeft, found]
    exact .impossible
  · simp only [Shared.happen?, step?, foundLeft, found, Caller.phase_relabel,
      Caller.brought_relabel, Caller.settled_relabel]
    cases caller.phase with
    | loading =>
        cases known : caller.brought with
        | none => exact .impossible
        | some brought =>
            simp only [Caller.brought_relabel, known, Option.map_some, Caller.name_relabel,
              Caller.key_relabel, Caller.settled_relabel]
            exact .happens (.ended caller.name caller.key (caller.settled brought))
              (echo.afterLoad position caller (caller.settled brought))
    | waiting => exact .impossible
    | served value ran => exact .impossible
    | refused error => exact .impossible

theorem leave (echo : Echo key rename spare left right) (inOrder : right.InOrder)
    (position : Nat) :
    Echoed key spare (left.happen? (.leave position)) (right.happen? (.leave position)) := by
  rcases echo.caller_cases position with ⟨foundLeft, found⟩ | ⟨caller, foundLeft, found⟩
  · simp only [Shared.happen?, foundLeft, found]
    exact .impossible
  · have erased : left.callers.eraseIdx position =
        (right.callers.eraseIdx position).map (Caller.relabel rename) := by
      rw [echo.callers, List.eraseIdx_map]
    simp only [Shared.happen?, step?, foundLeft, found, Caller.phase_relabel]
    cases caller.phase with
    | waiting => exact .impossible
    | loading => exact .impossible
    | served value ran =>
        cases ran with
        | true =>
            exact .happens (.answered caller.name caller.key (.ok value))
              ⟨echo.cache.countLoad inOrder.dated, erased, echo.now⟩
        | false =>
            exact .happens (.answered caller.name caller.key (.ok value))
              ⟨echo.cache.countHit, erased, echo.now⟩
    | refused error =>
        exact .happens (.answered caller.name caller.key (.error error))
          ⟨echo.cache.countFailure, erased, echo.now⟩

/-- What can be done in one state can be done in the other. -/
theorem happen? (echo : Echo key rename spare left right) (inOrder : right.InOrder)
    (deed : Deed α β) : Echoed key spare (left.happen? deed) (right.happen? deed) := by
  cases deed with
  | arrive name asked fallback =>
      obtain ⟨rename', next⟩ := echo.arrive inOrder name asked fallback
      have taken : (if (Occurrence.arrived name asked : Occurrence α β).takesSpare key then none
          else spare) = if asked = key then none else spare := by simp [Occurrence.takesSpare]
      rw [← taken] at next
      exact .happens (.arrived name asked) next
  | supply name brought => exact .happens (.supplied name brought) (echo.supply name brought)
  | start position => exact echo.start position
  | finish position => exact echo.finish position
  | leave position => exact echo.leave inOrder position
  | cancel name => exact .happens (.cancelled name) (echo.cancel name)
  | perform operation =>
      simp only [Shared.happen?]
      split
      · rename_i immediate
        obtain ⟨next, answer⟩ := echo.perform inOrder immediate
        rw [answer]
        exact .happens (.performed operation (right.perform operation).2) next
      · exact .impossible
  | clock now => exact .happens (.clock now) ⟨echo.cache, echo.callers, rfl⟩

theorem onward_iff (echo : Echo key rename spare left right) {occurrence : Occurrence α β} :
    left.Onward (occurrence.answerWith key spare.isSome) ↔ right.Onward occurrence := by
  cases occurrence with
  | clock now =>
      change left.now ≤ now ↔ right.now ≤ now
      rw [echo.now]
  | _ => exact Iff.rfl

/-- One deed is seen in both runs, as far as the slot to spare allows. -/
theorem attempt (echo : Echo key rename spare left right) (inOrder : right.InOrder)
    (deed : Deed α β) :
    ∃ rename' spare', Echo key rename' spare' (left.attempt deed).2 (right.attempt deed).2 ∧
      (left.attempt deed).1 = (right.attempt deed).1.map (·.answerWith key spare.isSome) ∧
      spare'.isSome = (spare.isSome && !(right.attempt deed).1.any (·.takesSpare key)) := by
  have echoed := echo.happen? inOrder deed
  rw [Shared.attempt, Shared.attempt]
  generalize left.happen? deed = happensLeft at echoed
  generalize right.happen? deed = happensRight at echoed
  cases echoed with
  | impossible => exact ⟨rename, spare, echo, rfl, by simp⟩
  | happens occurrence next =>
      dsimp only
      by_cases onward : right.Onward occurrence
      · rw [if_pos onward, if_pos (echo.onward_iff.2 onward)]
        refine ⟨_, _, next, rfl, ?_⟩
        cases taken : occurrence.takesSpare key <;> simp [taken]
      · rw [if_neg onward, if_neg (mt echo.onward_iff.1 onward)]
        exact ⟨rename, spare, echo, rfl, by simp⟩

end Echo

theorem InOrder.attempt (inOrder : shared.InOrder) (deed : Deed α β) :
    (shared.attempt deed).2.InOrder := by
  rw [Shared.attempt]
  cases happens : shared.happen? deed with
  | none => exact inOrder
  | some result =>
      dsimp only
      split
      · rename_i onward
        exact inOrder.step onward (step_of_happen? happens)
      · exact inOrder

/-- Two runs are seen alike, as far as the slot to spare allows, and count alike but for the
failed load. -/
theorem Echo.observe {key : α} {rename : Nat → Nat} {spare : Option Nat} {left right : Shared α β}
    (echo : Echo key rename spare left right) (inOrder : right.InOrder)
    (deeds : List (Deed α β)) :
    left.observe deeds = withSpare key spare.isSome (right.observe deeds) ∧
      (left.after deeds).cache.counters = (right.after deeds).cache.countFailure.counters := by
  induction deeds generalizing rename spare left right with
  | nil => exact ⟨rfl, echo.cache.counters⟩
  | cons deed deeds ih =>
      obtain ⟨rename', spare', next, seen, taken⟩ := echo.attempt inOrder deed
      obtain ⟨observed, counted⟩ := ih next (inOrder.attempt deed)
      refine ⟨?_, counted⟩
      rw [Shared.observe, Shared.observe, withSpare, seen, observed, taken]

/-! ## The failed call -/

/-- What is done when a caller asks for a key, loads and fails.  The caller comes last of
those at the positions before its own. -/
def failedCall (name : String) (key : α) (error : String) (position : Nat) : List (Deed α β) :=
  [.arrive name key none, .supply name (.error error), .start position, .finish position,
    .leave position]

/-- The state after that, when the caller comes last. -/
def afterFailedCall (shared : Shared α β) (name : String) (key : α) (error : String) :
    Shared α β :=
  shared.after (failedCall name key error shared.callers.length)

section Failing

variable (shared : Shared α β) (name : String) (key : α)

/-- The caller of a failed call, who has come to a new slot. -/
def newcomer (brought : Option (Except String β)) (phase : Phase β) : Caller α β :=
  { name, key, ticket := shared.cache.nextTicket, fallback := none, brought, phase }

/-- The state in which that caller is there. -/
def joined (brought : Option (Except String β)) (phase : Phase β) : Shared α β where
  cache := shared.cache.withNewSlot key
  callers := shared.callers ++ [shared.newcomer name key brought phase]
  now := shared.now + 1

/-- The state in which it has left with its error. -/
def failed : Shared α β where
  cache := (shared.cache.withNewSlot key).countFailure
  callers := shared.callers
  now := shared.now + 1

theorem getElem?_joined (brought : Option (Except String β)) (phase : Phase β) :
    (shared.joined name key brought phase).callers[shared.callers.length]? =
      some (shared.newcomer name key brought phase) := by
  simp [joined]

theorem set_joined (brought : Option (Except String β)) (phase : Phase β) (other : Caller α β) :
    (shared.joined name key brought phase).callers.set shared.callers.length other =
      shared.callers ++ [other] := by
  simp [joined]

theorem erase_joined (brought : Option (Except String β)) (phase : Phase β) :
    (shared.joined name key brought phase).callers.eraseIdx shared.callers.length =
      shared.callers := by
  simp [joined, List.eraseIdx_append_of_length_le]

variable {shared key}

theorem arrive_of_absent (absent : shared.cache.slots.get? key = none) :
    shared.arrive name key none = shared.joined name key none .waiting := by
  simp only [arrive, enter_of_absent absent, advance, joined, newcomer]

variable (key) {name}

theorem supply_joined (isNew : ∀ other ∈ shared.callers, other.name ≠ name)
    (brought : Except String β) :
    (shared.joined name key none .waiting).supply name brought =
      shared.joined name key (some brought) .waiting := by
  have others : shared.callers.map (fun caller =>
      if caller.name = name then caller.supplied brought else caller) = shared.callers :=
    (List.map_congr_left fun other present => if_neg (isNew other present)).trans
      (List.map_id' _)
  simp only [supply, joined, List.map_append, others]
  simp [newcomer, Caller.supplied]

variable (name)

theorem isLoading_joined (inOrder : shared.InOrder) (brought : Option (Except String β)) :
    (shared.joined name key brought .waiting).isLoading shared.cache.nextTicket = false := by
  have others : ∀ other ∈ shared.callers, other.ticket ≠ shared.cache.nextTicket :=
    fun other present => (inOrder.ticketed.below other.key other.ticket
      (.inr ⟨other, present, rfl, rfl⟩)).ne
  simpa [isLoading, joined, newcomer, Phase.isLoading] using
    fun other present same => absurd same (others other present)

theorem start_joined (inOrder : shared.InOrder) (brought : Option (Except String β)) :
    (shared.joined name key brought .waiting).happen? (.start shared.callers.length) =
      some (.began name key, shared.joined name key brought .loading) := by
  have idle := isLoading_joined name key inOrder brought
  have waits : (shared.newcomer name key brought .waiting).phase = .waiting := rfl
  have holds : (shared.newcomer name key brought .waiting).ticket = shared.cache.nextTicket := rfl
  simp only [happen?, step?, getElem?_joined, set_joined, waits, holds, idle, Bool.false_eq_true,
    if_false]
  rfl

variable (shared)

theorem finish_joined (error : String) :
    (shared.joined name key (some (.error error)) .loading).happen?
        (.finish shared.callers.length) =
      some (.ended name key (.error error),
        shared.joined name key (some (.error error)) (.refused error)) := by
  simp only [happen?, step?, getElem?_joined]
  simp [newcomer, Caller.settled, afterLoad, joined]

theorem leave_joined (brought : Option (Except String β)) (error : String) :
    (shared.joined name key brought (.refused error)).happen? (.leave shared.callers.length) =
      some (.answered name key (.error error), shared.failed key) := by
  simp only [happen?, step?, getElem?_joined, erase_joined]
  rfl

end Failing

theorem attempt_of_happen? {deed : Deed α β}
    (happens : shared.happen? deed = some (occurrence, next)) (onward : shared.Onward occurrence) :
    shared.attempt deed = (some occurrence, next) := by
  rw [attempt, happens]
  exact if_pos onward

/-- A call to a key without a slot, when its load fails: it is answered with the error, and an
empty slot stays. -/
theorem attempts_failedCall {name : String} {key : α} (inOrder : shared.InOrder)
    (absent : shared.cache.slots.get? key = none)
    (isNew : ∀ other ∈ shared.callers, other.name ≠ name) (error : String) :
    shared.observe (failedCall name key error shared.callers.length) =
        [some (.arrived name key), some (.supplied name (.error error)), some (.began name key),
          some (.ended name key (.error error)), some (.answered name key (.error error))] ∧
      shared.afterFailedCall name key error = shared.failed key := by
  have arrives : shared.attempt (.arrive name key none) =
      (some (.arrived name key), shared.joined name key none .waiting) :=
    attempt_of_happen? (by rw [happen?, arrive_of_absent name absent]) trivial
  have learns : (shared.joined name key none .waiting).attempt (.supply name (.error error)) =
      (some (.supplied name (.error error)),
        shared.joined name key (some (.error error)) .waiting) :=
    attempt_of_happen? (by rw [happen?, supply_joined key isNew]) trivial
  have starts := attempt_of_happen? (start_joined name key inOrder (some (.error error))) trivial
  have ends := attempt_of_happen? (finish_joined shared name key error) trivial
  have leaves := attempt_of_happen?
    (leave_joined shared name key (some (.error error)) error) trivial
  simp only [afterFailedCall, failedCall, observe, after, List.foldl_cons, List.foldl_nil,
    arrives, learns, starts, ends, leaves, and_self]

/-! ## The slot that stays -/

/-- The tickets of the slots that come after one is left out. -/
def skipping (next ticket : Nat) : Nat :=
  if ticket < next then ticket else ticket + 1

theorem skipping_of_lt {next ticket : Nat} (before : ticket < next) :
    skipping next ticket = ticket :=
  if_pos before

theorem echoes_failed {cache : Cache α β} {key : α} (absent : cache.slots.get? key = none)
    (below : ∀ other ticket, cache.ticket? other = some ticket → ticket < cache.nextTicket) :
    Echoes key (skipping cache.nextTicket) (some cache.nextTicket)
      (cache.withNewSlot key).countFailure cache where
  limit := rfl
  lifetime := rfl
  counters := rfl
  stored := by
    funext other
    change (cache.withNewSlot key).stored? other = cache.stored? other
    rw [stored?_withNewSlot]
    split
    · rename_i same
      simp [same, stored?, absent]
    · rfl
  ticket other := by
    change (cache.withNewSlot key).ticket? other = _
    rw [ticket?_withNewSlot]
    by_cases same : other = key
    · simp [same, ticket?, absent]
    · cases held : cache.ticket? other with
      | none => simp [same]
      | some ticket => simp [same, skipping_of_lt (below other ticket held)]
  unslotted _ := by simp [ticket?, absent]
  injective left right same := by
    simp only [skipping] at same
    split_ifs at same <;> omega
  notSpare ticket same := by
    have alike := Option.some.inj same
    simp only [skipping] at alike
    split_ifs at alike <;> omega
  future later := by
    change skipping cache.nextTicket (cache.nextTicket + later) = cache.nextTicket + 1 + later
    simp only [skipping]
    split_ifs <;> omega

theorem echo_failed {key : α} (inOrder : shared.InOrder)
    (absent : shared.cache.slots.get? key = none) :
    Echo key (skipping shared.cache.nextTicket) (some shared.cache.nextTicket)
      (shared.failed key) (shared.advance 1) where
  cache := echoes_failed absent fun other ticket held =>
    inOrder.ticketed.below other ticket (.inl held)
  callers := by
    refine (List.map_id' shared.callers).symm.trans (List.map_congr_left fun caller present => ?_)
    rw [Caller.relabel, skipping_of_lt (inOrder.ticketed.below caller.key caller.ticket
      (.inr ⟨caller, present, rfl, rfl⟩))]
  now := rfl

/-- What a failed load leaves behind.  The call is answered with the error of its loader; it
leaves an empty slot at the end of the table, and of the counts those of misses and failed loads
have grown.  Whatever is done afterwards is seen as if only time had passed instead of the
call, except that an invalidation of the key finds the slot, as long as nothing has come that
takes it: a caller for the key, a value for it, an invalidation or a clean-up. -/
theorem observe_failedCall {cacheName name : String} {limit lifetime : Nat}
    {log : List (Occurrence α β)} {key : α}
    (history : History (fresh cacheName limit lifetime) Onward log shared)
    (absent : shared.cache.slots.get? key = none)
    (isNew : ∀ other ∈ shared.callers, other.name ≠ name) (error : String) :
    (shared.observe (failedCall name key error shared.callers.length)).getLast? =
        some (some (.answered name key (.error error))) ∧
      (shared.afterFailedCall name key error).cache.slots.entries =
        shared.cache.slots.entries ++ [(key, { ticket := shared.cache.nextTicket })] ∧
      (shared.afterFailedCall name key error).callers = shared.callers ∧
      (shared.afterFailedCall name key error).isHeld shared.cache.nextTicket = false ∧
      ∀ deeds,
        (shared.afterFailedCall name key error).observe deeds =
            withSpare key true ((shared.advance 1).observe deeds) ∧
          ((shared.afterFailedCall name key error).after deeds).cache.counters =
            { ((shared.advance 1).after deeds).cache.counters with
              misses := ((shared.advance 1).after deeds).cache.counters.misses + 1
              loadFailures :=
                ((shared.advance 1).after deeds).cache.counters.loadFailures + 1 } := by
  have inOrder := history.inOrder
  obtain ⟨seen, last⟩ := attempts_failedCall inOrder absent isNew error
  have echo := echo_failed inOrder absent
  rw [seen, last]
  refine ⟨rfl, ?_, rfl, echo.isHeld_spare rfl, fun deeds => ?_⟩
  · have new : key ∉ shared.cache.slots.keys := fun member => by
      have found := KeyedTable.isSome_get?_iff.2 member
      rw [absent] at found
      exact nomatch found
    change (shared.cache.slots.insert key { ticket := shared.cache.nextTicket }).entries = _
    rw [KeyedTable.insert, dif_neg new]
  · have later : (shared.advance 1).InOrder :=
      ⟨inOrder.ticketed, inOrder.dated.mono (Nat.le_succ _) fun _ _ held => held⟩
    exact echo.observe later deeds

/-- A cache of which nothing has been asked. -/
def unasked : Shared String Nat :=
  fresh "modules" 10 60000000000

/-- The state after one value has been written. -/
def oneWritten : Shared String Nat :=
  (unasked.perform (.insert "a" 1)).1

/-- The slot that a failed load leaves is found by an invalidation, once. -/
theorem observe_failedCall_oneWritten :
    ∃ log, History unasked Onward log oneWritten ∧
      oneWritten.cache.slots.get? "k" = none ∧
      (oneWritten.afterFailedCall "caller" "k" "boom").observe
          [.perform (.invalidate "k"), .perform (.invalidate "k")] =
        [some (.performed (.invalidate "k") (.removed true)),
          some (.performed (.invalidate "k") (.removed false))] := by
  have history : History unasked Onward [.performed (.insert "a" 1) .done] oneWritten :=
    .snoc .nil trivial trivial (.perform unasked (.insert "a" 1) trivial)
  have absent : oneWritten.cache.slots.get? "k" = none := by decide +kernel
  have isNew : ∀ other ∈ oneWritten.callers, other.name ≠ "caller" := nofun
  obtain ⟨_, _, _, _, later⟩ := observe_failedCall history absent isNew "boom"
  refine ⟨_, history, absent, (later _).1.trans ?_⟩
  decide +kernel

/-- The call leaves a trace: without it the table has no slot, and an invalidation finds
none. -/
theorem failedCall_leaves_slot :
    History unasked Onward [] unasked ∧ unasked.cache.slots.get? "k" = none ∧
      (unasked.observe (failedCall "caller" "k" "boom" 0)).getLast? =
        some (some (.answered "caller" "k" (.error "boom"))) ∧
      (unasked.afterFailedCall "caller" "k" "boom").cache.slots ≠ unasked.cache.slots ∧
      (unasked.afterFailedCall "caller" "k" "boom").observe [.perform (.invalidate "k")] ≠
        (unasked.advance 1).observe [.perform (.invalidate "k")] := by
  refine ⟨.nil, rfl, by decide +kernel, by decide +kernel, by decide +kernel⟩

end Shared
end ClassAtlas.Cache
