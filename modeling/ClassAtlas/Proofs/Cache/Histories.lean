import ClassAtlas.Cache.Sharing
import ClassAtlas.Proofs.Cache.Limit

/-!
# Histories of a shared cache

What can be seen to happen at a cache that several callers share, one occurrence after
another and in any order that `Step` allows.  A load begins and ends in separate steps;
every other operation is one step.  The clock may be set at will, since nothing that is
proved here asks how one reading relates to the next.

A concrete history need not be written out state by state: it can be computed from what is
done (`replay`).
-/

namespace ClassAtlas.Cache

variable {α β : Type}

/-! ## Occurrences -/

deriving instance DecidableEq for Outcome, Operation, Answer

/-- What can be seen to happen.  Callers are known by their names. -/
inductive Occurrence (α β : Type) where
  /-- A caller has asked for a key and has got a slot. -/
  | arrived (name : String) (key : α)
  /-- It has become known what the loader of a caller will bring. -/
  | supplied (name : String) (brought : Except String β)
  /-- The loader of a caller has started. -/
  | began (name : String) (key : α)
  /-- The load of a caller has ended. -/
  | ended (name : String) (key : α) (result : Except String β)
  /-- A caller has left with its answer. -/
  | answered (name : String) (key : α) (answer : Except String β)
  /-- A caller has gone without an answer. -/
  | cancelled (name : String)
  /-- An operation that nobody delays has been performed. -/
  | performed (operation : Operation α β) (answer : Answer β)
  /-- The clock shows another time. -/
  | clock (now : Nat)
  deriving DecidableEq

/-- The loader of a caller runs or has run. -/
def Phase.hasRun : Phase β → Bool
  | .waiting | .served _ false => false
  | .loading | .served _ true | .refused _ => true

/-- A caller who loads comes and goes in several steps; all other operations are
immediate. -/
def Operation.IsImmediate : Operation α β → Prop
  | .load _ _ => False
  | _ => True

instance : DecidablePred (Operation.IsImmediate : Operation α β → Prop) := fun operation =>
  match operation with
  | .load _ _ => .isFalse id
  | .insert _ _ | .lookup _ | .invalidate _ | .invalidateAll | .cleanup | .size =>
      .isTrue trivial

/-- The names of the callers who have arrived. -/
def arrivedNames (log : List (Occurrence α β)) : List String :=
  log.filterMap fun
    | .arrived name _ => some name
    | _ => none

/-- The names of the callers whose loaders have started. -/
def begunNames (log : List (Occurrence α β)) : List String :=
  log.filterMap fun
    | .began name _ => some name
    | _ => none

theorem arrivedNames_append (past later : List (Occurrence α β)) :
    arrivedNames (past ++ later) = arrivedNames past ++ arrivedNames later :=
  List.filterMap_append

theorem begunNames_append (past later : List (Occurrence α β)) :
    begunNames (past ++ later) = begunNames past ++ begunNames later :=
  List.filterMap_append

theorem mem_arrivedNames {log : List (Occurrence α β)} {name : String} :
    name ∈ arrivedNames log ↔ ∃ key, .arrived name key ∈ log := by
  simp only [arrivedNames, List.mem_filterMap]
  constructor
  · rintro ⟨occurrence, member, named⟩
    cases occurrence <;> simp_all
    exact ⟨_, member⟩
  · rintro ⟨key, member⟩
    exact ⟨_, member, rfl⟩

/-- No caller takes the name of an earlier one. -/
def Occurrence.IsNew (past : List (Occurrence α β)) : Occurrence α β → Prop
  | .arrived name _ => name ∉ arrivedNames past
  | _ => True

instance (past : List (Occurrence α β)) : DecidablePred (Occurrence.IsNew past) :=
  fun occurrence =>
    match occurrence with
    | .arrived name _ => inferInstanceAs (Decidable (name ∉ arrivedNames past))
    | .supplied .. | .began .. | .ended .. | .answered .. | .cancelled _ | .performed ..
    | .clock _ => .isTrue trivial

/-- No two callers who arrive have the same name. -/
theorem nodup_arrivedNames_snoc {past : List (Occurrence α β)} {occurrence : Occurrence α β}
    (nodup : (arrivedNames past).Nodup) (isNew : occurrence.IsNew past) :
    (arrivedNames (past ++ [occurrence])).Nodup := by
  rw [arrivedNames_append]
  cases occurrence with
  | arrived name key =>
      refine List.nodup_append.2 ⟨nodup, by simp [arrivedNames], ?_⟩
      rintro name earlier _ now rfl
      cases List.mem_singleton.1 now
      exact isNew earlier
  | _ => simpa [arrivedNames] using nodup

namespace Shared

/-- A new cache with nobody there. -/
def fresh (name : String) (limit lifetime : Nat) : Shared α β where
  cache := new name limit lifetime

variable [DecidableEq α]

/-! ## Steps and histories -/

/-- One state of a shared cache, what happens in it, and the next state. -/
inductive Step : Shared α β → Occurrence α β → Shared α β → Prop where
  | arrive (shared : Shared α β) (name : String) (key : α) (fallback : Option β) :
      Step shared (.arrived name key) (shared.arrive name key fallback)
  | supply (shared : Shared α β) (name : String) (brought : Except String β) :
      Step shared (.supplied name brought) (shared.supply name brought)
  | start {shared next : Shared α β} {caller : Caller α β} (position : Nat)
      (found : shared.callers[position]? = some caller)
      (made : shared.step? (.start position) = some (next, none)) :
      Step shared (.began caller.name caller.key) next
  | finish {shared next : Shared α β} {caller : Caller α β} {brought : Except String β}
      (position : Nat) (found : shared.callers[position]? = some caller)
      (known : caller.brought = some brought)
      (made : shared.step? (.finish position) = some (next, none)) :
      Step shared (.ended caller.name caller.key (caller.settled brought)) next
  | leave {shared next : Shared α β} {caller : Caller α β} {departure : Departure β}
      (position : Nat) (found : shared.callers[position]? = some caller)
      (made : shared.step? (.leave position) = some (next, some departure)) :
      Step shared (.answered caller.name caller.key departure.outcome.answer) next
  | cancel (shared : Shared α β) (name : String) :
      Step shared (.cancelled name) (shared.cancel name)
  | perform (shared : Shared α β) (operation : Operation α β)
      (immediate : operation.IsImmediate) :
      Step shared (.performed operation (shared.perform operation).2)
        (shared.perform operation).1
  | clock (shared : Shared α β) (now : Nat) : Step shared (.clock now) { shared with now }

/-- A state to which a history leads, when everything in the history was allowed where it
happened. -/
inductive History (start : Shared α β) (allowed : Shared α β → Occurrence α β → Prop) :
    List (Occurrence α β) → Shared α β → Prop where
  | nil : History start allowed [] start
  | snoc {past : List (Occurrence α β)} {shared next : Shared α β}
      {occurrence : Occurrence α β} (history : History start allowed past shared)
      (permitted : allowed shared occurrence) (isNew : occurrence.IsNew past)
      (step : Step shared occurrence next) :
      History start allowed (past ++ [occurrence]) next

/-- What holds after an occurrence and is kept by every later step holds at the end. -/
theorem History.after {start last : Shared α β}
    {allowed : Shared α β → Occurrence α β → Prop} {past later : List (Occurrence α β)}
    {occurrence : Occurrence α β} {motive : List (Occurrence α β) → Shared α β → Prop}
    (history : History start allowed (past ++ occurrence :: later) last)
    (enters : ∀ shared next, History start allowed past shared → occurrence.IsNew past →
      Step shared occurrence next → motive [] next)
    (keeps : ∀ since shared other next, motive since shared → allowed shared other →
      Step shared other next → motive (since ++ [other]) next) : motive later last := by
  induction later using List.reverseRecOn generalizing last with
  | nil =>
      generalize whole : past ++ [occurrence] = log at history
      cases history with
      | nil => simp at whole
      | snoc history _ isNew step =>
          obtain ⟨rfl, same⟩ := List.append_inj' whole rfl
          cases same
          exact enters _ _ history isNew step
  | append_singleton later other ih =>
      rw [← List.cons_append, ← List.append_assoc] at history
      generalize whole : past ++ occurrence :: later ++ [other] = log at history
      cases history with
      | nil => simp at whole
      | snoc history permitted _ step =>
          obtain ⟨rfl, same⟩ := List.append_inj' whole rfl
          cases same
          exact keeps _ _ _ _ (ih history) permitted step

/-- The moment of an occurrence in a history. -/
theorem History.moment {start last : Shared α β}
    {allowed : Shared α β → Occurrence α β → Prop} {past later : List (Occurrence α β)}
    {occurrence : Occurrence α β}
    (history : History start allowed (past ++ occurrence :: later) last) :
    ∃ shared next, History start allowed past shared ∧ occurrence.IsNew past ∧
      Step shared occurrence next :=
  history.after (motive := fun _ _ => ∃ shared next, History start allowed past shared ∧
      occurrence.IsNew past ∧ Step shared occurrence next)
    (fun shared next before isNew step => ⟨shared, next, before, isNew, step⟩)
    fun _ _ _ _ moment _ _ => moment

/-! ## Replaying

A history can be computed from what is done, so that a concrete one need not be written out
state by state. -/

/-- What can be done with a shared cache. -/
inductive Deed (α β : Type) where
  | arrive (name : String) (key : α) (fallback : Option β)
  | supply (name : String) (brought : Except String β)
  | start (position : Nat)
  | finish (position : Nat)
  | leave (position : Nat)
  | cancel (name : String)
  | perform (operation : Operation α β)
  | clock (now : Nat)

/-- What happens when something is done, and the state after it, if it can be done. -/
def happen? (shared : Shared α β) : Deed α β → Option (Occurrence α β × Shared α β)
  | .arrive name key fallback => some (.arrived name key, shared.arrive name key fallback)
  | .supply name brought => some (.supplied name brought, shared.supply name brought)
  | .start position =>
      match shared.callers[position]?, shared.step? (.start position) with
      | some caller, some (next, none) => some (.began caller.name caller.key, next)
      | _, _ => none
  | .finish position =>
      match shared.callers[position]?, shared.step? (.finish position) with
      | some caller, some (next, none) =>
          caller.brought.map fun brought =>
            (.ended caller.name caller.key (caller.settled brought), next)
      | _, _ => none
  | .leave position =>
      match shared.callers[position]?, shared.step? (.leave position) with
      | some caller, some (next, some departure) =>
          some (.answered caller.name caller.key departure.outcome.answer, next)
      | _, _ => none
  | .cancel name => some (.cancelled name, shared.cancel name)
  | .perform operation =>
      if operation.IsImmediate then
        some (.performed operation (shared.perform operation).2, (shared.perform operation).1)
      else none
  | .clock now => some (.clock now, { shared with now })

theorem step_of_happen? {shared next : Shared α β} {deed : Deed α β}
    {occurrence : Occurrence α β} (happens : shared.happen? deed = some (occurrence, next)) :
    Step shared occurrence next := by
  cases deed with
  | arrive name key fallback =>
      cases happens
      exact .arrive shared name key fallback
  | supply name brought =>
      cases happens
      exact .supply shared name brought
  | start position =>
      simp only [happen?] at happens
      split at happens
      · rename_i found made
        cases happens
        exact .start position found made
      · exact nomatch happens
  | finish position =>
      simp only [happen?] at happens
      split at happens
      · rename_i found made
        obtain ⟨brought, known, same⟩ := Option.map_eq_some_iff.1 happens
        cases same
        exact .finish position found known made
      · exact nomatch happens
  | leave position =>
      simp only [happen?] at happens
      split at happens
      · rename_i found made
        cases happens
        exact .leave position found made
      · exact nomatch happens
  | cancel name =>
      cases happens
      exact .cancel shared name
  | perform operation =>
      simp only [happen?] at happens
      split at happens
      · rename_i immediate
        cases happens
        exact .perform shared operation immediate
      · exact nomatch happens
  | clock now =>
      cases happens
      exact .clock shared now

/-- What has happened when everything has been done, and the last state; nothing when
something cannot be done or is not allowed. -/
def replay (allowed : Shared α β → Occurrence α β → Prop)
    [∀ shared occurrence, Decidable (allowed shared occurrence)]
    (past : List (Occurrence α β)) (shared : Shared α β) :
    List (Deed α β) → Option (List (Occurrence α β) × Shared α β)
  | [] => some (past, shared)
  | deed :: deeds =>
      match shared.happen? deed with
      | some (occurrence, next) =>
          if allowed shared occurrence ∧ occurrence.IsNew past then
            replay allowed (past ++ [occurrence]) next deeds
          else none
      | none => none

theorem History.replay {start shared last : Shared α β}
    {allowed : Shared α β → Occurrence α β → Prop}
    [∀ shared occurrence, Decidable (allowed shared occurrence)]
    {past log : List (Occurrence α β)} (history : History start allowed past shared)
    {deeds : List (Deed α β)}
    (replayed : shared.replay allowed past deeds = some (log, last)) :
    History start allowed log last := by
  induction deeds generalizing past shared with
  | nil =>
      cases replayed
      exact history
  | cons deed deeds ih =>
      simp only [Shared.replay] at replayed
      split at replayed
      · rename_i occurrence next happens
        split at replayed
        · rename_i permitted
          exact ih (history.snoc permitted.1 permitted.2 (step_of_happen? happens)) replayed
        · exact nomatch replayed
      · exact nomatch replayed

theorem exists_history {start : Shared α β} {allowed : Shared α β → Occurrence α β → Prop}
    [∀ shared occurrence, Decidable (allowed shared occurrence)]
    {log : List (Occurrence α β)} (deeds : List (Deed α β))
    (replayed : (start.replay allowed [] deeds).map Prod.fst = some log) :
    ∃ shared, History start allowed log shared := by
  obtain ⟨⟨log, shared⟩, made, rfl⟩ := Option.map_eq_some_iff.1 replayed
  exact ⟨shared, History.nil.replay made⟩

end Shared
end ClassAtlas.Cache
