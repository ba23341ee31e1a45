import ClassAtlas.Proofs.Cache.Limit

/-!
# Courses of requests

A cache that serves one request after another, each at its own time.  Nobody holds a slot
between two requests.

A request writes a value or it does not.  When it does, the value is stored under its key
and room is made for it (`serve_of_written`); when it does not, nothing new is stored
(`stored?_of_unwritten`).
-/

namespace ClassAtlas.Cache

variable {α β σ : Type}

/-- An operation with the instants at which it begins and ends. -/
structure Request (α β : Type) where
  began : Nat
  ended : Nat
  operation : Operation α β

/-- What somebody who serves requests has answered to some of them, and how it stands
afterwards. -/
def course (serve : σ → Request α β → σ × Answer β) (state : σ) :
    List (Request α β) → σ × List (Answer β)
  | [] => (state, [])
  | request :: rest =>
      let (next, answer) := serve state request
      let (last, answers) := course serve next rest
      (last, answer :: answers)

/-- The clock, which stood at an instant before, never goes back. -/
def Chronological (since : Nat) : List (Request α β) → Prop
  | [] => True
  | request :: rest =>
      since ≤ request.began ∧ request.began ≤ request.ended ∧ Chronological request.ended rest

/-- The value that a request has written when it got an answer, with its key. -/
def Request.written? (request : Request α β) (answer : Answer β) : Option (α × Stored β) :=
  match request.operation, answer with
  | .insert key value, _ => some (key, ⟨value, request.ended⟩)
  | .load key _, .loaded ⟨.ok value, true⟩ => some (key, ⟨value, request.ended⟩)
  | _, _ => none

theorem writtenAt_of_written {request : Request α β} {answer : Answer β} {key : α}
    {stored : Stored β} (written : request.written? answer = some (key, stored)) :
    stored.writtenAt = request.ended := by
  unfold Request.written? at written
  split at written
  · cases written
    rfl
  · cases written
    rfl
  · exact nomatch written

variable [DecidableEq α]

/-- Serves a request while nobody holds a slot. -/
def serve (cache : Cache α β) (request : Request α β) : Cache α β × Answer β :=
  cache.perform request.began request.ended (fun _ => false) request.operation

/-- The instants at which values are written in a course of requests. -/
def writeTimes (cache : Cache α β) : List (Request α β) → List Nat
  | [] => []
  | request :: rest =>
      let (next, answer) := cache.serve request
      ((request.written? answer).map fun (_, stored) => stored.writtenAt).toList ++
        next.writeTimes rest

theorem writeTimes_cons (cache : Cache α β) (request : Request α β)
    (rest : List (Request α β)) :
    cache.writeTimes (request :: rest) =
      ((request.written? (cache.serve request).2).map fun (_, stored) =>
        stored.writtenAt).toList ++ (cache.serve request).1.writeTimes rest := rfl

/-- Serving leaves the limit and the lifetime alone. -/
theorem settings_serve (cache : Cache α β) (request : Request α β) :
    (cache.serve request).1.limit = cache.limit ∧
      (cache.serve request).1.lifetime = cache.lifetime :=
  cache.settings_perform _ _ _ _

/-- The second cache is the first with a value written under a key. -/
structure Writes (cache full : Cache α β) (key : α) (stored : Stored β) : Prop where
  limit : full.limit = cache.limit
  lifetime : full.lifetime = cache.lifetime
  stored? : ∀ other, full.stored? other = if other = key then some stored else cache.stored? other

theorem writes_written (cache : Cache α β) (now : Nat) (key : α) (value : β) :
    Writes cache (cache.written now key value) key ⟨value, now⟩ :=
  ⟨rfl, rfl, fun other => stored?_written cache now key other value⟩

theorem writes_fill_enter {cache : Cache α β} (ticketed : cache.Ticketed) {began : Nat}
    {key : α} (unseen : cache.visible? began key = none) (stored : Stored β) :
    Writes cache
      ((cache.enter began key).1.fill (cache.enter began key).2.ticket stored).countMiss
      key stored :=
  ⟨(cache.settings_enter began key).1, (cache.settings_enter began key).2,
    stored?_fill_enter ticketed unseen stored⟩

/-- A request that writes stores its value and then makes room. -/
theorem serve_of_written {cache : Cache α β} (ticketed : cache.Ticketed)
    {request : Request α β} {key : α} {stored : Stored β}
    (written : request.written? (cache.serve request).2 = some (key, stored)) :
    ∃ full : Cache α β, (cache.serve request).1 = full.trim ∧ Writes cache full key stored := by
  obtain ⟨began, ended, operation⟩ := request
  cases operation with
  | insert key' value =>
      cases written
      exact ⟨_, rfl, writes_written cache ended key value⟩
  | load key' brought =>
      cases seen : cache.visible? began key' with
      | some found =>
          simp only [serve, perform, Prod.map, load_of_visible seen] at written
          cases written
      | none =>
          cases brought with
          | ok value =>
              simp only [serve, perform, Prod.map, load_ok seen, id_eq] at written ⊢
              cases written
              exact ⟨_, rfl, writes_fill_enter ticketed seen ⟨value, ended⟩⟩
          | error error =>
              simp only [serve, perform, Prod.map, load_error seen] at written
              cases written
  | _ => cases written

/-- A request that does not write stores nothing new. -/
theorem stored?_of_unwritten {cache : Cache α β} {request : Request α β}
    (unwritten : request.written? (cache.serve request).2 = none) {key : α} {stored : Stored β}
    (held : (cache.serve request).1.stored? key = some stored) :
    cache.stored? key = some stored := by
  have of_ite {other : α} (seen : (if key = other then cache.visible? request.began other
      else cache.stored? key) = some stored) : cache.stored? key = some stored := by
    split at seen
    · rename_i same
      exact same ▸ stored?_of_visible seen
    · exact seen
  obtain ⟨began, ended, operation⟩ := request
  cases operation with
  | insert key' value => cases unwritten
  | lookup key' => exact of_ite ((stored?_lookup cache began key' key).symm.trans held)
  | load key' brought =>
      have entered := stored?_enter cache began key' key
      cases seen : cache.visible? began key' with
      | some found =>
          simp only [serve, perform, Prod.map, load_of_visible seen] at held
          exact of_ite (entered.symm.trans held)
      | none =>
          cases brought with
          | ok value =>
              simp only [serve, perform, Prod.map, load_ok seen, id_eq] at unwritten
              cases unwritten
          | error error =>
              simp only [serve, perform, Prod.map, load_error seen] at held
              exact of_ite (entered.symm.trans held)
  | invalidate key' =>
      simp only [serve, perform, Prod.map, invalidate_eq, id_eq, stored?_without] at held
      split at held
      · cases held
      · exact held
  | invalidateAll => cases held
  | cleanup =>
      exact stored?_of_visible
        ((stored?_sweep cache began _ key).symm.trans (stored?_of_trim held))
  | size => exact held

theorem Ticketed.serve {cache : Cache α β} (ticketed : cache.Ticketed)
    (request : Request α β) : (cache.serve request).1.Ticketed :=
  ticketed.perform _ _ _ _

end ClassAtlas.Cache
