import ClassAtlas.Proofs.Cache.Origins

/-!
# Values do not come back

A key is purged when it is invalidated, alone or with all others, or when a value is
inserted for it.  Whoever asks for the key afterwards gets a value that has come into being
afterwards, or the one that has been inserted (`fresh_of_reads`).  A load that had begun
before the purge may end after it, but it fills a slot that the table no longer has; the
callers who are served from there had all asked before.

The tickets carry the proof.  The slots of the key that are older than the purge have
lower tickets than those that come after it, and only the latter can be found in the table
(`Since`).
-/

namespace ClassAtlas.Cache

variable {α β : Type}

/-- The operation does away with what is stored for a key. -/
def Operation.Purges (key : α) : Operation α β → Prop
  | .insert other _ | .invalidate other => other = key
  | .invalidateAll => True
  | .lookup _ | .load _ _ | .cleanup | .size => False

/-- What is stored for a key has been done away with. -/
def Occurrence.Purges (key : α) : Occurrence α β → Prop
  | .performed operation _ => operation.Purges key
  | _ => False

/-- The value has been inserted for the key. -/
def Occurrence.Inserts (key : α) (value : β) (occurrence : Occurrence α β) : Prop :=
  ∃ answer, occurrence = .performed (.insert key value) answer

/-- The value has come into being for the key within a part of a history: it has been
inserted there, or loaded by a caller who has come, begun and ended there. -/
def Produced (key : α) (value : β) (part : List (Occurrence α β)) : Prop :=
  (∃ occurrence ∈ part, occurrence.Inserts key value) ∨
    ∃ name, [.arrived name key, .began name key, .ended name key (.ok value)].Sublist part

/-- Somebody asks for the key within a part of a history and gets the value after what has
happened `before`. -/
inductive Reads (key : α) (value : β) :
    (before part : List (Occurrence α β)) → Prop where
  | lookup (before after : List (Occurrence α β)) :
      Reads key value before
        (before ++ .performed (.lookup key) (.found (some value)) :: after)
  | load (past between after : List (Occurrence α β)) (name : String) :
      Reads key value (past ++ .arrived name key :: between)
        (past ++ .arrived name key :: between ++ .answered name key (.ok value) :: after)

/-- The value comes from the purge or from later. -/
def IsFresh (purge : Occurrence α β) (key : α) (later : List (Occurrence α β)) (value : β) :
    Prop :=
  purge.Inserts key value ∨ Produced key value later

theorem Produced.append {key : α} {value : β} {part : List (Occurrence α β)}
    (produced : Produced key value part) (more : List (Occurrence α β)) :
    Produced key value (part ++ more) := by
  rcases produced with ⟨occurrence, member, inserts⟩ | ⟨name, within⟩
  · exact .inl ⟨occurrence, List.mem_append_left _ member, inserts⟩
  · exact .inr ⟨name, within.trans (List.sublist_append_left _ _)⟩

theorem IsFresh.append {purge : Occurrence α β} {key : α} {later : List (Occurrence α β)}
    {value : β} (isFresh : IsFresh purge key later value) (more : List (Occurrence α β)) :
    IsFresh purge key (later ++ more) value :=
  isFresh.imp_right fun produced => produced.append more

/-! ## Callers who have come after the purge -/

/-- A caller has come since the purge, and what it does or has got is since then too. -/
def IsLate (purge : Occurrence α β) (later : List (Occurrence α β)) (caller : Caller α β) :
    Prop :=
  match caller.phase with
  | .waiting => [.arrived caller.name caller.key].Sublist later
  | .loading =>
      [.arrived caller.name caller.key, .began caller.name caller.key].Sublist later
  | .served value _ => IsFresh purge caller.key later value
  | .refused _ => True

theorem IsLate.append {purge : Occurrence α β} {later : List (Occurrence α β)}
    {caller : Caller α β} (isLate : IsLate purge later caller)
    (more : List (Occurrence α β)) : IsLate purge (later ++ more) caller := by
  unfold IsLate at isLate ⊢
  split at isLate
  · exact isLate.trans (List.sublist_append_left _ _)
  · exact isLate.trans (List.sublist_append_left _ _)
  · exact isLate.append more
  · trivial

/-- What a late caller has loaded is fresh. -/
theorem IsLate.produced {purge : Occurrence α β} {later : List (Occurrence α β)}
    {loader : Caller α β} (isLate : IsLate purge later loader)
    (loading : loader.phase = .loading) (value : β) :
    Produced loader.key value (later ++ [.ended loader.name loader.key (.ok value)]) := by
  rw [IsLate, loading] at isLate
  exact .inr ⟨loader.name, isLate.append (.refl _)⟩

namespace Shared

variable [DecidableEq α]

/-- How things stand with a key since it has been purged; `mark` is the ticket that came
next when that was done.  Slots from before have lower tickets: they are in the hands of
those who had come by then, and no longer in the table. -/
structure Since (purge : Occurrence α β) (key : α) (mark : Nat)
    (past later : List (Occurrence α β)) (shared : Shared α β) : Prop where
  ticketed : shared.Ticketed
  next : mark ≤ shared.cache.nextTicket
  slot : ∀ ticket, shared.cache.ticket? key = some ticket → mark ≤ ticket
  stored : ∀ stored, shared.cache.stored? key = some stored →
    IsFresh purge key later stored.value
  early : ∀ caller ∈ shared.callers, caller.key = key → caller.ticket < mark →
    caller.name ∈ arrivedNames past
  late : ∀ caller ∈ shared.callers, caller.key = key → mark ≤ caller.ticket →
    IsLate purge later caller

variable {purge occurrence : Occurrence α β} {key : α} {mark : Nat}
  {past later : List (Occurrence α β)} {shared next : Shared α β}

/-- A purge leaves a new slot for the key or none, and in it what has been inserted. -/
theorem views_of_purge (purges : purge.Purges key) (step : Step shared purge next) :
    next.callers = shared.callers ∧
      (∀ ticket, next.cache.ticket? key = some ticket → ticket = shared.cache.nextTicket) ∧
      ∀ stored, next.cache.stored? key = some stored → purge.Inserts key stored.value := by
  cases purge with
  | performed operation answer =>
      obtain ⟨_, _, rfl⟩ := step.of_performed
      cases operation with
      | insert other value =>
          cases purges
          refine ⟨rfl, fun ticket held => ?_, fun stored held => ?_⟩
          · have inserted : (shared.cache.written (shared.now + 1) key value).ticket? key =
                some ticket := ticket?_of_trim held
            rw [ticket?_written, if_pos rfl] at inserted
            exact (Option.some.inj inserted).symm
          · have inserted : (shared.cache.written (shared.now + 1) key value).stored? key =
                some stored := stored?_of_trim held
            rw [stored?_written, if_pos rfl] at inserted
            cases inserted
            exact ⟨answer, rfl⟩
      | invalidate other =>
          cases purges
          refine ⟨rfl, fun ticket held => ?_, fun stored held => ?_⟩
          · change (shared.cache.without key).ticket? key = some ticket at held
            simp [ticket?_without] at held
          · change (shared.cache.without key).stored? key = some stored at held
            simp [stored?_without] at held
      | invalidateAll =>
          refine ⟨rfl, fun ticket held => ?_, fun stored held => ?_⟩
          · change shared.cache.invalidateAll.ticket? key = some ticket at held
            simp at held
          · change shared.cache.invalidateAll.stored? key = some stored at held
            simp at held
      | _ => exact purges.elim
  | _ => exact purges.elim

/-- How things stand when the key has just been purged. -/
theorem since_purge (recorded : Recorded past shared) (ticketed : shared.Ticketed)
    (purges : purge.Purges key) (step : Step shared purge next) :
    Since purge key shared.cache.nextTicket past [] next := by
  obtain ⟨same, slot, stored⟩ := views_of_purge purges step
  refine ⟨ticketed.step step, step.follows.le, fun ticket held => (slot ticket held).ge,
    fun value held => .inl (stored value held), fun caller present _ _ => ?_,
    fun caller present _ marked => ?_⟩
  · rw [same] at present
    exact recorded.arrivedName present
  · rw [same] at present
    have below := ticketed.below caller.key caller.ticket (.inr ⟨caller, present, rfl, rfl⟩)
    omega

/-- A late caller who stays is late whatever happens. -/
theorem Since.late_of_remains (since : Since purge key mark past later shared)
    {earlier caller : Caller α β} (remains : Remains shared occurrence earlier caller)
    (ofKey : caller.key = key) (marked : mark ≤ caller.ticket) :
    IsLate purge (later ++ [occurrence]) caller := by
  obtain ⟨present, name, sameKey, ticket, turn⟩ := remains
  have isLate := since.late earlier present (sameKey.trans ofKey) (ticket ▸ marked)
  generalize phase : caller.phase = now at turn
  cases turn with
  | stays =>
      have kept := isLate.append [occurrence]
      rw [IsLate] at kept ⊢
      rwa [phase, ← name, ← sameKey]
  | begins waiting =>
      rw [IsLate, waiting] at isLate
      rw [IsLate, phase, ← name, ← sameKey]
      exact isLate.append (.refl _)
  | loads loading value =>
      rw [IsLate, phase, ← sameKey]
      exact .inr (isLate.produced loading value)
  | fails loading error =>
      rw [IsLate, phase]
      trivial
  | @shares waiting other loads loading same value =>
      have alike := since.ticketed.key_eq loads present same
      have otherLate := since.late other loads (alike.trans (sameKey.trans ofKey))
        (same.trans ticket ▸ marked)
      rw [IsLate, phase, ← sameKey, ← alike]
      exact .inr (otherLate.produced loading value)

theorem Since.step (since : Since purge key mark past later shared)
    (step : Step shared occurrence next) :
    Since purge key mark past (later ++ [occurrence]) next := by
  have slot : ∀ ticket, next.cache.ticket? key = some ticket → mark ≤ ticket := by
    obtain ⟨_, _, owner⟩ := step.follows
    intro ticket held
    rcases owner key ticket held with old | ⟨_, rfl⟩
    · exact since.slot ticket old
    · exact since.next
  have stored : ∀ stored, next.cache.stored? key = some stored →
      IsFresh purge key (later ++ [occurrence]) stored.value := by
    intro stored held
    rcases step.stored held with
      old | ⟨answer, rfl⟩ | ⟨loader, present, loading, owned, rfl⟩
    · exact (since.stored stored old).append _
    · exact .inr (.inl ⟨_, List.mem_append_right _ List.mem_cons_self, answer, rfl⟩)
    · -- The slot in the table is the loader's, so the loader has asked for this key.
      have ofKey := since.ticketed.key_of_ticket? present owned
      have isLate := since.late loader present ofKey (since.slot _ owned)
      exact .inr (ofKey ▸ isLate.produced loading stored.value)
  refine ⟨since.ticketed.step step, since.next.trans step.follows.le, slot, stored,
    fun caller present ofKey unmarked => ?_, fun caller present ofKey marked => ?_⟩
  · rcases step.origin present with ⟨earlier, remains⟩ | comes
    · rw [← remains.name]
      exact since.early earlier remains.present (remains.key.trans ofKey)
        (remains.ticket ▸ unmarked)
    · have marked := slot caller.ticket (ofKey ▸ comes.ticket)
      omega
  · rcases step.origin present with ⟨earlier, remains⟩ | comes
    · exact since.late_of_remains remains ofKey marked
    · rw [IsLate, ofKey]
      rcases comes.phase with ⟨waiting, _⟩ | ⟨value, held, served⟩
      · rw [waiting, comes.arrival, ofKey]
        exact List.sublist_append_right _ _
      · rw [served]
        exact stored value (ofKey ▸ held)

theorem History.since {name : String} {limit lifetime : Nat}
    {allowed : Shared α β → Occurrence α β → Prop}
    (history : History (fresh name limit lifetime) allowed (past ++ purge :: later) shared)
    (purges : purge.Purges key) : ∃ mark, Since purge key mark past later shared := by
  refine history.after
    (motive := fun later shared => ∃ mark, Since purge key mark past later shared)
    (fun before next history _ step => ?_) fun later shared other next since _ step => ?_
  · obtain ⟨recorded, ticketed⟩ := history.recorded
    exact ⟨_, since_purge recorded ticketed purges step⟩
  · obtain ⟨mark, since⟩ := since
    exact ⟨mark, since.step step⟩

/-- Whoever asks for a key after it has been invalidated or overwritten gets the value with
which it was overwritten or one that has come into being since, whatever else is going on.
Nothing is assumed of the values; where each carries the name of the caller or of the
insertion that it stems from, it follows that no earlier one is ever given. -/
theorem fresh_of_reads {name : String} {limit lifetime : Nat}
    {before : List (Occurrence α β)} {value : β}
    (history : History (fresh name limit lifetime) (fun _ _ => True)
      (past ++ purge :: later) shared)
    (purges : purge.Purges key) (reads : Reads key value before later) :
    purge.Inserts key value ∨ Produced key value before := by
  cases reads with
  | lookup _ after =>
      rw [← List.cons_append, ← List.append_assoc] at history
      obtain ⟨shared, next, earlier, _, step⟩ := history.moment
      obtain ⟨mark, since⟩ := earlier.since purges
      obtain ⟨stored, held, rfl⟩ := step.of_found
      exact since.stored stored held
  | load past' between after reader =>
      rw [← List.cons_append, ← List.append_assoc] at history
      obtain ⟨shared, next, earlier, _, step⟩ := history.moment
      obtain ⟨mark, since⟩ := earlier.since purges
      obtain ⟨caller, present, rfl, rfl, ⟨_, ran, served, same⟩ | ⟨_, _, same⟩⟩ :=
        step.of_answered
      · cases same
        by_cases marked : mark ≤ caller.ticket
        · have isLate := since.late caller present rfl marked
          rwa [IsLate, served] at isLate
        · -- The caller would have come before the purge, and again after it.
          have first := since.early caller present rfl (not_le.1 marked)
          have distinct := earlier.recorded.1.arrived
          rw [arrivedNames_append] at distinct
          refine absurd rfl ((List.nodup_append.1 distinct).2.2 _ first _ ?_)
          exact mem_arrivedNames.2 ⟨caller.key, by simp⟩
      · exact nomatch same

/-- A load that was under way when the key was invalidated ends while another one runs; the
caller who has come in the meantime gets what its own loader brings. -/
theorem fresh_of_reads_overtaken :
    ∃ shared : Shared Nat Nat, History (fresh "numbers" 2 100) (fun _ _ => True)
        ([.arrived "early" 1, .supplied "early" (.ok 10), .began "early" 1] ++
          .performed (.invalidate 1) (.removed true) ::
          [.arrived "late" 1, .supplied "late" (.ok 20), .began "late" 1,
            .ended "early" 1 (.ok 10), .ended "late" 1 (.ok 20),
            .answered "early" 1 (.ok 10), .answered "late" 1 (.ok 20)]) shared ∧
      (Occurrence.Inserts 1 20 (.performed (.invalidate 1) (.removed true)) ∨
        Produced 1 20
          [.arrived "late" 1, .supplied "late" (.ok 20), .began "late" 1,
            .ended "early" 1 (.ok 10), .ended "late" 1 (.ok 20),
            .answered "early" 1 (.ok 10)]) := by
  let deeds : List (Deed Nat Nat) :=
    [.arrive "early" 1 none, .supply "early" (.ok 10), .start 0, .perform (.invalidate 1),
      .arrive "late" 1 none, .supply "late" (.ok 20), .start 1, .finish 0, .finish 1,
      .leave 0, .leave 0]
  refine (exists_history deeds ?_).imp fun shared history => ⟨history,
    fresh_of_reads history rfl
      (.load [] [.supplied "late" (.ok 20), .began "late" 1, .ended "early" 1 (.ok 10),
        .ended "late" 1 (.ok 20), .answered "early" 1 (.ok 10)] [] "late")⟩
  decide +kernel

end Shared
end ClassAtlas.Cache
