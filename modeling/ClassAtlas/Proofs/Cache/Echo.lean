import ClassAtlas.Proofs.Cache.Histories

/-!
# Caches with a slot to spare

Two caches may differ in an empty slot that one of them has to spare, in the tickets of their
slots, and in a failed load that one of them has counted (`Echoes`).  None of this can be asked
for, except by an invalidation, which tells whether there was a slot.  Every operation leaves
two such caches alike in this way (`Echoes.enter`, `Echoes.perform`); some take the slot that
was to spare.

Which values go when there are too many depends on the order of the slots only where values
were written at the same instant, so the caches are required to be `Dated`.
-/

namespace ClassAtlas.Cache

variable {α β : Type}

/-! ## What takes the slot that is to spare -/

variable [DecidableEq α]

/-- After the operation an empty slot of the key that nobody holds is gone or has a value. -/
def Operation.takesSpare (key : α) : Operation α β → Bool
  | .insert other _ | .load other _ | .invalidate other => other = key
  | .invalidateAll | .cleanup => true
  | .lookup _ | .size => false

/-- The answer that takes account of an empty slot of the key, if there is one to spare. -/
def Operation.answerWith (key : α) (spare : Bool) : Operation α β → Answer β → Answer β
  | .invalidate other, .removed existed => .removed (existed || (spare && other = key))
  | _, answer => answer

/-! ## Instants of writing -/

/-- No two values were written at the same instant, and none later than now. -/
structure Dated (cache : Cache α β) (now : Nat) : Prop where
  past : ∀ key stored, cache.stored? key = some stored → stored.writtenAt < now
  apart : ∀ left right first second, cache.stored? left = some first →
    cache.stored? right = some second → first.writtenAt = second.writtenAt → left = right

variable {cache later : Cache α β} {now : Nat}

theorem dated_new (name : String) (limit lifetime : Nat) :
    (new name limit lifetime : Cache α β).Dated now where
  past key stored held := by simp at held
  apart left right first second held := by simp at held

/-- Time may pass and values may go. -/
theorem Dated.mono {instant : Nat} (dated : cache.Dated now) (passed : now ≤ instant)
    (kept : ∀ key stored, later.stored? key = some stored → cache.stored? key = some stored) :
    later.Dated instant where
  past key stored held := (dated.past key stored (kept key stored held)).trans_le passed
  apart left right first second isLeft isRight :=
    dated.apart left right first second (kept left first isLeft) (kept right second isRight)

/-- One value may be written, later than all others. -/
theorem Dated.write {instant : Nat} (dated : cache.Dated now) (key : α) (new : Stored β)
    (since : now ≤ new.writtenAt) (passed : new.writtenAt < instant)
    (kept : ∀ other stored, later.stored? other = some stored →
      cache.stored? other = some stored ∨ other = key ∧ stored = new) : later.Dated instant where
  past other stored held := by
    rcases kept other stored held with old | ⟨_, rfl⟩
    · exact ((dated.past other stored old).trans_le since).trans passed
    · exact passed
  apart left right first second isLeft isRight same := by
    rcases kept left first isLeft with oldLeft | ⟨rfl, rfl⟩
    · rcases kept right second isRight with oldRight | ⟨rfl, rfl⟩
      · exact dated.apart left right first second oldLeft oldRight same
      · have before := dated.past left first oldLeft
        omega
    · rcases kept right second isRight with oldRight | ⟨rfl, rfl⟩
      · have before := dated.past right second oldRight
        omega
      · rfl

theorem Dated.written (dated : cache.Dated now) (key : α) (value : β) :
    (cache.written now key value).Dated (now + 1) := by
  refine dated.write key ⟨value, now⟩ le_rfl now.lt_succ_self fun other stored held => ?_
  rw [stored?_written] at held
  split at held
  · rename_i same
    exact .inr ⟨same, (Option.some.inj held).symm⟩
  · exact .inl held

/-! ## Slots by their views -/

/-- The views tell the slot of a key. -/
theorem get?_eq (cache : Cache α β) (key : α) :
    cache.slots.get? key = (cache.ticket? key).map fun ticket => ⟨ticket, cache.stored? key⟩ := by
  rw [ticket?, stored?]
  cases cache.slots.get? key <;> rfl

theorem stored?_of_unslotted {key : α} (unslotted : cache.ticket? key = none) :
    cache.stored? key = none := by
  rw [ticket?, Option.map_eq_none_iff] at unslotted
  rw [stored?, unslotted]
  rfl

theorem ticket?_sweep (cache : Cache α β) (now : Nat) (isHeld : Nat → Bool) (key : α) :
    (cache.sweep now isHeld).ticket? key =
      (cache.ticket? key).filter fun ticket =>
        match cache.stored? key with
        | some stored => !cache.hasLapsed now stored
        | none => isHeld ticket := by
  rw [ticket?, ticket?, get?_sweep, stored?]
  cases cache.slots.get? key with
  | none => rfl
  | some slot =>
      obtain ⟨ticket, _ | stored⟩ := slot
      · cases held : isHeld ticket <;> simp [Option.filter, isExpired_eq, held]
      · cases lapsed : cache.hasLapsed now stored <;>
          simp [Option.filter, isExpired_eq, lapsed]

theorem exists_stored?_of_surplus {key : α} (surplus : key ∈ cache.surplus) :
    ∃ stored, cache.stored? key = some stored := by
  rw [surplus_eq] at surplus
  obtain ⟨⟨_, stored⟩, member, rfl⟩ := List.mem_map.1 surplus
  exact ⟨stored, mem_byAge.1 (List.mem_of_mem_take member)⟩

/-! ## Caches that store the same -/

section Same

variable {left right : Cache α β} (stored : left.stored? = right.stored?)

include stored

theorem filled_perm_of_stored? : left.filled.Perm right.filled :=
  filled_perm (.of_map Prod.fst right.nodup_keys_filled) fun key value => by
    rw [mem_filled, stored]

/-- The same values have to go. -/
theorem mem_surplus_of_stored? (limit : left.limit = right.limit) (dated : right.Dated now)
    (key : α) : key ∈ left.surplus ↔ key ∈ right.surplus := by
  cases held : right.stored? key with
  | none =>
      have heldLeft : left.stored? key = none := (congrFun stored key).trans held
      constructor
      · intro surplus
        obtain ⟨value, isStored⟩ := exists_stored?_of_surplus surplus
        exact nomatch heldLeft.symm.trans isStored
      · intro surplus
        obtain ⟨value, isStored⟩ := exists_stored?_of_surplus surplus
        exact nomatch held.symm.trans isStored
  | some value =>
      have apart : left.WrittenApart := writtenApart_of (stored ▸ dated.apart)
      have sameNewer : newerThan value left.filled = newerThan value right.filled :=
        (filled_perm_of_stored? stored).countP_eq _
      rw [mem_surplus_iff (writtenApart_of dated.apart) held,
        mem_surplus_iff apart ((congrFun stored key).trans held), limit, sameNewer]

theorem length_surplus_of_stored? (limit : left.limit = right.limit) :
    left.surplus.length = right.surplus.length := by
  rw [length_surplus, length_surplus, (filled_perm_of_stored? stored).length_eq, limit]

end Same

/-! ## Echoes -/

/-- The left cache answers as the right one does.  Its slots have other tickets; it may have an
empty slot of the key to spare, the ticket of which has no counterpart; and it has counted one
failed load more. -/
structure Echoes (key : α) (rename : Nat → Nat) (spare : Option Nat) (left right : Cache α β) :
    Prop where
  limit : left.limit = right.limit
  lifetime : left.lifetime = right.lifetime
  counters : left.counters = right.countFailure.counters
  stored : left.stored? = right.stored?
  ticket : ∀ other, left.ticket? other =
    ((right.ticket? other).map rename).or (if other = key then spare else none)
  unslotted : spare.isSome = true → right.ticket? key = none
  injective : Function.Injective rename
  notSpare : ∀ ticket, spare ≠ some (rename ticket)
  /-- The slots that are still to come have their tickets in the same order. -/
  future : ∀ ticket, rename (right.nextTicket + ticket) = left.nextTicket + ticket

namespace Echoes

variable {key : α} {rename : Nat → Nat} {spare : Option Nat} {left right : Cache α β}

theorem hasLapsed (echoes : Echoes key rename spare left right) (now : Nat) :
    left.hasLapsed now = right.hasLapsed now := by
  funext stored
  rw [Cache.hasLapsed, Cache.hasLapsed, echoes.lifetime]

theorem visible? (echoes : Echoes key rename spare left right) (now : Nat) (other : α) :
    left.visible? now other = right.visible? now other := by
  rw [Cache.visible?, Cache.visible?, echoes.stored, echoes.hasLapsed]

theorem ticket_iff (echoes : Echoes key rename spare left right) (other : α) (ticket : Nat) :
    left.ticket? other = some (rename ticket) ↔ right.ticket? other = some ticket := by
  rw [echoes.ticket]
  cases held : right.ticket? other with
  | none =>
      simp only [Option.map_none, Option.none_or, reduceCtorEq, iff_false]
      split
      · exact echoes.notSpare ticket
      · exact nofun
  | some found => simp [echoes.injective.eq_iff]

/-- A key with a slot on the right has nothing to spare. -/
theorem spare_eq_none (echoes : Echoes key rename spare left right) {ticket : Nat}
    (slotted : right.ticket? key = some ticket) : spare = none := by
  by_contra some
  have unslotted := echoes.unslotted (Option.isSome_iff_ne_none.2 some)
  exact nomatch unslotted.symm.trans slotted

theorem spare_after (echoes : Echoes key rename spare left right) {other : α} {ticket : Nat}
    (slotted : right.ticket? other = some ticket) :
    (if other = key then none else spare) = spare := by
  split
  · rename_i same
    exact (echoes.spare_eq_none (same ▸ slotted)).symm
  · rfl

theorem rename_nextTicket (echoes : Echoes key rename spare left right) :
    rename right.nextTicket = left.nextTicket :=
  echoes.future 0

/-- A change at one key that both caches undergo. -/
theorem update (echoes : Echoes key rename spare left right) {left' right' : Cache α β}
    (changed : α) (new : Option Nat) (moved : Nat) (limit : left'.limit = right'.limit)
    (lifetime : left'.lifetime = right'.lifetime)
    (counters : left'.counters = right'.countFailure.counters)
    (stored : left'.stored? = right'.stored?)
    (ticketLeft : ∀ other, left'.ticket? other =
      if other = changed then new.map rename else left.ticket? other)
    (ticketRight : ∀ other, right'.ticket? other =
      if other = changed then new else right.ticket? other)
    (nextLeft : left'.nextTicket = left.nextTicket + moved)
    (nextRight : right'.nextTicket = right.nextTicket + moved) :
    Echoes key rename (if changed = key then none else spare) left' right' where
  limit := limit
  lifetime := lifetime
  counters := counters
  stored := stored
  ticket other := by
    rw [ticketLeft, ticketRight]
    by_cases same : other = changed
    · subst same
      by_cases isKey : other = key
      · simp [isKey]
      · simp [isKey]
    · rw [if_neg same, if_neg same, echoes.ticket]
      by_cases isKey : other = key
      · have apart : changed ≠ key := fun also => same (isKey.trans also.symm)
        rw [if_neg apart]
      · rw [if_neg isKey, if_neg isKey]
  unslotted spared := by
    rw [ticketRight]
    split at spared
    · exact nomatch spared
    · rename_i apart
      rw [if_neg (Ne.symm apart)]
      exact echoes.unslotted spared
  injective := echoes.injective
  notSpare ticket := by
    split
    · exact nofun
    · exact echoes.notSpare ticket
  future ticket := by
    rw [nextLeft, nextRight, Nat.add_assoc, Nat.add_assoc, echoes.future]

/-! ## Single slots -/

theorem withNewSlot (echoes : Echoes key rename spare left right) (added : α) :
    Echoes key rename (if added = key then none else spare) (left.withNewSlot added)
      (right.withNewSlot added) := by
  refine echoes.update added (some right.nextTicket) 1 echoes.limit echoes.lifetime
    echoes.counters ?_ (fun other => ?_) (ticket?_withNewSlot right added) rfl rfl
  · funext other
    rw [stored?_withNewSlot, stored?_withNewSlot, echoes.stored]
  · rw [ticket?_withNewSlot, Option.map_some, echoes.rename_nextTicket]

theorem written (echoes : Echoes key rename spare left right) (now : Nat) (added : α)
    (value : β) :
    Echoes key rename (if added = key then none else spare) (left.written now added value)
      (right.written now added value) := by
  refine echoes.update added (some right.nextTicket) 1 echoes.limit echoes.lifetime
    echoes.counters ?_ (fun other => ?_) (fun other => ?_) rfl rfl
  · funext other
    rw [stored?_written, stored?_written, echoes.stored]
  · rw [ticket?_written, Option.map_some, echoes.rename_nextTicket]
  · exact ticket?_written right now added other value

theorem without (echoes : Echoes key rename spare left right) (removed : α) :
    Echoes key rename (if removed = key then none else spare) (left.without removed)
      (right.without removed) := by
  refine echoes.update removed none 0 echoes.limit echoes.lifetime echoes.counters ?_
    (ticket?_without left removed) (ticket?_without right removed) rfl rfl
  funext other
  rw [stored?_without, stored?_without, echoes.stored]

theorem fill (echoes : Echoes key rename spare left right) (ticket : Nat) (stored : Stored β) :
    Echoes key rename spare (left.fill (rename ticket) stored) (right.fill ticket stored) :=
  { echoes with
    stored := by
      funext other
      rw [stored?_fill, stored?_fill, echoes.stored]
      exact if_congr (echoes.ticket_iff other ticket) rfl rfl
    ticket := fun other => by
      rw [ticket?_fill, ticket?_fill]
      exact echoes.ticket other
    unslotted := fun spared => by
      rw [ticket?_fill]
      exact echoes.unslotted spared }

/-- The counterparts of tickets when the slot that is next on the right has the counterpart
`ticket` and the later ones move up. -/
def inserting (rename : Nat → Nat) (next ticket old : Nat) : Nat :=
  if old < next then rename old else if old = next then ticket else rename (old - 1)

theorem injective_inserting {next ticket : Nat} (injective : Function.Injective rename)
    (isNew : ∀ old, ticket ≠ rename old) : Function.Injective (inserting rename next ticket) := by
  intro first second same
  rw [inserting, inserting] at same
  split_ifs at same with _ _ _ firstNext _ _ _ secondNext
  · exact injective same
  · exact absurd same.symm (isNew first)
  · have alike := injective same
    omega
  · exact absurd same (isNew second)
  · exact firstNext.trans (Eq.symm ‹second = next›)
  · exact absurd same (isNew _)
  · have alike := injective same
    omega
  · exact absurd same.symm (isNew _)
  · have alike := injective same
    omega

/-- A call takes the slot that was to spare for the one that it would have been given. -/
theorem adopt {ticket : Nat} (echoes : Echoes key rename (some ticket) left right)
    (below : ∀ other held, right.ticket? other = some held → held < right.nextTicket) :
    Echoes key (inserting rename right.nextTicket ticket) none left (right.withNewSlot key) where
  limit := echoes.limit
  lifetime := echoes.lifetime
  counters := echoes.counters
  stored := by
    funext other
    rw [stored?_withNewSlot, echoes.stored]
    split
    · rename_i same
      rw [same, stored?_of_unslotted (echoes.unslotted rfl)]
    · rfl
  ticket other := by
    rw [echoes.ticket, ticket?_withNewSlot]
    by_cases same : other = key
    · subst same
      simp [echoes.unslotted rfl, inserting]
    · cases held : right.ticket? other with
      | none => simp [same]
      | some found => simp [same, inserting, below other found held]
  unslotted spared := nomatch spared
  injective := injective_inserting echoes.injective fun old same =>
    echoes.notSpare old (congrArg some same)
  notSpare _ := nofun
  future later := by
    have behind : right.nextTicket + 1 + later ≠ right.nextTicket := by omega
    have notBefore : ¬right.nextTicket + 1 + later < right.nextTicket := by omega
    have back : right.nextTicket + 1 + later - 1 = right.nextTicket + later := by omega
    change inserting rename right.nextTicket ticket (right.nextTicket + 1 + later) = _
    rw [inserting, if_neg notBefore, if_neg behind, back, echoes.future]

/-- A caller finds the same value in both caches, and in corresponding slots. -/
theorem enter (echoes : Echoes key rename spare left right)
    (below : ∀ other ticket, right.ticket? other = some ticket → ticket < right.nextTicket)
    (now : Nat) (asked : α) :
    ∃ rename', Echoes key rename' (if asked = key then none else spare)
        (left.enter now asked).1 (right.enter now asked).1 ∧
      (left.enter now asked).2 =
        ⟨rename' (right.enter now asked).2.ticket, (right.enter now asked).2.stored⟩ ∧
      ∀ ticket < right.nextTicket, rename' ticket = rename ticket := by
  rcases right.enter_cases now asked with
    ⟨stored, held, lapsed, entered⟩ | ⟨slot, found, seen, held, entered⟩ | ⟨absent, entered⟩
  · have lapsedLeft : left.hasLapsed now stored = true := by
      rw [echoes.hasLapsed]
      exact lapsed
    rw [entered, enter_of_lapsed ((congrFun echoes.stored asked).trans held) lapsedLeft,
      ← echoes.rename_nextTicket]
    refine ⟨rename, ?_, rfl, fun _ _ => rfl⟩
    have renewed := echoes.withNewSlot asked
    exact { renewed with counters := by rw [countEvictions, renewed.counters]; rfl }
  · have slotted : right.ticket? asked = some slot.ticket := by simp [ticket?, found]
    have foundLeft : left.slots.get? asked = some ⟨rename slot.ticket, slot.stored⟩ := by
      rw [get?_eq, (echoes.ticket_iff asked slot.ticket).2 slotted, echoes.stored, held]
      rfl
    have kept : left.isExpired now ⟨rename slot.ticket, slot.stored⟩ = false := by
      rw [isExpired_eq, echoes.hasLapsed]
      cases inside : slot.stored with
      | none => rfl
      | some stored =>
          rw [inside] at seen
          simpa using (Option.filter_eq_some_iff.1 seen).2
    rw [entered, enter_of_kept foundLeft kept, echoes.spare_after slotted]
    exact ⟨rename, echoes, rfl, fun _ _ => rfl⟩
  · have unslotted : right.ticket? asked = none := by simp [ticket?, absent]
    have empty := stored?_of_unslotted unslotted
    cases tickets : left.ticket? asked with
    | none =>
        have absentLeft : left.slots.get? asked = none := by rw [get?_eq, tickets]; rfl
        rw [entered, enter_of_absent absentLeft, ← echoes.rename_nextTicket]
        exact ⟨rename, echoes.withNewSlot asked, rfl, fun _ _ => rfl⟩
    | some ticket =>
        have spared := echoes.ticket asked
        rw [unslotted, tickets, Option.map_none, Option.none_or] at spared
        split at spared
        · rename_i same
          subst same
          subst spared
          have foundLeft : left.slots.get? asked = some ⟨ticket, none⟩ := by
            rw [get?_eq, tickets, echoes.stored, empty]
            rfl
          rw [entered, enter_of_kept foundLeft rfl, if_pos rfl]
          refine ⟨_, echoes.adopt below, ?_, fun old before => if_pos before⟩
          simp [inserting]
        · cases spared

/-! ## Counting and making room -/

theorem countHit (echoes : Echoes key rename spare left right) :
    Echoes key rename spare left.countHit right.countHit :=
  { echoes with counters := by rw [Cache.countHit, echoes.counters]; rfl }

theorem countMiss (echoes : Echoes key rename spare left right) :
    Echoes key rename spare left.countMiss right.countMiss :=
  { echoes with counters := by rw [Cache.countMiss, echoes.counters]; rfl }

theorem countFailure (echoes : Echoes key rename spare left right) :
    Echoes key rename spare left.countFailure right.countFailure :=
  { echoes with counters := by rw [Cache.countFailure, echoes.counters]; rfl }

theorem countEvictions (echoes : Echoes key rename spare left right) (count : Nat) :
    Echoes key rename spare (left.countEvictions count) (right.countEvictions count) :=
  { echoes with counters := by rw [Cache.countEvictions, echoes.counters]; rfl }

theorem trim (echoes : Echoes key rename spare left right) (dated : right.Dated now) :
    Echoes key rename spare left.trim right.trim := by
  have surplus := mem_surplus_of_stored? echoes.stored echoes.limit dated
  refine { echoes with counters := ?_, stored := ?_, ticket := fun other => ?_, unslotted := ?_ }
  · rw [Cache.trim, Cache.trim, length_surplus_of_stored? echoes.stored echoes.limit,
      Cache.countEvictions, echoes.counters]
    rfl
  · funext other
    rw [stored?_trim, stored?_trim, echoes.stored]
    exact if_congr (surplus other) rfl rfl
  · rw [ticket?_trim, ticket?_trim, echoes.ticket]
    by_cases goes : other ∈ right.surplus
    · rw [if_pos ((surplus other).2 goes), if_pos goes]
      obtain ⟨stored, held⟩ := exists_stored?_of_surplus goes
      cases slotted : right.ticket? other with
      | none => cases (stored?_of_unslotted slotted).symm.trans held
      | some ticket =>
          split
          · rename_i same
            rw [echoes.spare_eq_none (same ▸ slotted)]
            rfl
          · rfl
    · rw [if_neg (mt (surplus other).1 goes), if_neg goes]
  · intro spared
    rw [ticket?_trim, echoes.unslotted spared, ite_self]

theorem countLoad (echoes : Echoes key rename spare left right) (dated : right.Dated now) :
    Echoes key rename spare left.countLoad right.countLoad :=
  echoes.countMiss.trim (dated.mono le_rfl fun _ _ held => held)

theorem size (echoes : Echoes key rename spare left right) (now : Nat) :
    left.size now = right.size now := by
  rw [size_eq, size_eq, (filled_perm_of_stored? echoes.stored).countP_eq, echoes.hasLapsed]

theorem expiredCount (echoes : Echoes key rename spare left right) (now : Nat) :
    left.expiredCount now = right.expiredCount now := by
  have expired : ∀ cache : Cache α β, cache.expiredCount now =
      cache.filled.countP fun entry => cache.hasLapsed now entry.2 := fun cache =>
    cache.countP_slots (cache.hasLapsed now)
  rw [expired, expired, (filled_perm_of_stored? echoes.stored).countP_eq, echoes.hasLapsed]

/-- A clean-up takes the slot that was to spare, since nobody holds it. -/
theorem sweep (echoes : Echoes key rename spare left right) (now : Nat)
    {heldLeft heldRight : Nat → Bool} (held : ∀ ticket, heldLeft (rename ticket) = heldRight ticket)
    (free : ∀ ticket, spare = some ticket → heldLeft ticket = false) :
    Echoes key rename none (left.sweep now heldLeft) (right.sweep now heldRight) where
  limit := echoes.limit
  lifetime := echoes.lifetime
  counters := by
    rw [Cache.sweep, Cache.sweep, echoes.expiredCount]
    exact (echoes.countEvictions _).counters
  stored := by
    funext other
    rw [stored?_sweep, stored?_sweep, echoes.visible?]
  ticket other := by
    rw [ticket?_sweep, ticket?_sweep, echoes.ticket, echoes.stored, echoes.hasLapsed, ite_self,
      Option.or_none]
    cases slotted : right.ticket? other with
    | some ticket =>
        cases held' : right.stored? other with
        | some stored => cases right.hasLapsed now stored <;> simp [Option.filter]
        | none => cases isHeld : heldRight ticket <;> simp [Option.filter, held, isHeld]
    | none =>
        have abandoned : ∀ ticket, spare = some ticket → ¬heldLeft ticket = true :=
          fun ticket spared => by simp [free ticket spared]
        rw [stored?_of_unslotted slotted, Option.map_none, Option.none_or]
        by_cases same : other = key
        · rw [if_pos same]
          exact Option.filter_eq_none_iff.2 abandoned
        · rw [if_neg same]
          rfl
  unslotted spared := nomatch spared
  injective := echoes.injective
  notSpare _ := nofun
  future := echoes.future

/-! ## Operations -/

theorem lookup (echoes : Echoes key rename spare left right) (now : Nat) (asked : α) :
    Echoes key rename spare (left.lookup now asked).1 (right.lookup now asked).1 := by
  rcases right.lookup_cases now asked with
    ⟨stored, held, lapsed, looked⟩ | ⟨stored, _, seen, looked⟩ | ⟨empty, looked⟩
  · have lapsedLeft : left.hasLapsed now stored = true := by
      rw [echoes.hasLapsed]
      exact lapsed
    obtain ⟨slot, found, _⟩ := Option.bind_eq_some_iff.1 held
    have slotted : right.ticket? asked = some slot.ticket := by simp [ticket?, found]
    rw [looked, lookup_of_lapsed ((congrFun echoes.stored asked).trans held) lapsedLeft,
      ← echoes.spare_after slotted]
    exact ((echoes.without asked).countEvictions 1).countMiss
  · rw [looked, lookup_of_visible ((echoes.visible? now asked).trans seen)]
    exact echoes.countHit
  · rw [looked, lookup_of_empty ((congrFun echoes.stored asked).trans empty)]
    exact echoes.countMiss

theorem invalidateAll (echoes : Echoes key rename spare left right) :
    Echoes key rename none left.invalidateAll right.invalidateAll :=
  { echoes with
    stored := rfl
    ticket := fun other => by simp
    unslotted := nofun
    notSpare := nofun }

/-- Every operation has the same answer in both caches, except for the invalidation that
removes the slot to spare. -/
theorem perform (echoes : Echoes key rename spare left right) (began : Nat) {ended : Nat}
    (dated : right.Dated ended) {heldLeft heldRight : Nat → Bool}
    (held : ∀ ticket, heldLeft (rename ticket) = heldRight ticket)
    (free : ∀ ticket, spare = some ticket → heldLeft ticket = false)
    {operation : Operation α β} (immediate : operation.IsImmediate) :
    Echoes key rename (if operation.takesSpare key then none else spare)
        (left.perform began ended heldLeft operation).1
        (right.perform began ended heldRight operation).1 ∧
      (left.perform began ended heldLeft operation).2 =
        operation.answerWith key spare.isSome
          (right.perform began ended heldRight operation).2 := by
  cases operation with
  | insert added value =>
      have written := echoes.written ended added value
      simp only [Operation.takesSpare, decide_eq_true_eq]
      exact ⟨written.trim (dated.written added value), rfl⟩
  | lookup asked =>
      have same : (left.lookup began asked).2 = (right.lookup began asked).2 := by
        rw [snd_lookup, snd_lookup, echoes.visible?]
      exact ⟨echoes.lookup began asked, congrArg Answer.found same⟩
  | load asked brought => exact immediate.elim
  | invalidate removed =>
      have existed : (left.slots.get? removed).isSome =
          ((right.slots.get? removed).isSome || (spare.isSome && decide (removed = key))) := by
        rw [get?_eq, get?_eq, Option.isSome_map, Option.isSome_map, echoes.ticket,
          Option.isSome_or, Option.isSome_map]
        by_cases same : removed = key <;> simp [same]
      have gone := echoes.without removed
      simp only [Operation.takesSpare, decide_eq_true_eq]
      exact ⟨gone, congrArg Answer.removed existed⟩
  | invalidateAll => exact ⟨echoes.invalidateAll, rfl⟩
  | cleanup =>
      have swept := echoes.sweep began held free
      have dropped := length_surplus_of_stored? swept.stored swept.limit
      have count : left.expiredCount began + (left.sweep began heldLeft).surplus.length =
          right.expiredCount began + (right.sweep began heldRight).surplus.length := by
        rw [echoes.expiredCount, dropped]
      refine ⟨swept.trim (dated.mono le_rfl fun other stored isStored => ?_),
        congrArg Answer.count count⟩
      rw [stored?_sweep] at isStored
      exact stored?_of_visible isStored
  | size => exact ⟨echoes, congrArg Answer.count (echoes.size began)⟩

end Echoes

end ClassAtlas.Cache
