import Switchboard.Proofs.Connection.Neighbours

/-!
# Waits and their deadlines

While a caller waits for the outcome of its slot, others attempt to resolve numbers. Many attempts
make of a table what the first attempt for each number makes of it (`Matched.resolveAll_eq`), and an
attempt succeeds if its number has an entry and no earlier attempt was made for it
(`getElem?_resolveAll`). A wait that makes all attempts up to its deadline and then looks at the
slot is a wait whose caller looks at the slot before each of them and returns as soon as it finds
something (`waitUntil_eq_await`). Where no number is registered twice, the deadline takes nothing
but the entry of the slot itself (`Unrepeated.expire_eq`), so that the first attempt for its number
and the deadline decide between them what the wait returns, and nobody else notices (`raced_run`).
-/

namespace Switchboard

namespace PendingTable

/-! ## Many attempts -/

/-- How attempts settle numbers: the first attempt for a number counts. -/
def settling (attempts : List TimedResolve) : RequestId → Option SlotState :=
  fun id => (attempts.find? fun r => r.id = id).map fun r => .resolved r.outcome

theorem settling_ne_waiting (attempts : List TimedResolve) (id : RequestId) :
    settling attempts id ≠ some .waiting := by
  unfold settling
  cases attempts.find? fun r => r.id = id <;> exact nofun

theorem settling_ne_orphaned (attempts : List TimedResolve) (id : RequestId) :
    settling attempts id ≠ some .orphaned := by
  unfold settling
  cases attempts.find? fun r => r.id = id <;> exact nofun

theorem settling_append (attempts others : List TimedResolve) (id : RequestId) :
    settling (attempts ++ others) id = (settling attempts id).or (settling others id) := by
  unfold settling
  rw [List.find?_append]
  cases attempts.find? fun r => r.id = id <;> rfl

@[simp] theorem resolveAll_nil (table : PendingTable) : table.resolveAll [] = ([], table) := rfl

@[simp] theorem resolveAll_cons (table : PendingTable) (r : TimedResolve)
    (rest : List TimedResolve) : table.resolveAll (r :: rest) =
      ((table.resolve r.id r.outcome).1 :: ((table.resolve r.id r.outcome).2.resolveAll rest).1,
        ((table.resolve r.id r.outcome).2.resolveAll rest).2) := rfl

theorem resolveAll_append (table : PendingTable) (attempts others : List TimedResolve) :
    table.resolveAll (attempts ++ others) =
      ((table.resolveAll attempts).1 ++ ((table.resolveAll attempts).2.resolveAll others).1,
        ((table.resolveAll attempts).2.resolveAll others).2) := by
  induction attempts generalizing table with
  | nil => rfl
  | cons r rest ih => simp only [List.cons_append, resolveAll_cons, ih]

theorem length_resolveAll (table : PendingTable) (attempts : List TimedResolve) :
    (table.resolveAll attempts).1.length = attempts.length := by
  induction attempts generalizing table with
  | nil => rfl
  | cons r rest ih => simp only [resolveAll_cons, List.length_cons, ih]

/-- The entry of a number goes when the number is settled. -/
theorem holder?_settleBy (table : PendingTable) (f : RequestId → Option SlotState)
    (id : RequestId) :
    (table.settleBy f).holder? id = if (f id).isNone then table.holder? id else none := by
  show (table.entries.filter fun entry => (f entry.1).isNone).lookup id =
    if (f id).isNone then table.entries.lookup id else none
  induction table.entries with
  | nil => simp
  | cons entry entries ih =>
      rw [List.filter_cons, List.lookup_cons]
      by_cases hid : id = entry.1
      · subst hid
        by_cases hnone : (f entry.1).isNone
        · rw [if_pos hnone, if_pos hnone, List.lookup_cons, beq_self_eq_true]
        · rw [if_neg hnone, if_neg hnone, ih, if_neg hnone]
      · have hne : (id == entry.1) = false := beq_eq_false_iff_ne.2 hid
        rw [hne]
        split
        · rw [List.lookup_cons, hne, ih]
        · exact ih

namespace Matched

variable {table : PendingTable} (h : table.Matched)

include h

theorem resolve (id : RequestId) (outcome : Outcome) : (table.resolve id outcome).2.Matched :=
  h.perform (.resolve id outcome)

/-- Attempts settle the numbers for which they are made. -/
theorem resolveAll_eq (attempts : List TimedResolve) :
    (table.resolveAll attempts).2 = table.settleBy (settling attempts) := by
  induction attempts generalizing table with
  | nil => exact (settleBy_none table).symm
  | cons r rest ih =>
      rw [resolveAll_cons, ih (h.resolve r.id r.outcome), h.resolve_eq,
        settleBy_settleBy _ (only_ne_waiting (SlotState.resolved_ne_waiting _) _)]
      congr 1
      funext id
      unfold settling only
      by_cases hid : id = r.id
      · simp [hid]
      · simp [hid, Ne.symm hid]

theorem resolveAll (attempts : List TimedResolve) : (table.resolveAll attempts).2.Matched := by
  rw [h.resolveAll_eq]
  exact h.settleBy (settling_ne_waiting attempts)

theorem mem_slots_resolve {slot : Slot} (hslot : slot ∈ table.slots) (id : RequestId)
    (outcome : Outcome) : slot.settledBy (only id (.resolved outcome)) ∈
      (table.resolve id outcome).2.slots := by
  rw [h.resolve_eq]
  exact List.mem_map_of_mem hslot

/-- An attempt succeeds if its number has an entry, and no earlier attempt was made for it. -/
theorem getElem?_resolveAll (attempts : List TimedResolve) (i : Nat) :
    (table.resolveAll attempts).1[i]? = attempts[i]?.map fun r =>
      (table.holder? r.id).isSome && (attempts.take i).all fun s => s.id ≠ r.id := by
  induction attempts generalizing table i with
  | nil => simp
  | cons r rest ih =>
      rw [resolveAll_cons]
      cases i with
      | zero => simp [resolve_fst]
      | succ i =>
          rw [List.getElem?_cons_succ, List.getElem?_cons_succ, ih (h.resolve r.id r.outcome)]
          congr 1
          funext s
          rw [h.resolve_eq, holder?_settleBy, List.take_succ_cons, List.all_cons]
          by_cases hid : s.id = r.id
          · simp [hid, only_self]
          · simp [only_ne hid, Ne.symm hid]

end Matched

/-! ## A wait -/

/-- The end of a wait: what its caller finds, the results of the attempts that were made meanwhile,
those that are still to come, and the table. -/
structure Awaited where
  outcome : Option Outcome
  results : List Bool
  rest : List TimedResolve
  table : PendingTable

/-- A wait as its caller sees it. Before each attempt the caller looks at its slot, and returns if
it finds something. It gives up when the next attempt comes behind the deadline. -/
def await (table : PendingTable) (key : SlotKey) (deadline : Int) : List TimedResolve → Awaited
  | [] => ⟨(table.expire key).poll key, [], [], table.expire key⟩
  | r :: rest =>
      if table.poll key = none ∧ r.instant < deadline then
        let resolved := table.resolve r.id r.outcome
        let awaited := resolved.2.await key deadline rest
        { awaited with results := resolved.1 :: awaited.results }
      else ⟨(table.expire key).poll key, [], r :: rest, table.expire key⟩

/-- The end of a wait, and the attempts that come after it. -/
def Awaited.total (awaited : Awaited) : (Option Outcome × List Bool) × PendingTable :=
  ((awaited.outcome, awaited.results ++ (awaited.table.resolveAll awaited.rest).1),
    (awaited.table.resolveAll awaited.rest).2)

/-- Attempts in order of time, made since a wait began, and none at its deadline. -/
structure Timed (deadline : Int) (attempts : List TimedResolve) : Prop where
  inOrder : attempts.Pairwise fun r s => r.instant ≤ s.instant
  since : ∀ r ∈ attempts, 0 ≤ r.instant
  apart : ∀ r ∈ attempts, r.instant ≠ deadline

section Wait

variable {table : PendingTable} {slot : Slot} {deadline : Int} {attempts : List TimedResolve}

theorem Timed.tail {r : TimedResolve} (h : Timed deadline (r :: attempts)) :
    Timed deadline attempts where
  inOrder := (List.pairwise_cons.1 h.inOrder).2
  since := fun s hs => h.since s (List.mem_cons_of_mem r hs)
  apart := fun s hs => h.apart s (List.mem_cons_of_mem r hs)

/-- Some attempts come before the deadline, and the others behind it. -/
theorem Timed.exists_append (h : Timed deadline attempts) : ∃ before after,
    attempts = before ++ after ∧ (∀ r ∈ before, 0 ≤ r.instant ∧ r.instant < deadline) ∧
      ∀ r ∈ after, deadline < r.instant := by
  induction attempts with
  | nil => exact ⟨[], [], rfl, by simp, by simp⟩
  | cons r rest ih =>
      by_cases hr : r.instant < deadline
      · obtain ⟨before, after, rfl, hbefore, hafter⟩ := ih h.tail
        refine ⟨r :: before, after, rfl, ?_, hafter⟩
        rintro s (_ | ⟨_, hs⟩)
        · exact ⟨h.since r List.mem_cons_self, hr⟩
        · exact hbefore s hs
      · -- Whoever comes later comes behind the deadline too.
        have hlate : deadline < r.instant := by
          have := h.apart r List.mem_cons_self
          omega
        refine ⟨[], r :: rest, rfl, by simp, ?_⟩
        rintro s (_ | ⟨_, hs⟩)
        · exact hlate
        · exact Int.lt_of_lt_of_le hlate ((List.pairwise_cons.1 h.inOrder).1 s hs)

/-- An attempt before the deadline is made first. -/
theorem waitUntil_cons (key : SlotKey) {r : TimedResolve} (hsince : 0 ≤ r.instant)
    (hr : r.instant < deadline) (rest : List TimedResolve) :
    table.waitUntil key deadline (r :: rest) =
      let waited := (table.resolve r.id r.outcome).2.waitUntil key deadline rest
      ((waited.1.1, (table.resolve r.id r.outcome).1 :: waited.1.2), waited.2) := by
  unfold waitUntil
  rw [List.takeWhile_cons_of_pos (by simp [hsince, hr])]
  rfl

/-- When no attempt comes before the deadline, the time of the slot is over at once. -/
theorem waitUntil_of_not_lt (key : SlotKey) (hlate : ∀ r ∈ attempts, ¬ r.instant < deadline) :
    table.waitUntil key deadline attempts =
      (((table.expire key).poll key, ((table.expire key).resolveAll attempts).1),
        ((table.expire key).resolveAll attempts).2) := by
  have htake : attempts.takeWhile (fun r => 0 ≤ r.instant && r.instant < deadline) = [] := by
    cases attempts with
    | nil => rfl
    | cons r rest =>
        exact List.takeWhile_cons_of_neg (by simp [hlate r List.mem_cons_self])
  unfold waitUntil
  rw [htake]
  rfl

/-- The attempts before the deadline are made, then the time of the slot is over, and the other
attempts are made. -/
theorem waitUntil_of_append {before after : List TimedResolve} (key : SlotKey)
    (hbefore : ∀ r ∈ before, 0 ≤ r.instant ∧ r.instant < deadline)
    (hafter : ∀ r ∈ after, deadline < r.instant) :
    table.waitUntil key deadline (before ++ after) =
      ((((table.resolveAll before).2.expire key).poll key,
        (table.resolveAll before).1 ++
          (((table.resolveAll before).2.expire key).resolveAll after).1),
        (((table.resolveAll before).2.expire key).resolveAll after).2) := by
  induction before generalizing table with
  | nil => exact waitUntil_of_not_lt key fun r hr => Int.not_lt.2 (Int.le_of_lt (hafter r hr))
  | cons r before ih =>
      obtain ⟨hsince, hr⟩ := hbefore r List.mem_cons_self
      rw [List.cons_append, waitUntil_cons key hsince hr,
        ih fun s hs => hbefore s (List.mem_cons_of_mem r hs)]
      rfl

/-- What is done while somebody waits, step by step. -/
theorem run_resolveAll (table : PendingTable) (attempts : List TimedResolve) :
    (table.resolveAll attempts).2 = table.run (attempts.map fun r => .resolve r.id r.outcome) := by
  induction attempts generalizing table with
  | nil => rfl
  | cons r rest ih => exact ih (table.resolve r.id r.outcome).2

theorem registrations_eq_nil (table : PendingTable) {steps : List Step}
    (h : ∀ step ∈ steps, ∀ id, step ≠ .register id) : registrations table steps = [] := by
  induction steps generalizing table with
  | nil => rfl
  | cons step steps ih =>
      have hstep : step.registered? table = none := by
        cases step with
        | register id => exact absurd rfl (h _ List.mem_cons_self id)
        | _ => rfl
      rw [registrations, hstep, ih _ fun later hlater => h later (List.mem_cons_of_mem step hlater)]
      rfl

/-- A wait registers nothing. -/
theorem exists_run_waitUntil (table : PendingTable) (key : SlotKey) (deadline : Int)
    (attempts : List TimedResolve) : ∃ later, registrations table later = [] ∧
      (table.waitUntil key deadline attempts).2 = table.run later := by
  let before := attempts.takeWhile fun r => 0 ≤ r.instant && r.instant < deadline
  let after := attempts.drop before.length
  refine ⟨before.map (fun r => .resolve r.id r.outcome) ++
    .expire key :: after.map fun r => .resolve r.id r.outcome, ?_, ?_⟩
  · refine registrations_eq_nil table fun step hstep id => ?_
    rcases List.mem_append.1 hstep with hbefore | hafter
    · obtain ⟨r, -, rfl⟩ := List.mem_map.1 hbefore
      exact nofun
    · rcases List.mem_cons.1 hafter with rfl | hafter
      · exact nofun
      · obtain ⟨r, -, rfl⟩ := List.mem_map.1 hafter
        exact nofun
  · rw [run_append, ← run_resolveAll]
    exact run_resolveAll _ after

/-- A slot that does not wait keeps what it holds, and nobody notices that its time is over. -/
theorem waitUntil_of_settled (h : table.Matched) (hslot : slot ∈ table.slots)
    (hstate : slot.state ≠ .waiting) (htimed : Timed deadline attempts) :
    table.waitUntil slot.key deadline attempts =
      ((table.poll slot.key, (table.resolveAll attempts).1), (table.resolveAll attempts).2) := by
  obtain ⟨before, after, rfl, hbefore, hafter⟩ := htimed.exists_append
  have hstill : slot ∈ (table.resolveAll before).2.slots := by
    rw [h.resolveAll_eq]
    exact List.mem_map.2 ⟨slot, hslot, Slot.settledBy_of_state hstate⟩
  have hexpire : (table.resolveAll before).2.expire slot.key = (table.resolveAll before).2 := by
    rw [(h.resolveAll before).expire_eq hstill, if_neg hstate]
  rw [waitUntil_of_append slot.key hbefore hafter, hexpire, resolveAll_append,
    (h.resolveAll before).poll_eq hstill, h.poll_eq hslot]

/-- A caller that looks at its slot before each attempt returns what the whole wait returns, and
leaves the table to the attempts that are still to come. -/
theorem waitUntil_eq_await (h : table.Matched) (hslot : slot ∈ table.slots)
    (htimed : Timed deadline attempts) :
    table.waitUntil slot.key deadline attempts =
      (table.await slot.key deadline attempts).total := by
  induction attempts generalizing table slot with
  | nil => rfl
  | cons r rest ih =>
      rw [await]
      by_cases hgo : table.poll slot.key = none ∧ r.instant < deadline
      · have hmem := h.mem_slots_resolve hslot r.id r.outcome
        have hrest := ih (h.resolve r.id r.outcome) hmem htimed.tail
        rw [Slot.key_settledBy] at hrest
        rw [if_pos hgo, waitUntil_cons slot.key (htimed.since r List.mem_cons_self) hgo.2, hrest]
        rfl
      · rw [if_neg hgo]
        by_cases hstate : slot.state = .waiting
        · -- Nothing is found, so the attempt comes behind the deadline, and so do all others.
          have hfound : table.poll slot.key = none := by
            rw [h.poll_eq hslot, hstate]
            rfl
          refine waitUntil_of_not_lt slot.key fun s hs => Int.not_lt.2 ?_
          have hr : deadline ≤ r.instant := Int.not_lt.1 fun hr => hgo ⟨hfound, hr⟩
          rcases List.mem_cons.1 hs with rfl | hs
          · exact hr
          · exact Int.le_trans hr ((List.pairwise_cons.1 htimed.inOrder).1 s hs)
        · have hexpire : table.expire slot.key = table := by
            rw [h.expire_eq hslot, if_neg hstate]
          rw [waitUntil_of_settled h hslot hstate htimed, hexpire]
          rfl

end Wait

/-! ## The deadline among the attempts -/

/-- The deadline of a slot, as an attempt to resolve its number. -/
def expiry (slot : Slot) (deadline : Int) : TimedResolve := ⟨deadline, slot.id, .timedOut⟩

namespace Unrepeated

variable {numbers : List RequestId} {table : PendingTable} (h : Unrepeated numbers table)
  {slot : Slot} (hslot : slot ∈ table.slots)

include h

theorem resolveAll (attempts : List TimedResolve) :
    Unrepeated numbers (table.resolveAll attempts).2 := by
  rw [h.matched.resolveAll_eq]
  exact h.settleBy (settling_ne_waiting attempts) (settling_ne_orphaned attempts)

include hslot

/-- The number of a slot that does not wait has no entry. -/
theorem holder?_of_settled (hstate : slot.state ≠ .waiting) : table.holder? slot.id = none := by
  refine Option.eq_none_iff_forall_ne_some.2 fun key hholder => ?_
  obtain ⟨holder, hmem, hident, hwaits⟩ := h.matched.exists_slot_of_holder? hholder
  rw [h.eq_of_id hslot hmem (congrArg Prod.snd hident)] at hwaits
  exact hstate hwaits

/-- The deadline of a slot is an attempt to resolve its number. -/
theorem expire_eq : table.expire slot.key = (table.resolve slot.id .timedOut).2 := by
  rw [h.matched.expire_eq hslot, h.matched.resolve_eq]
  split
  · rfl
  · next hstate =>
      exact (h.matched.settleBy_only_of_none (h.holder?_of_settled hslot hstate) _).symm

theorem holder?_expire : (table.expire slot.key).holder? slot.id = none := by
  rw [h.expire_eq hslot, h.matched.resolve_eq, holder?_settleBy, only_self]
  rfl

/-- When a caller returns, its number has no entry. -/
theorem holder?_await (deadline : Int) (attempts : List TimedResolve) :
    (table.await slot.key deadline attempts).table.holder? slot.id = none := by
  induction attempts generalizing table slot with
  | nil => exact h.holder?_expire hslot
  | cons r rest ih =>
      rw [await]
      split
      · have hrest :=
          ih (h.resolve r.id r.outcome) (h.matched.mem_slots_resolve hslot r.id r.outcome)
        rwa [Slot.key_settledBy, Slot.id_settledBy] at hrest
      · exact h.holder?_expire hslot

/-- A wait makes all attempts, the deadline among them. -/
theorem waitUntil_eq {deadline : Int} {before after : List TimedResolve}
    (hbefore : ∀ r ∈ before, 0 ≤ r.instant ∧ r.instant < deadline)
    (hafter : ∀ r ∈ after, deadline < r.instant) :
    table.waitUntil slot.key deadline (before ++ after) =
      let made := table.resolveAll (before ++ expiry slot deadline :: after)
      ((made.2.poll slot.key, made.1.eraseIdx before.length), made.2) := by
  -- Its own slot, as the attempts before the deadline leave it.
  have hmem : slot.settledBy (settling before) ∈ (table.resolveAll before).2.slots := by
    rw [h.matched.resolveAll_eq]
    exact List.mem_map_of_mem hslot
  have hexpire := (h.resolveAll before).expire_eq hmem
  rw [Slot.key_settledBy, Slot.id_settledBy] at hexpire
  -- What comes behind the deadline comes too late for the slot.
  have hpoll : (table.resolveAll (before ++ expiry slot deadline :: after)).2.poll slot.key =
      (table.resolveAll (before ++ [expiry slot deadline])).2.poll slot.key := by
    rw [h.matched.resolveAll_eq, h.matched.resolveAll_eq,
      h.matched.poll_settleBy (settling_ne_waiting _) hslot,
      h.matched.poll_settleBy (settling_ne_waiting _) hslot]
    congr 2
    refine Slot.settledBy_congr ?_
    rw [settling_append, settling_append]
    cases settling before slot.id with
    | some state => rfl
    | none => simp [settling, expiry]
  have hlast : (table.resolveAll (before ++ [expiry slot deadline])).2 =
      ((table.resolveAll before).2.resolve slot.id .timedOut).2 := by
    rw [resolveAll_append]
    rfl
  simp only [hpoll, hlast]
  rw [waitUntil_of_append slot.key hbefore hafter, hexpire, resolveAll_append, resolveAll_cons]
  simp only
  rw [← length_resolveAll table before, List.eraseIdx_append_of_length_le (Nat.le_refl _),
    Nat.sub_self]
  rfl

end Unrepeated

/-! ## The race -/

/-- An attempt that decides what the caller of a slot finds: the first for its number, before the
deadline. The attempts in `made` have been made by then. -/
structure Wins (slot : Slot) (deadline : Int) (made : List TimedResolve) (r : TimedResolve) :
    Prop where
  waits : slot.state = .waiting
  number : r.id = slot.id
  first : ∀ s ∈ made, s.id ≠ slot.id
  inTime : r.instant < deadline

/-- What a wait for a slot comes to, while attempts are made on numbers. -/
structure Raced (table : PendingTable) (slot : Slot) (deadline : Int)
    (attempts : List TimedResolve) :
    Prop where
  /-- The caller returns as soon as it finds something. -/
  moment : table.waitUntil slot.key deadline attempts =
    (table.await slot.key deadline attempts).total
  /-- The slot waits, or it has an outcome, which nobody takes away. -/
  states : slot.state = .waiting ∨ ∃ outcome, slot.state = .resolved outcome
  had : ∀ outcome, slot.state = .resolved outcome →
    (table.waitUntil slot.key deadline attempts).1.1 = some outcome
  /-- The first attempt for the number wins if it comes before the deadline. -/
  won : ∀ made r rest, attempts = made ++ r :: rest → Wins slot deadline made r →
    (table.waitUntil slot.key deadline attempts).1.1 = some r.outcome
  late : slot.state = .waiting → (∀ made r rest, attempts = made ++ r :: rest →
      ¬ Wins slot deadline made r) →
    (table.waitUntil slot.key deadline attempts).1.1 = some .timedOut
  /-- An attempt for the number succeeds exactly if it wins, and any other as it would have without
  the wait. -/
  own : ∀ made r rest, attempts = made ++ r :: rest → r.id = slot.id →
    ∃ found, (table.waitUntil slot.key deadline attempts).1.2[made.length]? = some found ∧
      (found = true ↔ Wins slot deadline made r)
  foreign : ∀ made r rest, attempts = made ++ r :: rest → r.id ≠ slot.id →
    (table.waitUntil slot.key deadline attempts).1.2[made.length]? =
      (table.resolveAll attempts).1[made.length]?
  /-- The number has no entry when the caller returns, and gets none from what comes later. -/
  returned : (table.await slot.key deadline attempts).table.holder? slot.id = none
  gone : (table.waitUntil slot.key deadline attempts).2.holder? slot.id = none
  /-- What is done meanwhile can be done by steps that register nothing. -/
  reached : ∃ later, registrations table later = [] ∧
    (table.waitUntil slot.key deadline attempts).2 = table.run later
  /-- Other numbers and other slots are as they would have been without the wait. -/
  entries : ∀ id, id ≠ slot.id → (table.waitUntil slot.key deadline attempts).2.holder? id =
    (table.resolveAll attempts).2.holder? id
  slots : ∀ other ∈ table.slots, other ≠ slot →
    (table.waitUntil slot.key deadline attempts).2.slot? other.key =
      (table.resolveAll attempts).2.slot? other.key

section Race

variable {table : PendingTable} {slot : Slot} {deadline : Int} {before after : List TimedResolve}

/-- Among all attempts and the deadline, a number other than that of the slot is settled as by the
attempts alone. -/
theorem settling_expiry_of_ne {id : RequestId} (hid : id ≠ slot.id) :
    settling (before ++ expiry slot deadline :: after) id = settling (before ++ after) id := by
  have hnot : (expiry slot deadline).id ≠ id := Ne.symm hid
  simp [settling, List.find?_append, hnot]

/-- The number of the slot is settled by the first attempt for it before the deadline, or else by
the deadline. -/
theorem settling_expiry_self : settling (before ++ expiry slot deadline :: after) slot.id =
    some
      (.resolved ((before.find? fun r => r.id = slot.id).getD (expiry slot deadline)).outcome) := by
  unfold settling
  rw [List.find?_append, List.find?_cons_of_pos (by simp [expiry])]
  cases before.find? fun r => r.id = slot.id <;> rfl

/-- A caller that waits finds the outcome of that attempt. -/
theorem Matched.poll_of_waiting (h : table.Matched) (hslot : slot ∈ table.slots)
    (hstate : slot.state = .waiting) :
    (table.resolveAll (before ++ expiry slot deadline :: after)).2.poll slot.key =
      some ((before.find? fun r => r.id = slot.id).getD (expiry slot deadline)).outcome := by
  rw [h.resolveAll_eq, h.poll_settleBy (settling_ne_waiting _) hslot,
    Slot.state_settledBy hstate settling_expiry_self]
  rfl

/-- A caller whose slot has an outcome finds this one, whatever comes. -/
theorem Matched.poll_of_settled (h : table.Matched) (hslot : slot ∈ table.slots)
    (hstate : slot.state ≠ .waiting) (attempts : List TimedResolve) :
    (table.resolveAll attempts).2.poll slot.key = slot.state.outcome? := by
  rw [h.resolveAll_eq, h.poll_settleBy (settling_ne_waiting _) hslot,
    Slot.settledBy_of_state hstate]

/-- The attempt that wins is the first for the number of the slot before the deadline. -/
theorem find?_eq_some_of_wins (hafter : ∀ r ∈ after, deadline < r.instant)
    {made rest : List TimedResolve} {r : TimedResolve}
    (hsplit : before ++ after = made ++ r :: rest)
    (hwins : Wins slot deadline made r) : (before.find? fun r => r.id = slot.id) = some r := by
  have hfirst : ((before ++ after).find? fun r => r.id = slot.id) = some r := by
    rw [hsplit]
    refine List.find?_eq_some_iff_append.2 ⟨by simpa using hwins.number, made, rest, rfl, ?_⟩
    simpa using hwins.first
  rw [List.find?_append] at hfirst
  cases hfound : before.find? fun r => r.id = slot.id with
  | some s => rwa [hfound, Option.some_or] at hfirst
  | none =>
      -- What is found behind the deadline does not win.
      rw [hfound, Option.none_or] at hfirst
      have hlate := hafter r (List.mem_of_find?_eq_some hfirst)
      have hearly := hwins.inTime
      omega

theorem find?_eq_none_of_nobody_wins (hstate : slot.state = .waiting)
    (hbefore : ∀ r ∈ before, 0 ≤ r.instant ∧ r.instant < deadline)
    (hnobody : ∀ made r rest, before ++ after = made ++ r :: rest → ¬ Wins slot deadline made r) :
    (before.find? fun r => r.id = slot.id) = none := by
  refine Option.eq_none_iff_forall_ne_some.2 fun r hfound => ?_
  obtain ⟨hnumber, made, rest, hsplit, hfirst⟩ := List.find?_eq_some_iff_append.1 hfound
  refine hnobody made r (rest ++ after) (by rw [hsplit, List.append_assoc, List.cons_append]) ?_
  exact ⟨hstate, by simpa using hnumber, by simpa using hfirst,
    (hbefore r (List.mem_of_find?_eq_some hfound)).2⟩

/-- The attempts that have been made before another one, the deadline not counted. -/
theorem all_take_expiry (before after : List TimedResolve) (slot : Slot) (deadline : Int)
    (id : RequestId) (i : Nat) :
    (((before ++ expiry slot deadline :: after).take (before.length + (i + 1))).all
        fun s => s.id ≠ id) =
      (decide (slot.id ≠ id) && ((before ++ after).take (before.length + i)).all
        fun s => s.id ≠ id) := by
  rw [List.take_length_add_append, List.take_length_add_append, List.take_succ_cons,
    List.all_append, List.all_cons, List.all_append, Bool.and_left_comm]
  rfl

/-- An attempt succeeds if its number has an entry, no earlier attempt was made for it, and the
deadline, where the number is that of the slot, has not come first. -/
theorem Matched.getElem?_eraseIdx (h : table.Matched)
    (hbefore : ∀ r ∈ before, 0 ≤ r.instant ∧ r.instant < deadline)
    (hafter : ∀ r ∈ after, deadline < r.instant) {made rest : List TimedResolve} {r : TimedResolve}
    (hsplit : before ++ after = made ++ r :: rest) :
    ((table.resolveAll (before ++ expiry slot deadline :: after)).1.eraseIdx
        before.length)[made.length]? =
      some (((table.holder? r.id).isSome && made.all fun s => s.id ≠ r.id) &&
        (decide (slot.id ≠ r.id) || decide (r.instant < deadline))) := by
  have hr : (before ++ after)[made.length]? = some r := by simp [hsplit]
  have hmade : (before ++ after).take made.length = made := by simp [hsplit]
  rcases Nat.lt_or_ge made.length before.length with hearly | hlate
  · rw [List.getElem?_append_left hearly] at hr
    rw [List.take_append_of_le_length (Nat.le_of_lt hearly)] at hmade
    have htime := (hbefore r (List.mem_of_getElem? hr)).2
    rw [List.getElem?_eraseIdx_of_lt hearly, h.getElem?_resolveAll,
      List.getElem?_append_left hearly,
      hr, Option.map_some, List.take_append_of_le_length (Nat.le_of_lt hearly), hmade,
      decide_eq_true htime, Bool.or_true, Bool.and_true]
  · obtain ⟨i, hi⟩ := Nat.exists_eq_add_of_le hlate
    rw [List.getElem?_append_right hlate] at hr
    have htime : ¬ r.instant < deadline :=
      Int.not_lt.2 (Int.le_of_lt (hafter r (List.mem_of_getElem? hr)))
    have hshift : (before ++ expiry slot deadline :: after)[made.length + 1]? = some r := by
      rw [List.getElem?_append_right (Nat.le_succ_of_le hlate), Nat.succ_sub hlate,
        List.getElem?_cons_succ, hr]
    have htake := all_take_expiry before after slot deadline r.id i
    rw [← Nat.add_assoc, ← hi, hmade] at htake
    rw [List.getElem?_eraseIdx_of_ge hlate, h.getElem?_resolveAll, hshift, Option.map_some, htake,
      decide_eq_false htime, Bool.or_false, Bool.and_comm (decide (slot.id ≠ r.id)), Bool.and_assoc]

end Race

namespace Unrepeated

variable {numbers : List RequestId} {table : PendingTable} (h : Unrepeated numbers table)
  {slot : Slot} (hslot : slot ∈ table.slots)

include h hslot

/-- The number of a slot has an entry exactly if the slot waits. -/
theorem isSome_holder?_iff : (table.holder? slot.id).isSome = true ↔ slot.state = .waiting := by
  by_cases hstate : slot.state = .waiting
  · simp [h.matched.holder?_of_waiting hslot hstate, hstate]
  · simp [h.holder?_of_settled hslot hstate, hstate]

end Unrepeated

/-- In a run that registers no number twice, the first attempt for the number of a slot and the
deadline decide between them what a wait for the slot returns, and nobody else notices the wait. -/
theorem raced_run (steps : List Step) (hsteps : (registrations .new steps).Nodup) {slot : Slot}
    (hslot : slot ∈ (PendingTable.new.run steps).slots) (deadline : Int)
    {attempts : List TimedResolve} (htimed : Timed deadline attempts) :
    Raced (PendingTable.new.run steps) slot deadline attempts := by
  have h := unrepeated_run hsteps
  generalize PendingTable.new.run steps = table at h hslot ⊢
  have hmoment := waitUntil_eq_await h.matched hslot htimed
  have hreturned := h.holder?_await hslot deadline attempts
  obtain ⟨before, after, rfl, hbefore, hafter⟩ := htimed.exists_append
  have hwait := h.waitUntil_eq hslot hbefore hafter
  have hsettled := h.matched.resolveAll_eq (before ++ expiry slot deadline :: after)
  refine {
    moment := hmoment
    returned := hreturned
    reached := exists_run_waitUntil _ _ _ _
    states := ?_
    had := ?_
    won := ?_
    late := ?_
    own := ?_
    foreign := ?_
    gone := ?_
    entries := ?_
    slots := ?_ }
  · cases hstate : slot.state with
    | waiting => exact Or.inl rfl
    | resolved outcome => exact Or.inr ⟨outcome, rfl⟩
    | orphaned => exact absurd hstate (h.kept slot hslot)
  · intro outcome hstate
    have hsettled : slot.state ≠ .waiting := by
      rw [hstate]
      exact SlotState.resolved_ne_waiting outcome
    rw [hwait]
    simp only [h.matched.poll_of_settled hslot hsettled, hstate]
    rfl
  · intro made r rest hsplit hwins
    rw [hwait]
    simp only [h.matched.poll_of_waiting hslot hwins.waits]
    rw [find?_eq_some_of_wins hafter hsplit hwins]
    rfl
  · intro hstate hnobody
    rw [hwait]
    simp only [h.matched.poll_of_waiting hslot hstate]
    rw [find?_eq_none_of_nobody_wins hstate hbefore hnobody]
    rfl
  · intro made r rest hsplit hnumber
    rw [hwait]
    refine ⟨_, h.matched.getElem?_eraseIdx hbefore hafter hsplit, ?_⟩
    have hwaits := h.isSome_holder?_iff hslot
    rw [hnumber]
    simp only [ne_eq, not_true_eq_false, decide_false, Bool.false_or, Bool.and_eq_true, hwaits,
      List.all_eq_true, decide_eq_true_eq]
    exact ⟨fun ⟨⟨hstate, hfirst⟩, htime⟩ => ⟨hstate, hnumber, hfirst, htime⟩,
      fun hwins => ⟨⟨hwins.waits, hwins.first⟩, hwins.inTime⟩⟩
  · intro made r rest hsplit hnumber
    rw [hwait, h.matched.getElem?_resolveAll]
    simp only
    rw [h.matched.getElem?_eraseIdx hbefore hafter hsplit]
    simp [hsplit, Ne.symm hnumber]
  · rw [hwait, hsettled, holder?_settleBy, settling_expiry_self]
    rfl
  · intro id hid
    rw [hwait, hsettled, h.matched.resolveAll_eq, holder?_settleBy, holder?_settleBy,
      settling_expiry_of_ne hid]
  · intro other hother hne
    have hid : other.id ≠ slot.id := fun hid => hne (h.eq_of_id hslot hother hid)
    rw [hwait, hsettled, h.matched.resolveAll_eq,
      h.matched.slot?_settleBy (settling_ne_waiting _) hother,
      h.matched.slot?_settleBy (settling_ne_waiting _) hother,
      Slot.settledBy_congr (settling_expiry_of_ne hid)]

/-- Two requests are registered. -/
def pairRun : List Step := [.register ⟨4⟩, .register ⟨5⟩]

/-- Attempts on both numbers, on that of the first slot twice before instant 10 and once behind
it. -/
def pairAttempts : List TimedResolve :=
  [⟨2, ⟨5⟩, .reply ⟨#[1]⟩⟩, ⟨5, ⟨4⟩, .reply ⟨#[2]⟩⟩, ⟨7, ⟨4⟩, .reply ⟨#[3]⟩⟩,
    ⟨20, ⟨4⟩, .reply ⟨#[4]⟩⟩]

theorem raced_of_pairRun :
    (registrations .new pairRun).Nodup ∧
      (⟨0, ⟨4⟩, .waiting⟩ : Slot) ∈ (PendingTable.new.run pairRun).slots ∧ Timed 10 pairAttempts ∧
      Raced (PendingTable.new.run pairRun) ⟨0, ⟨4⟩, .waiting⟩ 10 pairAttempts ∧
      ((PendingTable.new.run pairRun).waitUntil 0 10 pairAttempts).1 =
        (some (.reply ⟨#[2]⟩), [true, true, false, false]) ∧
      ((PendingTable.new.run pairRun).waitUntil 0 3 pairAttempts).1 =
        (some .timedOut, [true, false, false, false]) := by
  have hsteps : (registrations .new pairRun).Nodup := by decide
  have hslot : (⟨0, ⟨4⟩, .waiting⟩ : Slot) ∈ (PendingTable.new.run pairRun).slots := by decide
  have htimed : Timed 10 pairAttempts := ⟨by decide, by decide, by decide⟩
  exact ⟨hsteps, hslot, htimed, raced_run pairRun hsteps hslot 10 htimed, by decide, by decide⟩

end PendingTable

end Switchboard
