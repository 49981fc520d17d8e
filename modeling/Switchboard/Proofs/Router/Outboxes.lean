import Switchboard.Proofs.Lookup
import Switchboard.Relay.Router

/-!
# What a router puts into outboxes

A message reaches the outbox of a member exactly when there is room for it, whatever the message is
(`queued_deliver`). A series of reports fills what room there is, in the order in which the reports
are made (`queued_reportLost`). Nothing else of the router changes, apart from the counts.
-/

namespace Switchboard

namespace Router

/-- The messages that wait for a member. -/
def queued (router : Router) (id : MemberId) : List Message :=
  ((router.outbox? id).map Outbox.queued).getD []

/-- How many more messages the outbox of a member takes. None once the member has left or nobody
reads the outbox. -/
def room (router : Router) (id : MemberId) : Nat :=
  match router.member? id, router.outbox? id with
  | some _, some outbox => if outbox.isRead then outbox.capacity - outbox.queued.length else 0
  | _, _ => 0

/-- Two routers with the same members, clusters and routes, which may differ in their outboxes and
counts. -/
structure SameRegistry (before after : Router) : Prop where
  members : after.members = before.members
  rosters : after.rosters = before.rosters
  routes : after.routes = before.routes
  nextMember : after.nextMember = before.nextMember
  nextRoute : after.nextRoute = before.nextRoute

namespace SameRegistry

theorem refl (router : Router) : SameRegistry router router := ⟨rfl, rfl, rfl, rfl, rfl⟩

theorem trans {a b c : Router} (hab : SameRegistry a b) (hbc : SameRegistry b c) :
    SameRegistry a c where
  members := hbc.members.trans hab.members
  rosters := hbc.rosters.trans hab.rosters
  routes := hbc.routes.trans hab.routes
  nextMember := hbc.nextMember.trans hab.nextMember
  nextRoute := hbc.nextRoute.trans hab.nextRoute

/-- Without what differs in outboxes and counts nothing differs. -/
theorem reset {before after : Router} (h : SameRegistry before after) :
    { after with outboxes := before.outboxes, stats := before.stats } = before := by
  obtain ⟨hmembers, hrosters, hroutes, hnextMember, hnextRoute⟩ := h
  rw [hmembers, hrosters, hroutes, hnextMember, hnextRoute]

theorem member? {before after : Router} (h : SameRegistry before after) (id : MemberId) :
    after.member? id = before.member? id := by
  unfold Router.member?
  rw [h.members]

end SameRegistry

/-! ## Counting -/

@[simp] theorem queued_count (router : Router) (change : RouterStats → RouterStats)
    (id : MemberId) : (router.count change).queued id = router.queued id := rfl

@[simp] theorem room_count (router : Router) (change : RouterStats → RouterStats)
    (id : MemberId) : (router.count change).room id = router.room id := rfl

theorem sameRegistry_count (router : Router) (change : RouterStats → RouterStats) :
    SameRegistry router (router.count change) := ⟨rfl, rfl, rfl, rfl, rfl⟩

/-! ## Replacing an outbox -/

theorem sameRegistry_setOutbox (router : Router) (outbox : Outbox) :
    SameRegistry router (router.setOutbox outbox) := ⟨rfl, rfl, rfl, rfl, rfl⟩

/-- An outbox that is there is found as it was put. -/
theorem outbox?_setOutbox_self {router : Router} (outbox : Outbox) {old : Outbox}
    (h : router.outbox? outbox.member = some old) :
    (router.setOutbox outbox).outbox? outbox.member = some outbox := by
  show (Lookup.replace Outbox.member outbox router.outboxes).find? _ = _
  rw [Lookup.find?_replace_self]
  unfold outbox? at h
  rw [h]
  rfl

theorem outbox?_setOutbox_ne {router : Router} {outbox : Outbox} {id : MemberId}
    (h : id ≠ outbox.member) : (router.setOutbox outbox).outbox? id = router.outbox? id :=
  Lookup.find?_replace_ne Outbox.member outbox router.outboxes h

theorem member_of_outbox? {router : Router} {id : MemberId} {outbox : Outbox}
    (h : router.outbox? id = some outbox) : outbox.member = id :=
  Lookup.key_of_find? h

/-- The messages that wait behind a replacement. -/
theorem queued_setOutbox {router : Router} (outbox : Outbox) {old : Outbox} {id : MemberId}
    (hid : outbox.member = id) (h : router.outbox? id = some old) (other : MemberId) :
    (router.setOutbox outbox).queued other =
      if other = id then outbox.queued else router.queued other := by
  subst hid
  unfold queued
  by_cases hother : other = outbox.member
  · rw [if_pos hother, hother, outbox?_setOutbox_self outbox h]
    rfl
  · rw [if_neg hother, outbox?_setOutbox_ne hother]

/-! ## Putting one message -/

/-- Where there is room, a message is put at the end of the outbox, and nothing else happens. -/
theorem push_eq_ok_of_room {router : Router} {id : MemberId} (message : Message)
    (h : 0 < router.room id) :
    ∃ outbox, router.outbox? id = some outbox ∧ router.push id message =
      .ok (router.setOutbox { outbox with queued := outbox.queued ++ [message] }) := by
  unfold room at h
  unfold push
  cases hmember : router.member? id with
  | none =>
      rw [hmember] at h
      cases h
  | some member =>
      cases houtbox : router.outbox? id with
      | none =>
          rw [hmember, houtbox] at h
          cases h
      | some outbox =>
          rw [hmember, houtbox] at h
          refine ⟨outbox, rfl, ?_⟩
          by_cases hread : outbox.isRead = true
          · have hroom : ¬ outbox.capacity ≤ outbox.queued.length := by
              simp only [hread, if_true] at h
              omega
            simp [Outbox.push, hread, hroom, Except.map]
          · simp only [hread] at h
            cases h

/-- Where there is no room, a message is not put anywhere. -/
theorem push_eq_error_of_room {router : Router} {id : MemberId} (message : Message)
    (h : router.room id = 0) : ∃ fault, router.push id message = .error fault := by
  unfold room at h
  unfold push
  cases hmember : router.member? id with
  | none => exact ⟨_, rfl⟩
  | some member =>
      cases houtbox : router.outbox? id with
      | none => exact ⟨_, rfl⟩
      | some outbox =>
          rw [hmember, houtbox] at h
          by_cases hread : outbox.isRead = true
          · have hroom : outbox.capacity ≤ outbox.queued.length := by
              simp only [hread, if_true] at h
              omega
            exact ⟨.full outbox.member, by simp [Outbox.push, hread, hroom, Except.map]⟩
          · exact ⟨.gone outbox.member, by simp [Outbox.push, hread, Except.map]⟩

theorem room_pos_of_push_eq_ok {router next : Router} {id : MemberId} {message : Message}
    (h : router.push id message = .ok next) : 0 < router.room id := by
  by_contra hroom
  obtain ⟨fault, hfault⟩ := push_eq_error_of_room message (Nat.eq_zero_of_not_pos hroom)
  rw [h] at hfault
  cases hfault

theorem room_eq_zero_of_push_eq_error {router : Router} {id : MemberId} {message : Message}
    {fault : Undelivered} (h : router.push id message = .error fault) : router.room id = 0 := by
  by_contra hroom
  obtain ⟨outbox, -, hok⟩ := push_eq_ok_of_room message (Nat.pos_of_ne_zero hroom)
  rw [h] at hok
  cases hok

theorem sameRegistry_of_push {router next : Router} {id : MemberId} {message : Message}
    (h : router.push id message = .ok next) : SameRegistry router next := by
  obtain ⟨outbox, -, hok⟩ := push_eq_ok_of_room message (room_pos_of_push_eq_ok h)
  rw [h] at hok
  cases hok
  exact sameRegistry_setOutbox router _

/-- The outboxes behind a push: that of the member holds one message more. -/
theorem queued_of_push {router next : Router} {id : MemberId} {message : Message}
    (h : router.push id message = .ok next) (other : MemberId) :
    next.queued other = router.queued other ++ if other = id then [message] else [] := by
  obtain ⟨outbox, houtbox, hok⟩ := push_eq_ok_of_room message (room_pos_of_push_eq_ok h)
  rw [h] at hok
  cases hok
  have hkey : outbox.member = id := member_of_outbox? houtbox
  rw [queued_setOutbox { outbox with queued := outbox.queued ++ [message] } hkey houtbox]
  by_cases hother : other = id
  · subst hother
    rw [if_pos rfl, if_pos rfl]
    unfold queued
    rw [houtbox]
    rfl
  · rw [if_neg hother, if_neg hother, List.append_nil]

theorem room_of_push {router next : Router} {id : MemberId} {message : Message}
    (h : router.push id message = .ok next) (other : MemberId) :
    next.room other = router.room other - if other = id then 1 else 0 := by
  obtain ⟨outbox, houtbox, hok⟩ := push_eq_ok_of_room message (room_pos_of_push_eq_ok h)
  rw [h] at hok
  cases hok
  have hkey : outbox.member = id := member_of_outbox? houtbox
  have hmember := (sameRegistry_of_push h).member? other
  by_cases hother : other = id
  · subst hother
    subst hkey
    unfold room
    rw [hmember,
      outbox?_setOutbox_self { outbox with queued := outbox.queued ++ [message] } houtbox, houtbox]
    cases router.member? outbox.member with
    | none => simp
    | some member =>
        by_cases hread : outbox.isRead
        · simp [hread]
          omega
        · simp [hread]
  · unfold room
    rw [hmember, outbox?_setOutbox_ne (by rw [hkey]; exact hother)]
    simp [hother]

/-! ## Who takes a message -/

/-- A member that takes a message: it is registered, and its outbox is read and has room. -/
structure Accepts (router : Router) (id : MemberId) (outbox : Outbox) : Prop where
  registered : (router.member? id).isSome = true
  found : router.outbox? id = some outbox
  isRead : outbox.isRead = true
  spare : outbox.queued.length < outbox.capacity

/-- The router after a message was put at the end of an outbox. -/
def receive (router : Router) (outbox : Outbox) (message : Message) : Router :=
  router.setOutbox { outbox with queued := outbox.queued ++ [message] }

/-- There is room for messages exactly where they are taken. -/
theorem room_pos_iff {router : Router} {id : MemberId} :
    0 < router.room id ↔ ∃ outbox, router.Accepts id outbox := by
  unfold room
  constructor
  · intro h
    split at h
    · rename_i member outbox hmember houtbox
      by_cases hread : outbox.isRead = true
      · rw [if_pos hread] at h
        exact ⟨outbox, by rw [hmember]; rfl, houtbox, hread, by omega⟩
      · rw [if_neg hread] at h
        cases h
    · cases h
  · rintro ⟨outbox, hregistered, hfound, hread, hspare⟩
    obtain ⟨member, hmember⟩ := Option.isSome_iff_exists.1 hregistered
    simp only [hmember, hfound, hread, if_true]
    omega

theorem room_eq_zero_iff {router : Router} {id : MemberId} :
    router.room id = 0 ↔ ∀ outbox, ¬ router.Accepts id outbox := by
  rw [← not_exists, ← room_pos_iff, Nat.pos_iff_ne_zero, not_not]

/-- Where a message is taken, it is put at the end of the outbox, and nothing else happens. -/
theorem Accepts.push_eq {router : Router} {id : MemberId} {outbox : Outbox}
    (h : router.Accepts id outbox) (message : Message) :
    router.push id message = .ok (router.receive outbox message) := by
  obtain ⟨found, hfound, hpush⟩ := push_eq_ok_of_room message (room_pos_iff.2 ⟨outbox, h⟩)
  obtain rfl : outbox = found := Option.some.inj (h.found.symm.trans hfound)
  exact hpush

/-- What goes wrong with a message names the member that it was for. -/
theorem fault_eq_of_push {router : Router} {id : MemberId} {message : Message} {fault : Undelivered}
    (h : router.push id message = .error fault) : fault = .gone id ∨ fault = .full id := by
  unfold push at h
  split at h
  · rename_i member outbox hmember hfound
    have hid : outbox.member = id := member_of_outbox? hfound
    unfold Outbox.push at h
    rw [hid] at h
    split at h
    · cases h
      exact Or.inl rfl
    · split at h
      · cases h
        exact Or.inr rfl
      · cases h
  · cases h
    exact Or.inl rfl

/-- Why a registered member takes no message. -/
theorem fault_of_push {router : Router} {id : MemberId} {outbox : Outbox} {message : Message}
    {fault : Undelivered} (hregistered : (router.member? id).isSome = true)
    (hfound : router.outbox? id = some outbox) (h : router.push id message = .error fault) :
    (outbox.isRead = false ∧ fault = .gone id) ∨
      (outbox.isRead = true ∧ outbox.capacity ≤ outbox.queued.length ∧ fault = .full id) := by
  obtain ⟨member, hmember⟩ := Option.isSome_iff_exists.1 hregistered
  have hid : outbox.member = id := member_of_outbox? hfound
  unfold push at h
  simp only [hmember, hfound, Outbox.push, hid] at h
  split at h
  · next hread =>
      cases h
      exact Or.inl ⟨hread, rfl⟩
  · next hread =>
      split at h
      · next hfull =>
          cases h
          exact Or.inr ⟨by simpa using hread, hfull, rfl⟩
      · cases h

theorem outbox?_receive_self {router : Router} {id : MemberId} {outbox : Outbox}
    (hfound : router.outbox? id = some outbox) (message : Message) :
    (router.receive outbox message).outbox? id =
      some { outbox with queued := outbox.queued ++ [message] } := by
  obtain rfl : outbox.member = id := member_of_outbox? hfound
  exact outbox?_setOutbox_self { outbox with queued := outbox.queued ++ [message] } hfound

theorem outbox?_receive_ne {router : Router} {id other : MemberId} {outbox : Outbox}
    (hfound : router.outbox? id = some outbox) (message : Message) (hother : other ≠ id) :
    (router.receive outbox message).outbox? other = router.outbox? other := by
  obtain rfl : outbox.member = id := member_of_outbox? hfound
  exact outbox?_setOutbox_ne hother

/-! ## Answers -/

theorem Accepts.deliver_eq {router : Router} {id : MemberId} {outbox : Outbox}
    (h : router.Accepts id outbox) (message : Message) :
    router.deliver id message = (true, router.receive outbox message) := by
  unfold deliver
  rw [h.push_eq message]

/-- What is not taken is counted. -/
theorem deliver_of_not_accepts {router : Router} {id : MemberId}
    (h : ∀ outbox, ¬ router.Accepts id outbox) (message : Message) :
    router.deliver id message = (false, router.countDropped) := by
  obtain ⟨fault, hfault⟩ := push_eq_error_of_room message (room_eq_zero_iff.2 h)
  unfold deliver
  rw [hfault]

theorem sameRegistry_deliver (router : Router) (id : MemberId) (message : Message) :
    SameRegistry router (router.deliver id message).2 := by
  unfold deliver
  split
  · rename_i hpush
    exact sameRegistry_of_push hpush
  · exact ⟨rfl, rfl, rfl, rfl, rfl⟩

/-- An answer goes to the end of the outbox of the member, if there is room. -/
theorem queued_deliver (router : Router) (id : MemberId) (message : Message) (other : MemberId) :
    (router.deliver id message).2.queued other = router.queued other ++
      (if other = id then [message] else []).take (router.room other) := by
  unfold deliver
  split
  · rename_i next hpush
    rw [queued_of_push hpush]
    by_cases hother : other = id
    · subst hother
      rw [if_pos rfl, List.take_of_length_le (room_pos_of_push_eq_ok hpush)]
    · rw [if_neg hother, List.take_nil]
  · rename_i fault hpush
    by_cases hother : other = id
    · subst hother
      rw [room_eq_zero_of_push_eq_error hpush, List.take_zero, List.append_nil]
      rfl
    · rw [if_neg hother, List.take_nil, List.append_nil]
      rfl

theorem room_deliver (router : Router) (id : MemberId) (message : Message) (other : MemberId) :
    (router.deliver id message).2.room other =
      router.room other - if other = id then 1 else 0 := by
  unfold deliver
  split
  · rename_i next hpush
    exact room_of_push hpush other
  · rename_i fault hpush
    by_cases hother : other = id
    · subst hother
      rw [if_pos rfl]
      show router.room other = router.room other - 1
      rw [room_eq_zero_of_push_eq_error hpush]
    · rw [if_neg hother]
      rfl

theorem sameRegistry_reportLost (router : Router) (routes : List Route) :
    SameRegistry router (router.reportLost routes) := by
  induction routes generalizing router with
  | nil => exact .refl router
  | cons route routes ih => exact (sameRegistry_deliver router _ _).trans (ih _)

/-- The reports that a member hears: one for each of its routes, as long as there is room. -/
theorem queued_reportLost (router : Router) (routes : List Route) (id : MemberId) :
    (router.reportLost routes).queued id = router.queued id ++
      ((routes.filter fun route => route.origin = id).map memberLost).take (router.room id) := by
  induction routes generalizing router with
  | nil => simp [reportLost]
  | cons route routes ih =>
      have hstep : router.reportLost (route :: routes) =
          (router.deliver route.origin (memberLost route)).2.reportLost routes := rfl
      rw [hstep, ih, queued_deliver, room_deliver, List.append_assoc, List.filter_cons]
      congr 1
      by_cases h : route.origin = id
      · rw [if_pos h.symm, if_pos h.symm, if_pos (decide_eq_true h), List.map_cons]
        cases router.room id with
        | zero => simp
        | succ n => simp
      · rw [if_neg fun e => h e.symm, if_neg fun e => h e.symm,
          if_neg (by simpa using h), List.take_nil]
        rfl

end Router

end Switchboard
