import Switchboard.Proofs.Connection.Admission

/-!
# Where the frame of a call is

Along a run, the items that have been accepted into the write queue are kept in a list. The frame of
a call stands in line with the name of the call, or it has been accepted (`Placed`). Every request
has a number of its own, in the list and in line together, as long as the numbers last (`Numbered`).
A call that ends while its frame stands in line takes the frame along, and its number never comes
into the list (`Retired`).
-/

namespace Switchboard

namespace Connection

/-! ## Frames stand in line, or have been accepted -/

/-- Where frames are, when `accepted` are the items that have come into the write queue. -/
structure Placed (accepted : List WriteItem) (conn : Connection) : Prop where
  frames : ∀ frame, .frame frame ∈ accepted → Uttered frame
  farewells : ∀ bytes, .shutdown (some bytes) ∈ accepted → bytes = (Message.close none).bytes
  waiters : ∀ waiter ∈ conn.queue.line, Uttered waiter.frame
  /-- Whoever stands in line is a call in progress with its request, or a handler with its
  answer. -/
  owners : ∀ waiter ∈ conn.queue.line,
    (∃ call ∈ conn.calls, waiter.call = some call.key ∧ askedIn waiter.frame = some call.id) ∨
      (waiter.call = none ∧ askedIn waiter.frame = none)
  /-- While the queue is open, the frame of a call stands in line or has been accepted. -/
  placed : ∀ call ∈ conn.calls, conn.queue.isOpen = true →
    conn.queue.holds call.key = true ∨ call.id ∈ requestIds accepted

theorem placed_new (options : ConnectionOptions) (cluster connectionId : String)
    (decoder : Decoder) :
    Placed [] (new options cluster connectionId decoder) where
  frames := fun _ h => nomatch h
  farewells := fun _ h => nomatch h
  waiters := fun _ h => nomatch h
  owners := fun _ h => nomatch h
  placed := fun _ h => nomatch h

/-- Somebody brings a frame: a call that begins with it, or a handler with its answer. -/
structure Brings (conn after : Connection) (waiter : Waiter) : Prop where
  uttered : Uttered waiter.frame
  calls : ∀ call ∈ conn.calls, call ∈ after.calls
  owner :
    (∃ call ∈ after.calls, waiter.call = some call.key ∧ askedIn waiter.frame = some call.id) ∨
    (waiter.call = none ∧ askedIn waiter.frame = none)
  new : ∀ call ∈ after.calls, call ∈ conn.calls ∨
    (waiter.call = some call.key ∧ askedIn waiter.frame = some call.id)
  queue : after.queue = conn.queue.push waiter

theorem Brings.isOpen {conn after : Connection} {waiter : Waiter} (h : Brings conn after waiter) :
    after.queue.isOpen = conn.queue.isOpen := by
  rw [h.queue, WriteQueue.isOpen_push]

namespace Placed

variable {accepted : List WriteItem} {conn after : Connection} (h : Placed accepted conn)

include h

/-- A step behind which nothing has been accepted, and nobody is new in line. -/
theorem of_subset (hline : after.queue.line ⊆ conn.queue.line)
    (hcalls : ∀ call ∈ after.calls, call ∈ conn.calls)
    (hkept : ∀ waiter ∈ after.queue.line, ∀ call ∈ conn.calls, waiter.call = some call.key →
      call ∈ after.calls)
    (hplaced : after.queue.isOpen = true → conn.queue.isOpen = true ∧
      ∀ call ∈ after.calls, conn.queue.holds call.key = true → after.queue.holds call.key = true) :
    Placed accepted after where
  frames := h.frames
  farewells := h.farewells
  waiters := fun waiter hwaiter => h.waiters waiter (hline hwaiter)
  owners := by
    intro waiter hwaiter
    rcases h.owners waiter (hline hwaiter) with ⟨call, hcall, hname, hasked⟩ | hanswer
    · exact Or.inl ⟨call, hkept waiter hwaiter call hcall hname, hname, hasked⟩
    · exact Or.inr hanswer
  placed := by
    intro call hcall hopen
    obtain ⟨hbefore, hholds⟩ := hplaced hopen
    exact (h.placed call (hcalls call hcall) hbefore).imp (hholds call hcall) id

/-- More may be accepted that fits in. -/
theorem accept {items : List WriteItem}
    (hframes : ∀ frame, .frame frame ∈ items → Uttered frame)
    (hfarewells : ∀ bytes, .shutdown (some bytes) ∈ items → bytes = (Message.close none).bytes) :
    Placed (accepted ++ items) conn where
  frames := by
    intro frame hframe
    rcases List.mem_append.1 hframe with hold | hnew
    · exact h.frames frame hold
    · exact hframes frame hnew
  farewells := by
    intro bytes hbytes
    rcases List.mem_append.1 hbytes with hold | hnew
    · exact h.farewells bytes hold
    · exact hfarewells bytes hnew
  waiters := h.waiters
  owners := h.owners
  placed := by
    intro call hcall hopen
    refine (h.placed call hcall hopen).imp_right fun hid => ?_
    rw [requestIds_append]
    exact List.mem_append_left _ hid

/-- A frame for which there is room is accepted, and nobody stands in line. -/
theorem push_of_room {waiter : Waiter} (hbrings : Brings conn after waiter)
    (hnone : conn.queue.line = []) (hline : after.queue.line = []) :
    Placed (accepted ++ [.frame waiter.frame]) after where
  frames := by
    intro frame hframe
    rcases List.mem_append.1 hframe with hold | hlast
    · exact h.frames frame hold
    · cases List.mem_singleton.1 hlast
      exact hbrings.uttered
  farewells := by
    intro bytes hbytes
    rcases List.mem_append.1 hbytes with hold | hlast
    · exact h.farewells bytes hold
    · cases List.mem_singleton.1 hlast
  waiters := by simp [hline]
  owners := by simp [hline]
  placed := by
    intro call hcall hopened
    right
    rw [requestIds_append, requestIds_frame]
    rcases hbrings.new call hcall with hold | ⟨-, hasked⟩
    · rcases h.placed call hold (hbrings.isOpen ▸ hopened) with hholds | hid
      · obtain ⟨other, hother, -⟩ := WriteQueue.holds_iff.1 hholds
        rw [hnone] at hother
        cases hother
      · exact List.mem_append_left _ hid
    · rw [hasked]
      exact List.mem_append_right _ List.mem_cons_self

/-- A frame for which there is no room stands last in line. -/
theorem push_of_full {waiter : Waiter} (hbrings : Brings conn after waiter)
    (hline : after.queue.line = conn.queue.line ++ [waiter]) : Placed accepted after where
  frames := h.frames
  farewells := h.farewells
  waiters := by
    intro other hother
    rw [hline] at hother
    rcases List.mem_append.1 hother with hold | hlast
    · exact h.waiters other hold
    · rw [List.mem_singleton.1 hlast]
      exact hbrings.uttered
  owners := by
    intro other hother
    rw [hline] at hother
    rcases List.mem_append.1 hother with hold | hlast
    · rcases h.owners other hold with ⟨call, hcall, hname, hasked⟩ | hanswer
      · exact Or.inl ⟨call, hbrings.calls call hcall, hname, hasked⟩
      · exact Or.inr hanswer
    · rw [List.mem_singleton.1 hlast]
      exact hbrings.owner
  placed := by
    intro call hcall hopened
    have hholds : ∀ other ∈ conn.queue.line ++ [waiter], other.call = some call.key →
        after.queue.holds call.key = true := by
      intro other hother hname
      refine WriteQueue.holds_iff.2 ⟨other, ?_, hname⟩
      rwa [hline]
    rcases hbrings.new call hcall with hold | ⟨hname, -⟩
    · rcases h.placed call hold (hbrings.isOpen ▸ hopened) with hheld | hid
      · obtain ⟨other, hother, hname⟩ := WriteQueue.holds_iff.1 hheld
        exact Or.inl (hholds other (List.mem_append_left _ hother) hname)
      · exact Or.inr hid
    · exact Or.inl (hholds waiter (List.mem_append_right _ List.mem_cons_self) hname)

/-- A frame that somebody brings stands in line, or has been accepted. -/
theorem push (hturn : conn.queue.InTurn) {waiter : Waiter} (hbrings : Brings conn after waiter) :
    Placed (accepted ++ conn.queue.entering waiter) after := by
  rcases WriteQueue.line_push hturn waiter with ⟨hroom, hnone, hline⟩ | ⟨hfull, hline⟩
  · have hentering : conn.queue.entering waiter = [.frame waiter.frame] := if_pos hroom
    rw [← hbrings.queue] at hline
    rw [hentering]
    exact h.push_of_room hbrings hnone hline
  · have hentering : conn.queue.entering waiter = [] := if_neg hfull
    rw [← hbrings.queue] at hline
    rw [hentering, List.append_nil]
    exact h.push_of_full hbrings hline

/-- Who moves up brings a frame that stood in line, and no farewell. -/
theorem accept_rising : Placed (accepted ++ conn.queue.rising) conn := by
  have hrising : ∀ {new}, new ∈ conn.queue.rising → ∃ waiter ∈ conn.queue.line,
      new = .frame waiter.frame := by
    intro new hnew
    unfold WriteQueue.rising at hnew
    cases hfirst : conn.queue.line with
    | nil => simp [hfirst] at hnew
    | cons first line =>
        rw [hfirst] at hnew
        exact ⟨first, List.mem_cons_self, List.mem_singleton.1 hnew⟩
  apply h.accept
  · intro frame hframe
    obtain ⟨waiter, hwaiter, hsame⟩ := hrising hframe
    cases hsame
    exact h.waiters waiter hwaiter
  · intro bytes hbytes
    obtain ⟨waiter, hwaiter, hsame⟩ := hrising hbytes
    cases hsame

/-- A call that stands in line stands there when the first moves up, or it is the first, and its
frame is accepted. -/
theorem holds_or_rises (hsound : conn.Sound) {call : Call} (hcall : call ∈ conn.calls)
    (hholds : conn.queue.holds call.key = true) :
    (∃ waiter ∈ conn.queue.line.tail, waiter.call = some call.key) ∨
      call.id ∈ requestIds conn.queue.rising := by
  obtain ⟨waiter, hwaiter, hname⟩ := WriteQueue.holds_iff.1 hholds
  unfold WriteQueue.rising
  cases hfirst : conn.queue.line with
  | nil =>
      rw [hfirst] at hwaiter
      cases hwaiter
  | cons first line =>
      rw [hfirst] at hwaiter
      rcases List.mem_cons.1 hwaiter with rfl | hrest
      · right
        rcases h.owners waiter (by rw [hfirst]; exact List.mem_cons_self) with
            ⟨owner, howner, hkey, hasked⟩ | ⟨hnone, -⟩
        · have hsame : owner = call := Lookup.eq_of_key hsound.callsDistinct howner hcall
            (Option.some.inj (hkey.symm.trans hname))
          rw [List.head?_cons, Option.map_some, Option.toList_some, requestIds_frame, hasked, hsame]
          exact List.mem_cons_self
        · rw [hname] at hnone
          cases hnone
      · exact Or.inl ⟨waiter, hrest, hname⟩

/-- When the writer takes an item, the first in line moves up. -/
theorem pop (hsound : conn.Sound) {item : WriteItem}
    (hpop : conn.queue.pop = some (item, after.queue))
    (hcalls : after.calls = conn.calls) : Placed (accepted ++ conn.queue.rising) after := by
  obtain ⟨items, hitems, hnext, hline⟩ := WriteQueue.items_of_pop hpop
  have hopen : after.queue.isOpen = conn.queue.isOpen := WriteQueue.isOpen_of_pop hpop
  have haccepted := h.accept_rising
  refine { haccepted with waiters := ?_, owners := ?_, placed := ?_ }
  · intro waiter hwaiter
    rw [hline] at hwaiter
    exact h.waiters waiter (List.mem_of_mem_tail hwaiter)
  · intro waiter hwaiter
    rw [hline] at hwaiter
    rw [hcalls]
    exact h.owners waiter (List.mem_of_mem_tail hwaiter)
  · intro call hcall hopened
    rw [hcalls] at hcall
    rcases haccepted.placed call hcall (hopen ▸ hopened) with hholds | hid
    · rcases h.holds_or_rises hsound hcall hholds with ⟨waiter, hwaiter, hname⟩ | hrises
      · exact Or.inl (WriteQueue.holds_iff.2 ⟨waiter, by rwa [hline], hname⟩)
      · rw [requestIds_append]
        exact Or.inr (List.mem_append_right _ hrises)
    · exact Or.inr hid

/-- A call that ends takes its frame out of the line. -/
theorem withdraw {call : Call}
    (hcalls : after.calls = conn.calls.filter fun other => other.key ≠ call.key)
    (hqueue : after.queue = conn.queue.withdraw call.key) : Placed accepted after := by
  have hline : after.queue.line =
      conn.queue.line.filter fun waiter => waiter.call ≠ some call.key := by
    rw [hqueue]
    rfl
  refine h.of_subset ?_ ?_ ?_ ?_
  · rw [hline]
    exact List.filter_sublist.subset
  · rw [hcalls]
    exact fun _ => List.mem_of_mem_filter
  · intro waiter hwaiter other hother hname
    rw [hline, List.mem_filter, hname] at hwaiter
    rw [hcalls, List.mem_filter]
    refine ⟨hother, ?_⟩
    simpa using hwaiter.2
  · intro hopen
    refine ⟨by rw [hqueue] at hopen; exact hopen, fun other hother hholds => ?_⟩
    obtain ⟨waiter, hwaiter, hname⟩ := WriteQueue.holds_iff.1 hholds
    rw [hcalls, List.mem_filter] at hother
    refine WriteQueue.holds_iff.2 ⟨waiter, ?_, hname⟩
    rw [hline, List.mem_filter, hname]
    refine ⟨hwaiter, ?_⟩
    simpa using hother.2

/-- Every step keeps track of the frames. -/
theorem perform (hsound : conn.Sound) (step : Step) :
    Placed (accepted ++ conn.admitted step) (conn.perform step) := by
  have htraffic := perform_traffic conn step
  generalize conn.admitted step = items at htraffic ⊢
  generalize conn.perform step = after at htraffic ⊢
  -- Where calls and line stay as they are, so do the places.
  have hsame : after.calls = conn.calls → after.queue.line = conn.queue.line →
      (after.queue.isOpen = true → conn.queue.isOpen = true) → Placed accepted after := by
    intro hcalls hline hopen
    refine h.of_subset ?_ ?_ ?_ ?_
    · rw [hline]
      exact List.Subset.refl _
    · rw [hcalls]
      exact fun _ hcall => hcall
    · rw [hcalls]
      exact fun _ _ _ hcall _ => hcall
    · intro hopened
      refine ⟨hopen hopened, fun call _ hholds => ?_⟩
      rwa [WriteQueue.holds_congr hline]
  cases htraffic with
  | still hcalls hqueue hwriter =>
      rw [List.append_nil]
      exact hsame hcalls (by rw [hqueue]) (by rw [hqueue]; exact id)
  | told farewell hfarewell hroom hcalls hqueue hwriter =>
      have hstill : Placed accepted after :=
        hsame hcalls (by rw [hqueue, WriteQueue.line_offer])
          (by rw [hqueue, WriteQueue.isOpen_offer]; exact id)
      apply hstill.accept
      · intro frame hframe
        cases List.mem_singleton.1 hframe
      · intro bytes hbytes
        cases List.mem_singleton.1 hbytes
        exact hfarewell bytes rfl
  | closed hcalls hqueue hwriter =>
      rw [List.append_nil]
      exact hsame hcalls (by rw [hqueue]; rfl) (by rw [hqueue]; exact fun hopen => nomatch hopen)
  | dropped call hcall hcalls hqueue hwriter =>
      rw [List.append_nil]
      exact h.withdraw hcalls hqueue
  | began call message hfits hasked hid hnumber hnext hstep hcalls hqueue hwriter =>
      have hframe : askedIn message.bytes = some call.id := (askedIn_bytes hfits).trans hasked
      have hsome : message.asked?.isSome = true := by
        rw [← Option.isSome_map (f := Prod.fst), hasked]
        rfl
      refine h.push hsound.turn ⟨⟨message, hfits, rfl, Or.inl hsome⟩, ?_, ?_, ?_, hqueue⟩
      · rw [hcalls]
        exact fun _ => List.mem_append_left _
      · rw [hcalls]
        exact Or.inl ⟨call, List.mem_append_right _ List.mem_cons_self, rfl, hframe⟩
      · intro other hother
        rw [hcalls] at hother
        rcases List.mem_append.1 hother with hold | hlast
        · exact Or.inl hold
        · rw [List.mem_singleton.1 hlast]
          exact Or.inr ⟨rfl, hframe⟩
  | answered message hfits hanswer hcalls hqueue hwriter =>
      have hframe : askedIn message.bytes = none := by
        rw [askedIn_bytes hfits, asked?_of_isAnswer hanswer]
        rfl
      refine h.push hsound.turn
        ⟨⟨message, hfits, rfl, Or.inr hanswer⟩, ?_, Or.inr ⟨rfl, hframe⟩, ?_, hqueue⟩
      · rw [hcalls]
        exact fun _ hcall => hcall
      · rw [hcalls]
        exact fun _ hcall => Or.inl hcall
  | took item hidle hpop hcalls hwriter hlive => exact h.pop hsound hpop hcalls
  | ended next hidle hpop hcalls hqueue hwriter =>
      have hline : after.queue.line ⊆ conn.queue.line := by
        rw [hqueue]
        exact (WriteQueue.line_of_pop hpop).subset
      rw [List.append_nil]
      refine h.of_subset hline ?_ ?_ ?_
      · rw [hcalls]
        exact fun _ hcall => hcall
      · rw [hcalls]
        exact fun _ _ _ hcall _ => hcall
      · rw [hqueue]
        exact fun hopen => nomatch hopen

end Placed

/-! ## Requests have numbers of their own -/

/-- The numbers of the requests that have been accepted or stand in line. -/
def inHand (accepted : List WriteItem) (conn : Connection) : List RequestId :=
  requestIds accepted ++ conn.queue.waitingIds

/-- A step brings at most the number that is next, and brings it at the end. -/
theorem inHand_perform (accepted : List WriteItem) {conn : Connection} (hsound : conn.Sound)
    (step : Step) :
    (inHand (accepted ++ conn.admitted step) (conn.perform step)).Sublist (inHand accepted conn) ∨
      ((step.isRequest = true ∧ conn.ids.next ≠ RequestIds.exhausted ∧
          (conn.perform step).ids.next = conn.ids.next + 1) ∧
        inHand (accepted ++ conn.admitted step) (conn.perform step) =
          inHand accepted conn ++ [⟨conn.ids.next⟩]) := by
  have htraffic := perform_traffic conn step
  generalize conn.admitted step = items at htraffic ⊢
  generalize conn.perform step = after at htraffic ⊢
  -- A frame that comes from the line into the queue stays in hand.
  have hsame : requestIds items ++ after.queue.waitingIds = conn.queue.waitingIds →
      (inHand (accepted ++ items) after).Sublist (inHand accepted conn) := by
    intro hids
    rw [inHand, inHand, requestIds_append, List.append_assoc, hids]
  cases htraffic with
  | still hcalls hqueue hwriter => exact Or.inl (hsame (by rw [hqueue]; rfl))
  | told farewell hfarewell hroom hcalls hqueue hwriter =>
      refine Or.inl (hsame ?_)
      rw [hqueue, requestIds_shutdown, WriteQueue.waitingIds, WriteQueue.line_offer]
      rfl
  | closed hcalls hqueue hwriter => exact Or.inl (hsame (by rw [hqueue]; rfl))
  | dropped call hcall hcalls hqueue hwriter =>
      left
      rw [inHand, inHand, List.append_nil, hqueue]
      exact (List.Sublist.refl _).append (List.filter_sublist.filterMap _)
  | began call message hfits hasked hid hnumber hnext hstep hcalls hqueue hwriter =>
      right
      have hframe : askedIn message.bytes = some ⟨conn.ids.next⟩ := by
        rw [askedIn_bytes hfits, hasked, hid]
      refine ⟨⟨hstep, hnumber, hnext⟩, ?_⟩
      rw [inHand, inHand, requestIds_append, List.append_assoc, hqueue,
        WriteQueue.numbers_push hsound.turn, hframe, List.append_assoc, Option.toList_some]
  | answered message hfits hanswer hcalls hqueue hwriter =>
      have hframe : askedIn message.bytes = none := by
        rw [askedIn_bytes hfits, asked?_of_isAnswer hanswer]
        rfl
      refine Or.inl (hsame ?_)
      rw [hqueue, WriteQueue.numbers_push hsound.turn, hframe]
      exact List.append_nil _
  | took item hidle hpop hcalls hwriter hlive =>
      obtain ⟨items, hitems, hnext, hline⟩ := WriteQueue.items_of_pop hpop
      refine Or.inl (hsame ?_)
      rw [conn.queue.waitingIds_eq, WriteQueue.waitingIds, hline]
  | ended next hidle hpop hcalls hqueue hwriter =>
      left
      rw [inHand, inHand, List.append_nil, hqueue]
      exact (List.Sublist.refl _).append ((WriteQueue.line_of_pop hpop).filterMap _)

/-- The counter of requests stays where it is, or a call begins and it moves on. -/
theorem ids_perform {conn : Connection} (hsound : conn.Sound) (step : Step) :
    (conn.perform step).ids.next = conn.ids.next ∨
      (step.isRequest = true ∧ (conn.perform step).ids.next = conn.ids.next + 1) := by
  cases step with
  | receive data => exact Or.inl (congrArg RequestIds.next (ids_receive hsound data))
  | receiveEnd => exact Or.inl (congrArg RequestIds.next (wanes_receiveEnd conn).ids)
  | write room => exact Or.inl (congrArg RequestIds.next (ids_write conn room))
  | request cluster payload timeout now =>
      exact (ids_request conn cluster payload timeout now).imp_right fun h => ⟨rfl, h⟩
  | poll key now => exact Or.inl (congrArg RequestIds.next (wanes_pollBy conn key now).ids)
  | act act => exact Or.inl (congrArg RequestIds.next (ids_act conn act))

/-- The number that is next when `drawn` have been drawn. -/
theorem toNat_next {next : UInt64} {drawn : Nat} (h : next = UInt64.ofNat (1 + drawn))
    (hlast : 1 + drawn < UInt64.size) : next.toNat = 1 + drawn := by
  rw [h]
  exact Nat.mod_eq_of_lt hlast

/-- Of the numbers, `drawn` have been drawn, and no two calls or requests have the same. -/
structure Numbered (accepted : List WriteItem) (drawn : Nat) (conn : Connection) : Prop where
  counted : conn.ids.next = UInt64.ofNat (1 + drawn)
  issued : ∀ id ∈ inHand accepted conn, 0 < id.value.toNat ∧ id.value.toNat ≤ drawn
  distinct : (inHand accepted conn).Nodup
  calls : ∀ call ∈ conn.calls, call.id.value.toNat ≤ drawn
  callsDistinct : (conn.calls.map Call.id).Nodup

theorem numbered_new (options : ConnectionOptions) (cluster connectionId : String)
    (decoder : Decoder) : Numbered [] 0 (new options cluster connectionId decoder) where
  counted := rfl
  issued := fun _ h => nomatch h
  distinct := List.nodup_nil
  calls := fun _ h => nomatch h
  callsDistinct := List.nodup_nil

/-- Calls end, or one begins that has the number that is next. -/
theorem calls_perform (conn : Connection) (step : Step) :
    (conn.perform step).calls.Sublist conn.calls ∨
      ∃ call, (conn.perform step).calls = conn.calls ++ [call] ∧ call.id = ⟨conn.ids.next⟩ ∧
        step.isRequest = true ∧ (conn.perform step).ids.next = conn.ids.next + 1 := by
  have htraffic := perform_traffic conn step
  generalize conn.admitted step = items at htraffic
  generalize conn.perform step = after at htraffic ⊢
  have hsame : after.calls = conn.calls → after.calls.Sublist conn.calls := by
    intro hcalls
    rw [hcalls]
  cases htraffic with
  | still hcalls hqueue hwriter => exact Or.inl (hsame hcalls)
  | told farewell hfarewell hroom hcalls hqueue hwriter => exact Or.inl (hsame hcalls)
  | closed hcalls hqueue hwriter => exact Or.inl (hsame hcalls)
  | dropped call hcall hcalls hqueue hwriter =>
      rw [hcalls]
      exact Or.inl List.filter_sublist
  | began call message hfits hasked hid hnumber hnext hstep hcalls hqueue hwriter =>
      exact Or.inr ⟨call, hcalls, hid, hstep, hnext⟩
  | answered message hfits hanswer hcalls hqueue hwriter => exact Or.inl (hsame hcalls)
  | took item hidle hpop hcalls hwriter hlive => exact Or.inl (hsame hcalls)
  | ended next hidle hpop hcalls hqueue hwriter => exact Or.inl (hsame hcalls)

/-- How many of the numbers a step draws. -/
def drawnBy (conn : Connection) (step : Step) : Nat :=
  if (conn.perform step).ids.next = conn.ids.next then 0 else 1

theorem drawnBy_le (conn : Connection) (step : Step) (hsound : conn.Sound) :
    conn.drawnBy step ≤ if step.isRequest then 1 else 0 := by
  unfold drawnBy
  rcases ids_perform hsound step with hsame | ⟨hrequest, -⟩
  · rw [if_pos hsame]
    exact Nat.zero_le _
  · rw [if_pos hrequest]
    split <;> omega

theorem drawnBy_of_succ {conn : Connection} {step : Step}
    (h : (conn.perform step).ids.next = conn.ids.next + 1) : conn.drawnBy step = 1 := by
  have hne : conn.ids.next + 1 ≠ conn.ids.next := by grind
  rw [drawnBy, if_neg (h ▸ hne)]

namespace Numbered

variable {accepted : List WriteItem} {drawn : Nat} {conn : Connection}

/-- As long as the numbers last, every step keeps them apart. -/
theorem perform (h : Numbered accepted drawn conn) (hsound : conn.Sound) (step : Step)
    (hlast : drawn + conn.drawnBy step < UInt64.size) :
    Numbered (accepted ++ conn.admitted step) (drawn + conn.drawnBy step) (conn.perform step) where
  counted := by
    rcases ids_perform hsound step with hsame | ⟨-, hnext⟩
    · rw [drawnBy, if_pos hsame, hsame]
      exact h.counted
    · rw [drawnBy_of_succ hnext, hnext, h.counted, UInt64.ofNat_add, UInt64.ofNat_add,
        UInt64.ofNat_add]
      exact UInt64.add_assoc _ _ _
  issued := by
    intro id hid
    rcases inHand_perform accepted hsound step with hsub | ⟨⟨-, -, hnext⟩, hnew⟩
    · obtain ⟨hpos, hle⟩ := h.issued id (hsub.subset hid)
      exact ⟨hpos, hle.trans (Nat.le_add_right _ _)⟩
    · rw [drawnBy_of_succ hnext] at hlast ⊢
      rw [hnew] at hid
      rcases List.mem_append.1 hid with hold | hlastId
      · obtain ⟨hpos, hle⟩ := h.issued id hold
        exact ⟨hpos, hle.trans (Nat.le_succ _)⟩
      · have hnumber := toNat_next h.counted (by omega)
        rw [List.mem_singleton.1 hlastId]
        show 0 < conn.ids.next.toNat ∧ conn.ids.next.toNat ≤ drawn + 1
        omega
  distinct := by
    rcases inHand_perform accepted hsound step with hsub | ⟨⟨-, -, hnext⟩, hnew⟩
    · exact h.distinct.sublist hsub
    · -- The number that is next is larger than those before.
      rw [drawnBy_of_succ hnext] at hlast
      have hnumber := toNat_next h.counted (by omega)
      rw [hnew]
      refine List.nodup_append.2 ⟨h.distinct, List.nodup_singleton _, ?_⟩
      rintro id hid other hother rfl
      have hle := (h.issued id hid).2
      rw [List.mem_singleton.1 hother] at hle
      change conn.ids.next.toNat ≤ drawn at hle
      omega
  calls := by
    intro call hcall
    rcases calls_perform conn step with hsub | ⟨begun, hcalls, hid, -, hnext⟩
    · exact (h.calls call (hsub.subset hcall)).trans (Nat.le_add_right _ _)
    · rw [drawnBy_of_succ hnext] at hlast ⊢
      rw [hcalls] at hcall
      rcases List.mem_append.1 hcall with hold | hnew
      · exact (h.calls call hold).trans (Nat.le_succ _)
      · have hnumber := toNat_next h.counted (by omega)
        rw [List.mem_singleton.1 hnew, hid]
        show conn.ids.next.toNat ≤ drawn + 1
        omega
  callsDistinct := by
    rcases calls_perform conn step with hsub | ⟨begun, hcalls, hid, -, hnext⟩
    · exact h.callsDistinct.sublist (hsub.map Call.id)
    · rw [drawnBy_of_succ hnext] at hlast
      have hnumber := toNat_next h.counted (by omega)
      rw [hcalls]
      refine Lookup.nodup_snoc h.callsDistinct fun call hcall hsame => ?_
      have hle := h.calls call hcall
      rw [hsame, hid] at hle
      change conn.ids.next.toNat ≤ drawn at hle
      omega

end Numbered

/-! ## Calls that leave the line -/

/-- A number that has been drawn, and is with no frame that has been accepted or stands in line. -/
structure Retired (id : RequestId) (accepted : List WriteItem) (drawn : Nat) (conn : Connection) :
    Prop where
  drawn : id.value.toNat ≤ drawn
  absent : id ∉ inHand accepted conn

/-- A number that is retired does not come back. -/
theorem Retired.perform {id : RequestId} {accepted : List WriteItem} {drawn : Nat}
    {conn : Connection}
    (h : Retired id accepted drawn conn) (hnumbered : Numbered accepted drawn conn)
    (hsound : conn.Sound) (step : Step) (hlast : drawn + conn.drawnBy step < UInt64.size) :
    Retired id (accepted ++ conn.admitted step) (drawn + conn.drawnBy step)
      (conn.perform step) where
  drawn := h.drawn.trans (Nat.le_add_right _ _)
  absent := by
    intro hid
    rcases inHand_perform accepted hsound step with hsub | ⟨⟨-, -, hnext⟩, hnew⟩
    · exact h.absent (hsub.subset hid)
    · rw [drawnBy_of_succ hnext] at hlast
      have hnumber := toNat_next hnumbered.counted (by omega)
      rw [hnew] at hid
      rcases List.mem_append.1 hid with hold | hlastId
      · exact h.absent hold
      · have hle := h.drawn
        rw [List.mem_singleton.1 hlastId] at hle
        change conn.ids.next.toNat ≤ drawn at hle
        omega

/-- A call in line has its number in line, and nowhere else. -/
theorem Placed.mem_waitingIds {accepted : List WriteItem} {conn : Connection}
    (h : Placed accepted conn) (hsound : conn.Sound) {call : Call} (hcall : call ∈ conn.calls)
    (hholds : conn.queue.holds call.key = true) : call.id ∈ conn.queue.waitingIds := by
  obtain ⟨waiter, hwaiter, hname⟩ := WriteQueue.holds_iff.1 hholds
  rcases h.owners waiter hwaiter with ⟨owner, howner, hkey, hasked⟩ | ⟨hnone, -⟩
  · have hsame : owner = call := Lookup.eq_of_key hsound.callsDistinct howner hcall
      (Option.some.inj (hkey.symm.trans hname))
    exact List.mem_filterMap.2 ⟨waiter, hwaiter, hsame ▸ hasked⟩
  · rw [hname] at hnone
    cases hnone

/-- A call that ends while it stands in line retires its number. -/
theorem retired_of_dropped {accepted : List WriteItem} {drawn : Nat} {conn : Connection}
    (hplaced : Placed accepted conn) (hnumbered : Numbered accepted drawn conn)
    (hsound : conn.Sound) (step : Step) {call : Call} (hcall : call ∈ conn.calls)
    (hholds : conn.queue.holds call.key = true) (hgone : call ∉ (conn.perform step).calls) :
    Retired call.id (accepted ++ conn.admitted step) (drawn + conn.drawnBy step)
      (conn.perform step) where
  drawn := (hnumbered.calls call hcall).trans (Nat.le_add_right _ _)
  absent := by
    have hwaiting := hplaced.mem_waitingIds hsound hcall hholds
    have hnot : call.id ∉ requestIds accepted := fun hid =>
      (List.nodup_append.1 hnumbered.distinct).2.2 _ hid _ hwaiting rfl
    have htraffic := perform_traffic conn step
    generalize conn.admitted step = items at htraffic ⊢
    generalize conn.perform step = after at htraffic hgone ⊢
    have hstays : after.calls = conn.calls → False := by
      intro hcalls
      rw [hcalls] at hgone
      exact hgone hcall
    cases htraffic with
    | still hcalls hqueue hwriter => exact (hstays hcalls).elim
    | told farewell hfarewell hroom hcalls hqueue hwriter => exact (hstays hcalls).elim
    | closed hcalls hqueue hwriter => exact (hstays hcalls).elim
    | began begun message hfits hasked hid hnumber hnext hstep hcalls hqueue hwriter =>
        rw [hcalls] at hgone
        exact (hgone (List.mem_append_left _ hcall)).elim
    | answered message hfits hanswer hcalls hqueue hwriter => exact (hstays hcalls).elim
    | took item hidle hpop hcalls hwriter hlive => exact (hstays hcalls).elim
    | ended next hidle hpop hcalls hqueue hwriter => exact (hstays hcalls).elim
    | dropped ended hended hcalls hqueue hwriter =>
        -- The call that has ended is this one, and nobody else has its number.
        have hkey : call.key = ended.key := by
          by_contra hkey
          rw [hcalls, List.mem_filter] at hgone
          exact hgone ⟨hcall, by simpa using hkey⟩
        rw [inHand, List.append_nil, List.mem_append]
        rintro (hid | hid)
        · exact hnot hid
        · rw [hqueue] at hid
          obtain ⟨waiter, hwaiter, hasked⟩ := List.mem_filterMap.1 hid
          obtain ⟨hline, hname⟩ := List.mem_filter.1 hwaiter
          rcases hplaced.owners waiter hline with ⟨owner, howner, hown, hnumber⟩ | ⟨-, hnone⟩
          · have hsame : owner = call := Lookup.eq_of_key hnumbered.callsDistinct howner hcall
              (Option.some.inj (hnumber.symm.trans hasked))
            rw [hown, hsame, hkey] at hname
            simp at hname
          · rw [hasked] at hnone
            cases hnone

end Connection

end Switchboard
