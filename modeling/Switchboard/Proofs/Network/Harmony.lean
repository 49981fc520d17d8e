import Switchboard.Proofs.Network.Passing

/-!
# Networks in harmony

The clients of a network and its relay are in step with one log: numbers stand where the counters
say, every link is that of one client, and every client is in step (`Harmony`). Each step of the
network keeps it so, with what the step does to calls behind the log (`Harmony.perform`), and so
does a run (`Harmony.run`), as long as no counter comes round.
-/

namespace Switchboard

/-! ## What a step of a client leaves as it is -/

namespace Peer

variable (peer : Peer) (now : Instant)

theorem onConnection_who (f : Connection → Connection) :
    (peer.onConnection f).name = peer.name ∧ (peer.onConnection f).link = peer.link := by
  unfold onConnection
  cases peer.phase <;> exact ⟨rfl, rfl⟩

/-- A client keeps its name and its link. -/
theorem perform_who (step : Step) :
    (peer.perform now step).name = peer.name ∧ (peer.perform now step).link = peer.link := by
  cases step with
  | write room =>
      show (peer.write room).name = peer.name ∧ (peer.write room).link = peer.link
      unfold write
      cases peer.phase <;> exact ⟨rfl, rfl⟩
  | read limit =>
      show (peer.read limit).name = peer.name ∧ (peer.read limit).link = peer.link
      unfold read
      cases peer.phase with
      | opening attempt =>
          by_cases hwritten : attempt.isWritten = true
          · simp only [hwritten, if_true]
            cases attempt.receive (peer.toClient.extract 0 limit) <;> exact ⟨rfl, rfl⟩
          · simp only [hwritten]
            exact ⟨rfl, rfl⟩
      | joined conn => exact ⟨rfl, rfl⟩
      | failed error => exact ⟨rfl, rfl⟩
  | readEnd =>
      show peer.readEnd.name = peer.name ∧ peer.readEnd.link = peer.link
      unfold readEnd
      cases peer.phase <;> exact ⟨rfl, rfl⟩
  | request cluster payload timeout => exact peer.onConnection_who _
  | poll key => exact peer.onConnection_who _
  | act act => exact peer.onConnection_who _

theorem breakOff_who (fault : HostFault) :
    (peer.breakOff fault).name = peer.name ∧ (peer.breakOff fault).link = peer.link := by
  unfold breakOff
  cases peer.phase <;> exact ⟨rfl, rfl⟩

/-- What a step of a client does is named for the client. -/
theorem owner_of_events {step : Step} {mark : Mark} (h : mark ∈ marks (peer.events now step)) :
    mark.owner? = some peer.link := by
  have hone : ∀ {α : Type} (found : Option α) (f : α → Event) (mark : Mark),
      (∀ a, ∀ mark ∈ (f a).marks, mark.owner? = some peer.link) →
        mark ∈ marks (found.toList.map f) → mark.owner? = some peer.link := by
    intro α found f mark howner hmark
    obtain ⟨event, hevent, hnamed⟩ := List.mem_flatMap.1 hmark
    obtain ⟨a, -, rfl⟩ := List.mem_map.1 hevent
    exact howner a mark hnamed
  -- Only a step that reads is told by its invocations; all others by the connection that takes
  -- them.
  by_cases hread : ∃ limit, step = .read limit
  · obtain ⟨limit, rfl⟩ := hread
    obtain ⟨service, -, rfl | rfl⟩ := mem_marks_invoked.1 h <;> rfl
  cases hconn : peer.connection? with
  | none =>
      rw [events_of_none hconn now fun limit hstep => hread ⟨limit, hstep⟩] at h
      cases h
  | some conn =>
      have hphase := phase_of_connection? hconn
      cases step with
      | write room => cases h
      | read limit => exact absurd ⟨limit, rfl⟩ hread
      | readEnd => cases h
      | request cluster payload timeout =>
          unfold events at h
          simp only [hphase] at h
          cases hstart : (conn.request cluster payload timeout now).1 with
          | started key =>
              rw [hstart] at h
              rcases List.mem_cons.1 h with rfl | h
              · rfl
              · rw [List.mem_singleton.1 h]
                rfl
          | refused error =>
              rw [hstart] at h
              cases h
          | exhausted =>
              rw [hstart] at h
              cases h
      | poll key =>
          unfold events at h
          simp only [hphase] at h
          refine hone _ _ mark ?_ h
          intro result mark hmark
          rw [List.mem_singleton.1 hmark]
          rfl
      | act act =>
          cases act with
          | complete key result =>
              unfold events at h
              simp only [hphase] at h
              refine hone _ _ mark ?_ h
              intro service mark hmark
              rw [List.mem_singleton.1 hmark]
              rfl
          | _ => cases h

/-! ## Numbers of requests -/

theorem nextNumber_of_none (h : peer.connection? = none) : peer.nextNumber = 1 := by
  unfold nextNumber
  rw [h]
  rfl

/-- A step of a client draws one number at most. -/
theorem nextNumber_perform (hsound : ∀ conn, peer.phase = .joined conn → conn.Sound) (step : Step) :
    (peer.perform now step).nextNumber = peer.nextNumber ∨
      (peer.perform now step).nextNumber = peer.nextNumber + 1 := by
  cases hconn : peer.connection? with
  | none =>
      left
      rw [peer.nextNumber_of_none hconn]
      -- A client that has not joined counts as one that has drawn nothing, before and after.
      have hstill : ∀ f : Connection → Connection, (peer.onConnection f).nextNumber = 1 := by
        intro f
        rw [onConnection_of_none hconn]
        exact peer.nextNumber_of_none hconn
      cases step with
      | request cluster payload timeout => exact hstill _
      | poll key => exact hstill _
      | act act => exact hstill _
      | write room =>
          show (peer.write room).nextNumber = 1
          unfold write
          cases hphase : peer.phase with
          | joined conn =>
              unfold connection? at hconn
              rw [hphase] at hconn
              cases hconn
          | opening attempt => rfl
          | failed error =>
              exact peer.nextNumber_of_none hconn
      | readEnd =>
          show peer.readEnd.nextNumber = 1
          unfold readEnd
          cases hphase : peer.phase with
          | joined conn =>
              unfold connection? at hconn
              rw [hphase] at hconn
              cases hconn
          | opening attempt => rfl
          | failed error => exact peer.nextNumber_of_none hconn
      | read limit =>
          show (peer.read limit).nextNumber = 1
          unfold read
          cases hphase : peer.phase with
          | joined conn =>
              unfold connection? at hconn
              rw [hphase] at hconn
              cases hconn
          | opening attempt =>
              by_cases hwritten : attempt.isWritten = true
              · simp only [hwritten, if_true]
                cases attempt.receive (peer.toClient.extract 0 limit) with
                | pending attempt => rfl
                | failed error => rfl
                | accepted connectionId decoder =>
                    show ((Connection.new _ _ _ decoder).receive ByteArray.empty).ids.next = 1
                    rw [Connection.ids_receive (Connection.sound_new _ _ _ _)]
                    rfl
              · simp only [hwritten]
                exact peer.nextNumber_of_none hconn
          | failed error => rfl
  | some conn =>
      -- Only a request draws a number.
      have hphase := phase_of_connection? hconn
      have hafter : ∀ conn' : Connection, conn'.ids = conn.ids → conn'.ids.next = conn.ids.next :=
        fun _ hids => congrArg RequestIds.next hids
      rw [← withConnection_eq hphase]
      cases step with
      | write room => exact Or.inl (hafter _ (conn.ids_write room))
      | read limit => exact Or.inl (hafter _ (Connection.ids_receive (hsound conn hphase) _))
      | readEnd => exact Or.inl (hafter _ conn.wanes_receiveEnd.ids)
      | request cluster payload timeout => exact conn.ids_request cluster payload timeout now
      | poll key => exact Or.inl (hafter _ (conn.wanes_pollBy key now).ids)
      | act act => exact Or.inl (hafter _ (conn.ids_act act))

/-- No number is drawn when streams break off. -/
theorem nextNumber_breakOff (fault : HostFault) :
    (peer.breakOff fault).nextNumber = peer.nextNumber := by
  unfold breakOff nextNumber connection?
  cases peer.phase with
  | joined conn => exact congrArg RequestIds.next (conn.wanes_receiveFault (.host fault)).ids
  | _ => rfl

end Peer

namespace Relay

variable (relay : Relay) (name : String) (remote : SocketAddress) (now : Instant)

theorem router_accept : (relay.accept name remote now).2.router = relay.router := by
  unfold accept
  simp only
  split <;> rfl

theorem id_accept : (relay.accept name remote now).1 = relay.nextLink := by
  unfold accept
  simp only
  split <;> rfl

end Relay

/-! ## Harmony -/

/-- Clients and a relay that are in step with one log, where the counters have moved on so often. -/
structure Harmony (log : List Event) (count : Network.Counter → Nat) (net : Network) : Prop where
  coherent : Coherent log
  counted : ∀ counter, net.counter counter = UInt64.ofNat (1 + count counter)
  names : (net.peers.map Peer.name).Nodup
  links : (net.peers.map Peer.link).Nodup
  owners : ∀ mark ∈ marks log, ∀ link, mark.owner? = some link → link < net.relay.nextLink
  standing : net.relay.Standing (count .member)
  records : Relay.Records log (count .route) net.relay
  peers : ∀ peer ∈ net.peers, ∃ link, InStep log (count (.request peer.name)) net.relay peer link
  /-- Every link is that of a client. -/
  attended : ∀ link ∈ net.relay.links, ∃ peer ∈ net.peers, peer.link = link.id

/-- How often the counters have moved on behind a step. -/
def tally (count : Network.Counter → Nat) (net after : Network) (counter : Network.Counter) : Nat :=
  count counter + moves (net.counter counter) (after.counter counter)

theorem tally_of_eq {count : Network.Counter → Nat} {net after : Network}
    {counter : Network.Counter}
    (h : after.counter counter = net.counter counter) :
    tally count net after counter = count counter := by
  unfold tally
  rw [moves_of_eq h, Nat.add_zero]

/-- Where a counter stands behind a step that moves it on by one at most. -/
theorem counted_tally {count : Network.Counter → Nat} {net after : Network}
    {counter : Network.Counter} (hcount : net.counter counter = UInt64.ofNat (1 + count counter))
    (hnext : after.counter counter = net.counter counter ∨
      after.counter counter = net.counter counter + 1) :
    after.counter counter = UInt64.ofNat (1 + tally count net after counter) := by
  unfold tally
  rcases hnext with hsame | hnext
  · rw [moves_of_eq hsame, hsame]
    exact hcount
  · rw [hnext, moves_succ, hcount]
    exact succ_ofNat _

namespace Network

variable {net after : Network} {g : Peer → Peer}

theorem mem_of_peer? {name : String} {peer : Peer} (h : net.peer? name = some peer) :
    peer ∈ net.peers := List.mem_of_find?_eq_some h

theorem name_of_peer? {name : String} {peer : Peer} (h : net.peer? name = some peer) :
    peer.name = name := by simpa using List.find?_some h

/-- If one client keeps its name and its link, all do. -/
theorem change_who (name : String) {f : Peer → Peer}
    (hwho : ∀ peer, (f peer).name = peer.name ∧ (f peer).link = peer.link) (peer : Peer) :
    (if peer.name = name then f peer else peer).name = peer.name ∧
      (if peer.name = name then f peer else peer).link = peer.link := by
  by_cases hname : peer.name = name
  · rw [if_pos hname]
    exact hwho peer
  · rw [if_neg hname]
    exact ⟨rfl, rfl⟩

theorem change_nextNumber (name : String) {f : Peer → Peer}
    (hnumber : ∀ peer, (f peer).nextNumber = peer.nextNumber) (peer : Peer) :
    (if peer.name = name then f peer else peer).nextNumber = peer.nextNumber := by
  by_cases hname : peer.name = name
  · rw [if_pos hname]
    exact hnumber peer
  · rw [if_neg hname]

/-- The client of a name, where all clients keep their names. -/
theorem peer?_of_map (hpeers : after.peers = net.peers.map g)
    (hname : ∀ peer, (g peer).name = peer.name) (name : String) :
    after.peer? name = (net.peer? name).map g := by
  unfold peer?
  rw [hpeers]
  exact Lookup.find?_map hname net.peers name

/-- Where a counter of requests stands, where all clients keep their names. -/
theorem counter_of_map (hpeers : after.peers = net.peers.map g)
    (hname : ∀ peer, (g peer).name = peer.name) (name : String) :
    after.counter (.request name) =
      ((net.peer? name).map fun peer => (g peer).nextNumber).getD 1 := by
  show ((after.peer? name).map Peer.nextNumber).getD 1 = _
  rw [peer?_of_map hpeers hname, Option.map_map]
  rfl

end Network

namespace Harmony

variable {log new : List Event} {count : Network.Counter → Nat} {net after : Network}
  (h : Harmony log count net)

include h

theorem peer?_of_mem {peer : Peer} (hpeer : peer ∈ net.peers) : net.peer? peer.name = some peer :=
  Lookup.find?_eq_some_of_mem h.names hpeer

/-- What is taken off next on any link has been sent with reason. -/
theorem heeds : Relay.Heeds log net.relay := by
  intro id link message hlink hitem
  obtain ⟨peer, hpeer, hsame⟩ := h.attended link (Relay.mem_of_link? hlink)
  obtain ⟨link', hstep⟩ := h.peers peer hpeer
  have hid : peer.link = id := hsame.trans (Relay.id_of_link? hlink)
  have hfound := hstep.found
  rw [hid, hlink, Option.some.injEq] at hfound
  subst hfound
  rw [← hid]
  exact hstep.heeds hitem

/-- A step that changes nothing but the clock, if that. -/
theorem still (hrelay : after.relay = net.relay) (hpeers : after.peers = net.peers) :
    Harmony (log ++ []) (tally count net after) after := by
  have hsame : ∀ counter, after.counter counter = net.counter counter := by
    intro counter
    unfold Network.counter Network.peer?
    rw [hrelay, hpeers]
  have htally : tally count net after = count := funext fun counter => tally_of_eq (hsame counter)
  rw [htally, List.append_nil]
  refine ⟨h.coherent, fun counter => (hsame counter).trans (h.counted counter), hpeers ▸ h.names,
    hpeers ▸ h.links, hrelay ▸ h.owners, hrelay ▸ h.standing, hrelay ▸ h.records, ?_, ?_⟩
  · rw [hrelay, hpeers]
    exact h.peers
  · rw [hrelay, hpeers]
    exact h.attended

/-- A step of one client. All that it names is named for that client. -/
theorem changed {name : String} {peer : Peer} {f : Peer → Peer} (hpeer : net.peer? name = some peer)
    (hwho : ∀ other, (f other).name = other.name ∧ (f other).link = other.link)
    (hnumber : (f peer).nextNumber = peer.nextNumber ∨ (f peer).nextNumber = peer.nextNumber + 1)
    (howner : ∀ mark ∈ marks new, mark.owner? = some peer.link) (hcoherent : Coherent (log ++ new))
    (hstep : ∀ link, InStep log (count (.request name)) net.relay peer link →
      InStep (log ++ new) (count (.request name) + moves peer.nextNumber (f peer).nextNumber)
        net.relay
        (f peer) link) :
    Harmony (log ++ new) (tally count net (net.change name f)) (net.change name f) := by
  have hmem := Network.mem_of_peer? hpeer
  have hname := Network.name_of_peer? hpeer
  obtain ⟨link, hinstep⟩ := h.peers peer hmem
  have hkeep := Network.change_who name hwho
  have hself : (if peer.name = name then f peer else peer) = f peer := if_pos hname
  have hbefore : net.counter (.request name) = peer.nextNumber := by
    show ((net.peer? name).map Peer.nextNumber).getD 1 = peer.nextNumber
    rw [hpeer]
    rfl
  have hafter : (net.change name f).counter (.request name) = (f peer).nextNumber := by
    rw [Network.counter_of_map rfl (fun other => (hkeep other).1), hpeer, Option.map_some, hself]
    rfl
  have hmembers : tally count net (net.change name f) .member = count .member := tally_of_eq rfl
  have hroutes : tally count net (net.change name f) .route = count .route := tally_of_eq rfl
  have hmarks : ∀ mark ∈ marks (log ++ new), mark ∈ marks log ∨ mark.owner? = some peer.link :=
    fun mark hmark => (mem_marks_append.1 hmark).imp_right (howner mark)
  -- Only the counter of this client moves, and only this client is named.
  refine ⟨hcoherent, ?_, ?_, ?_, ?_, ?_, ?_, ?_, ?_⟩
  · intro counter
    refine counted_tally (h.counted counter) ?_
    cases counter with
    | member => exact Or.inl rfl
    | route => exact Or.inl rfl
    | request other =>
        by_cases hother : other = name
        · rw [hother, hbefore, hafter]
          exact hnumber
        · left
          rw [Network.counter_of_map rfl (fun other => (hkeep other).1)]
          show _ = ((net.peer? other).map Peer.nextNumber).getD 1
          -- The counters of other clients stay, because a name is that of one client.
          cases hfound : net.peer? other with
          | none => rfl
          | some found =>
              have hne : found.name ≠ name := by
                rw [Network.name_of_peer? hfound]
                exact hother
              rw [Option.map_some, Option.map_some, if_neg hne]
  · show ((net.peers.map _).map Peer.name).Nodup
    rw [List.map_map]
    have hsame : (Peer.name ∘ fun other => if other.name = name then f other else other) =
        Peer.name := funext fun other => (hkeep other).1
    rw [hsame]
    exact h.names
  · show ((net.peers.map _).map Peer.link).Nodup
    rw [List.map_map]
    have hsame : (Peer.link ∘ fun other => if other.name = name then f other else other) =
        Peer.link := funext fun other => (hkeep other).2
    rw [hsame]
    exact h.links
  · intro mark hmark owner howned
    rcases hmarks mark hmark with hold | hnew
    · exact h.owners mark hold owner howned
    · rw [hnew, Option.some.injEq] at howned
      rw [← howned, ← Relay.id_of_link? hinstep.found]
      exact h.standing.bounded link (Relay.mem_of_link? hinstep.found)
  · rw [hmembers]
    exact h.standing
  · rw [hroutes]
    refine ⟨?_, fun route hroute => (h.records.recorded route hroute).grow (fun hat => hat) new⟩
    intro id hmark
    rcases hmarks _ hmark with hold | hnew
    · exact h.records.routes id hold
    · cases hnew
  · intro other hother
    obtain ⟨old, hold, rfl⟩ := List.mem_map.1 hother
    -- The client itself goes on as it says; the others know nothing of what is new, which is named
    -- for this client.
    by_cases hsame : old.name = name
    · have hpeer' := h.peer?_of_mem hold
      rw [hsame, hpeer, Option.some.injEq] at hpeer'
      subst hpeer'
      rw [hself, (hwho peer).1, hname]
      refine ⟨link, ?_⟩
      unfold tally
      rw [hbefore, hafter]
      rw [hname] at hinstep
      exact hstep link hinstep
    · rw [if_neg hsame]
      obtain ⟨link', hinstep'⟩ := h.peers old hold
      refine ⟨link', (hinstep'.grow ?_).more (Nat.le_add_right _ _)⟩
      intro mark hmark hlink
      rw [howner mark hmark, Option.some.injEq] at hlink
      exact hsame (Lookup.eq_of_key h.links hmem hold hlink ▸ hname)
  · intro link hlink
    obtain ⟨old, hold, hsame⟩ := h.attended link hlink
    exact ⟨_, List.mem_map_of_mem hold, (hkeep old).2.trans hsame⟩

/-- A step of a client. -/
theorem client {name : String} {peer : Peer} (hpeer : net.peer? name = some peer) (step : Peer.Step)
    (hroom : (peer.perform net.clock step).nextNumber ≠ peer.nextNumber →
      count (.request name) < UInt64.size) :
    Harmony (log ++ peer.events net.clock step)
      (tally count net (net.change name fun peer => peer.perform net.clock step))
      (net.change name fun peer => peer.perform net.clock step) := by
  obtain ⟨link, hinstep⟩ := h.peers peer (Network.mem_of_peer? hpeer)
  rw [Network.name_of_peer? hpeer] at hinstep
  have hcount : peer.nextNumber = UInt64.ofNat (1 + count (.request name)) := by
    have hcounted := h.counted (.request name)
    have hnumber : net.counter (.request name) = peer.nextNumber := by
      show ((net.peer? name).map Peer.nextNumber).getD 1 = peer.nextNumber
      rw [hpeer]
      rfl
    rw [← hnumber]
    exact hcounted
  refine h.changed hpeer (fun other => other.perform_who net.clock step) ?_
    (fun mark hmark => peer.owner_of_events net.clock hmark)
    (hinstep.perform h.coherent net.clock step hcount hroom).2 ?_
  · exact peer.nextNumber_perform net.clock
      (fun conn hconn => (hinstep.ledger conn hconn).sound) step
  · intro link' hinstep'
    exact (hinstep'.perform h.coherent net.clock step hcount hroom).1

/-! ## Steps of the relay -/

/-- What a step of the relay tells has a reason in the log. -/
theorem tale (step : Relay.Step)
    (hjoining : (net.relay.perform step).router.nextMember ≠ net.relay.router.nextMember →
      count .member < UInt64.size)
    (hopening : (net.relay.perform step).router.nextRoute ≠ net.relay.router.nextRoute →
      count .route < UInt64.size) :
    Tale log (net.relay.events step) net.relay (net.relay.perform step) ∧
      Relay.Records (log ++ net.relay.events step)
        (count .route + moves net.relay.router.nextRoute (net.relay.perform step).router.nextRoute)
        (net.relay.perform step) ∧
      (net.relay.perform step).Standing
        (count .member +
          moves net.relay.router.nextMember (net.relay.perform step).router.nextMember) :=
  Relay.tale_perform step h.coherent h.standing h.records h.heeds (h.counted .member) hjoining
    (h.counted .route) hopening

/-- Whoever is named for what the relay has told is a client. -/
theorem owners_of_tale {relay : Relay} (htale : Tale log new net.relay relay) :
    ∀ mark ∈ marks (log ++ new), ∀ link, mark.owner? = some link → link < relay.nextLink := by
  intro mark hmark owner howned
  refine Nat.lt_of_lt_of_le ?_ htale.nextLink
  rcases mem_marks_append.1 hmark with hold | hnew
  · exact h.owners mark hold owner howned
  · rcases htale.names mark hnew with ⟨id, number, rfl⟩ | ⟨id, rfl⟩
    · obtain ⟨link, message, hlink, -⟩ := htale.taken id number hnew
      cases howned
      rw [← Relay.id_of_link? hlink]
      exact h.standing.bounded link (Relay.mem_of_link? hlink)
    · cases howned

/-- A step of the relay, with changes to the streams of clients. -/
theorem relayed (step : Relay.Step) {g : Peer → Peer}
    (hrelay : after.relay = net.relay.perform step) (hpeers : after.peers = net.peers.map g)
    (hroom : ∀ counter, after.counter counter ≠ net.counter counter → count counter < UInt64.size)
    (hwho : ∀ peer, (g peer).name = peer.name ∧ (g peer).link = peer.link)
    (hnumber : ∀ peer, (g peer).nextNumber = peer.nextNumber)
    (haccept : ∀ name remote now, step ≠ .accept name remote now)
    (hstep : ∀ peer ∈ net.peers, ∀ drawn link, InStep log drawn net.relay peer link →
      Tale log (net.relay.events step) net.relay (net.relay.perform step) →
        ∃ link', InStep (log ++ net.relay.events step) drawn (net.relay.perform step)
          (g peer) link') :
    Harmony (log ++ net.relay.events step) (tally count net after) after := by
  have hmember : after.counter .member = (net.relay.perform step).router.nextMember :=
    congrArg (fun relay : Relay => relay.router.nextMember) hrelay
  have hroute : after.counter .route = (net.relay.perform step).router.nextRoute :=
    congrArg (fun relay : Relay => relay.router.nextRoute) hrelay
  have hrequest : ∀ name, after.counter (.request name) = net.counter (.request name) := by
    intro name
    rw [Network.counter_of_map hpeers (fun peer => (hwho peer).1)]
    show _ = ((net.peer? name).map Peer.nextNumber).getD 1
    cases net.peer? name with
    | none => rfl
    | some peer => exact hnumber peer
  -- The relay draws its numbers from counters that do not run over.
  obtain ⟨htale, hrecords, hstanding⟩ :=
    h.tale step (hmember ▸ hroom .member) (hroute ▸ hroom .route)
  refine ⟨htale.coherent, ?_, ?_, ?_, ?_, ?_, ?_, ?_, ?_⟩
  · intro counter
    refine counted_tally (h.counted counter) ?_
    cases counter with
    | member =>
        rw [hmember]
        exact htale.nextMember
    | route =>
        rw [hroute]
        exact htale.nextRoute
    | request name => exact Or.inl (hrequest name)
  · -- Names and links stay with their clients.
    have hsame : Peer.name ∘ g = Peer.name := funext fun peer => (hwho peer).1
    rw [hpeers, List.map_map, hsame]
    exact h.names
  · have hsame : Peer.link ∘ g = Peer.link := funext fun peer => (hwho peer).2
    rw [hpeers, List.map_map, hsame]
    exact h.links
  · rw [hrelay]
    exact h.owners_of_tale htale
  · unfold tally
    rw [hmember, hrelay]
    exact hstanding
  · unfold tally
    rw [hroute, hrelay]
    exact hrecords
  · intro peer' hpeer'
    rw [hpeers] at hpeer'
    obtain ⟨peer, hpeer, rfl⟩ := List.mem_map.1 hpeer'
    obtain ⟨link, hinstep⟩ := h.peers peer hpeer
    rw [(hwho peer).1, tally_of_eq (hrequest peer.name), hrelay]
    exact hstep peer hpeer _ link hinstep htale
  · intro link' hlink'
    rw [hrelay] at hlink'
    -- Every link was there before, for the relay has not accepted one.
    rcases Relay.continues_of_mem_links hlink' with
      ⟨link, hlink, hcontinues⟩ | ⟨name, remote, now, e, -⟩
    · obtain ⟨peer, hpeer, hsame⟩ := h.attended link hlink
      refine ⟨g peer, ?_, ?_⟩
      · rw [hpeers]
        exact List.mem_map_of_mem hpeer
      · rw [(hwho peer).2, hsame, hcontinues.id]
    · exact absurd e (haccept name remote now)

/-- A step of the relay, and no changes to the streams of clients. -/
theorem relayed_only (step : Relay.Step)
    (hroom : ∀ counter, (net.onRelay fun relay => relay.perform step).counter counter ≠
      net.counter counter → count counter < UInt64.size)
    (haccept : ∀ name remote now, step ≠ .accept name remote now)
    (hreceive : ∀ id data now, step ≠ .receive id data now) :
    Harmony (log ++ net.relay.events step)
      (tally count net (net.onRelay fun relay => relay.perform step))
      (net.onRelay fun relay => relay.perform step) := by
  refine h.relayed step (g := id) rfl (List.map_id _).symm hroom (fun _ => ⟨rfl, rfl⟩)
    (fun _ => rfl)
    haccept ?_
  intro peer hpeer drawn link hinstep htale
  exact hinstep.perform_relay h.coherent htale fun data now => hreceive peer.link data now

/-- A move of the relay. -/
theorem move (move : Relay.Move)
    (hroom : ∀ counter, (net.perform (.relay move)).counter counter ≠ net.counter counter →
      count counter < UInt64.size) :
    Harmony (log ++ net.relay.events (move.toStep net.clock))
      (tally count net (net.perform (.relay move))) (net.perform (.relay move)) := by
  refine h.relayed_only (move.toStep net.clock) hroom ?_ ?_
  · intro name remote now hstep
    cases move <;> cases hstep
  · intro id data now hstep
    cases move <;> cases hstep

/-- Bytes arrive from a client. -/
theorem deliver (name : String) (limit : Nat)
    (hroom : ∀ counter, (net.deliver name limit).counter counter ≠ net.counter counter →
      count counter < UInt64.size) :
    Harmony (log ++ []) (tally count net (net.deliver name limit)) (net.deliver name limit) := by
  unfold Network.deliver at hroom ⊢
  cases hpeer : net.peer? name with
  | none => exact h.still rfl rfl
  | some peer =>
      have hmem := Network.mem_of_peer? hpeer
      obtain ⟨link, hinstep⟩ := h.peers peer hmem
      have hname := Network.name_of_peer? hpeer
      simp only [hpeer, hinstep.found] at hroom ⊢
      by_cases hready : (link.phase = .waiting && !peer.isBroken) = true
      · rw [if_pos hready] at hroom ⊢
        rw [Bool.and_eq_true, decide_eq_true_eq, Bool.not_eq_true'] at hready
        refine h.relayed (.receive peer.link (peer.toRelay.extract 0 limit) net.clock) rfl rfl hroom
          (Network.change_who name fun _ => ⟨rfl, rfl⟩)
          (Network.change_nextNumber name fun _ => rfl) (fun _ _ _ hstep => nomatch hstep) ?_
        -- The client whose bytes arrive has fewer on their way; for the others this is a step of
        -- the relay like any.
        intro other hother drawn found hfound htale
        by_cases hsame : other.name = name
        · have hself := h.peer?_of_mem hother
          rw [hsame, hpeer, Option.some.injEq] at hself
          subst hself
          have hlink := hfound.found
          rw [hinstep.found, Option.some.injEq] at hlink
          subst hlink
          rw [if_pos hsame]
          exact hfound.deliver h.coherent limit net.clock hready.1 hready.2 htale
            fun _ hmark => nomatch hmark
        · rw [if_neg hsame]
          -- Bytes arrive at the link of one client alone.
          refine hfound.perform_relay h.coherent htale ?_
          intro data now hstep
          injection hstep with hlink
          exact hsame (Lookup.eq_of_key h.links hmem hother hlink ▸ hname)
      · rw [if_neg hready]
        exact h.still rfl rfl

/-- The link of a client finds the end of the stream. -/
theorem deliverEnd (name : String)
    (hroom : ∀ counter, (net.deliverEnd name).counter counter ≠ net.counter counter →
      count counter < UInt64.size) :
    Harmony (log ++ []) (tally count net (net.deliverEnd name)) (net.deliverEnd name) := by
  unfold Network.deliverEnd at hroom ⊢
  cases hpeer : net.peer? name with
  | none => exact h.still rfl rfl
  | some peer =>
      simp only [hpeer] at hroom ⊢
      have hend : ∀ broken : Bool,
          (∀ counter, (net.onRelay (·.receiveEnd peer.link broken)).counter counter ≠
            net.counter counter → count counter < UInt64.size) →
          Harmony (log ++ []) (tally count net (net.onRelay (·.receiveEnd peer.link broken)))
            (net.onRelay (·.receiveEnd peer.link broken)) := fun broken hroom =>
        h.relayed_only (.receiveEnd peer.link broken) hroom (fun _ _ _ hstep => nomatch hstep)
          (fun _ _ _ hstep => nomatch hstep)
      -- A stream that is broken ends with a fault, one that has been read to its end ends well.
      by_cases hbroken : peer.isBroken = true
      · rw [if_pos hbroken] at hroom ⊢
        exact hend true hroom
      · rw [if_neg hbroken] at hroom ⊢
        by_cases hended : (peer.hasEnded && peer.toRelay.size = 0) = true
        · rw [if_pos hended] at hroom ⊢
          exact hend false hroom
        · rw [if_neg hended]
          exact h.still rfl rfl

/-- The streams of a client break off. -/
theorem breakOff (name : String) (fault : HostFault)
    (hroom : ∀ counter, (net.breakOff name fault).counter counter ≠ net.counter counter →
      count counter < UInt64.size) :
    Harmony (log ++ []) (tally count net (net.breakOff name fault)) (net.breakOff name fault) := by
  unfold Network.breakOff at hroom ⊢
  cases hpeer : net.peer? name with
  | none => exact h.still rfl rfl
  | some peer =>
      simp only [hpeer] at hroom ⊢
      refine h.relayed (.blockWrites peer.link) rfl rfl hroom
        (Network.change_who name fun other => other.breakOff_who fault)
        (Network.change_nextNumber name fun other => other.nextNumber_breakOff fault)
        (fun _ _ _ hstep => nomatch hstep) ?_
      -- The relay cannot write any more, and the client of that name loses what is on its way.
      intro other hother drawn link hinstep htale
      obtain ⟨link', hafter⟩ := hinstep.perform_relay h.coherent htale fun _ _ hstep =>
        nomatch hstep
      refine ⟨link', ?_⟩
      by_cases hsame : other.name = name
      · rw [if_pos hsame]
        exact hafter.breakOff fault
      · rw [if_neg hsame]
        exact hafter

/-- A message that has been written goes on its way. -/
theorem ship (name : String) :
    Harmony (log ++ []) (tally count net (net.ship name)) (net.ship name) := by
  unfold Network.ship
  cases hpeer : net.peer? name with
  | none => exact h.still rfl rfl
  | some peer =>
      obtain ⟨link, hinstep⟩ := h.peers peer (Network.mem_of_peer? hpeer)
      simp only [hinstep.found, Option.bind_some]
      cases hmessage : link.sent[peer.shipped]? with
      | none => exact h.still rfl rfl
      | some message =>
          by_cases hbroken : peer.isBroken = true
          · simp only [hbroken, if_true]
            exact h.still rfl rfl
          · -- Only messages that fit into a frame are written.
            have hfits : message.Fits :=
              h.standing.sent link (Relay.mem_of_link? hinstep.found) message
              (List.mem_of_getElem? hmessage)
            simp only [hbroken, Message.encode_of_fits hfits]
            refine h.changed hpeer (fun _ => ⟨rfl, rfl⟩) (Or.inl rfl)
              (fun _ hmark => nomatch hmark) ?_ ?_
            · rw [List.append_nil]
              exact h.coherent
            · intro found hfound
              have hlink := hfound.found
              rw [hinstep.found, Option.some.injEq] at hlink
              subst hlink
              rw [List.append_nil]
              exact (hfound.ship hmessage hfits).more (Nat.le_add_right _ _)

/-- A client connects under a name that nobody has. -/
theorem connect {name cluster : String} (connectionId : String) {options : ConnectionOptions}
    {attempt : Opening} (hname : net.peer? name = none)
    (hstart : Opening.start cluster options.clientName = .ok attempt)
    (hafter : after =
      { net with
        relay := (net.relay.accept connectionId Network.remote net.clock).2
        peers := net.peers ++
          [{ name, cluster, options, phase := .opening attempt, link := net.relay.nextLink }] }) :
    Harmony (log ++ []) (tally count net after) after := by
  -- The router takes no notice of a new link.
  have hrouter : (net.relay.accept connectionId Network.remote net.clock).2.router =
      net.relay.router := net.relay.router_accept connectionId Network.remote net.clock
  have hmember :
      (net.relay.perform (.accept connectionId Network.remote net.clock)).router.nextMember =
      net.relay.router.nextMember := congrArg Router.nextMember hrouter
  have hroute :
      (net.relay.perform (.accept connectionId Network.remote net.clock)).router.nextRoute =
      net.relay.router.nextRoute := congrArg Router.nextRoute hrouter
  obtain ⟨htale, hrecords, hstanding⟩ := h.tale (.accept connectionId Network.remote net.clock)
    (fun hmoved => absurd hmember hmoved) (fun hmoved => absurd hroute hmoved)
  rw [moves_of_eq hroute, Nat.add_zero] at hrecords
  rw [moves_of_eq hmember, Nat.add_zero] at hstanding
  -- A client that has made no request counts like one that is not there.
  have hsame : ∀ counter, after.counter counter = net.counter counter := by
    intro counter
    cases counter with
    | member =>
        rw [hafter]
        exact hmember
    | route =>
        rw [hafter]
        exact hroute
    | request other =>
        show ((after.peer? other).map Peer.nextNumber).getD 1 =
          ((net.peer? other).map Peer.nextNumber).getD 1
        unfold Network.peer? at hname ⊢
        rw [hafter, List.find?_append]
        cases hfound : net.peers.find? fun peer => peer.name = other with
        | some peer => rfl
        | none =>
            rw [Option.none_or, List.find?_singleton]
            by_cases hother : name = other
            · rw [decide_eq_true hother]
              rfl
            · rw [decide_eq_false hother]
              rfl
  have htally : tally count net after = count := funext fun counter => tally_of_eq (hsame counter)
  rw [htally]
  have hpeers : ∀ peer ∈ after.peers, peer ∈ net.peers ∨ peer =
      { name, cluster, options, phase := .opening attempt, link := net.relay.nextLink } := by
    intro peer hpeer
    rw [hafter] at hpeer
    exact (List.mem_append.1 hpeer).imp_right List.mem_singleton.1
  -- The name is free, and the link is numbered behind all others.
  have hold : ∀ peer ∈ net.peers, peer.name ≠ name ∧ peer.link ≠ net.relay.nextLink := by
    intro peer hpeer
    obtain ⟨link, hinstep⟩ := h.peers peer hpeer
    refine ⟨fun e => ?_, fun e => ?_⟩
    · have hfound := h.peer?_of_mem hpeer
      rw [e, hname] at hfound
      cases hfound
    · have hbounded := h.standing.bounded link (Relay.mem_of_link? hinstep.found)
      rw [Relay.id_of_link? hinstep.found, e] at hbounded
      exact Nat.lt_irrefl _ hbounded
  refine ⟨htale.coherent, fun counter => (hsame counter).trans (h.counted counter), ?_, ?_, ?_, ?_,
    ?_, ?_, ?_⟩
  · rw [hafter]
    exact Lookup.nodup_snoc h.names fun peer hpeer => (hold peer hpeer).1
  · rw [hafter]
    exact Lookup.nodup_snoc h.links fun peer hpeer => (hold peer hpeer).2
  · rw [hafter]
    exact h.owners_of_tale htale
  · rw [hafter]
    exact hstanding
  · rw [hafter]
    exact hrecords
  · -- The others are in step with the relay as before, and the new client begins in step.
    intro peer hpeer
    rw [hafter]
    rcases hpeers peer hpeer with hpeer | rfl
    · obtain ⟨link, hinstep⟩ := h.peers peer hpeer
      exact hinstep.perform_relay h.coherent htale fun _ _ hstep => nomatch hstep
    · rw [List.append_nil]
      exact inStep_connect h.standing h.owners hstart
  · intro link' hlink'
    rw [hafter] at hlink' ⊢
    have haccepted : link' ∈
        (net.relay.perform (.accept connectionId Network.remote net.clock)).links := hlink'
    rcases Relay.continues_of_mem_links haccepted with ⟨link, hlink, hcontinues⟩ |
      ⟨name', remote, now, -, hcontinues⟩
    · obtain ⟨peer, hpeer, hid⟩ := h.attended link hlink
      exact ⟨peer, List.mem_append_left _ hpeer, hid.trans hcontinues.id.symm⟩
    · exact ⟨_, List.mem_append_right _ (List.mem_singleton_self _), hcontinues.id.symm⟩

/-! ## All steps -/

/-- Every step keeps a network in harmony, if no counter that moves on has come round. -/
theorem perform (step : Network.Step)
    (hroom : ∀ counter, (net.perform step).counter counter ≠ net.counter counter →
      count counter < UInt64.size) :
    Harmony (log ++ net.events step) (tally count net (net.perform step)) (net.perform step) := by
  cases step with
  | connect name cluster connectionId options =>
      show Harmony (log ++ []) _ _
      unfold Network.perform
      by_cases hname : (net.peer? name).isSome = true
      · simp only [hname, if_true]
        exact h.still rfl rfl
      · have hnone : net.peer? name = none := Option.not_isSome_iff_eq_none.1 hname
        simp only [hnone, Option.isSome_none, Bool.false_eq_true, if_false]
        unfold Network.connect
        cases net.host.reach net.relay.isRunning with
        | error fault => exact h.still rfl rfl
        | ok done =>
            cases hstart : Opening.start cluster options.clientName with
            | error error => exact h.still rfl rfl
            | ok attempt =>
                refine h.connect connectionId hnone hstart ?_
                rw [← net.relay.id_accept connectionId Network.remote net.clock]
                rfl
  | client name step =>
      cases hpeer : net.peer? name with
      | none =>
          have hevents : net.events (.client name step) = [] := by
            unfold Network.events
            simp only [hpeer]
            rfl
          have hnone : net.peers.map (fun peer =>
              if peer.name = name then peer.perform net.clock step else peer) = net.peers := by
            refine (List.map_congr_left fun peer hmem => if_neg ?_).trans (List.map_id _)
            rintro rfl
            rw [h.peer?_of_mem hmem] at hpeer
            cases hpeer
          rw [hevents]
          exact h.still rfl hnone
      | some peer =>
          have hevents : net.events (.client name step) = peer.events net.clock step := by
            unfold Network.events
            simp only [hpeer]
            rfl
          rw [hevents]
          -- The client draws a number exactly when its counter moves.
          refine h.client hpeer step fun hmoved => hroom (.request name) ?_
          have hbefore : net.counter (.request name) = peer.nextNumber := by
            show ((net.peer? name).map Peer.nextNumber).getD 1 = peer.nextNumber
            rw [hpeer]
            rfl
          have hafter : (net.perform (.client name step)).counter (.request name) =
              (peer.perform net.clock step).nextNumber := by
            rw [Network.counter_of_map rfl (fun other =>
              (Network.change_who name (fun other => other.perform_who net.clock step) other).1),
              hpeer, Option.map_some, if_pos (Network.name_of_peer? hpeer)]
            rfl
          rw [hbefore, hafter]
          exact hmoved
  | deliver name limit => exact h.deliver name limit hroom
  | deliverEnd name => exact h.deliverEnd name hroom
  | ship name => exact h.ship name
  | breakOff name fault => exact h.breakOff name fault hroom
  | relay move => exact h.move move hroom
  | elapse d => exact h.still rfl rfl

/-- A run keeps a network in harmony, as long as no counter comes round. -/
theorem run (steps : List Network.Step)
    (hroom : ∀ counter, count counter + Network.draws counter net steps ≤ UInt64.size) :
    Harmony (log ++ Network.trace net steps)
      (fun counter => count counter + Network.draws counter net steps) (net.run steps) := by
  induction steps generalizing log count net with
  | nil =>
      show Harmony (log ++ []) count net
      rw [List.append_nil]
      exact h
  | cons step steps ih =>
      have hdraws : ∀ counter, count counter + Network.draws counter net (step :: steps) =
          tally count net (net.perform step) counter +
            Network.draws counter (net.perform step) steps := by
        intro counter
        rw [Network.draws, tally, Nat.add_assoc]
      -- The step draws no more than the whole run does.
      have hstep := h.perform step fun counter hmoved => by
        have hall := hroom counter
        rw [Network.draws, moves_of_ne hmoved] at hall
        omega
      have hrest := ih hstep fun counter => by
        rw [← hdraws]
        exact hroom counter
      have hsame : (fun counter => count counter + Network.draws counter net (step :: steps)) =
          fun counter => tally count net (net.perform step) counter +
            Network.draws counter (net.perform step) steps := funext hdraws
      rw [hsame, Network.trace, ← List.append_assoc]
      exact hrest

end Harmony

/-- A network without clients is in harmony. -/
theorem harmony_start (host : Host) (options : RelayOptions) :
    Harmony [] (fun _ => 0) (.start host options) := by
  have hnew := Relay.standing_new options
  refine ⟨⟨List.nodup_nil, fun _ hevent => (nomatch hevent)⟩, ?_, List.nodup_nil, List.nodup_nil,
    fun _ hmark => (nomatch hmark), ?_,
    ⟨fun _ hmark => (nomatch hmark), fun _ hroute => nomatch hroute⟩,
    fun _ hpeer => (nomatch hpeer), fun _ hlink => nomatch hlink⟩
  · intro counter
    cases counter <;> rfl
  · exact ⟨hnew.ids, hnew.bounded, hnew.issued, hnew.distinct, hnew.members, hnew.rosters,
      hnew.held, hnew.sent⟩

end Switchboard
