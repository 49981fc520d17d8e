import Switchboard.Proofs.Network.Run

/-!
# What is on its way

Between a client and its link, messages are on their way in two directions. Whatever of them has
arrived as bytes, what is ahead of a reader spells messages, each of which has a reason in the log:
a request has been called for or routed, an answer has been given (`Uplink`, `Downlink`). No request
is on its way twice, and none that has been dealt with is on its way again (`Due`). All this stays
as the log grows by what others do (`InStep.grow`).
-/

namespace Switchboard

/-! ## How a call comes to be served -/

/-- The way of a call: who has called, how the request has been routed, and to whom. -/
structure Errand where
  caller : LinkId
  key : CallKey
  id : RequestId
  cluster : String
  payload : ByteArray
  route : RequestId
  target : LinkId
  crew : List LinkId

namespace Errand

/-- The beginning of the call. -/
def called (errand : Errand) : Event :=
  .called errand.caller errand.key errand.id errand.cluster errand.payload

/-- The routing of its request. -/
def routed (errand : Errand) : Event :=
  .routed errand.caller errand.id errand.cluster errand.payload errand.route errand.target
    errand.crew

/-- The service that it is given, under a name. -/
def service (errand : Errand) (key : Nat) : Service := ⟨key, errand.route, errand.payload⟩

/-- The request has been called for, and then routed to a member of the crew. -/
def Routed (log : List Event) (errand : Errand) : Prop :=
  [errand.called, errand.routed].Sublist log ∧ errand.target ∈ errand.crew

/-- Behind that, a handler has been invoked. -/
def Served (log : List Event) (errand : Errand) (key : Nat) : Prop :=
  [errand.called, errand.routed, .invoked errand.target (errand.service key)].Sublist log ∧
    errand.target ∈ errand.crew

/-- Behind that, the handler has come to its end. -/
def Completed (log : List Event) (errand : Errand) (key : Nat) (result : HandlerResult) : Prop :=
  [errand.called, errand.routed, .invoked errand.target (errand.service key),
    .completed errand.target (errand.service key) result].Sublist log ∧ errand.target ∈ errand.crew

/-- Behind that, the call has returned what the handler answered. -/
def Returned (log : List Event) (errand : Errand) (key : Nat) (payload : ByteArray) : Prop :=
  [errand.called, errand.routed, .invoked errand.target (errand.service key),
    .completed errand.target (errand.service key) (.answered payload),
    .returned errand.caller errand.key (.ok payload)].Sublist log ∧ errand.target ∈ errand.crew

variable {log : List Event} {errand : Errand} {key : Nat} {result : HandlerResult}

theorem Routed.grow (h : errand.Routed log) (new : List Event) : errand.Routed (log ++ new) :=
  ⟨h.1.trans (List.sublist_append_left log new), h.2⟩

theorem Served.grow (h : errand.Served log key) (new : List Event) :
    errand.Served (log ++ new) key :=
  ⟨h.1.trans (List.sublist_append_left log new), h.2⟩

theorem Completed.grow (h : errand.Completed log key result) (new : List Event) :
    errand.Completed (log ++ new) key result :=
  ⟨h.1.trans (List.sublist_append_left log new), h.2⟩

theorem Returned.grow {payload : ByteArray} (h : errand.Returned log key payload)
    (new : List Event) : errand.Returned (log ++ new) key payload :=
  ⟨h.1.trans (List.sublist_append_left log new), h.2⟩

/-- A handler is invoked. -/
theorem Routed.served (h : errand.Routed log) {new : List Event}
    (hnew : .invoked errand.target (errand.service key) ∈ new) : errand.Served (log ++ new) key :=
  ⟨h.1.append (List.singleton_sublist.2 hnew), h.2⟩

/-- A handler comes to its end. -/
theorem Served.completed (h : errand.Served log key) {new : List Event}
    (hnew : .completed errand.target (errand.service key) result ∈ new) :
    errand.Completed (log ++ new) key result :=
  ⟨h.1.append (List.singleton_sublist.2 hnew), h.2⟩

/-- A call returns. -/
theorem Completed.returned {payload : ByteArray} (h : errand.Completed log key (.answered payload))
    {new : List Event} (hnew : .returned errand.caller errand.key (.ok payload) ∈ new) :
    errand.Returned (log ++ new) key payload :=
  ⟨h.1.append (List.singleton_sublist.2 hnew), h.2⟩

theorem Routed.called_mem (h : errand.Routed log) : errand.called ∈ log :=
  h.1.subset List.mem_cons_self

theorem Routed.routed_mem (h : errand.Routed log) : errand.routed ∈ log :=
  h.1.subset (List.mem_cons_of_mem _ List.mem_cons_self)

theorem Served.routed (h : errand.Served log key) : errand.Routed log :=
  ⟨List.Sublist.trans (List.sublist_append_left [errand.called, errand.routed] _) h.1, h.2⟩

theorem Completed.served (h : errand.Completed log key result) : errand.Served log key :=
  ⟨List.Sublist.trans (List.sublist_append_left
    [errand.called, errand.routed, .invoked errand.target (errand.service key)] _) h.1, h.2⟩

end Errand

/-- Whether it is known how an event has come about. -/
def Explained (log : List Event) : Event → Prop
  | .called .. => True
  | .routed caller id cluster payload route target crew =>
      ∃ key, Errand.Routed log ⟨caller, key, id, cluster, payload, route, target, crew⟩
  | .invoked target service =>
      ∃ errand : Errand, errand.target = target ∧ errand.service service.key = service ∧
        errand.Served log service.key
  | .completed target service result =>
      ∃ errand : Errand, errand.target = target ∧ errand.service service.key = service ∧
        errand.Completed log service.key result
  | .returned caller key result =>
      ∀ payload, result = .ok payload →
        ∃ errand : Errand, errand.caller = caller ∧ errand.key = key ∧
          ∃ service, errand.Returned log service payload

theorem Explained.grow {log : List Event} {event : Event} (h : Explained log event)
    (new : List Event) : Explained (log ++ new) event := by
  cases event with
  | called caller key id cluster payload => trivial
  | routed caller id cluster payload route target crew =>
      obtain ⟨key, hrouted⟩ := h
      exact ⟨key, hrouted.grow new⟩
  | invoked target service =>
      obtain ⟨errand, htarget, hservice, hserved⟩ := h
      exact ⟨errand, htarget, hservice, hserved.grow new⟩
  | completed target service result =>
      obtain ⟨errand, htarget, hservice, hcompleted⟩ := h
      exact ⟨errand, htarget, hservice, hcompleted.grow new⟩
  | returned caller key result =>
      intro payload hresult
      obtain ⟨errand, hcaller, hkey, service, hreturned⟩ := h payload hresult
      exact ⟨errand, hcaller, hkey, service, hreturned.grow new⟩

/-- A log in which nothing is named twice, and in which all is explained. -/
structure Coherent (log : List Event) : Prop where
  distinct : (marks log).Nodup
  explained : ∀ event ∈ log, Explained log event

namespace Coherent

variable {log : List Event} (h : Coherent log)

include h

/-- New names, all explained. -/
theorem grow {new : List Event} (hdistinct : (marks new).Nodup)
    (hfresh : ∀ mark ∈ marks new, mark ∉ marks log)
    (hexplained : ∀ event ∈ new, Explained (log ++ new) event) : Coherent (log ++ new) where
  distinct := by
    rw [marks_append]
    refine List.nodup_append.2 ⟨h.distinct, hdistinct, ?_⟩
    rintro mark hold other hnew rfl
    exact hfresh mark hnew hold
  explained := by
    intro event hevent
    rcases List.mem_append.1 hevent with hold | hnew
    · exact (h.explained event hold).grow new
    · exact hexplained event hnew

/-- A request that has been routed has been called for. -/
theorem number_of_request {caller : LinkId} {id : RequestId}
    (hmark : .request caller id ∈ marks log) :
    .number caller id ∈ marks log := by
  obtain ⟨event, hevent, hmark⟩ := List.mem_flatMap.1 hmark
  cases event with
  | routed caller' id' cluster payload route target crew =>
      obtain ⟨key, hrouted⟩ := h.explained _ hevent
      simp only [Event.marks, List.mem_cons, Mark.request.injEq, reduceCtorEq, List.not_mem_nil,
        or_false] at hmark
      obtain ⟨rfl, rfl⟩ := hmark
      exact mem_marks hrouted.called_mem (List.mem_cons_of_mem _ List.mem_cons_self)
  | called caller key id cluster payload => simp [Event.marks] at hmark
  | invoked target service => simp [Event.marks] at hmark
  | completed target service result => simp [Event.marks] at hmark
  | returned caller key result => simp [Event.marks] at hmark

/-- A request for which a handler has been invoked has been routed. -/
theorem route_of_passed {target : LinkId} {id : RequestId} (hmark : .passed target id ∈ marks log) :
    .route id ∈ marks log := by
  obtain ⟨event, hevent, hmark⟩ := List.mem_flatMap.1 hmark
  cases event with
  | invoked target' service =>
      obtain ⟨errand, -, hservice, hserved⟩ := h.explained _ hevent
      simp only [Event.marks, List.mem_cons, Mark.passed.injEq, reduceCtorEq, List.not_mem_nil,
        or_false, false_or] at hmark
      have hroute : errand.route = id := by
        rw [hmark.2, ← hservice]
        rfl
      rw [← hroute]
      exact mem_marks hserved.routed.routed_mem (List.mem_cons_of_mem _ List.mem_cons_self)
  | called caller key id cluster payload => simp [Event.marks] at hmark
  | routed caller id cluster payload route target crew => simp [Event.marks] at hmark
  | completed target service result => simp [Event.marks] at hmark
  | returned caller key result => simp [Event.marks] at hmark

end Coherent

/-- A call has been answered with a payload, under the number of its request. -/
def Answered (log : List Event) (caller : LinkId) (id : RequestId) (payload : ByteArray) : Prop :=
  ∃ errand : Errand, errand.caller = caller ∧ errand.id = id ∧
    ∃ key, errand.Completed log key (.answered payload)

theorem Answered.grow {log : List Event} {caller : LinkId} {id : RequestId} {payload : ByteArray}
    (h : Answered log caller id payload) (new : List Event) :
    Answered (log ++ new) caller id payload := by
  obtain ⟨errand, hcaller, hid, key, hcompleted⟩ := h
  exact ⟨errand, hcaller, hid, key, hcompleted.grow new⟩

/-- The requests and replies that a client has reason to send. -/
inductive Sent (log : List Event) (link : LinkId) : Message → Prop
  | request (key : CallKey) (id : RequestId) (cluster : String) (timeoutMs : UInt64)
      (payload : ByteArray) (hcalled : .called link key id cluster payload ∈ log) :
      Sent log link (.request id cluster timeoutMs payload)
  | reply (service : Service) (payload : ByteArray)
      (hcompleted : .completed link service (.answered payload) ∈ log) :
      Sent log link (.reply service.id payload)

/-- The requests and replies that a client is told with reason. -/
inductive Told (log : List Event) (link : LinkId) : Message → Prop
  | request (errand : Errand) (timeoutMs : UInt64) (htarget : errand.target = link)
      (hrouted : errand.Routed log) :
      Told log link (.request errand.route errand.cluster timeoutMs errand.payload)
  | reply (id : RequestId) (payload : ByteArray) (hanswered : Answered log link id payload) :
      Told log link (.reply id payload)

theorem Sent.grow {log : List Event} {link : LinkId} {message : Message} (h : Sent log link message)
    (new : List Event) : Sent (log ++ new) link message := by
  cases h with
  | request key id cluster timeoutMs payload hcalled =>
      exact .request key id cluster timeoutMs payload (List.mem_append_left _ hcalled)
  | reply service payload hcompleted =>
      exact .reply service payload (List.mem_append_left _ hcompleted)

theorem Told.grow {log : List Event} {link : LinkId} {message : Message} (h : Told log link message)
    (new : List Event) : Told (log ++ new) link message := by
  cases h with
  | request errand timeoutMs htarget hrouted =>
      exact .request errand timeoutMs htarget (hrouted.grow new)
  | reply id payload hanswered => exact .reply id payload (hanswered.grow new)

/-! ## Messages that are due -/

/-- The numbers of the requests among messages. -/
def asking (messages : List Message) : List RequestId :=
  messages.filterMap fun message => message.asked?.map Prod.fst

theorem asking_append (messages others : List Message) :
    asking (messages ++ others) = asking messages ++ asking others := List.filterMap_append

theorem asking_singleton (message : Message) :
    asking [message] = (message.asked?.map Prod.fst).toList := by
  unfold asking
  rw [List.filterMap_cons]
  cases message.asked? <;> rfl

/-- Requests are among what is told. -/
theorem asking_telling (messages : List Message) : asking (telling messages) = asking messages := by
  unfold asking telling
  rw [List.filterMap_filter]
  refine List.filterMap_congr fun message _ => ?_
  unfold Message.isTelling Message.asked?
  cases message.envelope <;> rfl

/-- Messages of which each request and reply has its reason, and in which no request is numbered
like another or like one that has been dealt with. -/
structure Due (P : Message → Prop) (used : RequestId → Prop) (messages : List Message) : Prop where
  each : ∀ message ∈ telling messages, P message
  distinct : (asking messages).Nodup
  unused : ∀ id ∈ asking messages, ¬ used id

namespace Due

variable {P P' : Message → Prop} {used used' : RequestId → Prop} {messages others : List Message}

theorem nil : Due P used [] := ⟨fun _ h => (nomatch h), List.nodup_nil, fun _ h => nomatch h⟩

theorem of_sublist (h : Due P used messages) (hsub : (telling others).Sublist (telling messages)) :
    Due P used others := by
  have hasking : (asking others).Sublist (asking messages) := by
    rw [← asking_telling others, ← asking_telling messages]
    exact hsub.filterMap _
  exact ⟨fun message hmessage => h.each message (hsub.subset hmessage), h.distinct.sublist hasking,
    fun id hid => h.unused id (hasking.subset hid)⟩

theorem mono (h : Due P used messages) (hP : ∀ message, P message → P' message)
    (hused : ∀ id ∈ asking messages, used' id → used id) : Due P' used' messages :=
  ⟨fun message hmessage => hP message (h.each message hmessage), h.distinct,
    fun id hid hnow => h.unused id hid (hused id hid hnow)⟩

/-- A message comes behind the others that is not numbered like one of them. -/
theorem concat (h : Due P used messages) {message : Message}
    (hP : message.isTelling = true → P message)
    (hnew : ∀ id ∈ asking [message], id ∉ asking messages ∧ ¬ used id) :
    Due P used (messages ++ [message]) := by
  have hone : (asking [message]).Nodup := by
    rw [asking_singleton]
    cases message.asked?.map Prod.fst with
    | none => exact List.nodup_nil
    | some id => exact List.nodup_singleton id
  refine ⟨?_, ?_, ?_⟩
  · intro other hother
    rw [telling_append] at hother
    rcases List.mem_append.1 hother with hold | hother
    · exact h.each other hold
    · obtain ⟨hmem, htelling⟩ := List.mem_filter.1 hother
      rw [List.mem_singleton.1 hmem] at htelling ⊢
      exact hP htelling
  · rw [asking_append]
    refine List.nodup_append.2 ⟨h.distinct, hone, ?_⟩
    rintro id hid other hother rfl
    exact (hnew id hother).1 hid
  · intro id hid
    rw [asking_append] at hid
    rcases List.mem_append.1 hid with hold | hid
    · exact h.unused id hold
    · exact (hnew id hid).2

/-- The messages in front are dealt with. -/
theorem behind (h : Due P used (messages ++ others)) :
    Due P (fun id => used id ∨ id ∈ asking messages) others := by
  have hdistinct := h.distinct
  rw [asking_append] at hdistinct
  refine ⟨?_, (List.nodup_append.1 hdistinct).2.1, ?_⟩
  · intro message hmessage
    exact h.each message
      ((telling_sublist (List.sublist_append_right messages others)).subset hmessage)
  · rintro id hid (hused | hfront)
    · refine h.unused id ?_ hused
      rw [asking_append]
      exact List.mem_append_right _ hid
    · exact (List.nodup_append.1 hdistinct).2.2 id hfront id hid rfl

end Due

/-- A number that is asked for is the number of a request that is told. -/
theorem exists_telling_of_asking {messages : List Message} {id : RequestId}
    (h : id ∈ asking messages) :
    ∃ message ∈ telling messages, ∃ payload, message.asked? = some (id, payload) := by
  rw [← asking_telling] at h
  obtain ⟨message, hmessage, hasked⟩ := List.mem_filterMap.1 h
  obtain ⟨⟨number, payload⟩, hrequest, rfl⟩ := Option.map_eq_some_iff.1 hasked
  exact ⟨message, hmessage, payload, hrequest⟩

/-- The numbers of requests that have been sent with reason have been drawn. -/
theorem Due.number_of_asking {log : List Event} {link : LinkId} {used : RequestId → Prop}
    {messages : List Message} (h : Due (Sent log link) used messages) {id : RequestId}
    (hid : id ∈ asking messages) : .number link id ∈ marks log := by
  obtain ⟨message, hmessage, payload, hasked⟩ := exists_telling_of_asking hid
  cases h.each message hmessage with
  | request key id' cluster timeoutMs payload' hcalled =>
      cases hasked
      exact mem_marks hcalled (List.mem_cons_of_mem _ List.mem_cons_self)
  | reply service payload' hcompleted => cases hasked

/-- The numbers of requests that are told with reason are those of routes. -/
theorem Due.route_of_asking {log : List Event} {link : LinkId} {used : RequestId → Prop}
    {messages : List Message} (h : Due (Told log link) used messages) {id : RequestId}
    (hid : id ∈ asking messages) : .route id ∈ marks log := by
  obtain ⟨message, hmessage, payload, hasked⟩ := exists_telling_of_asking hid
  cases h.each message hmessage with
  | request errand timeoutMs htarget hrouted =>
      cases hasked
      exact mem_marks hrouted.routed_mem (List.mem_cons_of_mem _ List.mem_cons_self)
  | reply id' payload' hanswered => cases hasked

/-! ## What a client has at hand -/

/-- What a writer has begun and is still to write. None once it has ended. -/
def Writer.unwritten? : Writer → Option ByteArray
  | idle => some ByteArray.empty
  | writing frame written => some (frame.extract written frame.size)
  | parting frame written => some (frame.extract written frame.size)
  | ended => none

namespace Peer

/-- What has been written and can still arrive at the relay. -/
def inTransit (peer : Peer) : ByteArray := if peer.isBroken then ByteArray.empty else peer.toRelay

/-- What has been begun and is still to be written. None once the writer has ended. -/
def unwritten? (peer : Peer) : Option ByteArray :=
  match peer.phase with
  | .opening attempt => some (attempt.hello.extract attempt.written attempt.hello.size)
  | .joined conn => conn.writer.unwritten?
  | .failed _ => none

/-- The frames that wait for the writer. -/
def frames (peer : Peer) : List ByteArray :=
  (peer.connection?.map fun conn => conn.queue.frames).getD []

/-- The reader, while it runs. -/
def decoder? (peer : Peer) : Option Decoder :=
  match peer.phase with
  | .opening attempt => some attempt.decoder
  | .joined conn => conn.reader
  | .failed _ => none

/-- The name of the next call. -/
def nextCall (peer : Peer) : CallKey := (peer.connection?.map Connection.nextCall).getD 0

/-- The name of the next service. -/
def nextService (peer : Peer) : Nat := (peer.connection?.map Connection.nextService).getD 0

end Peer

/-- The messages `ahead` are on their way to the relay as bytes, and some of them may be incomplete
for ever. Behind them, the frames of the messages `behind` wait. -/
structure Uplink (log : List Event) (link : Link) (peer : Peer) (ahead behind : List Message)
    (missing : ByteArray) : Prop where
  spelled : link.decoder.buffer ++ peer.inTransit ++ missing = Message.spell ahead
  unwritten : peer.isBroken = false → ∀ bytes, peer.unwritten? = some bytes → missing = bytes
  frames : peer.frames = behind.map Message.bytes
  fits : ∀ message ∈ ahead ++ behind, message.Fits
  due : Due (Sent log peer.link) (fun id => .request peer.link id ∈ marks log) (ahead ++ behind)

/-- The messages `flight` are on their way to a client. Behind them are those that have been written
and have not gone on their way, and those that wait for the link. -/
structure Downlink (log : List Event) (relay : Relay) (link : Link) (peer : Peer)
    (flight : List Message) : Prop where
  shipped : peer.shipped ≤ link.sent.length
  spelled : ∀ decoder, peer.decoder? = some decoder →
    decoder.buffer ++ peer.toClient = Message.spell flight
  fits : ∀ message ∈ flight, message.Fits
  due : Due (Told log peer.link) (fun id => .passed peer.link id ∈ marks log)
    (flight ++ link.sent.drop peer.shipped ++ relay.router.queuedFor link.session.member)

/-- What a connection knows of its calls and services is in the log. -/
structure Ledger (log : List Event) (link : LinkId) (conn : Connection) : Prop where
  sound : conn.Sound
  calls : ∀ call ∈ conn.calls,
    (∃ cluster payload, .called link call.key call.id cluster payload ∈ log) ∧
      .result link call.key ∉ marks log
  services : ∀ service ∈ conn.services,
    .invoked link service ∈ log ∧ .completion link service.key ∉ marks log
  slots : ∀ slot ∈ conn.pending.slots, ∀ payload, slot.state = .resolved (.reply payload) →
    Answered log link slot.id payload

/-- Whether what is named is known to the client that it belongs to: it is not still to come. -/
def Peer.Knows (peer : Peer) (drawn : Nat) : Mark → Prop
  | .call caller key => caller = peer.link → key < peer.nextCall
  | .result caller key => caller = peer.link → key < peer.nextCall
  | .number caller id => caller = peer.link → Issued drawn id.value
  | .service target key => target = peer.link → key < peer.nextService
  | .completion target key => target = peer.link → key < peer.nextService
  | _ => True

/-- A client and its link are in step with the log. -/
structure InStep (log : List Event) (drawn : Nat) (relay : Relay) (peer : Peer) (link : Link) :
    Prop where
  found : relay.link? peer.link = some link
  uplink : ∃ ahead behind missing, Uplink log link peer ahead behind missing
  downlink : ∃ flight, Downlink log relay link peer flight
  knows : ∀ mark ∈ marks log, peer.Knows drawn mark
  ledger : ∀ conn, peer.phase = .joined conn → Ledger log peer.link conn

/-- The client whose doing names something. Routes are named by the relay. -/
def Mark.owner? : Mark → Option LinkId
  | .call caller _ => some caller
  | .number caller _ => some caller
  | .request caller _ => some caller
  | .route _ => none
  | .service target _ => some target
  | .passed target _ => some target
  | .completion target _ => some target
  | .result caller _ => some caller

section Grow

variable {log new : List Event}

/-- What is not named by new events is named by old ones. -/
theorem mem_marks_of_append {mark : Mark} (h : mark ∈ marks (log ++ new))
    (hnew : mark ∉ marks new) : mark ∈ marks log :=
  (mem_marks_append.1 h).resolve_right hnew

theorem Ledger.grow {link : LinkId} {conn : Connection} (h : Ledger log link conn)
    (new : List Event)
    (hresults : ∀ call ∈ conn.calls, .result link call.key ∉ marks new)
    (hcompletions : ∀ service ∈ conn.services, .completion link service.key ∉ marks new) :
    Ledger (log ++ new) link conn where
  sound := h.sound
  calls := by
    intro call hcall
    obtain ⟨⟨cluster, payload, hcalled⟩, hresult⟩ := h.calls call hcall
    exact ⟨⟨cluster, payload, List.mem_append_left _ hcalled⟩,
      fun hmark => hresult (mem_marks_of_append hmark (hresults call hcall))⟩
  services := by
    intro service hservice
    obtain ⟨hinvoked, hcompletion⟩ := h.services service hservice
    exact ⟨List.mem_append_left _ hinvoked,
      fun hmark => hcompletion (mem_marks_of_append hmark (hcompletions service hservice))⟩
  slots := fun slot hslot payload hstate => (h.slots slot hslot payload hstate).grow new

theorem Uplink.grow {link : Link} {peer : Peer} {ahead behind : List Message} {missing : ByteArray}
    (h : Uplink log link peer ahead behind missing) (new : List Event)
    (hnew : ∀ id ∈ asking (ahead ++ behind), .request peer.link id ∉ marks new) :
    Uplink (log ++ new) link peer ahead behind missing :=
  { h with
    due := h.due.mono (fun _ hsent => hsent.grow new)
      fun id hid hmark => mem_marks_of_append hmark (hnew id hid) }

theorem Downlink.grow {relay : Relay} {link : Link} {peer : Peer} {flight : List Message}
    (h : Downlink log relay link peer flight) (new : List Event)
    (hnew : ∀ id, .passed peer.link id ∉ marks new) :
    Downlink (log ++ new) relay link peer flight :=
  { h with
    due := h.due.mono (fun _ htold => htold.grow new)
      fun id _ hmark => mem_marks_of_append hmark (hnew id) }

/-- What is named for another client is known. -/
theorem knows_of_owner {peer : Peer} {drawn : Nat} {mark : Mark}
    (h : mark.owner? ≠ some peer.link) :
    peer.Knows drawn mark := by
  have hne : ∀ link : LinkId, mark.owner? = some link → link ≠ peer.link := by
    rintro link howner rfl
    exact h howner
  cases mark with
  | call caller key => exact fun e => absurd e (hne caller rfl)
  | number caller id => exact fun e => absurd e (hne caller rfl)
  | request caller id => trivial
  | route id => trivial
  | service target key => exact fun e => absurd e (hne target rfl)
  | passed target id => trivial
  | completion target key => exact fun e => absurd e (hne target rfl)
  | result caller key => exact fun e => absurd e (hne caller rfl)

/-- What others do leaves a client in step. -/
theorem InStep.grow {drawn : Nat} {relay : Relay} {peer : Peer} {link : Link}
    (h : InStep log drawn relay peer link)
    (hnew : ∀ mark ∈ marks new, mark.owner? ≠ some peer.link) :
    InStep (log ++ new) drawn relay peer link where
  found := h.found
  uplink := by
    obtain ⟨ahead, behind, missing, huplink⟩ := h.uplink
    exact ⟨ahead, behind, missing, huplink.grow new fun id _ hmark => hnew _ hmark rfl⟩
  downlink := by
    obtain ⟨flight, hdownlink⟩ := h.downlink
    exact ⟨flight, hdownlink.grow new fun id hmark => hnew _ hmark rfl⟩
  knows := by
    intro mark hmark
    rcases mem_marks_append.1 hmark with hold | hmark
    · exact h.knows mark hold
    · exact knows_of_owner (hnew mark hmark)
  ledger := fun conn hconn => (h.ledger conn hconn).grow new
    (fun _ _ hmark => hnew _ hmark rfl) (fun _ _ hmark => hnew _ hmark rfl)

end Grow

end Switchboard
