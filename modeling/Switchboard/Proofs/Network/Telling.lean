import Switchboard.Proofs.Network.Reading

/-!
# What a relay tells

A request that is passed on is recorded in the log, under a number that no request had before, and
it goes to a client of its cluster. An answer comes back to the client that is recorded as the one
that asked, and it is what a handler has answered. So whatever a step of a relay tells a client has
a reason in the log (`tale_perform`).
-/

namespace Switchboard

namespace Relay

/-! ## Where members are -/

/-- Whether a member is the session of the link of a name. -/
def IsAt (relay : Relay) (member : MemberId) (id : LinkId) : Prop :=
  ∃ link, relay.link? id = some link ∧ link.session.member = some member

section Standing

variable {joined : Nat} {relay : Relay} (h : relay.Standing joined)

include h

theorem Standing.isAt {link : Link} {member : MemberId} (hlink : link ∈ relay.links)
    (hmember : link.session.member = some member) : relay.IsAt member link.id :=
  ⟨link, h.link?_of_mem hlink, hmember⟩

/-- A member is in one place. -/
theorem Standing.isAt_unique {member : MemberId} {id other : LinkId} (hid : relay.IsAt member id)
    (hother : relay.IsAt member other) : id = other := by
  obtain ⟨link, hlink, hmember⟩ := hid
  obtain ⟨link', hlink', hmember'⟩ := hother
  have hsame :=
    h.distinct link (mem_of_link? hlink) link' (mem_of_link? hlink') member hmember hmember'
  rw [← id_of_link? hlink, ← id_of_link? hlink', hsame]

theorem Standing.host?_of_isAt {member : MemberId} {id : LinkId} (hid : relay.IsAt member id) :
    relay.host? member = some id := by
  unfold host?
  cases hfound : relay.links.find? fun link => link.session.member = some member with
  | none =>
      obtain ⟨link, hlink, hmember⟩ := hid
      have hnone := List.find?_eq_none.1 hfound link (mem_of_link? hlink)
      rw [decide_eq_true hmember] at hnone
      exact absurd rfl hnone
  | some link =>
      have hmember : link.session.member = some member := by
        simpa using List.find?_some hfound
      have hat := h.isAt (List.mem_of_find?_eq_some hfound) hmember
      exact congrArg some (h.isAt_unique hat hid)

/-- A member of a cluster is in the place of one of the crew. -/
theorem Standing.mem_crew {target : MemberId} {cluster : String}
    (hcluster : relay.router.InCluster target cluster) :
    ∃ id ∈ relay.crew cluster, relay.IsAt target id := by
  obtain ⟨link, hlink, hmember, hjoined⟩ := h.rosters target cluster hcluster
  obtain ⟨roster, hroster, hsame, hid⟩ := hcluster
  refine ⟨link.id, List.mem_map_of_mem (List.mem_filter.2 ⟨hlink, ?_⟩), h.isAt hlink hmember⟩
  exact decide_eq_true ⟨hjoined, roster, hroster, hsame, target, hid, hmember⟩

end Standing

/-- Members stay where they are. -/
theorem Bears.isAt {news : MemberId → List Message} {opened : List Route} {relay after : Relay}
    (h : Bears news opened relay after) {member : MemberId} {id : LinkId}
    (hid : relay.IsAt member id) : after.IsAt member id := by
  obtain ⟨link, hlink, hmember⟩ := hid
  obtain ⟨link', hlink', hflow⟩ := h.links id link hlink
  exact ⟨link', hlink', hflow.member member hmember⟩

/-! ## What is recorded -/

/-- The request that a route has been opened for is in the log, with the client that asked and the
one that was asked. -/
def Recorded (log : List Event) (relay : Relay) (route : Route) : Prop :=
  ∃ caller cluster payload target crew, relay.IsAt route.origin caller ∧
    relay.IsAt route.target target ∧
      .routed caller route.originId cluster payload route.id target crew ∈ log

theorem Recorded.grow {log : List Event} {relay after : Relay} {route : Route}
    (h : Recorded log relay route)
    (hat : ∀ {member id}, relay.IsAt member id → after.IsAt member id)
    (new : List Event) : Recorded (log ++ new) after route := by
  obtain ⟨caller, cluster, payload, target, crew, horigin, htarget, hrouted⟩ := h
  exact ⟨caller, cluster, payload, target, crew, hat horigin, hat htarget,
    List.mem_append_left _ hrouted⟩

theorem Recorded.route_mem {log : List Event} {relay : Relay} {route : Route}
    (h : Recorded log relay route) : .route route.id ∈ marks log := by
  obtain ⟨caller, cluster, payload, target, crew, -, -, hrouted⟩ := h
  exact mem_marks hrouted (List.mem_cons_of_mem _ List.mem_cons_self)

/-- The log has all routes, and the first `opened` numbers have been given to them. -/
structure Records (log : List Event) (opened : Nat) (relay : Relay) : Prop where
  routes : ∀ id, .route id ∈ marks log → Issued opened id.value
  recorded : ∀ route ∈ relay.router.routes, Recorded log relay route

/-- What is taken off next on a link has been sent with reason, and a request has not been routed
before. -/
def Heeds (log : List Event) (relay : Relay) : Prop :=
  ∀ id link message, relay.link? id = some link → link.decoder.nextMessage.1 = .item message →
    (message.isTelling = true → Sent log id message) ∧
      ∀ number ∈ asking [message], .request id number ∉ marks log

end Relay

/-! ## Tales -/

/-- What a client is told on a link that goes on: at most one request or reply that has not been
told before, with a reason in the log. -/
structure Hears (log new : List Event) (relay after : Relay) (link link' : Link)
    (news : Option Message) : Prop where
  sent : ∃ written, link'.sent = link.sent ++ written ∧ (∀ message ∈ written, message.Fits) ∧
    (telling (written ++ after.router.queuedFor link'.session.member)).Sublist
      (telling (relay.router.queuedFor link.session.member) ++ telling news.toList)
  told : ∀ message ∈ telling news.toList, Told (log ++ new) link.id message
  fresh : ∀ id ∈ asking news.toList, .route id ∉ marks log

/-- What a step of a relay tells, as the log has it. -/
structure Tale (log new : List Event) (relay after : Relay) : Prop where
  coherent : Coherent (log ++ new)
  names : ∀ mark ∈ marks new, (∃ id number, mark = .request id number) ∨ ∃ id, mark = .route id
  /-- Requests are routed that have been taken off. -/
  taken : ∀ id number, .request id number ∈ marks new → ∃ link message,
    relay.link? id = some link ∧ link.decoder.nextMessage.1 = .item message ∧
      number ∈ asking [message] ∧
        ∀ link', after.link? id = some link' → link'.decoder = link.decoder.nextMessage.2
  links : ∀ id link, relay.link? id = some link → ∃ link' news,
    after.link? id = some link' ∧ Hears log new relay after link link' news
  nextLink : relay.nextLink ≤ after.nextLink
  nextRoute : after.router.nextRoute = relay.router.nextRoute ∨
    after.router.nextRoute = relay.router.nextRoute + 1
  nextMember : after.router.nextMember = relay.router.nextMember ∨
    after.router.nextMember = relay.router.nextMember + 1

namespace Relay

section Perform

variable {log : List Event} {joined opened : Nat} {relay after : Relay} {step : Step}

/-- Without a new route, nothing happens to calls. -/
theorem events_of_routes
    (h : ∀ route ∈ (relay.perform step).router.routes, route ∈ relay.router.routes) :
    relay.events step = [] := by
  cases step with
  | readNext id now =>
      have hnone : ((relay.readNext id now).router.routes.filter
          fun route => route ∉ relay.router.routes) = [] := by
        apply List.filter_eq_nil_iff.2
        intro route hroute hnew
        exact absurd (h route hroute) (of_decide_eq_true hnew)
      show relay.routings (relay.readNext id now) id = []
      unfold routings
      cases relay.upcoming? id with
      | none => rfl
      | some message =>
          simp only [hnone]
          cases message.envelope <;> rfl
  | _ => rfl

/-- What is told to a member is told to the client that is in its place. -/
theorem hears_of_flow {news : MemberId → List Message} {new : List Event} {link link' : Link}
    {others : Option Message} (h : Flow news relay.router after.router link link')
    (hnews : (link.session.member.map news).getD [] = telling others.toList)
    (htold : ∀ message ∈ telling others.toList, Told (log ++ new) link.id message)
    (hfresh : ∀ id ∈ asking others.toList, .route id ∉ marks log) :
    Hears log new relay after link link' others := by
  obtain ⟨written, hsent, hfits, hsub⟩ := h.sent
  rw [hnews] at hsub
  exact ⟨⟨written, hsent, hfits, hsub⟩, htold, hfresh⟩

/-- Nothing is told. -/
theorem hears_of_quiet {news : MemberId → List Message} {new : List Event} {link link' : Link}
    (h : Flow news relay.router after.router link link')
    (hnews : (link.session.member.map news).getD [] = []) :
    Hears log new relay after link link' none :=
  hears_of_flow h hnews (fun _ hmessage => nomatch hmessage) (fun _ hid => nomatch hid)

/-- A step in which nothing is told. -/
theorem tale_of_quiet (hlog : Coherent log) (hbears : Bears (fun _ => []) [] relay after) :
    Tale log [] relay after where
  coherent := by
    rw [List.append_nil]
    exact hlog
  names := fun _ hmark => nomatch hmark
  taken := fun _ _ hmark => nomatch hmark
  links := by
    intro id link hlink
    obtain ⟨link', hlink', hflow⟩ := hbears.links id link hlink
    refine ⟨link', none, hlink', hears_of_quiet hflow ?_⟩
    cases link.session.member <;> rfl
  nextLink := hbears.nextLink
  nextRoute := hbears.nextRoute
  nextMember := hbears.nextMember

/-- Routes that stay are recorded as before. -/
theorem Records.stay {news : MemberId → List Message} (h : Records log opened relay)
    (hbears : Bears news [] relay after) {more : Nat} (hmore : opened ≤ more) :
    Records (log ++ []) more after where
  routes := by
    intro id hid
    rw [List.append_nil] at hid
    exact (h.routes id hid).mono hmore
  recorded := by
    intro route hroute
    rcases hbears.routes route hroute with hold | hnew
    · exact (h.recorded route hold).grow hbears.isAt []
    · cases hnew

/-- What an answer brings: a reply with the same payload, if it is a reply. -/
theorem telling_answerTo (id : RequestId) (message : Message) :
    telling (Router.answerTo id message).toList = [] ∨
      ∃ quoted, message.envelope = .reply quoted ∧
        Router.answerTo id message = some (.reply id message.payload) := by
  unfold Router.answerTo
  cases hmessage : message.envelope with
  | reply quoted => exact Or.inr ⟨quoted, rfl, rfl⟩
  | _ => exact Or.inl rfl

/-- The payload of a reply that quotes a route is what has been answered to whoever is recorded as
the one that asked. -/
theorem answered_of_recorded {message : Message} {route : Route} {sender caller : LinkId}
    {quoted : RequestId} (hlog : Coherent log) (hstanding : relay.Standing joined)
    (hrecorded : Recorded log relay route) (hsender : relay.IsAt route.target sender)
    (hcaller : relay.IsAt route.origin caller) (hsent : Sent log sender message)
    (hmessage : message.envelope = .reply quoted) (hquoted : quoted = route.id) :
    Answered log caller route.originId message.payload := by
  obtain ⟨caller', cluster, payload, target, crew, horigin, htarget, hrouted⟩ := hrecorded
  rw [hstanding.isAt_unique horigin hcaller] at hrouted
  rw [hstanding.isAt_unique htarget hsender] at hrouted
  cases hsent with
  | request key id cluster timeoutMs payload hcalled => cases hmessage
  | reply service answer hcompleted =>
      cases hmessage
      obtain ⟨errand, -, hservice, hdone⟩ := hlog.explained _ hcompleted
      have hroute : errand.route = route.id := by
        rw [← hquoted, ← hservice]
        rfl
      -- One request only has been routed under the number of the route.
      have hsame : errand.routed =
          .routed caller route.originId cluster payload route.id sender crew := by
        refine eq_of_mark hlog.distinct (.route route.id) hdone.served.routed.routed_mem
          hrouted ?_ (List.mem_cons_of_mem _ List.mem_cons_self)
        rw [← hroute]
        exact List.mem_cons_of_mem _ List.mem_cons_self
      injection hsame with hcalled hid
      exact ⟨errand, hcalled, hid, service.key, hdone⟩

/-- A reply comes back. -/
theorem tale_of_told {link : Link} {message : Message} {member : MemberId} {route : Route}
    (hlog : Coherent log) (hstanding : relay.Standing joined) (hrecords : Records log opened relay)
    (hheeds : Heeds log relay) (hlink : relay.link? link.id = some link)
    (htaken : link.decoder.nextMessage.1 = .item message)
    (hmember : link.session.member = some member) (hroute : route ∈ relay.router.routes)
    (hquoted : message.envelope.requestId? = some route.id) (htarget : route.target = member)
    (hbears : Bears (fun member => if member = route.origin then
      telling (Router.answerTo route.originId message).toList else []) [] relay after) :
    Tale log [] relay after := by
  refine ⟨?_, fun _ hmark => (nomatch hmark), fun _ _ hmark => (nomatch hmark), ?_, hbears.nextLink,
    hbears.nextRoute, hbears.nextMember⟩
  · rw [List.append_nil]
    exact hlog
  intro id other hother
  obtain ⟨other', hother', hflow⟩ := hbears.links id other hother
  -- An error is told to nobody here: only replies are followed.
  rcases telling_answerTo route.originId message with hnothing | ⟨quoted, hmessage, hanswer⟩
  · refine ⟨other', none, hother', hears_of_quiet hflow ?_⟩
    rw [hnothing]
    cases other.session.member with
    | none => rfl
    | some asked =>
        show (if asked = route.origin then [] else []) = _
        rw [ite_self]
  · by_cases horigin : other.session.member = some route.origin
    · refine ⟨other', some (.reply route.originId message.payload), hother',
        hears_of_flow hflow ?_ ?_ ?_⟩
      · rw [horigin, hanswer]
        exact if_pos rfl
      · intro reply hreply
        have hsame : reply = .reply route.originId message.payload :=
          List.mem_singleton.1 (List.mem_filter.1 hreply).1
        rw [hmessage] at hquoted
        have htelling : message.isTelling = true := by
          unfold Message.isTelling
          rw [hmessage]
        -- The reply comes from the link to which the request was routed, and goes to the one that
        -- made it.
        have hsender : relay.IsAt route.target link.id := ⟨link, hlink, htarget ▸ hmember⟩
        have hcaller : relay.IsAt route.origin other.id := by
          rw [id_of_link? hother]
          exact ⟨other, hother, horigin⟩
        rw [hsame, List.append_nil]
        exact .reply _ _
          (answered_of_recorded hlog hstanding (hrecords.recorded route hroute) hsender
          hcaller ((hheeds link.id link message hlink htaken).1 htelling) hmessage
          (Option.some.inj hquoted))
      · intro number hnumber
        cases hnumber
    · refine ⟨other', none, hother', hears_of_quiet hflow ?_⟩
      cases hasked : other.session.member with
      | none => rfl
      | some asked =>
          rw [hasked, Option.some.injEq] at horigin
          exact if_neg horigin

/-- The event that records how a request is passed on. -/
theorem events_of_routed {link : Link} {message : Message} {id : RequestId} {cluster : String}
    {timeoutMs : UInt64} {now : Instant} {route : Route} {place : LinkId}
    (hstep : step = .readNext link.id now) (hlink : relay.link? link.id = some link)
    (htaken : link.decoder.nextMessage.1 = .item message)
    (hmessage : message.envelope = .request id cluster timeoutMs)
    (hroutes : (relay.perform step).router.routes = relay.router.routes ++ [route])
    (hnew : route ∉ relay.router.routes) (hplace : relay.host? route.target = some place) :
    relay.events step =
      [.routed link.id id cluster message.payload route.id place (relay.crew cluster)] := by
  subst hstep
  have hupcoming : relay.upcoming? link.id = some message := by
    unfold upcoming?
    rw [hlink]
    simp only [htaken]
  have hafter : (relay.readNext link.id now).router.routes = relay.router.routes ++ [route] :=
    hroutes
  have hone : ((relay.readNext link.id now).router.routes.filter
      fun route => route ∉ relay.router.routes) = [route] := by
    have hold : (relay.router.routes.filter fun route => route ∉ relay.router.routes) = [] := by
      apply List.filter_eq_nil_iff.2
      intro other hother hother'
      exact absurd hother (of_decide_eq_true hother')
    rw [hafter, List.filter_append, hold, List.nil_append, List.filter_singleton,
      decide_eq_true hnew]
    rfl
  show relay.routings (relay.readNext link.id now) link.id = _
  unfold routings
  simp only [hupcoming, hmessage, hone, List.filterMap_cons, List.filterMap_nil, hplace,
    Option.map_some]

/-- A request is passed on under a new number. -/
theorem tale_of_routed {link link' : Link} {message : Message} {id : RequestId} {cluster : String}
    {timeoutMs : UInt64} {origin target : MemberId} {now : Instant} {place : LinkId}
    (hlog : Coherent log) (hstanding : relay.Standing joined) (hheeds : Heeds log relay)
    (hnew : .route ⟨relay.router.nextRoute⟩ ∉ marks log)
    (hlink : relay.link? link.id = some link) (hlink' : after.link? link.id = some link')
    (hdecoder : link'.decoder = link.decoder.nextMessage.2)
    (htaken : link.decoder.nextMessage.1 = .item message)
    (hmessage : message.envelope = .request id cluster timeoutMs)
    (hcrew : place ∈ relay.crew cluster) (hplace : relay.IsAt target place)
    (hbears : Bears (fun member =>
        if member = target then
          [.request ⟨relay.router.nextRoute⟩ cluster (timeoutOfWire timeoutMs).wireMillis
            message.payload]
        else [])
      [relay.router.routeFor origin id target (timeoutOfWire timeoutMs) now] relay after) :
    Tale log [.routed link.id id cluster message.payload ⟨relay.router.nextRoute⟩ place
      (relay.crew cluster)] relay after := by
  -- The client has sent the request with reason, and it has not been routed before.
  obtain ⟨hsent, hunrouted⟩ := hheeds link.id link message hlink htaken
  have hasking : id ∈ asking [message] := by
    rw [asking_singleton]
    unfold Message.asked?
    rw [hmessage]
    exact List.mem_singleton_self id
  have htelling : message.isTelling = true := by
    unfold Message.isTelling
    rw [hmessage]
  obtain ⟨key, hcalled⟩ : ∃ key, .called link.id key id cluster message.payload ∈ log := by
    cases hsent htelling with
    | request key id' cluster' timeoutMs' payload hcalled =>
        cases hmessage
        exact ⟨key, hcalled⟩
    | reply service payload hcompleted => cases hmessage
  let errand : Errand :=
    ⟨link.id, key, id, cluster, message.payload, ⟨relay.router.nextRoute⟩, place,
      relay.crew cluster⟩
  have hrouted : errand.Routed (log ++ [errand.routed]) :=
    ⟨(List.singleton_sublist.2 hcalled).append (List.Sublist.refl [errand.routed]), hcrew⟩
  -- The log grows by one event, which names the request and the new route for the first time.
  refine ⟨hlog.grow ?_ ?_ ?_, ?_, ?_, ?_, hbears.nextLink, hbears.nextRoute, hbears.nextMember⟩
  · exact List.nodup_cons.2 ⟨fun h => (nomatch List.mem_singleton.1 h), List.nodup_singleton _⟩
  · intro mark hmark
    rcases List.mem_cons.1 hmark with rfl | hmark
    · exact hunrouted id hasking
    · rw [List.mem_singleton.1 hmark]
      exact hnew
  · intro event hevent
    rw [List.mem_singleton.1 hevent]
    exact ⟨key, hrouted⟩
  · intro mark hmark
    rcases List.mem_cons.1 hmark with rfl | hmark
    · exact Or.inl ⟨link.id, id, rfl⟩
    · exact Or.inr ⟨_, List.mem_singleton.1 hmark⟩
  · intro other number hmark
    rcases List.mem_cons.1 hmark with hsame | hmark
    · cases hsame
      refine ⟨link, message, hlink, htaken, hasking, ?_⟩
      intro next hnext
      rw [hlink', Option.some.injEq] at hnext
      rw [← hnext]
      exact hdecoder
    · cases List.mem_singleton.1 hmark
  · intro other old hold
    obtain ⟨old', hold', hflow⟩ := hbears.links other old hold
    -- The request comes to the one link at which the target is; the other links hear nothing.
    by_cases htarget : old.session.member = some target
    · refine ⟨old', some (.request ⟨relay.router.nextRoute⟩ cluster
        (timeoutOfWire timeoutMs).wireMillis message.payload), hold', hears_of_flow hflow ?_ ?_ ?_⟩
      · rw [htarget]
        exact if_pos rfl
      · intro request hrequest
        rw [List.mem_singleton.1 (List.mem_filter.1 hrequest).1]
        refine .request errand _ ?_ hrouted
        have hat : relay.IsAt target old.id := by
          rw [id_of_link? hold]
          exact ⟨old, hold, htarget⟩
        exact hstanding.isAt_unique hplace hat
      · intro number hnumber
        have hsame : number = ⟨relay.router.nextRoute⟩ := List.mem_singleton.1 hnumber
        rw [hsame]
        exact hnew
    · refine ⟨old', none, hold', hears_of_quiet hflow ?_⟩
      cases hasked : old.session.member with
      | none => rfl
      | some asked =>
          rw [hasked, Option.some.injEq] at htarget
          exact if_neg htarget

/-- The new route is recorded. -/
theorem records_of_routed {news : MemberId → List Message} {link : Link} {id : RequestId}
    {cluster : String} {timeout : Duration} {origin target : MemberId} {now : Instant}
    {place : LinkId} {payload : ByteArray} {crew : List LinkId}
    (hrecords : Records log opened relay)
    (hcount : relay.router.nextRoute = UInt64.ofNat (1 + opened))
    (hlink : relay.link? link.id = some link) (hmember : link.session.member = some origin)
    (hplace : relay.IsAt target place)
    (hbears : Bears news [relay.router.routeFor origin id target timeout now] relay after) :
    Records (log ++ [.routed link.id id cluster payload ⟨relay.router.nextRoute⟩ place crew])
      (opened + 1) after where
  routes := by
    intro number hmark
    rcases mem_marks_append.1 hmark with hold | hmark
    · exact (hrecords.routes number hold).mono (Nat.le_succ opened)
    · rcases List.mem_cons.1 hmark with hsame | hmark
      · cases hsame
      · cases List.mem_singleton.1 hmark
        rw [hcount]
        exact issued_next opened
  recorded := by
    intro route hroute
    rcases hbears.routes route hroute with hold | hnew
    · exact (hrecords.recorded route hold).grow hbears.isAt _
    · rw [List.mem_singleton.1 hnew]
      exact ⟨link.id, cluster, payload, place, crew, hbears.isAt ⟨link, hlink, hmember⟩,
        hbears.isAt hplace, List.mem_append_right _ (List.mem_singleton_self _)⟩

/-- Whatever a step of a relay tells a client has a reason in the log, which grows by what the step
does to calls. -/
theorem tale_perform (step : Step) (hlog : Coherent log) (hstanding : relay.Standing joined)
    (hrecords : Records log opened relay) (hheeds : Heeds log relay)
    (hmembers : relay.router.nextMember = UInt64.ofNat (1 + joined))
    (hjoining : (relay.perform step).router.nextMember ≠ relay.router.nextMember →
      joined < UInt64.size)
    (hroutes : relay.router.nextRoute = UInt64.ofNat (1 + opened))
    (hopening : (relay.perform step).router.nextRoute ≠ relay.router.nextRoute →
      opened < UInt64.size) :
    Tale log (relay.events step) relay (relay.perform step) ∧
      Records (log ++ relay.events step)
        (opened + moves relay.router.nextRoute (relay.perform step).router.nextRoute)
        (relay.perform step) ∧
      (relay.perform step).Standing
        (joined + moves relay.router.nextMember (relay.perform step).router.nextMember) := by
  have hnew : (relay.perform step).router.nextRoute = relay.router.nextRoute + 1 →
      .route ⟨relay.router.nextRoute⟩ ∉ marks log := by
    intro hnext hmark
    have hroom : opened < UInt64.size := by
      apply hopening
      rw [hnext]
      exact succ_ne_self _
    have hissued : Issued opened relay.router.nextRoute := hrecords.routes _ hmark
    rw [hroutes] at hissued
    exact not_issued_next hroom hissued
  have hfresh : (relay.perform step).router.nextRoute = relay.router.nextRoute + 1 →
      ∀ route ∈ relay.router.routes, route.id ≠ ⟨relay.router.nextRoute⟩ := by
    intro hnext route hroute hid
    exact hnew hnext (hid ▸ (hrecords.recorded route hroute).route_mem)
  -- The number of a route that is opened is new to the log, and so to the table of routes.
  obtain ⟨hpassage, hstanding'⟩ := perform_passage hstanding step hmembers hjoining hfresh
  suffices h : Tale log (relay.events step) relay (relay.perform step) ∧
      Records (log ++ relay.events step)
        (opened + moves relay.router.nextRoute (relay.perform step).router.nextRoute)
        (relay.perform step) from ⟨h.1, h.2, hstanding'⟩
  cases hpassage with
  | quiet hbears =>
      have hevents : relay.events step = [] := events_of_routes fun route hroute =>
        (hbears.routes route hroute).resolve_right fun h => nomatch h
      rw [hevents]
      exact ⟨tale_of_quiet hlog hbears, hrecords.stay hbears (Nat.le_add_right _ _)⟩
  | routed link link' message id cluster timeoutMs origin target now hstep hlink hlink' hdecoder
      htaken hmessage hmember hcluster hbears hafter hnext =>
      obtain ⟨place, hcrew, hplace⟩ := hstanding.mem_crew hcluster
      have hevents := events_of_routed hstep hlink htaken hmessage hafter
        (fun hroute => hfresh hnext _ hroute rfl) (hstanding.host?_of_isAt hplace)
      rw [hevents, hnext, moves_succ]
      exact ⟨tale_of_routed hlog hstanding hheeds (hnew hnext) hlink hlink' hdecoder htaken hmessage
          hcrew hplace hbears,
        records_of_routed hrecords hroutes hlink hmember hplace hbears⟩
  | told link message member route hlink htaken hmember hroute hquoted htarget hbears =>
      have hevents : relay.events step = [] := events_of_routes fun route hroute =>
        (hbears.routes route hroute).resolve_right fun h => nomatch h
      rw [hevents]
      exact ⟨tale_of_told hlog hstanding hrecords hheeds hlink htaken hmember hroute hquoted htarget
          hbears,
        hrecords.stay hbears (Nat.le_add_right _ _)⟩

end Perform

end Relay

end Switchboard
