import Mathlib.Data.List.Nodup
import Switchboard.Proofs.Relay.Course

/-!
# Links and members

Along a run of a relay, every member is the session of one link, as long as the counter of members
does not come round (`Standing`, `standing_perform`). A step tells its news to the sessions of
links, and all links go on behind it (`Passage`, `perform_passage`).
-/

namespace Switchboard

/-! ## Numbers that have been handed out -/

/-- One of the first `count` numbers that a 64-bit counter hands out, beginning with one. -/
def Issued (count : Nat) (number : UInt64) : Prop := ∃ k < count, number = UInt64.ofNat (1 + k)

theorem Issued.mono {count more : Nat} {number : UInt64} (h : Issued count number)
    (hle : count ≤ more) : Issued more number := by
  obtain ⟨k, hk, hnumber⟩ := h
  exact ⟨k, Nat.lt_of_lt_of_le hk hle, hnumber⟩

theorem issued_next (count : Nat) : Issued (count + 1) (UInt64.ofNat (1 + count)) :=
  ⟨count, Nat.lt_succ_self count, rfl⟩

/-- Until the counter comes round, the next number is new. -/
theorem not_issued_next {count : Nat} (h : count < UInt64.size) :
    ¬ Issued count (UInt64.ofNat (1 + count)) := by
  rintro ⟨k, hk, hsame⟩
  have hnat := congrArg UInt64.toNat hsame
  simp only [UInt64.toNat_ofNat'] at hnat
  simp only [UInt64.size] at h
  omega

theorem succ_ne_self (number : UInt64) : number + 1 ≠ number := by grind

theorem succ_ofNat (count : Nat) : UInt64.ofNat (1 + count) + 1 = UInt64.ofNat (1 + (count + 1)) :=
  (UInt64.ofNat_add (1 + count) 1).symm

/-- How often a counter has moved on behind a step. -/
def moves (before after : UInt64) : Nat := if after = before then 0 else 1

theorem moves_of_eq {before after : UInt64} (h : after = before) : moves before after = 0 :=
  if_pos h

theorem moves_of_ne {before after : UInt64} (h : after ≠ before) : moves before after = 1 :=
  if_neg h

theorem moves_succ (number : UInt64) : moves number (number + 1) = 1 :=
  moves_of_ne (succ_ne_self number)

namespace Relay

open Router (Passes Quiet)

/-! ## Members are sessions -/

/-- Whether a member is the session of a link. -/
def Hosts (relay : Relay) (id : MemberId) : Prop :=
  ∃ link ∈ relay.links, link.session.member = some id

/-- Links have names of their own. Members are the sessions of links, each of one link, and have
been given the first `joined` numbers. What waits, waits for a session, and what has been written
fits into frames. -/
structure Standing (joined : Nat) (relay : Relay) : Prop where
  ids : (relay.links.map Link.id).Nodup
  bounded : ∀ link ∈ relay.links, link.id < relay.nextLink
  issued : ∀ link ∈ relay.links, ∀ member, link.session.member = some member → Issued joined member
  distinct : ∀ link ∈ relay.links, ∀ other ∈ relay.links, ∀ member,
    link.session.member = some member → other.session.member = some member → link = other
  members : ∀ member ∈ relay.router.members, relay.Hosts member.id
  rosters : ∀ id cluster, relay.router.InCluster id cluster →
    ∃ link ∈ relay.links, link.session.member = some id ∧ link.session.cluster = some cluster
  held : ∀ id, relay.router.queued id ≠ [] → relay.Hosts id
  sent : ∀ link ∈ relay.links, ∀ message ∈ link.sent, message.Fits

theorem standing_new (options : RelayOptions) : Standing 0 (.new options) where
  ids := List.nodup_nil
  bounded := fun _ h => nomatch h
  issued := fun _ h => nomatch h
  distinct := fun _ h => nomatch h
  members := fun _ h => nomatch h
  rosters := by
    rintro id cluster ⟨roster, hroster, -⟩
    cases hroster
  held := fun _ h => absurd rfl h
  sent := fun _ h => nomatch h

/-- A link that goes on under the same session. -/
structure Stays (link link' : Link) : Prop where
  id : link'.id = link.id
  member : link'.session.member = link.session.member
  cluster : link'.session.cluster = link.session.cluster
  sent : (∀ message ∈ link.sent, message.Fits) → ∀ message ∈ link'.sent, message.Fits

namespace Stays

theorem refl (link : Link) : Stays link link := ⟨rfl, rfl, rfl, fun h => h⟩

theorem of_sent {link link' : Link} {written : List Message} (hid : link'.id = link.id)
    (hmember : link'.session.member = link.session.member)
    (hcluster : link'.session.cluster = link.session.cluster)
    (hsent : link'.sent = link.sent ++ written) (hfits : ∀ message ∈ written, message.Fits) :
    Stays link link' := by
  refine ⟨hid, hmember, hcluster, ?_⟩
  intro hold message hmessage
  rw [hsent] at hmessage
  rcases List.mem_append.1 hmessage with h | h
  · exact hold message h
  · exact hfits message h

theorem of_murmurs {link link' : Link} (h : Murmurs link link') : Stays link link' := by
  obtain ⟨written, hsent, hplain⟩ := h.sent
  exact of_sent h.id h.member h.cluster hsent fun message hmessage => (hplain message hmessage).1

end Stays

namespace Standing

variable {joined : Nat} {relay after : Relay} (h : relay.Standing joined)

include h

theorem link?_of_mem {link : Link} (hlink : link ∈ relay.links) :
    relay.link? link.id = some link := Lookup.find?_eq_some_of_mem h.ids hlink

/-- Behind a step in which nobody joins, all is as it should be if all links go on. -/
theorem carry {news : MemberId → List Message} {opened : List Route} {g : Link → Link}
    (hlinks : after.links = relay.links.map g) (hstays : ∀ link ∈ relay.links, Stays link (g link))
    (hpasses : Passes news opened relay.router after.router)
    (hnextLink : after.nextLink = relay.nextLink) : after.Standing joined := by
  have hmem : ∀ link' ∈ after.links, ∃ link ∈ relay.links, g link = link' := by
    intro link' hlink'
    rw [hlinks] at hlink'
    exact List.mem_map.1 hlink'
  have hto : ∀ link ∈ relay.links, g link ∈ after.links := by
    intro link hlink
    rw [hlinks]
    exact List.mem_map_of_mem hlink
  -- Whoever had a link before has one behind the step.
  have hhosts : ∀ id, relay.Hosts id → after.Hosts id := by
    rintro id ⟨link, hlink, hmember⟩
    exact ⟨g link, hto link hlink, (hstays link hlink).member.trans hmember⟩
  constructor
  case ids =>
    have hids : (relay.links.map g).map Link.id = relay.links.map Link.id := by
      rw [List.map_map]
      exact List.map_congr_left fun link hlink => (hstays link hlink).id
    rw [hlinks, hids]
    exact h.ids
  case bounded =>
    intro link' hlink'
    obtain ⟨link, hlink, rfl⟩ := hmem link' hlink'
    rw [hnextLink, (hstays link hlink).id]
    exact h.bounded link hlink
  case issued =>
    intro link' hlink' member hmember
    obtain ⟨link, hlink, rfl⟩ := hmem link' hlink'
    exact h.issued link hlink member ((hstays link hlink).member.symm.trans hmember)
  case distinct =>
    intro link' hlink' other' hother' member hmember hmember'
    obtain ⟨link, hlink, rfl⟩ := hmem link' hlink'
    obtain ⟨other, hother, rfl⟩ := hmem other' hother'
    rw [h.distinct link hlink other hother member ((hstays link hlink).member.symm.trans hmember)
      ((hstays other hother).member.symm.trans hmember')]
  case members =>
    intro member hmember
    exact hhosts _ (h.members member (hpasses.members member hmember))
  case rosters =>
    intro id cluster hin
    obtain ⟨link, hlink, hmember, hcluster⟩ := h.rosters id cluster (hpasses.rosters id cluster hin)
    exact ⟨g link, hto link hlink, (hstays link hlink).member.trans hmember,
      (hstays link hlink).cluster.trans hcluster⟩
  case held =>
    intro id hsome
    rcases hpasses.held id hsome with hold | ⟨member, hmember, rfl⟩
    · exact hhosts id (h.held id hold)
    · exact hhosts _ (h.members member hmember)
  case sent =>
    intro link' hlink'
    obtain ⟨link, hlink, rfl⟩ := hmem link' hlink'
    exact (hstays link hlink).sent (h.sent link hlink)

/-- A step of one link. -/
theorem carry_replace {news : MemberId → List Message} {opened : List Route} {link link' : Link}
    (hlink : relay.link? link.id = some link)
    (hlinks : after.links = Lookup.replace Link.id link' relay.links) (hstays : Stays link link')
    (hpasses : Passes news opened relay.router after.router)
    (hnextLink : after.nextLink = relay.nextLink) : after.Standing joined := by
  refine h.carry (g := fun old => if old.id = link'.id then link'
    else old) hlinks ?_ hpasses hnextLink
  intro old hold
  show Stays old (if old.id = link'.id then link' else old)
  by_cases hkey : old.id = link'.id
  · rw [if_pos hkey,
      Lookup.eq_of_key h.ids hold (mem_of_link? hlink) (hkey.trans hstays.id)]
    exact hstays
  · rw [if_neg hkey]
    exact .refl old

/-- A session joins under a number that nobody has. -/
theorem join {link link' : Link} {cluster : String} {capacity : Nat}
    (hlink : relay.link? link.id = some link) (hnone : link.session.member = none)
    (hid : link'.id = link.id) (hmember' : link'.session.member = some relay.router.nextMember)
    (hcluster' : link'.session.cluster = some cluster) (hsent : link'.sent = link.sent)
    (hcount : relay.router.nextMember = UInt64.ofNat (1 + joined))
    (hnew : ¬ Issued joined relay.router.nextMember)
    (hlinks : after.links = Lookup.replace Link.id link' relay.links)
    (hrouter : after.router = (relay.router.join cluster capacity).2)
    (hnextLink : after.nextLink = relay.nextLink) : after.Standing (joined + 1) := by
  have hself : link' ∈ after.links := by
    rw [hlinks]
    exact Lookup.mem_replace_self (mem_of_link? hlink) hid.symm
  -- The other links stay, with the members that they had.
  have hother : ∀ old ∈ relay.links, ∀ member, old.session.member = some member →
      old ∈ after.links := by
    intro old hold member hmember
    rw [hlinks]
    refine Lookup.mem_replace_of_ne hold ?_
    intro hkey
    rw [Lookup.eq_of_key h.ids hold (mem_of_link? hlink) (hkey.trans hid), hnone] at hmember
    cases hmember
  have hmem : ∀ old ∈ after.links, old = link' ∨ old ∈ relay.links := by
    intro old hold
    rw [hlinks] at hold
    exact (Lookup.mem_replace hold).imp_right And.left
  have hhosts : ∀ id, relay.Hosts id → after.Hosts id := by
    rintro id ⟨old, hold, hmember⟩
    exact ⟨old, hother old hold id hmember, hmember⟩
  -- The number is new, so no link had a member of that number.
  have hfresh : ∀ old ∈ relay.links, old.session.member ≠ some relay.router.nextMember :=
    fun old hold hmember => hnew (h.issued old hold _ hmember)
  constructor
  case ids =>
    rw [hlinks, Lookup.map_key_replace]
    exact h.ids
  case bounded =>
    intro old hold
    rw [hnextLink]
    rcases hmem old hold with rfl | hold
    · rw [hid]
      exact h.bounded link (mem_of_link? hlink)
    · exact h.bounded old hold
  case issued =>
    intro old hold member hmember
    rcases hmem old hold with rfl | hold
    · rw [hmember', Option.some.injEq] at hmember
      rw [← hmember, hcount]
      exact issued_next joined
    · exact (h.issued old hold member hmember).mono (Nat.le_succ joined)
  case distinct =>
    intro old hold other hother' member hmember hsame
    rcases hmem old hold with rfl | hold
    · rcases hmem other hother' with rfl | hother'
      · rfl
      · rw [hmember', Option.some.injEq] at hmember
        exact absurd (hmember ▸ hsame) (hfresh other hother')
    · rcases hmem other hother' with rfl | hother'
      · rw [hmember', Option.some.injEq] at hsame
        exact absurd (hsame ▸ hmember) (hfresh old hold)
      · exact h.distinct old hold other hother' member hmember hsame
  case members =>
    intro member hmember
    rw [hrouter] at hmember
    rcases List.mem_append.1 hmember with hold | hnewest
    · exact hhosts _ (h.members member hold)
    · rw [List.mem_singleton.1 hnewest]
      exact ⟨link', hself, hmember'⟩
  case rosters =>
    intro id other hin
    rw [hrouter] at hin
    rcases Router.inCluster_join hin with hold | ⟨rfl, rfl⟩
    · obtain ⟨old, hold, hmember, hcluster⟩ := h.rosters id other hold
      exact ⟨old, hother old hold id hmember, hmember, hcluster⟩
    · exact ⟨link', hself, hmember', hcluster'⟩
  case held =>
    intro id hsome
    rw [hrouter, Router.queued_join] at hsome
    exact hhosts id (h.held id hsome)
  case sent =>
    intro old hold
    rcases hmem old hold with rfl | hold
    · rw [hsent]
      exact h.sent link (mem_of_link? hlink)
    · exact h.sent old hold

/-- A link is accepted. -/
theorem accept {link : Link} (hid : link.id = relay.nextLink) (hnone : link.session.member = none)
    (hsent : ∀ message ∈ link.sent, message.Fits) (hlinks : after.links = relay.links ++ [link])
    (hrouter : after.router = relay.router) (hnextLink : after.nextLink = relay.nextLink + 1) :
    after.Standing joined := by
  have hmem : ∀ old ∈ after.links, old = link ∨ old ∈ relay.links := by
    intro old hold
    rw [hlinks, List.mem_append, List.mem_singleton] at hold
    exact hold.symm
  have hto : ∀ old ∈ relay.links, old ∈ after.links := by
    intro old hold
    rw [hlinks]
    exact List.mem_append_left _ hold
  have hhosts : ∀ id, relay.Hosts id → after.Hosts id := by
    rintro id ⟨old, hold, hmember⟩
    exact ⟨old, hto old hold, hmember⟩
  -- A new link has no member, so what is said of members is said of old links.
  have hold? : ∀ old ∈ after.links, ∀ member, old.session.member = some member →
      old ∈ relay.links := by
    intro old hold member hmember
    rcases hmem old hold with rfl | hold
    · rw [hnone] at hmember
      cases hmember
    · exact hold
  constructor
  case ids =>
    rw [hlinks]
    apply Lookup.nodup_snoc h.ids
    intro old hold
    rw [hid]
    exact Nat.ne_of_lt (h.bounded old hold)
  case bounded =>
    intro old hold
    rw [hnextLink]
    rcases hmem old hold with rfl | hold
    · rw [hid]
      exact Nat.lt_succ_self _
    · exact Nat.lt_succ_of_lt (h.bounded old hold)
  case issued =>
    intro old hold member hmember
    exact h.issued old (hold? old hold member hmember) member hmember
  case distinct =>
    intro old hold other hother member hmember hmember'
    exact h.distinct old (hold? old hold member hmember) other (hold? other hother member hmember')
      member hmember hmember'
  case members =>
    rw [hrouter]
    exact fun member hmember => hhosts _ (h.members member hmember)
  case rosters =>
    rw [hrouter]
    intro id cluster hin
    obtain ⟨old, hold, hmember, hcluster⟩ := h.rosters id cluster hin
    exact ⟨old, hto old hold, hmember, hcluster⟩
  case held =>
    rw [hrouter]
    exact fun id hsome => hhosts id (h.held id hsome)
  case sent =>
    intro old hold
    rcases hmem old hold with rfl | hold
    · exact hsent
    · exact h.sent old hold

end Standing

/-! ## News that a step tells -/

/-- A relay behind a step that tells the messages `news` to members and opens the routes `opened`.
Links go on, and the counters move on by one at most. -/
structure Bears (news : MemberId → List Message) (opened : List Route) (relay after : Relay) :
    Prop where
  routes : ∀ route ∈ after.router.routes, route ∈ relay.router.routes ∨ route ∈ opened
  links : ∀ id link, relay.link? id = some link →
    ∃ link', after.link? id = some link' ∧ Flow news relay.router after.router link link'
  nextLink : relay.nextLink ≤ after.nextLink
  nextRoute : after.router.nextRoute = relay.router.nextRoute ∨
    after.router.nextRoute = relay.router.nextRoute + 1
  nextMember : after.router.nextMember = relay.router.nextMember ∨
    after.router.nextMember = relay.router.nextMember + 1

/-- What a step does to the requests and replies that a relay handles. -/
inductive Passage (relay after : Relay) (step : Step) : Prop
  /-- Nothing is told to anybody. -/
  | quiet (hbears : Bears (fun _ => []) [] relay after)
  /-- A request comes to a member of its cluster. -/
  | routed (link link' : Link) (message : Message) (id : RequestId) (cluster : String)
      (timeoutMs : UInt64) (origin target : MemberId) (now : Instant)
      (hstep : step = .readNext link.id now) (hlink : relay.link? link.id = some link)
      (hlink' : after.link? link.id = some link')
      (hdecoder : link'.decoder = link.decoder.nextMessage.2)
      (htaken : link.decoder.nextMessage.1 = .item message)
      (hmessage : message.envelope = .request id cluster timeoutMs)
      (hmember : link.session.member = some origin)
      (hcluster : relay.router.InCluster target cluster)
      (hbears : Bears
        (fun member => if member = target then
          [.request ⟨relay.router.nextRoute⟩ cluster (timeoutOfWire timeoutMs).wireMillis
            message.payload] else [])
        [relay.router.routeFor origin id target (timeoutOfWire timeoutMs) now] relay after)
      (hroutes : after.router.routes = relay.router.routes ++
        [relay.router.routeFor origin id target (timeoutOfWire timeoutMs) now])
      (hnext : after.router.nextRoute = relay.router.nextRoute + 1)
  /-- An answer comes back to whoever asked. -/
  | told (link : Link) (message : Message) (member : MemberId) (route : Route)
      (hlink : relay.link? link.id = some link)
      (htaken : link.decoder.nextMessage.1 = .item message)
      (hmember : link.session.member = some member) (hroute : route ∈ relay.router.routes)
      (hquoted : message.envelope.requestId? = some route.id) (htarget : route.target = member)
      (hbears : Bears
        (fun member => if member = route.origin then
          telling (Router.answerTo route.originId message).toList else []) [] relay after)

section Bears

variable {joined : Nat} {relay after : Relay} {news : MemberId → List Message} {opened : List Route}

/-- The link whose turn it is goes on, and so do the others. -/
theorem links_of_replace {link link' : Link} (hlink : relay.link? link.id = some link)
    (hlinks : after.links = Lookup.replace Link.id link' relay.links)
    (hqueued : ∀ id,
      (telling (after.router.queued id)).Sublist (telling (relay.router.queued id) ++ news id))
    (hflow : Flow news relay.router after.router link link') (id : LinkId) (old : Link)
    (hold : relay.link? id = some old) :
    ∃ old', after.link? id = some old' ∧ Flow news relay.router after.router old old' := by
  by_cases hid : id = link.id
  · rw [hid, hlink] at hold
    cases hold
    exact ⟨link', hid ▸ link?_of_links link' hlink hflow.id hlinks, hflow⟩
  · refine ⟨old, ?_, flow_of_murmurs hqueued (.of_sent rfl rfl rfl rfl)⟩
    rw [link?_of_links_ne (hflow.id ▸ hid) hlinks]
    exact hold

theorem bears_of_turn {link link' : Link} (hlink : relay.link? link.id = some link)
    (hlinks : after.links = Lookup.replace Link.id link' relay.links)
    (hnextLink : after.nextLink = relay.nextLink)
    (hpasses : Passes news opened relay.router after.router)
    (hflow : Flow news relay.router after.router link link')
    (hnext : after.router.nextRoute = relay.router.nextRoute ∨
      after.router.nextRoute = relay.router.nextRoute + 1) : Bears news opened relay after where
  routes := hpasses.routes
  links := links_of_replace hlink hlinks hpasses.queued hflow
  nextLink := Nat.le_of_eq hnextLink.symm
  nextRoute := hnext
  nextMember := Or.inl hpasses.nextMember

/-- Links stay as they were, or nothing is told on them. -/
theorem bears_of_murmurs {g : Link → Link} (hlinks : after.links = relay.links.map g)
    (hmurmurs : ∀ link, Murmurs link (g link)) (hquiet : Quiet relay.router after.router)
    (hnextLink : after.nextLink = relay.nextLink)
    (hnext : after.router.nextRoute = relay.router.nextRoute) :
    Bears (fun _ => []) [] relay after where
  routes := hquiet.routes
  links := by
    intro id link hlink
    refine ⟨g link, ?_, flow_of_murmurs hquiet.queued (hmurmurs link)⟩
    rw [link?_of_map hlinks (fun other => (hmurmurs other).id), hlink, Option.map_some]
  nextLink := Nat.le_of_eq hnextLink.symm
  nextRoute := Or.inl hnext
  nextMember := Or.inl hquiet.nextMember

end Bears

/-! ## What a step does -/

section Perform

variable {joined : Nat} {relay after : Relay} {step : Step} (h : relay.Standing joined)
  (hcount : relay.router.nextMember = UInt64.ofNat (1 + joined))
  (hroom : after.router.nextMember ≠ relay.router.nextMember → joined < UInt64.size)

include h hcount hroom

/-- A session joins. It has not been waited for, and it may end at once. -/
theorem passage_of_joined {link link' : Link} {cluster : String} {clientName : Option String}
    (hlink : relay.link? link.id = some link) (hnone : link.session.member = none)
    (hquiet : Quiet (relay.router.join cluster relay.options.outboundQueue).2 after.router)
    (hmurmurs : Murmurs
      { link with
        session :=
          link.session.completeHandshake cluster clientName relay.router.nextMember } link')
    (hnext : after.router.nextRoute = relay.router.nextRoute)
    (hlinks : after.links = Lookup.replace Link.id link' relay.links)
    (hnextLink : after.nextLink = relay.nextLink) :
    Passage relay after step ∧
      after.Standing (joined + moves relay.router.nextMember after.router.nextMember) := by
  have hmoved : after.router.nextMember = relay.router.nextMember + 1 := hquiet.nextMember
  have hchanged : after.router.nextMember ≠ relay.router.nextMember := by
    rw [hmoved]
    exact succ_ne_self _
  have hnew : ¬ Issued joined relay.router.nextMember := by
    rw [hcount]
    exact not_issued_next (hroom hchanged)
  -- Nobody has had this number, so nothing waits for it.
  have hempty : relay.router.queued relay.router.nextMember = [] := by
    by_contra hsome
    obtain ⟨old, hold, hmember⟩ := h.held _ hsome
    exact hnew (h.issued old hold _ hmember)
  have hqueued : ∀ id, (telling (after.router.queued id)).Sublist
      (telling (relay.router.queued id) ++ []) := by
    intro id
    have hquieted := hquiet.queued id
    rwa [Router.queued_join] at hquieted
  -- What the link hears in this step is said by its own session, which tells of no call.
  have hflow : Flow (fun _ => []) relay.router after.router link link' := by
    obtain ⟨written, hsent, hplain⟩ := hmurmurs.sent
    have hsilent : telling written = [] := telling_eq_nil fun message hmessage =>
      (hplain message hmessage).2
    have hnothing := hqueued relay.router.nextMember
    refine ⟨hmurmurs.id, ?_, written, hsent, fun message hmessage => (hplain message hmessage).1,
      ?_⟩
    · intro member hmember
      rw [hnone] at hmember
      cases hmember
    · rw [hempty] at hnothing
      rw [telling_append, hsilent, hmurmurs.member, hnone]
      exact hnothing
  constructor
  · exact .quiet ⟨fun route hroute => hquiet.routes route hroute,
      links_of_replace hlink hlinks hqueued hflow, Nat.le_of_eq hnextLink.symm, Or.inl hnext,
      Or.inr hmoved⟩
  · -- The session joins, and then the link goes on as one that has joined.
    generalize hmiddle : ({ link with
      session :=
        link.session.completeHandshake cluster clientName relay.router.nextMember } : Link) =
        middle at hmurmurs
    have hid : middle.id = link.id := by rw [← hmiddle]
    have hmember : middle.session.member = some relay.router.nextMember := by rw [← hmiddle]; rfl
    have hcluster : middle.session.cluster = some cluster := by rw [← hmiddle]; rfl
    have hsent : middle.sent = link.sent := by rw [← hmiddle]
    have hjoined : Standing (joined + 1)
        { relay with
          router := (relay.router.join cluster relay.options.outboundQueue).2
          links := Lookup.replace Link.id middle relay.links } :=
      h.join hlink hnone hid hmember hcluster hsent hcount hnew rfl rfl rfl
    rw [moves_of_ne hchanged]
    have hfound : Relay.link?
        { relay with
          router := (relay.router.join cluster relay.options.outboundQueue).2
          links := Lookup.replace Link.id middle relay.links } middle.id = some middle := by
      rw [hid]
      exact link?_of_links middle hlink hid rfl
    refine hjoined.carry_replace hfound ?_ (.of_murmurs hmurmurs) hquiet hnextLink
    show after.links = Lookup.replace Link.id link' (Lookup.replace Link.id middle relay.links)
    rw [hlinks, Lookup.replace_replace hmurmurs.id.symm]

/-- A turn of a link. -/
theorem passage_of_turn {link link' : Link} (hlink : relay.link? link.id = some link)
    (hcourse : Course relay.options relay.router link step after.router link')
    (hlinks : after.links = Lookup.replace Link.id link' relay.links)
    (hnextLink : after.nextLink = relay.nextLink) :
    Passage relay after step ∧
      after.Standing (joined + moves relay.router.nextMember after.router.nextMember) := by
  cases hcourse with
  | quiet hquiet hmember hcluster hflow hnext =>
      obtain ⟨written, hsent, hfits, -⟩ := hflow.sent
      rw [moves_of_eq hquiet.nextMember, Nat.add_zero]
      exact ⟨.quiet (bears_of_turn hlink hlinks hnextLink hquiet hflow hnext),
        h.carry_replace hlink hlinks (.of_sent hflow.id hmember hcluster hsent hfits) hquiet
          hnextLink⟩
  | joined cluster clientName hnone hquiet hmurmurs hnext =>
      exact passage_of_joined h hcount hroom hlink hnone hquiet hmurmurs hnext hlinks hnextLink
  | routed message id cluster timeoutMs origin target now hstep hdecoder htaken hmessage hmember
      hcluster hpasses hroutes hnext hmurmurs =>
      have hbears := bears_of_turn hlink hlinks hnextLink hpasses
        (flow_of_murmurs hpasses.queued hmurmurs) (Or.inr hnext)
      rw [moves_of_eq hpasses.nextMember, Nat.add_zero]
      refine ⟨.routed link link' message id cluster timeoutMs origin target now hstep hlink ?_
        hdecoder htaken hmessage hmember hcluster hbears hroutes hnext, ?_⟩
      · exact link?_of_links link' hlink hmurmurs.id hlinks
      · exact h.carry_replace hlink hlinks (.of_murmurs hmurmurs) hpasses hnextLink
  | told message member route htaken hmember hroute hquoted htarget hpasses hnext hmurmurs =>
      have hbears := bears_of_turn hlink hlinks hnextLink hpasses
        (flow_of_murmurs hpasses.queued hmurmurs) (Or.inl hnext)
      rw [moves_of_eq hpasses.nextMember, Nat.add_zero]
      exact ⟨.told link message member route hlink htaken hmember hroute hquoted htarget hbears,
        h.carry_replace hlink hlinks (.of_murmurs hmurmurs) hpasses hnextLink⟩

end Perform

/-- What a step does to the requests and replies that a relay handles, as long as the numbers that
it draws are not in use. -/
theorem perform_passage {joined : Nat} {relay : Relay} (h : relay.Standing joined) (step : Step)
    (hcount : relay.router.nextMember = UInt64.ofNat (1 + joined))
    (hroom : (relay.perform step).router.nextMember ≠ relay.router.nextMember →
      joined < UInt64.size)
    (hfresh : (relay.perform step).router.nextRoute = relay.router.nextRoute + 1 →
      ∀ route ∈ relay.router.routes, route.id ≠ ⟨relay.router.nextRoute⟩) :
    Passage relay (relay.perform step) step ∧
      (relay.perform step).Standing (joined +
        moves relay.router.nextMember (relay.perform step).router.nextMember) := by
  have heffect := perform_effect relay step
  generalize relay.perform step = after at heffect hroom hfresh ⊢
  have hmap : relay.links = relay.links.map fun link => link := (List.map_id' _).symm
  have hstill : ∀ link : Link, Murmurs link link := fun _ => .of_sent rfl rfl rfl rfl
  -- In most steps every link goes on, and at most says something of its own.
  have hmany : ∀ g : Link → Link, after.links = relay.links.map g →
      (∀ link, Murmurs link (g link)) → Quiet relay.router after.router →
      after.nextLink = relay.nextLink → after.router.nextRoute = relay.router.nextRoute →
        Passage relay after step ∧
          after.Standing (joined + moves relay.router.nextMember after.router.nextMember) := by
    intro g hlinks hmurmurs hquiet hnextLink hnext
    rw [moves_of_eq hquiet.nextMember, Nat.add_zero]
    exact ⟨.quiet (bears_of_murmurs hlinks hmurmurs hquiet hnextLink hnext),
      h.carry hlinks (fun link _ => .of_murmurs (hmurmurs link)) hquiet hnextLink⟩
  cases heffect with
  | still hrouter hlinks hnext =>
      exact hmany _ (hlinks.trans hmap) hstill (hrouter ▸ .refl _) hnext (congrArg _ hrouter)
  | announced hrouter hlinks hnext =>
      refine hmany _ hlinks ?_ (hrouter ▸ .refl _) hnext (congrArg _ hrouter)
      intro link
      split <;> exact .of_sent rfl rfl rfl rfl
  | accepted name remote now hstep hrouter hlinks hnext =>
      -- A link that is turned away is told of it, and ends.
      obtain ⟨link, hmurmurs, hlinks⟩ : ∃ link,
          Murmurs (Link.new relay.nextLink name remote now) link ∧
            after.links = relay.links ++ [link] := by
        rcases hlinks with hlinks | hlinks
        · exact ⟨_, hstill _, hlinks⟩
        · exact ⟨_, (Murmurs.of_tryWrite _ rfl).trans (.of_ended _), hlinks⟩
      have hsent : ∀ message ∈ link.sent, message.Fits :=
        (Stays.of_murmurs hmurmurs).sent fun _ h => nomatch h
      rw [moves_of_eq (congrArg _ hrouter), Nat.add_zero]
      refine ⟨.quiet ?_, h.accept hmurmurs.id hmurmurs.member hsent hlinks hrouter hnext⟩
      refine ⟨?_, ?_, ?_, Or.inl (congrArg _ hrouter), Or.inl (congrArg _ hrouter)⟩
      · rw [hrouter]
        exact fun route hroute => Or.inl hroute
      · intro id old hold
        rw [hrouter]
        refine ⟨old, ?_, flow_of_murmurs (Passes.refl relay.router).queued (hstill old)⟩
        unfold link? at hold ⊢
        rw [hlinks, List.find?_append, hold]
        rfl
      · rw [hnext]
        exact Nat.le_succ _
  | turn link link' hlink hturn hlinks hnext =>
      exact passage_of_turn h hcount hroom hlink (course_of_turn hturn hfresh) hlinks hnext
  | hungUp member hstep hrouter hlinks hnext =>
      refine hmany _ (hlinks.trans hmap) hstill (hrouter ▸ relay.router.quiet_hangUp member)
        hnext ?_
      rw [hrouter]
      exact (relay.router.sameRegistry_hangUp member).nextRoute
  | swept now hstep hrouter hlinks hnext =>
      refine hmany _ (hlinks.trans hmap) hstill (hrouter ▸ relay.router.quiet_sweep now) hnext ?_
      rw [hrouter]
      exact relay.router.nextRoute_sweep now

/-- Of what a link has received, a step takes one message off at most, unless it is one in which
bytes are received. -/
theorem decoder_perform {relay : Relay} {step : Step} {id : LinkId} {link link' : Link}
    (hlink : relay.link? id = some link) (hlink' : (relay.perform step).link? id = some link') :
    link'.decoder = link.decoder ∨ link'.decoder = link.decoder.nextMessage.2 ∨
      ∃ data now, step = .receive id data now := by
  have heffect := perform_effect relay step
  generalize relay.perform step = after at heffect hlink'
  have hsame : after.links = relay.links → link'.decoder = link.decoder := by
    intro hlinks
    unfold link? at hlink hlink'
    rw [hlinks, hlink] at hlink'
    cases hlink'
    rfl
  cases heffect with
  | still hrouter hlinks hnext => exact Or.inl (hsame hlinks)
  | announced hrouter hlinks hnext =>
      left
      have hid : ∀ other : Link,
          (if other.phase = .ended then other else { other with isNotified := true }).id =
            other.id := by
        intro other
        split <;> rfl
      rw [link?_of_map hlinks hid, hlink, Option.map_some, Option.some.injEq] at hlink'
      rw [← hlink']
      split <;> rfl
  | accepted name remote now hstep hrouter hlinks hnext =>
      left
      unfold link? at hlink hlink'
      rcases hlinks with hlinks | hlinks
      all_goals
        rw [hlinks, List.find?_append, hlink] at hlink'
        cases hlink'
        rfl
  | turn old old' hold hturn hlinks hnext =>
      by_cases hid : id = old.id
      · subst hid
        rw [hold] at hlink
        cases hlink
        have hfound := link?_of_links old' hold hturn.continues.id hlinks
        rw [hfound] at hlink'
        cases hlink'
        exact hturn.decoder
      · -- The turn of another link leaves this one as it is.
        left
        rw [link?_of_links_ne (hturn.continues.id ▸ hid) hlinks, hlink] at hlink'
        cases hlink'
        rfl
  | hungUp member hstep hrouter hlinks hnext => exact Or.inl (hsame hlinks)
  | swept now hstep hrouter hlinks hnext => exact Or.inl (hsame hlinks)

end Relay

end Switchboard
