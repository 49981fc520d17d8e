import Switchboard.Proofs.Relay.Course
import Switchboard.Proofs.Relay.Interleaving

/-!
# The first message of a link

The first message that a link takes decides about its session: a greeting that names a cluster opens
the session, and behind anything else the link ends without one (`sessions_stateAt`), whatever the
order in which links take their steps and however long their writes take.
-/

namespace Switchboard

/-- A greeting that opens a session of `cluster`. -/
def Message.Opens (message : Message) (cluster : String) : Prop :=
  Text.isBlank cluster = false ∧
    ∃ clientName, message.envelope = .hello protocolVersion cluster clientName

theorem Message.Opens.openingFault? {message : Message} {cluster : String}
    (h : message.Opens cluster) : Relay.openingFault? message = none := by
  obtain ⟨hcluster, clientName, hmessage⟩ := h
  unfold Relay.openingFault?
  rw [hmessage]
  simp [hcluster]

theorem Message.Opens.unique {message : Message} {cluster other : String}
    (h : message.Opens cluster) (h' : message.Opens other) : cluster = other := by
  obtain ⟨-, clientName, hmessage⟩ := h
  obtain ⟨-, clientName', hmessage'⟩ := h'
  rw [hmessage] at hmessage'
  cases hmessage'
  rfl

namespace Relay

/-! ## The links behind a turn -/

namespace Turned

variable {relay after : Relay} {link link' other : Link} (h : Turned relay after link link')

include h

theorem mem_links (hother : other ∈ after.links) :
    other = link' ∨ (other ∈ relay.links ∧ other.id ≠ link'.id) := by
  rw [h.links] at hother
  exact Lookup.mem_replace hother

theorem mem : link ∈ relay.links := mem_of_link? h.found

theorem self_mem (hid : link'.id = link.id) : link' ∈ after.links := by
  rw [h.links]
  exact Lookup.mem_replace_self h.mem hid.symm

theorem mem_of_ne (hother : other ∈ relay.links) (hid : other.id ≠ link'.id) :
    other ∈ after.links := by
  rw [h.links]
  exact Lookup.mem_replace_of_ne hother hid

theorem ids : after.links.map Link.id = relay.links.map Link.id := by
  rw [h.links, Lookup.map_key_replace]

/-- No link gets a name beyond those that have been given. -/
theorem bounded (hid : link'.id = link.id)
    (hbounded : ∀ other ∈ relay.links, other.id < relay.nextLink) :
    ∀ other ∈ after.links, other.id < after.nextLink := by
  intro other hother
  rw [h.nextLink]
  rcases h.mem_links hother with rfl | ⟨hold, -⟩
  · rw [hid]
    exact hbounded link h.mem
  · exact hbounded other hold

/-- A turn changes one link and keeps the others. -/
theorem exists_map (hids : (relay.links.map Link.id).Nodup) (hid : link'.id = link.id)
    {P : Link → Link → Prop} (hrefl : ∀ old, P old old) (hself : P link link') :
    ∃ g : Link → Link, after.links = relay.links.map g ∧ ∀ old ∈ relay.links, P old (g old) := by
  refine ⟨_, h.links, ?_⟩
  intro old hold
  by_cases hsame : old.id = link'.id
  · rw [if_pos hsame, Lookup.eq_of_key hids hold h.mem (hsame.trans hid)]
    exact hself
  · rw [if_neg hsame]
    exact hrefl old

end Turned

theorem nextMember_routerWithout (router : Router) (id? : Option MemberId) :
    (routerWithout router id?).nextMember = router.nextMember :=
  (quiet_routerWithout router id?).nextMember

/-- What the first half of a step does to a link that has not joined and does not join: it has taken
no message, or one that does not open a session, and then it ends or is about to. -/
theorem Begins.unopened {router router' : Router} {link link' : Link} {message? : Option Message}
    {write? : Option Write} (h : Begins router link message? router' link' write?)
    (hnone : link'.session.member = none) :
    router' = router ∧ ∀ message ∈ message?, openingFault? message ≠ none ∧
      (link'.phase = .ended ∨ ∃ write ∈ write?, write.ending ≠ none) := by
  -- A session that has joined stays in its cluster.
  have hjoined : ∀ member, link.session.member = some member → link.Follows link' [] → False := by
    intro member hmember hfollows
    rw [hfollows.member, hmember] at hnone
    cases hnone
  cases h with
  | kept hfollows hlive => exact ⟨rfl, fun _ hmessage => nomatch hmessage⟩
  | ceased hfollows hended hclose =>
      rw [hfollows.member] at hnone
      refine ⟨by rw [hnone]; rfl, ?_⟩
      intro message hmessage
      obtain ⟨reason, hreason⟩ := hclose message hmessage
      refine ⟨?_, Or.inl hended⟩
      unfold openingFault?
      rw [hreason]
      exact Option.some_ne_none _
  | joined cluster clientName capacity hfree hmessage hcluster hid hname hsent hmember =>
      rw [hmember] at hnone
      cases hnone
  | refused error hfree hopening hfollows hlive =>
      refine ⟨rfl, ?_⟩
      intro message hmessage
      cases hmessage
      refine ⟨?_, Or.inr ⟨_, rfl, Option.some_ne_none _⟩⟩
      rw [hopening]
      exact Option.some_ne_none _
  | request member id cluster timeout now hmember hmessage hfollows hlive =>
      exact (hjoined member hmember hfollows).elim
  | answer member hmember hmessage hfollows hlive => exact (hjoined member hmember hfollows).elim
  | misplaced member text hmember hmessage hfollows hlive =>
      exact (hjoined member hmember hfollows).elim
  | drained member message hmember hdrain hfollows hlive =>
      exact (hjoined member hmember hfollows).elim
  | parting farewell withError hfarewell hfollows hlive =>
      exact ⟨rfl, fun _ hmessage => nomatch hmessage⟩

/-- A session stays what it is, or it is opened by the message that has been taken. -/
theorem Begins.session {router router' : Router} {link link' : Link} {message? : Option Message}
    {write? : Option Write} (h : Begins router link message? router' link' write?) :
    (link'.session.member = link.session.member ∧ link'.session.cluster = link.session.cluster) ∨
      ∃ message cluster capacity, message? = some message ∧ message.Opens cluster ∧
        link.session.member = none ∧ link'.session.member = some router.nextMember ∧
        link'.session.cluster = some cluster ∧ link'.phase ≠ .ended ∧
        router' = (router.join cluster capacity).2 := by
  cases h with
  | joined cluster clientName capacity hnone hmessage hcluster hid hname hsent hmember hcluster'
      hlive =>
      exact Or.inr ⟨_, cluster, capacity, rfl, ⟨hcluster, clientName, hmessage⟩, hnone, hmember,
        hcluster', hlive, rfl⟩
  | _ => exact Or.inl ⟨Link.Follows.member ‹_›, Link.Follows.cluster ‹_›⟩

/-- A number of a member is drawn only for a session that has not joined, by a message. -/
theorem Begins.nextMember {router router' : Router} {link link' : Link} {message? : Option Message}
    {write? : Option Write} (h : Begins router link message? router' link' write?) :
    router'.nextMember = router.nextMember ∨
      (link.session.member = none ∧ ∃ message, message? = some message) := by
  cases h with
  | joined cluster clientName capacity hnone => exact Or.inr ⟨hnone, _, rfl⟩
  | ceased hfollows hended hclose => exact Or.inl (nextMember_routerWithout _ _)
  | request member id cluster timeout now hmember hmessage hfollows hlive =>
      exact Or.inl (router.registry_routeRequest _ _ _ _ _ _).2.2
  | answer member hmember hmessage hfollows hlive =>
      exact Or.inl (router.registry_routeReply _ _).2.2
  | drained member message hmember hdrain hfollows hlive =>
      have hsame := (Router.sameRegistry_drain router member (some 1)).nextMember
      rw [hdrain] at hsame
      exact Or.inl hsame
  | _ => exact Or.inl rfl

/-- Nobody joins when a write comes to its end. -/
theorem Finishes.nextMember {router router' : Router} {link link' : Link} {write : Write}
    (h : Finishes router link write router' link') : router'.nextMember = router.nextMember := by
  cases h with
  | written hending hfollows hphase => rfl
  | unwritten hending hfollows hended => exact nextMember_routerWithout _ _
  | last withError hending written hwritten hfollows hended => exact nextMember_routerWithout _ _

/-- A link that comes to a write has not ended. -/
theorem Begins.live {router router' : Router} {link link' : Link} {message? : Option Message}
    {write : Write} (h : Begins router link message? router' link' (some write)) :
    link'.phase ≠ .ended := by
  cases h <;> assumption

theorem Finishes.session {router router' : Router} {link link' : Link} {write : Write}
    (h : Finishes router link write router' link') :
    link'.session.member = link.session.member ∧ link'.session.cluster = link.session.cluster := by
  cases h <;> exact ⟨Link.Follows.member ‹_›, Link.Follows.cluster ‹_›⟩

theorem Finishes.unopened {router router' : Router} {link link' : Link} {write : Write}
    (h : Finishes router link write router' link') (hnone : link'.session.member = none) :
    router' = router := by
  rw [h.session.1] at hnone
  cases h with
  | written hending hfollows hphase => rfl
  | unwritten hending hfollows hended =>
      rw [hnone]
      rfl
  | last withError hending written hwritten hfollows hended =>
      rw [hnone]
      rfl

end Relay

namespace Interleaved

/-! ## What links have heard -/

/-- What links have heard, with one more message on one of them. -/
def hear (heard : LinkId → List Message) (id : LinkId) (message? : Option Message) :
    LinkId → List Message :=
  fun other => if other = id then heard other ++ message?.toList else heard other

/-- What links have heard behind a step. -/
def hearIn (heard : LinkId → List Message) (state : Interleaved) (step : Step) :
    LinkId → List Message :=
  match step.link? with
  | some id => hear heard id (state.taken? step)
  | none => heard

/-- The messages that the task of a link has taken in the first `i` steps of a run, in order. -/
def heard (options : RelayOptions) (steps : List Step) : Nat → LinkId → List Message
  | 0 => fun _ => []
  | i + 1 =>
      match steps[i]? with
      | some step => hearIn (heard options steps i) (stateAt options steps i) step
      | none => heard options steps i

variable {heard : LinkId → List Message} {state after : Interleaved}

theorem hear_none (heard : LinkId → List Message) (id : LinkId) : hear heard id none = heard := by
  funext other
  simp [hear]

theorem hearIn_of_none {step : Step} (htaken : state.taken? step = none) :
    hearIn heard state step = heard := by
  unfold hearIn
  rw [htaken]
  cases step.link? with
  | none => rfl
  | some id => exact hear_none heard id

theorem hearIn_of_link? {step : Step} {id : LinkId} (hid : step.link? = some id) :
    hearIn heard state step = hear heard id (state.taken? step) := by
  unfold hearIn
  rw [hid]

/-- What a link has heard stays heard. -/
theorem prefix_hearIn (step : Step) (id : LinkId) : heard id <+: hearIn heard state step id := by
  cases hid : step.link? with
  | none =>
      have hsame : hearIn heard state step = heard := by simp only [hearIn, hid]
      exact ⟨[], by rw [hsame, List.append_nil]⟩
  | some other =>
      rw [hearIn_of_link? hid, hear]
      split
      · exact List.prefix_append _ _
      · exact List.prefix_rfl

/-! ## The first message of a link -/

/-- Links have names of their own, a link at a write has not ended, and the first message that a
link has taken has opened its session, if it has one. A link without a session that has taken a
message ends behind it. -/
structure Sessions (heard : LinkId → List Message) (state : Interleaved) : Prop where
  ids : (state.relay.links.map Link.id).Nodup
  bounded : ∀ link ∈ state.relay.links, link.id < state.relay.nextLink
  writers : ∀ id, state.writing id ≠ none →
    ∃ link ∈ state.relay.links, link.id = id ∧ link.phase ≠ .ended
  unheard : ∀ id, state.relay.nextLink ≤ id → heard id = []
  opened : ∀ link ∈ state.relay.links, ∀ member, link.session.member = some member →
    ∃ first rest cluster, heard link.id = first :: rest ∧ first.Opens cluster ∧
      link.session.cluster = some cluster
  unopened : ∀ link ∈ state.relay.links, link.session.member = none → ∀ first rest,
    heard link.id = first :: rest → Relay.openingFault? first ≠ none ∧
      (link.phase = .ended ∨ ∃ write, state.writing link.id = some write ∧ write.ending ≠ none)

theorem sessions_new (options : RelayOptions) : Sessions (fun _ => []) (.new options) where
  ids := List.nodup_nil
  bounded := fun _ h => nomatch h
  writers := fun _ h => absurd rfl h
  unheard := fun _ _ => rfl
  opened := fun _ h => nomatch h
  unopened := fun _ h => nomatch h

namespace Sessions

variable (h : Sessions heard state)

include h

/-- A link is the only one of its name. -/
theorem eq_of_id {link other : Link} (hlink : link ∈ state.relay.links)
    (hother : other ∈ state.relay.links) (hid : link.id = other.id) : link = other :=
  Lookup.eq_of_key h.ids hlink hother hid

/-- A link that has not joined and is not about to end has taken no message. -/
theorem silent {link : Link} (hlink : link ∈ state.relay.links) (hnone : link.session.member = none)
    (hlive : link.phase ≠ .ended)
    (hwriting : ∀ write, state.writing link.id = some write → write.ending = none) :
    heard link.id = [] := by
  cases hheard : heard link.id with
  | nil => rfl
  | cons first rest =>
      rcases (h.unopened link hlink hnone first rest hheard).2 with
        hended | ⟨write, hwrite, hending⟩
      · exact absurd hended hlive
      · exact absurd (hwriting write hwrite) hending

theorem silent_of_began {link link' : Link} {message? : Option Message} {write? : Option Write}
    (hbegan : Began state after link link' message? write?) (hnone : link.session.member = none) :
    heard link.id = [] := by
  apply h.silent hbegan.turned.mem hnone hbegan.live
  intro write hwrite
  rw [hbegan.free] at hwrite
  cases hwrite

/-- A link that is at a write has not ended. -/
theorem live_of_writing {link : Link} (hlink : link ∈ state.relay.links) {write : Write}
    (hwriting : state.writing link.id = some write) : link.phase ≠ .ended := by
  have hbusy : state.writing link.id ≠ none := by
    rw [hwriting]
    exact Option.some_ne_none write
  obtain ⟨writer, hwriter, hid, hlive⟩ := h.writers link.id hbusy
  rwa [← h.eq_of_id hwriter hlink hid]

theorem aside (haside : Relay.Aside state.relay after.relay)
    (hwriting : after.writing = state.writing) :
    Sessions heard after := by
  obtain ⟨g, hlinks, hg⟩ := haside.links
  replace hg := hg h.ids
  have hmem : ∀ link' ∈ after.relay.links, ∃ link ∈ state.relay.links, g link = link' := by
    intro link' hlink'
    rw [hlinks] at hlink'
    exact List.mem_map.1 hlink'
  constructor
  case ids =>
    have hids : (state.relay.links.map g).map Link.id = state.relay.links.map Link.id := by
      rw [List.map_map]
      exact List.map_congr_left fun link hlink => (hg link hlink).1.id
    rw [hlinks, hids]
    exact h.ids
  case bounded =>
    intro link' hlink'
    obtain ⟨link, hlink, rfl⟩ := hmem link' hlink'
    rw [haside.nextLink, (hg link hlink).1.id]
    exact h.bounded link hlink
  case writers =>
    intro id hid
    rw [hwriting] at hid
    obtain ⟨link, hlink, hlinkId, hlive⟩ := h.writers id hid
    refine ⟨g link, ?_, (hg link hlink).1.id.trans hlinkId, ?_⟩
    · rw [hlinks]
      exact List.mem_map_of_mem hlink
    · rw [(hg link hlink).2]
      exact hlive
  case unheard =>
    rw [haside.nextLink]
    exact h.unheard
  case opened =>
    intro link' hlink' member hmember
    obtain ⟨link, hlink, rfl⟩ := hmem link' hlink'
    rw [(hg link hlink).1.member] at hmember
    rw [(hg link hlink).1.id, (hg link hlink).1.cluster]
    exact h.opened link hlink member hmember
  case unopened =>
    intro link' hlink' hnone
    obtain ⟨link, hlink, rfl⟩ := hmem link' hlink'
    rw [(hg link hlink).1.member] at hnone
    rw [(hg link hlink).1.id, (hg link hlink).2, hwriting]
    exact h.unopened link hlink hnone

theorem accepted {link : Link} (hfresh : state.relay.Fresh link)
    (hlinks : after.relay.links = state.relay.links ++ [link])
    (hnext : after.relay.nextLink = state.relay.nextLink + 1)
    (hwriting : after.writing = state.writing) : Sessions heard after := by
  have hmem : ∀ other ∈ after.relay.links, other ∈ state.relay.links ∨ other = link := by
    intro other hother
    rw [hlinks, List.mem_append, List.mem_singleton] at hother
    exact hother
  constructor
  case ids =>
    rw [hlinks]
    apply Lookup.nodup_snoc h.ids
    intro other hother
    rw [hfresh.id]
    exact Nat.ne_of_lt (h.bounded other hother)
  case bounded =>
    intro other hother
    rw [hlinks] at hother
    rw [hnext]
    exact Lookup.lt_succ_of_mem_snoc h.bounded hfresh.id hother
  case writers =>
    intro id hid
    rw [hwriting] at hid
    obtain ⟨other, hother, hotherId, hlive⟩ := h.writers id hid
    refine ⟨other, ?_, hotherId, hlive⟩
    rw [hlinks]
    exact List.mem_append_left _ hother
  case unheard =>
    intro id hid
    rw [hnext] at hid
    exact h.unheard id (Nat.le_of_succ_le hid)
  case opened =>
    intro other hother member hmember
    rcases hmem other hother with hold | rfl
    · exact h.opened other hold member hmember
    · rw [hfresh.member] at hmember
      cases hmember
  case unopened =>
    intro other hother hnone first rest hheard
    rcases hmem other hother with hold | rfl
    · rw [hwriting]
      exact h.unopened other hold hnone first rest hheard
    · -- Nothing has been heard on a link that is new.
      rw [hfresh.id, h.unheard _ (Nat.le_refl _)] at hheard
      cases hheard

theorem began {link link' : Link} {message? : Option Message} {write? : Option Write}
    (hbegan : Began state after link link' message? write?) :
    Sessions (hear heard link.id message?) after := by
  have hid := hbegan.begins.id
  have hlink := hbegan.turned.mem
  have hself := hbegan.turned.self_mem hid
  have hother :
      ∀ other : LinkId, other ≠ link.id → hear heard link.id message? other = heard other :=
    fun other hne => if_neg hne
  have hhere : hear heard link.id message? link.id = heard link.id ++ message?.toList := if_pos rfl
  have hsilent : link.session.member = none → heard link.id = [] := h.silent_of_began hbegan
  constructor
  case ids =>
    rw [hbegan.turned.ids]
    exact h.ids
  case bounded => exact hbegan.turned.bounded hid h.bounded
  case writers =>
    intro id hwrites
    rw [hbegan.writing] at hwrites
    by_cases hne : id = link.id
    · subst hne
      rw [put_self] at hwrites
      obtain ⟨write, rfl⟩ := Option.ne_none_iff_exists'.1 hwrites
      exact ⟨link', hself, hid, hbegan.begins.live⟩
    · rw [put_of_ne hne] at hwrites
      obtain ⟨other, hold, rfl, hlive⟩ := h.writers id hwrites
      exact ⟨other, hbegan.turned.mem_of_ne hold (by rw [hid]; exact hne), rfl, hlive⟩
  case unheard =>
    intro id hnext
    rw [hbegan.turned.nextLink] at hnext
    rw [hother id (by rintro rfl; exact absurd (h.bounded link hlink) (Nat.not_lt.2 hnext))]
    exact h.unheard id hnext
  case opened =>
    intro other hmem member hmember
    rcases hbegan.turned.mem_links hmem with rfl | ⟨hold, hne⟩
    · rw [hid, hhere]
      rcases hbegan.begins.session with ⟨hsame, hcluster⟩ |
        ⟨message, cluster, -, rfl, hopens, hnone, -, hcluster, -⟩
      · -- The session was there before, and what was heard first has opened it.
        rw [hsame] at hmember
        obtain ⟨first, rest, cluster, hheard, hopens, hin⟩ := h.opened link hlink member hmember
        refine ⟨first, rest ++ message?.toList, cluster, ?_, hopens, hcluster.trans hin⟩
        rw [hheard, List.cons_append]
      · -- The session joins now, so the message that has just been taken is the first.
        refine ⟨message, [], cluster, ?_, hopens, hcluster⟩
        rw [hsilent hnone]
        rfl
    · rw [hid] at hne
      rw [hother _ hne]
      exact h.opened other hold member hmember
  case unopened =>
    intro other hmem hnone first rest hheard
    rcases hbegan.turned.mem_links hmem with rfl | ⟨hold, hne⟩
    · have hunopened := hbegan.begins.unopened hnone
      rw [hid, hhere] at hheard
      rcases hbegan.begins.session with ⟨hsame, -⟩ | ⟨-, -, -, -, -, -, hmember, -⟩
      · -- A link without a session has heard nothing before, so this message is the first.
        rw [hsilent (hsame.symm.trans hnone), List.nil_append] at hheard
        have htaken : message? = some first := by
          cases message? with
          | none => cases hheard
          | some message => rw [(List.cons.inj hheard).1]
        obtain ⟨hfault, hends⟩ := hunopened.2 first htaken
        refine ⟨hfault, hends.imp_right ?_⟩
        rintro ⟨write, hwrite, hending⟩
        refine ⟨write, ?_, hending⟩
        rw [hbegan.writing, hid, put_self]
        exact hwrite
      · rw [hmember] at hnone
        cases hnone
    · rw [hid] at hne
      rw [hother _ hne] at hheard
      rw [hbegan.writing, put_of_ne hne]
      exact h.unopened other hold hnone first rest hheard

theorem finished {link link' : Link} {write : Write}
    (hfinished : Finished state after link link' write) :
    Sessions heard after := by
  have hid := hfinished.finishes.id
  have hlink := hfinished.turned.mem
  obtain ⟨hmember, hcluster⟩ := hfinished.finishes.session
  constructor
  case ids =>
    rw [hfinished.turned.ids]
    exact h.ids
  case bounded => exact hfinished.turned.bounded hid h.bounded
  case writers =>
    intro id hwrites
    rw [hfinished.writing] at hwrites
    by_cases hne : id = link.id
    · subst hne
      exact absurd put_self hwrites
    · rw [put_of_ne hne] at hwrites
      obtain ⟨other, hold, rfl, hlive⟩ := h.writers id hwrites
      exact ⟨other, hfinished.turned.mem_of_ne hold (by rw [hid]; exact hne), rfl, hlive⟩
  case unheard =>
    rw [hfinished.turned.nextLink]
    exact h.unheard
  case opened =>
    intro other hmem member hsome
    rcases hfinished.turned.mem_links hmem with rfl | ⟨hold, -⟩
    · rw [hid, hcluster]
      exact h.opened link hlink member (hmember.symm.trans hsome)
    · exact h.opened other hold member hsome
  case unopened =>
    intro other hmem hnone first rest hheard
    rcases hfinished.turned.mem_links hmem with rfl | ⟨hold, hne⟩
    · rw [hid] at hheard
      obtain ⟨hfault, hends⟩ := h.unopened link hlink (hmember.symm.trans hnone) first rest hheard
      refine ⟨hfault, Or.inl ?_⟩
      have hfinishes := hfinished.finishes
      generalize after.relay.router = router' at hfinishes
      cases hfinishes with
      | written hending hfollows hphase =>
          -- Behind a message that does not open a session comes the last write.
          rcases hends with hended | ⟨last, hlast, hlastEnding⟩
          · rw [hphase]
            exact hended
          · rw [hfinished.busy, Option.some.injEq] at hlast
            rw [← hlast] at hlastEnding
            exact absurd hending hlastEnding
      | unwritten hending hfollows hended => exact hended
      | last withError hending written hwritten hfollows hended => exact hended
    · rw [hid] at hne
      rw [hfinished.writing, put_of_ne hne]
      exact h.unopened other hold hnone first rest hheard

/-- The first message that a link takes decides about its session, step by step. -/
theorem perform (step : Step) : Sessions (hearIn heard state step) (state.perform step) := by
  -- A message is taken in the first half of a step; the second half takes none.
  cases perform_effect state step with
  | aside haside hwriting htaken htask =>
      rw [hearIn_of_none htaken]
      exact h.aside haside hwriting
  | accepted link hfresh hstep hrouter hlinks hnext hwriting htaken =>
      rw [hearIn_of_none htaken]
      exact h.accepted hfresh hlinks hnext hwriting
  | began link link' write? hstep hbegan =>
      rw [hearIn_of_link? hstep]
      exact h.began hbegan
  | finished link link' write hstep htaken hfinished =>
      rw [hearIn_of_none htaken]
      exact h.finished hfinished
  | through middle link link' link'' write hstep hbegan hfinished =>
      rw [hearIn_of_link? hstep]
      exact (h.began hbegan).finished hfinished

/-- A session joins with the first message of its link. -/
theorem silent_of_join {step : Step} {id : LinkId} (hid : step.link? = some id)
    (hmoved : (state.perform step).relay.router.nextMember ≠ state.relay.router.nextMember) :
    heard id = [] ∧ ∃ message, state.taken? step = some message := by
  have hjoins : ∀ {after : Interleaved} {link link' : Link} {write? : Option Write},
      step.link? = some link.id → Began state after link link' (state.taken? step) write? →
        after.relay.router.nextMember ≠ state.relay.router.nextMember →
          heard id = [] ∧ ∃ message, state.taken? step = some message := by
    intro after link link' write? hstep hbegan hmoved
    obtain ⟨hnone, message, hmessage⟩ := hbegan.begins.nextMember.resolve_left hmoved
    obtain rfl : id = link.id := Option.some.inj (hid.symm.trans hstep)
    exact ⟨h.silent_of_began hbegan hnone, message, hmessage⟩
  cases perform_effect state step with
  | aside haside hwriting htaken htask =>
      refine absurd ?_ hmoved
      rw [htask (by rw [hid]; exact Option.some_ne_none id)]
  | accepted link hfresh hstep =>
      rw [hid] at hstep
      cases hstep
  | began link link' write? hstep hbegan => exact hjoins hstep hbegan hmoved
  | finished link link' write hstep htaken hfinished =>
      exact absurd hfinished.finishes.nextMember hmoved
  | through middle link link' link'' write hstep hbegan hfinished =>
      rw [hfinished.finishes.nextMember] at hmoved
      exact hjoins hstep hbegan hmoved

omit h in
/-- A link without a session leaves the router alone. -/
theorem exists_session_of_router {step : Step} {id : LinkId} (hid : step.link? = some id)
    (hchanged : (state.perform step).relay.router ≠ state.relay.router) :
    ∃ link ∈ (state.perform step).relay.links, link.id = id ∧ link.session.member ≠ none := by
  cases perform_effect state step with
  | aside haside hwriting htaken htask =>
      exact absurd (htask (by rw [hid]; exact Option.some_ne_none id)) hchanged
  | accepted link hfresh hstep =>
      rw [hid] at hstep
      cases hstep
  | began link link' write? hstep hbegan =>
      have hlinkId := hbegan.begins.id
      refine ⟨link', hbegan.turned.self_mem hlinkId, ?_, ?_⟩
      · rw [hlinkId]
        exact Option.some.inj (hstep.symm.trans hid)
      · intro hnone
        exact hchanged (hbegan.begins.unopened hnone).1
  | finished link link' write hstep htaken hfinished =>
      have hlinkId := hfinished.finishes.id
      refine ⟨link', hfinished.turned.self_mem hlinkId, ?_, ?_⟩
      · rw [hlinkId]
        exact Option.some.inj (hstep.symm.trans hid)
      · intro hnone
        exact hchanged (hfinished.finishes.unopened hnone)
  | through middle link link' link'' write hstep hbegan hfinished =>
      have hmiddleId := hbegan.begins.id
      have hlinkId := hfinished.finishes.id
      refine ⟨link'', hfinished.turned.self_mem hlinkId, ?_, ?_⟩
      · rw [hlinkId, hmiddleId]
        exact Option.some.inj (hstep.symm.trans hid)
      · intro hnone
        have hmiddle := hfinished.finishes.session.1.symm.trans hnone
        exact hchanged
          ((hfinished.finishes.unopened hnone).trans (hbegan.begins.unopened hmiddle).1)

end Sessions

/-- The sessions of a run are opened by the first messages of their links. -/
theorem sessions_stateAt (options : RelayOptions) (steps : List Step) (i : Nat) :
    Sessions (Interleaved.heard options steps i) (stateAt options steps i) := by
  induction i with
  | zero => exact sessions_new options
  | succ i ih =>
      unfold Interleaved.heard
      cases hstep : steps[i]? with
      | none =>
          rw [stateAt_succ_of_none hstep]
          exact ih
      | some step =>
          rw [stateAt_succ hstep]
          exact ih.perform step

end Interleaved

end Switchboard
