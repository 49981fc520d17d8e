import Switchboard.Proofs.Relay.Run

/-!
# Steps that are cut in two

The task of a link waits for each of its writes to be taken, and others go on meanwhile: a session
that has joined its cluster may be passed requests before it has been welcomed. Here a step that
writes is cut in front of its write (`Relay.begin?`, `Relay.finish`), and a run of an `Interleaved`
relay may do anything between the two halves. The halves are the step: one after the other they do
what the step does in one go (`begin_finish`).

Between the halves nobody waits, so a half is taken whole. That is more than the router promises:
what a half does to it is made of several accesses to its parts, and the task of another link may
come between two of them.
-/

namespace Switchboard

/-- A link that goes on: it is who it was, and `written` has been written on it since. -/
structure Link.Follows (link link' : Link) (written : List Message) : Prop where
  id : link'.id = link.id
  name : link'.name = link.name
  member : link'.session.member = link.session.member
  cluster : link'.session.cluster = link.session.cluster
  sent : link'.sent = link.sent ++ written

namespace Link.Follows

variable {a b c : Link} {written more : List Message}

/-- A link on which nothing is written. -/
theorem of_sent (hid : b.id = a.id) (hname : b.name = a.name)
    (hmember : b.session.member = a.session.member)
    (hcluster : b.session.cluster = a.session.cluster) (hsent : b.sent = a.sent) : a.Follows b [] :=
  ⟨hid, hname, hmember, hcluster, by rw [hsent, List.append_nil]⟩

theorem refl (link : Link) : link.Follows link [] := of_sent rfl rfl rfl rfl rfl

theorem trans (hab : a.Follows b written) (hbc : b.Follows c more) :
    a.Follows c (written ++ more) where
  id := hbc.id.trans hab.id
  name := hbc.name.trans hab.name
  member := hbc.member.trans hab.member
  cluster := hbc.cluster.trans hab.cluster
  sent := by rw [hbc.sent, hab.sent, List.append_assoc]

theorem of_write {link link' : Link} {message : Message} (h : link.write message = some link') :
    link.Follows link' [message] := by
  obtain ⟨-, -, rfl⟩ := Link.write_eq_some.1 h
  exact ⟨rfl, rfl, rfl, rfl, rfl⟩

/-- A message that cannot be written is lost. -/
theorem of_tryWrite (link : Link) (message : Message) :
    ∃ written, (written = [] ∨ written = [message]) ∧
      link.Follows (link.tryWrite message) written := by
  rcases Link.tryWrite_eq link message with h | ⟨-, h⟩
  · rw [h]
    exact ⟨[], Or.inl rfl, refl link⟩
  · rw [h]
    exact ⟨[message], Or.inr rfl, rfl, rfl, rfl, rfl, rfl⟩

end Link.Follows

/-- A write that the task of a link is at. -/
structure Write where
  message : Message
  /-- Whether the link ends behind the write, and whether it does so with an error. A link that does
  not end behind the write ends if the write fails. -/
  ending : Option Bool := none

namespace Relay

/-- The link whose task takes a step. -/
def Step.link? : Step → Option LinkId
  | receive id .. => some id
  | readNext id _ => some id
  | receiveEnd id _ => some id
  | forward id _ => some id
  | endIdle id _ => some id
  | heedEnd id => some id
  | _ => none

/-! ## The first half of a step -/

/-- Counts a message that has been received. -/
def countMessage (relay : Relay) : Relay :=
  relay.count fun stats => { stats with messagesReceived := stats.messagesReceived + 1 }

/-- The first message on a link is dealt with up to the answer, if it has one. -/
def beginOpening? (relay : Relay) (link : Link) (message : Message) : Option (Relay × Write) :=
  match message.envelope, openingFault? message with
  | .close _, _ => none
  | .hello _ cluster clientName, none =>
      let (member, router) := relay.router.join cluster relay.options.outboundQueue
      let session := link.session.completeHandshake cluster clientName member
      some ({ relay with router }.setLink { link with session }, { message := .welcome link.name })
  | _, some error =>
      some (relay.setLink link,
        { message := .errorReply .none error.toReply.code error.toReply.message
          ending := some true })
  | _, none => none

/-- A message of a session that has joined is dealt with up to the answer, if the link gives one. -/
def beginRouting? (relay : Relay) (link : Link) (message : Message) : Option (Relay × Write) :=
  match message.envelope with
  | .request .. => none
  | .reply _ => none
  | .errorReply .. => none
  | .close _ => none
  | other =>
      some (relay.setLink link,
        { message :=
            .errorReply .none .badRequest s!"unexpected {other.kind.name} after handshake" })

/-- A step up to the write that it comes to. None if it does not write. -/
def begin? (relay : Relay) : Step → Option (Relay × Write)
  | .readNext id _ =>
      match relay.link? id with
      | some link =>
          match link.phase, link.decoder.nextMessage with
          | .reading, (.item message, decoder) =>
              match link.session.member with
              | none => relay.countMessage.beginOpening? { link with decoder } message
              | some _ => relay.countMessage.beginRouting? { link with decoder } message
          | _, _ => none
      | none => none
  | .forward id now =>
      match relay.link? id with
      | some link =>
          match link.phase, link.session.member with
          | .waiting, some member =>
              match relay.router.drain member (some 1) with
              | (some [message], router) =>
                  some ({ relay with router }.setLink (link.touch now), { message })
              | _ => none
          | _, _ => none
      | none => none
  | .endIdle id now =>
      match relay.link? id with
      | some link =>
          if link.phase = .waiting && relay.options.idleTimeout ≠ .zero &&
              link.lastActive.after relay.options.idleTimeout ≤ now then
            some (relay.setLink link, { message := idleTimeout, ending := some false })
          else none
      | none => none
  | .heedEnd id =>
      match relay.link? id with
      | some link =>
          if link.phase = .waiting && link.isNotified then
            some (relay.setLink { link with isNotified := false },
              { message := shuttingDown, ending := some true })
          else none
      | none => none
  | _ => none

/-! ## The second half -/

/-- A write comes to its end: the message is taken, or it is not. -/
def finish (relay : Relay) (link : Link) (write : Write) : Relay :=
  match write.ending with
  | none => relay.writeOrEnd link write.message
  | some withError => relay.endLink (link.tryWrite write.message) withError

end Relay

/-- A relay some of whose links are at a write. -/
structure Interleaved where
  relay : Relay
  /-- The write that a link is at. -/
  writing : LinkId → Option Write := fun _ => none

namespace Interleaved

/-- A relay that does not run yet. -/
def new (options : RelayOptions) : Interleaved := { relay := .new options }

/-- One step: in one go, or one of its halves. -/
inductive Step where
  | whole (step : Relay.Step)
  | begin (step : Relay.Step)
  | finish (id : LinkId)

/-- The link whose task takes a step. -/
def Step.link? : Step → Option LinkId
  | whole step => step.link?
  | begin step => step.link?
  | finish id => some id

/-- The writes, with another one for one link. -/
def put (state : Interleaved) (id : LinkId) (write? : Option Write) : LinkId → Option Write :=
  fun other => if other = id then write? else state.writing other

theorem put_self {state : Interleaved} {id : LinkId} {write? : Option Write} :
    state.put id write? id = write? := if_pos rfl

theorem put_of_ne {state : Interleaved} {id other : LinkId} {write? : Option Write}
    (h : other ≠ id) :
    state.put id write? other = state.writing other := if_neg h

/-- Whether a step can be taken: a link that is at a write does nothing else. -/
def isFree (state : Interleaved) (step : Relay.Step) : Bool :=
  (step.link?.bind state.writing).isNone

/-- The relay behind a step. -/
def perform (state : Interleaved) : Step → Interleaved
  | .whole step =>
      if state.isFree step then { state with relay := state.relay.perform step } else state
  | .begin step =>
      match step.link?, state.relay.begin? step with
      | some id, some (relay, write) =>
          if state.isFree step then { relay, writing := state.put id (some write) } else state
      | _, _ => state
  | .finish id =>
      match state.writing id, state.relay.link? id with
      | some write, some link =>
          { relay := state.relay.finish link write, writing := state.put id none }
      | _, _ => state

/-- The relay behind a run. -/
def run (options : RelayOptions) (steps : List Step) : Interleaved :=
  steps.foldl perform (.new options)

/-- The relay behind the first `i` steps of a run. -/
def stateAt (options : RelayOptions) (steps : List Step) (i : Nat) : Interleaved :=
  run options (steps.take i)

theorem stateAt_succ {options : RelayOptions} {steps : List Step} {i : Nat} {step : Step}
    (h : steps[i]? = some step) :
    stateAt options steps (i + 1) = (stateAt options steps i).perform step := by
  unfold stateAt run
  rw [List.take_add_one, h, List.foldl_append]
  rfl

theorem stateAt_succ_of_none {options : RelayOptions} {steps : List Step} {i : Nat}
    (h : steps[i]? = none) : stateAt options steps (i + 1) = stateAt options steps i := by
  unfold stateAt
  rw [List.take_add_one, h, Option.toList_none, List.append_nil]

end Interleaved

/-! ## The halves make a step -/

namespace Relay

/-- Of two links put in the place of one the last counts. -/
theorem setLink_setLink (relay : Relay) {link link' : Link} (hid : link.id = link'.id) :
    (relay.setLink link).setLink link' = relay.setLink link' := by
  have hlinks : Lookup.replace Link.id link' (Lookup.replace Link.id link relay.links) =
      Lookup.replace Link.id link' relay.links := Lookup.replace_replace hid relay.links
  unfold Lookup.replace at hlinks
  simp only [setLink, hlinks]

theorem endLink_setLink (relay : Relay) {link link' : Link} (hid : link.id = link'.id)
    (withError : Bool) :
    (relay.setLink link).endLink link' withError = relay.endLink link' withError := by
  have hset : ∀ router,
      ({ relay.setLink link with router } : Relay).setLink { link' with phase := .ended } =
        ({ relay with router } : Relay).setLink { link' with phase := .ended } :=
    fun router => setLink_setLink { relay with router } hid
  simp only [endLink, hset]
  rfl

theorem writeOrEnd_setLink (relay : Relay) {link link' : Link} (hid : link.id = link'.id)
    (message : Message) :
    (relay.setLink link).writeOrEnd link' message = relay.writeOrEnd link' message := by
  unfold writeOrEnd
  cases hwrite : link'.write message with
  | none => exact endLink_setLink relay hid true
  | some written =>
      apply setLink_setLink
      rw [hid, (Link.Follows.of_write hwrite).id]

/-- A message is written behind a link that has just been put in its place. -/
theorem finish_setLink (relay : Relay) (link : Link) (write : Write) :
    (relay.setLink link).finish link write = relay.finish link write := by
  unfold finish
  split
  · exact writeOrEnd_setLink relay rfl _
  · apply endLink_setLink
    obtain ⟨written, -, hfollows⟩ := Link.Follows.of_tryWrite link write.message
    exact hfollows.id.symm

/-- A relay whose link `id` has been put in its place and is about to write, so that it becomes
`after`. -/
def Poised (relay : Relay) (id : LinkId) (write : Write) (after : Relay) : Prop :=
  ∃ link, relay.link? id = some link ∧ relay.finish link write = after

theorem poised_setLink {relay counted after : Relay} {link link' : Link} {write : Write}
    (hlink : relay.link? link.id = some link) (hid : link'.id = link.id)
    (hlinks : counted.links = relay.links) (hafter : counted.finish link' write = after) :
    (counted.setLink link').Poised link.id write after := by
  refine ⟨link', ?_, ?_⟩
  · apply link?_of_links link' hlink hid
    rw [links_setLink, hlinks]
  · rw [finish_setLink, hafter]

theorem poised_beginOpening? {relay counted started : Relay} {link link' : Link} {message : Message}
    {write : Write} (h : counted.beginOpening? link' message = some (started, write))
    (hlink : relay.link? link.id = some link) (hid : link'.id = link.id)
    (hlinks : counted.links = relay.links) :
    started.Poised link.id write (counted.openSession link' message) := by
  unfold beginOpening? at h
  split at h
  · cases h
  · rename_i version cluster clientName hmessage hopening
    cases h
    refine poised_setLink hlink ?_ ?_ ?_
    · exact hid
    · exact hlinks
    · unfold openSession
      rw [hmessage, hopening]
      rfl
  · rename_i error hopening hclose
    cases h
    apply poised_setLink hlink hid hlinks
    unfold openSession
    rw [hopening]
    split
    · rename_i reason hreason
      exact absurd hreason (hclose reason)
    · rename_i hnone
      cases hnone
    · rename_i hsome hother
      cases hsome
      rfl
    · rename_i hnone hother hhello
      cases hnone
  · cases h

theorem poised_beginRouting? {relay counted started : Relay} {link link' : Link} {member : MemberId}
    {message : Message} {now : Instant} {write : Write}
    (h : counted.beginRouting? link' message = some (started, write))
    (hlink : relay.link? link.id = some link) (hid : link'.id = link.id)
    (hlinks : counted.links = relay.links) :
    started.Poised link.id write (counted.routeMessage link' member message now) := by
  unfold beginRouting? at h
  split at h
  · cases h
  · cases h
  · cases h
  · cases h
  · rename_i hrequest hreply herror hclose
    cases h
    apply poised_setLink hlink hid hlinks
    unfold routeMessage
    split
    · rename_i id cluster timeoutMs hmessage
      exact absurd hmessage (hrequest _ _ _)
    · rename_i id hmessage
      exact absurd hmessage (hreply _)
    · rename_i id error hmessage
      exact absurd hmessage (herror _ _)
    · rename_i reason hmessage
      exact absurd hmessage (hclose _)
    · rfl

/-- The last words of a link are the same whether or not it has taken notice of the end. -/
theorem tryWrite_unnotified (link : Link) (message : Message) :
    { link with isNotified := false }.tryWrite message =
      { link.tryWrite message with isNotified := false } := by
  unfold Link.tryWrite Link.write
  cases message.encode with
  | error fault => rfl
  | ok bytes => cases hwritable : link.isWritable <;> simp [hwritable]

theorem readNext_of_item {relay : Relay} {link : Link} {message : Message} {decoder : Decoder}
    {now : Instant} (hlink : relay.link? link.id = some link) (hphase : link.phase = .reading)
    (hnext : link.decoder.nextMessage = (.item message, decoder)) :
    relay.readNext link.id now = relay.countMessage.handle { link with decoder } message now := by
  unfold readNext
  rw [hlink]
  simp only [hphase, if_true, hnext]
  rfl

/-- The first half of a step of a link. -/
inductive FirstHalf (relay : Relay) (link : Link) : Step → Relay → Write → Prop
  | opening {started : Relay} {write : Write} (message : Message) (decoder : Decoder)
      (now : Instant)
      (hphase : link.phase = .reading)
      (hnext : link.decoder.nextMessage = (.item message, decoder))
      (hmember : link.session.member = none)
      (h : relay.countMessage.beginOpening? { link with decoder } message = some (started, write)) :
      FirstHalf relay link (.readNext link.id now) started write
  | routing {started : Relay} {write : Write} (message : Message) (decoder : Decoder)
      (now : Instant)
      (member : MemberId) (hphase : link.phase = .reading)
      (hnext : link.decoder.nextMessage = (.item message, decoder))
      (hmember : link.session.member = some member)
      (h : relay.countMessage.beginRouting? { link with decoder } message = some (started, write)) :
      FirstHalf relay link (.readNext link.id now) started write
  | draining (member : MemberId) (message : Message) (router : Router) (now : Instant)
      (hphase : link.phase = .waiting) (hmember : link.session.member = some member)
      (hdrain : relay.router.drain member (some 1) = (some [message], router)) :
      FirstHalf relay link (.forward link.id now)
        ({ relay with router }.setLink (link.touch now)) { message }
  | idling (now : Instant)
      (hidle : (link.phase = .waiting && relay.options.idleTimeout ≠ .zero &&
        link.lastActive.after relay.options.idleTimeout ≤ now) = true) :
      FirstHalf relay link (.endIdle link.id now) (relay.setLink link)
        { message := idleTimeout, ending := some false }
  | heeding (hnotified : (link.phase = .waiting && link.isNotified) = true) :
      FirstHalf relay link (.heedEnd link.id) (relay.setLink { link with isNotified := false })
        { message := shuttingDown, ending := some true }

/-- Only the task of a link comes to a write. -/
theorem link?_of_begin? {relay : Relay} {step : Step} {half : Relay × Write}
    (h : relay.begin? step = some half) : ∃ id, step.link? = some id := by
  cases step with
  | readNext id now => exact ⟨id, rfl⟩
  | forward id now => exact ⟨id, rfl⟩
  | endIdle id now => exact ⟨id, rfl⟩
  | heedEnd id => exact ⟨id, rfl⟩
  | _ => cases h

theorem firstHalf_of_begin? {relay started : Relay} {step : Step} {id : LinkId} {write : Write}
    (hid : step.link? = some id) (h : relay.begin? step = some (started, write)) :
    ∃ link, relay.link? id = some link ∧ FirstHalf relay link step started write := by
  cases hlink : relay.link? id with
  | none =>
      -- No step is begun on a link that is not there.
      cases step <;> simp only [Step.link?, reduceCtorEq, Option.some.injEq] at hid <;>
        simp [begin?, hid, hlink] at h
  | some link =>
      refine ⟨link, rfl, ?_⟩
      obtain rfl := id_of_link? hlink
      cases step with
      | readNext id now =>
          cases hid
          simp only [begin?, hlink] at h
          split at h
          · rename_i message decoder hphase hnext
            cases hmember : link.session.member with
            | none =>
                rw [hmember] at h
                exact .opening message decoder now hphase hnext hmember h
            | some member =>
                rw [hmember] at h
                exact .routing message decoder now member hphase hnext hmember h
          · cases h
      | forward id now =>
          cases hid
          simp only [begin?, hlink] at h
          split at h
          · rename_i member hphase hmember
            split at h
            · rename_i message router hdrain
              cases h
              exact .draining member message router now hphase hmember hdrain
            · cases h
          · cases h
      | endIdle id now =>
          cases hid
          simp only [begin?, hlink] at h
          split at h
          · rename_i hidle
            cases h
            exact .idling now hidle
          · cases h
      | heedEnd id =>
          cases hid
          simp only [begin?, hlink] at h
          split at h
          · rename_i hnotified
            cases h
            exact .heeding hnotified
          · cases h
      | _ => cases h

/-- The first half of a step leaves its link at the write with which the step goes on. -/
theorem FirstHalf.poised {relay started : Relay} {link : Link} {step : Step} {write : Write}
    (h : FirstHalf relay link step started write) (hlink : relay.link? link.id = some link) :
    started.Poised link.id write (relay.perform step) := by
  cases h with
  | opening message decoder now hphase hnext hmember h =>
      rw [perform, readNext_of_item hlink hphase hnext]
      simp only [handle, hmember]
      exact poised_beginOpening? h hlink rfl rfl
  | routing message decoder now member hphase hnext hmember h =>
      rw [perform, readNext_of_item hlink hphase hnext]
      simp only [handle, hmember]
      exact poised_beginRouting? h hlink rfl rfl
  | draining member message router now hphase hmember hdrain =>
      refine poised_setLink hlink ?_ ?_ ?_
      · rfl
      · rfl
      · rw [perform, forward, hlink]
        simp only [hphase, hmember, hdrain]
        rfl
  | idling now hidle =>
      apply poised_setLink hlink rfl rfl
      rw [perform, endIdle, hlink]
      simp only [hidle, if_true]
      rfl
  | heeding hnotified =>
      refine poised_setLink hlink ?_ rfl ?_
      · rfl
      · rw [perform, heedEnd, hlink]
        simp only [hnotified, if_true]
        rw [← tryWrite_unnotified]
        rfl

end Relay

namespace Interleaved

theorem put_put (state : Interleaved) (id : LinkId) (write : Write)
    (hfree : state.writing id = none) :
    put { state with writing := state.put id (some write) } id none = state.writing := by
  funext other
  by_cases hother : other = id
  · simp [put, hother, hfree]
  · simp [put, hother]

theorem writing_of_isFree {state : Interleaved} {step : Relay.Step} {id : LinkId}
    (hid : step.link? = some id) (hfree : state.isFree step = true) : state.writing id = none := by
  unfold isFree at hfree
  rw [hid, Option.bind_some, Option.isNone_iff_eq_none] at hfree
  exact hfree

/-- The task of a link stands at a write, or its step is taken in one go. -/
theorem perform_whole (state : Interleaved) (step : Relay.Step) :
    (state.perform (.whole step) = state ∧ state.isFree step = false) ∨
      (state.perform (.whole step) = { state with relay := state.relay.perform step } ∧
        state.isFree step = true) := by
  cases hfree : state.isFree step with
  | false => exact Or.inl ⟨by simp [perform, hfree], rfl⟩
  | true => exact Or.inr ⟨by simp [perform, hfree], rfl⟩

/-- A step is not begun, or its link comes to its write. -/
theorem perform_begin (state : Interleaved) (step : Relay.Step) :
    (state.perform (.begin step) = state ∧
        (state.isFree step && (state.relay.begin? step).isSome) = false) ∨
      ∃ link started write, step.link? = some link.id ∧ state.relay.link? link.id = some link ∧
        Relay.FirstHalf state.relay link step started write ∧ state.isFree step = true ∧
        state.relay.begin? step = some (started, write) ∧
        state.perform (.begin step) =
          { relay := started, writing := state.put link.id (some write) } := by
  cases hbegin : state.relay.begin? step with
  | none =>
      refine Or.inl ⟨?_, Bool.and_false _⟩
      cases htask : step.link? <;> simp [perform, htask, hbegin]
  | some half =>
      obtain ⟨started, write⟩ := half
      obtain ⟨id, htask⟩ := Relay.link?_of_begin? hbegin
      obtain ⟨link, hlink, hhalf⟩ := Relay.firstHalf_of_begin? htask hbegin
      obtain rfl := Relay.id_of_link? hlink
      cases hfree : state.isFree step with
      | false => exact Or.inl ⟨by simp [perform, htask, hbegin, hfree], rfl⟩
      | true =>
          refine Or.inr ⟨link, started, write, htask, hlink, hhalf, rfl, rfl, ?_⟩
          simp [perform, htask, hbegin, hfree]

/-- No link is at a write that ends, or there is one whose write ends. -/
theorem perform_finish (state : Interleaved) (id : LinkId) :
    state.perform (.finish id) = state ∨
      ∃ link write, id = link.id ∧ state.relay.link? link.id = some link ∧
        state.writing link.id = some write ∧
        state.perform (.finish link.id) =
          { relay := state.relay.finish link write, writing := state.put link.id none } := by
  cases hwriting : state.writing id with
  | none => exact Or.inl (by simp only [perform, hwriting])
  | some write =>
      cases hlink : state.relay.link? id with
      | none => exact Or.inl (by simp only [perform, hwriting, hlink])
      | some link =>
          obtain rfl := Relay.id_of_link? hlink
          exact Or.inr ⟨link, write, rfl, hlink, hwriting, by simp only [perform, hwriting, hlink]⟩

/-- With nothing in between, the two halves of a step do what the step does in one go. -/
theorem begin_finish {state : Interleaved} {step : Relay.Step} {id : LinkId}
    (hid : step.link? = some id) (hfree : state.isFree step = true)
    (hwrites : (state.relay.begin? step).isSome) :
    (state.perform (.begin step)).perform (.finish id) = state.perform (.whole step) := by
  obtain ⟨⟨started, write⟩, hbegin⟩ := Option.isSome_iff_exists.1 hwrites
  obtain ⟨link, hlink, hhalf⟩ := Relay.firstHalf_of_begin? hid hbegin
  obtain rfl := Relay.id_of_link? hlink
  obtain ⟨writer, hwriter, hfinish⟩ := hhalf.poised hlink
  have hwriting : state.put link.id (some write) link.id = some write := if_pos rfl
  have hstarted : state.perform (.begin step) =
      { relay := started, writing := state.put link.id (some write) } := by
    simp only [perform, hid, hbegin, hfree, if_true]
  rw [hstarted]
  simp only [perform, hfree, if_true, hwriting, hwriter, hfinish]
  rw [← put_put state link.id write (writing_of_isFree hid hfree)]
  rfl

/-- Where no step is cut, a run is one of the relay itself. -/
theorem run_map_whole (options : RelayOptions) (steps : List Relay.Step) :
    run options (steps.map .whole) = { relay := Relay.run options steps } := by
  -- No link is ever at a write, so every step can be taken.
  have hfold : ∀ relay : Relay, (steps.map .whole).foldl perform { relay } =
      { relay := steps.foldl Relay.perform relay } := by
    induction steps with
    | nil => exact fun _ => rfl
    | cons step steps ih =>
        intro relay
        have hfree : isFree { relay } step = true := by
          unfold isFree
          cases step.link? with
          | none => rfl
          | some id => rfl
        have hstep : perform { relay } (.whole step) = { relay := relay.perform step } := by
          simp only [perform, hfree, if_true]
        rw [List.map_cons, List.foldl_cons, hstep, ih, List.foldl_cons]
  exact hfold (.new options)

end Interleaved

end Switchboard
