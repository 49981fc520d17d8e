import Switchboard.Proofs.Relay.Fitting
import Switchboard.Proofs.Relay.Sessions

/-!
# What a relay writes on a link

A client is dismissed with a farewell, or its opening is refused, or it is welcomed, hears what is
passed to its session, and may hear a farewell at last (`Transcript`). Where a link stands in this
talk decides what it may write next (`Talk`). A session can be passed messages as soon as it has
joined, but they wait in its outbox, and the welcome does not (`Talk.begins`). In every run, what
has been written on a link is the beginning of a transcript (`spoken_stateAt`).
-/

namespace Switchboard

/-- Whether a message may be passed to a session: a request, an answer, or an error in place of
one. -/
def Message.isPassed (message : Message) : Bool :=
  match message.envelope with
  | .request .. => true
  | .reply _ => true
  | .errorReply .. => true
  | _ => false

theorem Link.Follows.sent_eq {link link' : Link} (h : link.Follows link' []) :
    link'.sent = link.sent := by
  rw [h.sent, List.append_nil]

/-- A link goes on, and what has been written on it stays written. -/
structure Link.Grows (link link' : Link) : Prop where
  id : link'.id = link.id
  sent : link.sent <+: link'.sent

theorem Link.Grows.refl (link : Link) : link.Grows link := ⟨rfl, List.prefix_rfl⟩

theorem Link.Grows.trans {a b c : Link} (hab : a.Grows b) (hbc : b.Grows c) : a.Grows c :=
  ⟨hbc.id.trans hab.id, hab.sent.trans hbc.sent⟩

theorem Link.Follows.grows {link link' : Link} {written : List Message}
    (h : link.Follows link' written) : link.Grows link' := by
  refine ⟨h.id, ?_⟩
  rw [h.sent]
  exact List.prefix_append _ _

namespace Router

/-! ## What waits in outboxes -/

/-- What waits in the outboxes may be passed to sessions. -/
def Passing (router : Router) : Prop :=
  ∀ id, ∀ message ∈ router.queued id, message.isPassed = true

theorem passing_new : Passing .new := fun _ _ h => nomatch h

namespace Passing

variable {before after router : Router}

theorem of_appends (h : before.Passing)
    (happends : Appends (fun message => message.isPassed = true) before after) : after.Passing := by
  intro id message hmessage
  obtain ⟨new, hnew, hpassed⟩ := happends id
  rw [hnew, List.mem_append] at hmessage
  rcases hmessage with hold | hadded
  · exact h id message hold
  · exact hpassed message hadded

theorem of_sublist (h : before.Passing)
    (hsublist : ∀ id, (after.queued id).Sublist (before.queued id)) : after.Passing :=
  fun id message hmessage => h id message ((hsublist id).subset hmessage)

theorem of_refusal (h : before.Passing) {origin : MemberId} {message : Message}
    (hrefusal : Refusal before after origin message) (hpassed : message.isPassed = true) :
    after.Passing := by
  apply h.of_appends
  intro id
  refine ⟨_, hrefusal id, ?_⟩
  intro added hadded
  have hmem := List.mem_of_mem_take hadded
  split at hmem
  · rw [List.mem_singleton.1 hmem]
    exact hpassed
  · cases hmem

theorem join (h : router.Passing) (cluster : String) (capacity : Nat) :
    (router.join cluster capacity).2.Passing :=
  h.of_appends (.of_queued_eq (queued_join router cluster capacity))

/-- Whoever waits for an answer of a member that leaves hears an error. -/
theorem leave (h : router.Passing) (id : MemberId) : (router.leave id).2.Passing := by
  cases hmember : router.member? id with
  | none =>
      rw [leave_of_not_member hmember]
      exact h
  | some member =>
      apply h.of_appends
      intro other
      refine ⟨_, queued_leave hmember other, ?_⟩
      intro message hmessage
      obtain ⟨route, -, rfl⟩ := List.mem_map.1 (List.mem_of_mem_take hmessage)
      rfl

/-- A request is passed on, or it is answered with an error. -/
theorem routeRequest (h : router.Passing) (origin : MemberId) (id : RequestId) (cluster : String)
    (timeout : Duration) (payload : ByteArray) (now : Instant) :
    (router.routeRequest origin id cluster timeout payload now).Passing := by
  cases router.routeRequest_effect origin id cluster timeout payload now with
  | noMembers hturn hrefusal hroutes hnext => exact h.of_refusal hrefusal rfl
  | undelivered target fault hturn hroom hrefusal hroutes hnext => exact h.of_refusal hrefusal rfl
  | forwarded target hturn hroom hroutes hqueued hnext =>
      apply h.of_appends
      intro other
      refine ⟨_, hqueued other, ?_⟩
      intro message hmessage
      split at hmessage
      · rw [List.mem_singleton.1 hmessage]
        rfl
      · cases hmessage

/-- What comes to the origin of a request is an answer or an error, whatever has been sent. -/
theorem routeReply (h : router.Passing) (sender : MemberId) (message : Message) :
    (router.routeReply sender message).Passing := by
  cases routeReply_effect router sender message with
  | ignored hroutes hqueued => exact h.of_appends (.of_queued_eq hqueued)
  | closed route hquoted hroute htarget hroutes hqueued =>
      apply h.of_appends
      intro other
      refine ⟨_, hqueued other, ?_⟩
      intro answer hanswer
      have hmem := List.mem_of_mem_take hanswer
      split at hmem
      · rcases answerTo_eq_some (Option.mem_toList.1 hmem) with
          ⟨quoted, body, -, rfl⟩ | ⟨quoted, error, body, -, rfl⟩
        · rfl
        · rfl
      · cases hmem

theorem drain (h : router.Passing) (id : MemberId) (limit : Option Nat) :
    (router.drain id limit).2.Passing := by
  apply h.of_sublist
  intro other
  obtain ⟨count, hcount⟩ := queued_drain router id limit other
  rw [hcount]
  exact List.drop_sublist count _

theorem hangUp (h : router.Passing) (id : MemberId) : (router.hangUp id).Passing := by
  apply h.of_sublist
  intro other
  rw [queued_hangUp]
  split
  · exact List.nil_sublist _
  · exact List.Sublist.refl _

theorem sweep (h : router.Passing) (now : Instant) : (router.sweep now).2.Passing := h

end Passing

end Router

namespace Relay

theorem passing_routerWithout {router : Router} (h : router.Passing) (id? : Option MemberId) :
    (routerWithout router id?).Passing := by
  cases id? with
  | none => exact h
  | some id => exact h.leave id

/-- Whatever a link takes off what it has received, only what may be passed comes into outboxes. -/
theorem Begins.passing {router router' : Router} {link link' : Link} {message? : Option Message}
    {write? : Option Write} (h : Begins router link message? router' link' write?)
    (hpassing : router.Passing) : router'.Passing := by
  cases h with
  | ceased hfollows hended hclose => exact passing_routerWithout hpassing _
  | joined cluster clientName capacity => exact hpassing.join cluster capacity
  | request member id cluster timeout now => exact hpassing.routeRequest _ _ _ _ _ _
  | answer member => exact hpassing.routeReply _ _
  | drained member message hmember hdrain =>
      have hdrained := hpassing.drain member (some 1)
      rw [hdrain] at hdrained
      exact hdrained
  | _ => exact hpassing

theorem Finishes.passing {router router' : Router} {link link' : Link} {write : Write}
    (h : Finishes router link write router' link') (hpassing : router.Passing) :
    router'.Passing := by
  cases h with
  | written hending hfollows hphase => exact hpassing
  | unwritten hending hfollows hended => exact passing_routerWithout hpassing _
  | last withError hending written hwritten hfollows hended =>
      exact passing_routerWithout hpassing _

theorem Aside.passing {relay after : Relay} (h : Aside relay after)
    (hpassing : relay.router.Passing) :
    after.router.Passing := by
  rcases h.router with hsame | ⟨member, hhung⟩ | ⟨now, hswept⟩
  · rw [hsame]
    exact hpassing
  · rw [hhung]
    exact hpassing.hangUp member
  · rw [hswept]
    exact hpassing.sweep now

theorem Begins.grows {router router' : Router} {link link' : Link} {message? : Option Message}
    {write? : Option Write} (h : Begins router link message? router' link' write?) :
    link.Grows link' := by
  cases h with
  | joined cluster clientName capacity hnone hmessage hcluster hid hname hsent =>
      exact ⟨hid, [], by rw [hsent, List.append_nil]⟩
  | _ => exact Link.Follows.grows ‹_›

theorem Finishes.grows {router router' : Router} {link link' : Link} {write : Write}
    (h : Finishes router link write router' link') : link.Grows link' := by
  cases h <;> exact Link.Follows.grows ‹_›

/-! ## Transcripts -/

/-- The first message of a link opens a session. -/
def Greeted (heard : List Message) : Prop :=
  ∃ first cluster, heard.head? = some first ∧ first.Opens cluster

/-- All that a relay may write on the link of the given name, from which it has heard so much. -/
inductive Transcript (name : String) (heard : List Message) : List Message → Prop
  /-- There is no room for the link, or it ends before anything has been said. -/
  | dismissed (farewell : Message)
      (hfarewell : farewell = limitReached ∨ farewell = idleTimeout ∨ farewell = shuttingDown) :
      Transcript name heard [farewell]
  /-- The first message does not open a session, and the client hears why. -/
  | refused (first : Message) (error : RelayError) (hfirst : heard.head? = some first)
      (hopening : openingFault? first = some error) :
      Transcript name heard [.errorReply .none error.toReply.code error.toReply.message]
  /-- The session is welcomed, is passed messages, and may hear a farewell. -/
  | served (passed : List Message) (farewell? : Option Message) (hgreeted : Greeted heard)
      (hpassed : ∀ message ∈ passed, message.isPassed = true)
      (hfarewell : ∀ farewell ∈ farewell?, farewell = idleTimeout ∨ farewell = shuttingDown) :
      Transcript name heard (.welcome name :: (passed ++ farewell?.toList))

/-- The session has been welcomed, and what has been written since has been passed to it. -/
def Served (name : String) (heard sent : List Message) : Prop :=
  Greeted heard ∧ ∃ passed, sent = .welcome name :: passed ∧
    ∀ message ∈ passed, message.isPassed = true

/-- Nothing has been said, or the session has been welcomed. -/
def AtEase (heard : List Message) (link : Link) : Prop :=
  (link.session.member = none ∧ link.sent = []) ∨
    (link.session.member ≠ none ∧ Served link.name heard link.sent)

theorem Greeted.append {heard : List Message} (h : Greeted heard) (more : List Message) :
    Greeted (heard ++ more) := by
  obtain ⟨first, cluster, hfirst, hopens⟩ := h
  exact ⟨first, cluster, by rw [List.head?_append, hfirst, Option.some_or], hopens⟩

theorem Served.concat {name : String} {heard sent : List Message} (h : Served name heard sent)
    {message : Message} (hmessage : message.isPassed = true) :
    Served name heard (sent ++ [message]) := by
  obtain ⟨hgreeted, passed, rfl, hpassed⟩ := h
  refine ⟨hgreeted, passed ++ [message], rfl, ?_⟩
  intro other hother
  rcases List.mem_append.1 hother with hold | hlast
  · exact hpassed other hold
  · rw [List.mem_singleton.1 hlast]
    exact hmessage

namespace AtEase

variable {heard : List Message} {link link' : Link} (h : AtEase heard link)

include h

theorem sent_of_none (hnone : link.session.member = none) : link.sent = [] := by
  rcases h with ⟨-, hsent⟩ | ⟨hsome, -⟩
  · exact hsent
  · exact absurd hnone hsome

theorem served_of_some {member : MemberId} (hsome : link.session.member = some member) :
    Served link.name heard link.sent := by
  rcases h with ⟨hnone, -⟩ | ⟨-, hserved⟩
  · rw [hsome] at hnone
    cases hnone
  · exact hserved

/-- A link on which nothing is written stays as it is, whatever is heard. -/
theorem follows (hfollows : link.Follows link' []) (more : List Message) :
    AtEase (heard ++ more) link' := by
  rcases h with ⟨hnone, hsent⟩ | ⟨hsome, hgreeted, passed, hsent, hpassed⟩
  · exact Or.inl ⟨hfollows.member.trans hnone, hfollows.sent_eq.trans hsent⟩
  · right
    rw [hfollows.member, hfollows.name, hfollows.sent_eq]
    exact ⟨hsome, hgreeted.append more, passed, hsent, hpassed⟩

/-- A farewell, if it is written, completes a transcript. -/
theorem transcript_append {farewell : Message}
    (hfarewell : farewell = idleTimeout ∨ farewell = shuttingDown) {written : List Message}
    (hwritten : written = [] ∨ written = [farewell]) :
    ∃ whole, Transcript link.name heard whole ∧ link.sent ++ written <+: whole := by
  have hstart : written <+: [farewell] := by
    rcases hwritten with rfl | rfl
    · exact List.nil_prefix
    · exact List.prefix_rfl
  rcases h with ⟨-, hsent⟩ | ⟨-, hgreeted, passed, hsent, hpassed⟩
  · rw [hsent, List.nil_append]
    exact ⟨[farewell], .dismissed farewell (Or.inr hfarewell), hstart⟩
  · rw [hsent]
    refine ⟨_, .served passed (some farewell) hgreeted hpassed ?_, ?_⟩
    · intro last hlast
      rw [← Option.some.inj hlast]
      exact hfarewell
    · exact List.cons_prefix_cons.2 ⟨rfl, (List.prefix_append_right_inj passed).2 hstart⟩

theorem transcript : ∃ whole, Transcript link.name heard whole ∧ link.sent <+: whole := by
  obtain ⟨whole, htranscript, hstart⟩ := h.transcript_append (Or.inl rfl) (Or.inl rfl)
  rw [List.append_nil] at hstart
  exact ⟨whole, htranscript, hstart⟩

end AtEase

theorem kind_of_farewell {farewell : Message}
    (h : farewell = idleTimeout ∨ farewell = shuttingDown) : farewell.envelope.kind = .close := by
  rcases h with rfl | rfl
  · rfl
  · rfl

theorem kind_of_isPassed {message : Message} (h : message.isPassed = true) :
    message.envelope.kind ≠ .welcome ∧ message.envelope.kind ≠ .close := by
  unfold Message.isPassed at h
  split at h
  · rename_i id cluster timeoutMs hmessage
    rw [hmessage]
    exact ⟨nofun, nofun⟩
  · rename_i id hmessage
    rw [hmessage]
    exact ⟨nofun, nofun⟩
  · rename_i id error hmessage
    rw [hmessage]
    exact ⟨nofun, nofun⟩
  · cases h

/-! ## The talk on a link -/

/-- Where the talk on a link stands from which so much has been heard, and which is at a write or at
none. -/
inductive Talk (heard : List Message) (link : Link) : Option Write → Prop
  | still (hease : AtEase heard link) (hlive : link.phase ≠ .ended) : Talk heard link none
  | refusing (first : Message) (error : RelayError) (hfirst : heard.head? = some first)
      (hopening : openingFault? first = some error) (hsent : link.sent = [])
      (hlive : link.phase ≠ .ended) :
      Talk heard link
        (some { message := .errorReply .none error.toReply.code error.toReply.message
                ending := some true })
  | welcoming (hgreeted : Greeted heard) (hmember : link.session.member ≠ none)
      (hsent : link.sent = []) (hlive : link.phase ≠ .ended) :
      Talk heard link (some { message := .welcome link.name })
  | passing (message : Message) (hpassed : message.isPassed = true)
      (hserved : Served link.name heard link.sent) (hmember : link.session.member ≠ none)
      (hlive : link.phase ≠ .ended) : Talk heard link (some { message })
  | parting (farewell : Message) (withError : Bool)
      (hfarewell : farewell = idleTimeout ∨ farewell = shuttingDown) (hease : AtEase heard link)
      (hlive : link.phase ≠ .ended) :
      Talk heard link (some { message := farewell, ending := some withError })
  | ceased (whole : List Message) (htranscript : Transcript link.name heard whole)
      (hstart : link.sent <+: whole) (hended : link.phase = .ended) : Talk heard link none

namespace Talk

variable {heard : List Message} {link link' : Link} {write? : Option Write}

theorem atEase (h : Talk heard link none) (hlive : link.phase ≠ .ended) : AtEase heard link := by
  cases h with
  | still hease _ => exact hease
  | ceased whole htranscript hstart hended => exact absurd hended hlive

/-- A link that has not ended has written nothing, or it has been welcomed. -/
theorem sent_of_live (h : Talk heard link write?) (hlive : link.phase ≠ .ended) :
    link.sent = [] ∨ Served link.name heard link.sent := by
  cases h with
  | still hease _ => exact hease.imp And.right And.right
  | refusing first error hfirst hopening hsent _ => exact Or.inl hsent
  | welcoming hgreeted hmember hsent _ => exact Or.inl hsent
  | passing message hpassed hserved hmember _ => exact Or.inr hserved
  | parting farewell withError hfarewell hease _ => exact hease.imp And.right And.right
  | ceased whole htranscript hstart hended => exact absurd hended hlive

/-- Nothing is written before a welcome. -/
theorem sent_of_welcome {write : Write} (h : Talk heard link (some write))
    (hkind : write.message.envelope.kind = .welcome) : link.sent = [] := by
  cases h with
  | refusing first error hfirst hopening hsent hlive => exact hsent
  | welcoming hgreeted hmember hsent hlive => exact hsent
  | passing message hpassed hserved hmember hlive => exact absurd hkind (kind_of_isPassed hpassed).1
  | parting farewell withError hfarewell hease hlive =>
      rw [kind_of_farewell hfarewell] at hkind
      cases hkind

/-- What has been written is the beginning of a transcript. -/
theorem transcript (h : Talk heard link write?) :
    ∃ whole, Transcript link.name heard whole ∧ link.sent <+: whole := by
  have hnothing : link.sent = [] → ∃ whole, Transcript link.name heard whole ∧
      link.sent <+: whole := by
    intro hsent
    rw [hsent]
    exact ⟨_, .dismissed idleTimeout (Or.inr (Or.inl rfl)), List.nil_prefix⟩
  cases h with
  | still hease _ => exact hease.transcript
  | refusing first error hfirst hopening hsent _ => exact hnothing hsent
  | welcoming hgreeted hmember hsent _ => exact hnothing hsent
  | passing message hpassed hserved hmember _ => exact AtEase.transcript (Or.inr ⟨hmember, hserved⟩)
  | parting farewell withError hfarewell hease _ => exact hease.transcript
  | ceased whole htranscript hstart _ => exact ⟨whole, htranscript, hstart⟩

/-- A link on which nothing is written stands where it stood. -/
theorem follows (h : Talk heard link write?) (hfollows : link.Follows link' [])
    (hphase : link'.phase = link.phase) : Talk heard link' write? := by
  have hease : AtEase heard link → AtEase heard link' := by
    intro hease
    have hafter := hease.follows hfollows []
    rwa [List.append_nil] at hafter
  cases h with
  | still hold hlive => exact .still (hease hold) (hphase ▸ hlive)
  | refusing first error hfirst hopening hsent hlive =>
      exact .refusing first error hfirst hopening (hfollows.sent_eq.trans hsent) (hphase ▸ hlive)
  | welcoming hgreeted hmember hsent hlive =>
      rw [← hfollows.name]
      exact .welcoming hgreeted (hfollows.member ▸ hmember) (hfollows.sent_eq.trans hsent)
        (hphase ▸ hlive)
  | passing message hpassed hserved hmember hlive =>
      refine .passing message hpassed ?_ (hfollows.member ▸ hmember) (hphase ▸ hlive)
      rw [hfollows.name, hfollows.sent_eq]
      exact hserved
  | parting farewell withError hfarewell hold hlive =>
      exact .parting farewell withError hfarewell (hease hold) (hphase ▸ hlive)
  | ceased whole htranscript hstart hended =>
      refine .ceased whole ?_ ?_ (hphase.trans hended)
      · rw [hfollows.name]
        exact htranscript
      · rw [hfollows.sent_eq]
        exact hstart

/-- What a link may come to write: a session that joins has written nothing yet, and what is taken
out of an outbox is written by a session that has been welcomed. -/
theorem begins {router router' : Router} {message? : Option Message} (h : Talk heard link none)
    (hlive : link.phase ≠ .ended) (hpassing : router.Passing)
    (hsilent : link.session.member = none → heard = [])
    (hbegins : Begins router link message? router' link' write?) :
    Talk (heard ++ message?.toList) link' write? := by
  have hease := h.atEase hlive
  have hserved : ∀ {member} {more : List Message}, link.session.member = some member →
      link.Follows link' [] →
        link'.session.member ≠ none ∧ Served link'.name (heard ++ more) link'.sent := by
    intro member more hsome hfollows
    have hsome' : link'.session.member = some member := hfollows.member.trans hsome
    refine ⟨?_, (hease.follows hfollows more).served_of_some hsome'⟩
    rw [hsome']
    exact Option.some_ne_none member
  -- Only a link that has been silent opens a session or is refused, and only a session that has
  -- been welcomed takes anything out of an outbox: the welcome is not over while the link is at it.
  cases hbegins with
  | kept hfollows hlive' => exact .still (hease.follows hfollows _) hlive'
  | ceased hfollows hended hclose =>
      obtain ⟨whole, htranscript, hstart⟩ := (hease.follows hfollows _).transcript
      exact .ceased whole htranscript hstart hended
  | @joined message _ cluster clientName capacity hnone hmessage hcluster hid hname hsent hmember
      hcluster' hlive' =>
      rw [hsilent hnone]
      refine .welcoming ⟨message, cluster, rfl, hcluster, clientName, hmessage⟩ ?_ ?_ hlive'
      · rw [hmember]
        exact Option.some_ne_none _
      · rw [hsent]
        exact hease.sent_of_none hnone
  | @refused message _ error hnone hopening hfollows hlive' =>
      rw [hsilent hnone]
      exact .refusing message error rfl hopening
        (hfollows.sent_eq.trans (hease.sent_of_none hnone)) hlive'
  | request member id cluster timeout now hmember hmessage hfollows hlive' =>
      exact .still (hease.follows hfollows _) hlive'
  | answer member hmember hmessage hfollows hlive' => exact .still (hease.follows hfollows _) hlive'
  | misplaced member text hmember hmessage hfollows hlive' =>
      obtain ⟨hsome, hafter⟩ := hserved hmember hfollows
      exact .passing _ rfl hafter hsome hlive'
  | drained member message hmember hdrain hfollows hlive' =>
      obtain ⟨hsome, hafter⟩ := hserved hmember hfollows
      exact .passing message (hpassing member message (mem_queued_of_drain hdrain)) hafter hsome
        hlive'
  | parting farewell withError hfarewell hfollows hlive' =>
      exact .parting farewell withError hfarewell (hease.follows hfollows _) hlive'

/-- The message that a link is at is written, or the link ends. -/
theorem finishes {router router' : Router} {write : Write} (h : Talk heard link (some write))
    (hfinishes : Finishes router link write router' link') : Talk heard link' none := by
  -- The link ends without the message.
  have hbroken : link.Follows link' [] → link'.phase = .ended → Talk heard link' none := by
    intro hfollows hended
    obtain ⟨whole, htranscript, hstart⟩ := h.transcript
    refine .ceased whole ?_ ?_ hended
    · rw [hfollows.name]
      exact htranscript
    · rw [hfollows.sent_eq]
      exact hstart
  -- Whether the link ends with the write was settled when it came to it.
  cases hfinishes with
  | written hending hfollows hphase =>
      cases h with
      | refusing first error hfirst hopening hsent hlive => cases hending
      | parting farewell withError hfarewell hease hlive => cases hending
      | welcoming hgreeted hmember hsent hlive =>
          refine .still (Or.inr ⟨hfollows.member ▸ hmember, hgreeted, [], ?_, ?_⟩) (hphase ▸ hlive)
          · rw [hfollows.sent, hfollows.name, hsent, List.nil_append]
          · exact fun _ hnone => nomatch hnone
      | passing message hpassed hserved hmember hlive =>
          refine .still (Or.inr ⟨hfollows.member ▸ hmember, ?_⟩) (hphase ▸ hlive)
          rw [hfollows.sent, hfollows.name]
          exact hserved.concat hpassed
  | unwritten hending hfollows hended => exact hbroken hfollows hended
  | last withError hending written hwritten hfollows hended =>
      cases h with
      | welcoming hgreeted hmember hsent hlive => cases hending
      | passing message hpassed hserved hmember hlive => cases hending
      | refusing first error hfirst hopening hsent hlive =>
          refine .ceased _ (.refused first error hfirst hopening) ?_ hended
          rw [hfollows.sent, hsent, List.nil_append]
          rcases hwritten with rfl | rfl
          · exact List.nil_prefix
          · exact List.prefix_rfl
      | parting farewell withError' hfarewell hease hlive =>
          obtain ⟨whole, htranscript, hstart⟩ := hease.transcript_append hfarewell hwritten
          refine .ceased whole ?_ ?_ hended
          · rw [hfollows.name]
            exact htranscript
          · rw [hfollows.sent]
            exact hstart

end Talk

/-! ## Reading a transcript -/

/-- What has been written on a link of the given name, from which so much has been heard. -/
structure Spoken (name : String) (heard sent : List Message) : Prop where
  /-- It is the beginning of a transcript. -/
  transcript : ∃ whole, Transcript name heard whole ∧ sent <+: whole
  /-- A request or a reply has been written behind the welcome. -/
  behind : ∀ k message, sent[k]? = some message →
    message.envelope.kind = .request ∨ message.envelope.kind = .reply →
      0 < k ∧ sent[0]? = some (.welcome name)
  /-- A welcome has been written first or not at all. -/
  once : ∀ k message, sent[k]? = some message → message.envelope.kind = .welcome →
    k = 0 ∧ message = .welcome name
  /-- Nothing has been written behind a farewell. -/
  farewell : ∀ k message, sent[k]? = some message → message.envelope.kind = .close →
    k + 1 = sent.length
  /-- Nothing has been written behind a refusal. -/
  refusal : ∀ message, sent[0]? = some message → message.envelope.kind = .errorReply →
    sent.length = 1

/-- What stands where in a transcript. -/
inductive Line (name : String) (whole : List Message) (k : Nat) (message : Message) : Prop where
  | welcome (hfirst : k = 0) (hmessage : message = .welcome name)
  | passed (hlater : 0 < k) (hwelcome : whole[0]? = some (.welcome name))
      (hpassed : message.isPassed = true)
  | farewell (hlast : k + 1 = whole.length) (hkind : message.envelope.kind = .close)
  | refusal (hfirst : k = 0) (hlast : whole.length = 1)
      (hkind : message.envelope.kind = .errorReply)

theorem Transcript.line {name : String} {heard whole : List Message}
    (h : Transcript name heard whole)
    {k : Nat} {message : Message} (hmessage : whole[k]? = some message) :
    Line name whole k message := by
  have hsingle : ∀ {only : Message}, [only][k]? = some message → k = 0 ∧ message = only := by
    intro only honly
    cases k with
    | zero => exact ⟨rfl, (Option.some.inj honly).symm⟩
    | succ k => cases honly
  cases h with
  | dismissed farewell hfarewell =>
      obtain ⟨rfl, rfl⟩ := hsingle hmessage
      refine .farewell rfl ?_
      rcases hfarewell with rfl | hfarewell
      · rfl
      · exact kind_of_farewell hfarewell
  | refused first error hfirst hopening =>
      obtain ⟨rfl, rfl⟩ := hsingle hmessage
      exact .refusal rfl rfl rfl
  | served passed farewell? hgreeted hpassed hfarewell =>
      cases k with
      | zero => exact .welcome rfl (Option.some.inj hmessage).symm
      | succ k =>
          rw [List.getElem?_cons_succ] at hmessage
          by_cases hlt : k < passed.length
          · rw [List.getElem?_append_left hlt] at hmessage
            exact .passed (Nat.succ_pos k) rfl (hpassed message (List.mem_of_getElem? hmessage))
          · -- Behind what has been passed there is the farewell, if there is one.
            rw [List.getElem?_append_right (Nat.not_lt.1 hlt)] at hmessage
            cases farewell? with
            | none => cases hmessage
            | some farewell =>
                rw [Option.toList_some, List.getElem?_singleton] at hmessage
                split at hmessage
                · rename_i hzero
                  obtain rfl := Option.some.inj hmessage
                  refine .farewell ?_ (kind_of_farewell (hfarewell farewell rfl))
                  rw [Option.toList_some, List.length_cons, List.length_append,
                    List.length_singleton]
                  omega
                · cases hmessage

theorem spoken_of_transcript {name : String} {heard sent whole : List Message}
    (h : Transcript name heard whole) (hstart : sent <+: whole) : Spoken name heard sent := by
  have hle := hstart.length_le
  have hbound : ∀ {k message}, sent[k]? = some message → k < sent.length :=
    fun hmessage => (List.getElem?_eq_some_iff.1 hmessage).1
  have hagree : ∀ {k}, k < sent.length → sent[k]? = whole[k]? := by
    intro k hlt
    obtain ⟨rest, rfl⟩ := hstart
    exact (List.getElem?_append_left hlt).symm
  have hline : ∀ {k message}, sent[k]? = some message → Line name whole k message :=
    fun hmessage => h.line ((hagree (hbound hmessage)).symm.trans hmessage)
  -- Where there is a last line, the beginning of the transcript is all of it.
  have hlast : ∀ {k message}, sent[k]? = some message → k + 1 = whole.length →
      k + 1 = sent.length := by
    intro k message hmessage hend
    have hlt := hbound hmessage
    omega
  constructor
  case transcript => exact ⟨whole, h, hstart⟩
  case behind =>
    intro k message hmessage hkind
    cases hline hmessage with
    | welcome hfirst hwelcome =>
        subst hwelcome
        rcases hkind with hkind | hkind <;> cases hkind
    | passed hlater hwelcome hpassed =>
        exact ⟨hlater, (hagree (hlater.trans (hbound hmessage))).trans hwelcome⟩
    | farewell hlast hclose =>
        rcases hkind with hkind | hkind <;> rw [hkind] at hclose <;> cases hclose
    | refusal hfirst hlast herror =>
        rcases hkind with hkind | hkind <;> rw [hkind] at herror <;> cases herror
  case once =>
    intro k message hmessage hkind
    cases hline hmessage with
    | welcome hfirst hwelcome => exact ⟨hfirst, hwelcome⟩
    | passed hlater hwelcome hpassed => exact absurd hkind (kind_of_isPassed hpassed).1
    | farewell hlast hclose =>
        rw [hkind] at hclose
        cases hclose
    | refusal hfirst hlast herror =>
        rw [hkind] at herror
        cases herror
  case farewell =>
    intro k message hmessage hkind
    cases hline hmessage with
    | welcome hfirst hwelcome =>
        subst hwelcome
        cases hkind
    | passed hlater hwelcome hpassed => exact absurd hkind (kind_of_isPassed hpassed).2
    | farewell hend hclose => exact hlast hmessage hend
    | refusal hfirst hend herror =>
        rw [hkind] at herror
        cases herror
  case refusal =>
    intro message hmessage hkind
    cases hline hmessage with
    | welcome hfirst hwelcome =>
        subst hwelcome
        cases hkind
    | passed hlater hwelcome hpassed => exact absurd hlater (Nat.lt_irrefl 0)
    | farewell hend hclose =>
        rw [hkind] at hclose
        cases hclose
    | refusal hfirst hend herror => exact (hlast hmessage hend.symm).symm

end Relay

namespace Interleaved

open Relay (Talk Transcript Spoken)

/-! ## Along a run -/

/-- The talk on every link stands somewhere, and what waits in outboxes may be passed to
sessions. -/
structure Talking (heard : LinkId → List Message) (state : Interleaved) : Prop where
  passing : state.relay.router.Passing
  talks : ∀ link ∈ state.relay.links, Talk (heard link.id) link (state.writing link.id)

theorem talking_new (options : RelayOptions) : Talking (fun _ => []) (.new options) where
  passing := Router.passing_new
  talks := fun _ h => nomatch h

namespace Talking

variable {heard : LinkId → List Message} {state after : Interleaved}
  (hsessions : Sessions heard state) (h : Talking heard state)

include hsessions h

theorem aside (haside : Relay.Aside state.relay after.relay)
    (hwriting : after.writing = state.writing) :
    Talking heard after where
  passing := haside.passing h.passing
  talks := by
    obtain ⟨g, hlinks, hg⟩ := haside.links
    intro link' hlink'
    rw [hlinks] at hlink'
    obtain ⟨link, hlink, rfl⟩ := List.mem_map.1 hlink'
    obtain ⟨hfollows, hphase⟩ := hg hsessions.ids link hlink
    rw [hwriting, hfollows.id]
    exact (h.talks link hlink).follows hfollows hphase

/-- A link is dismissed when it comes in, or nothing has been said yet. -/
theorem accepted {link : Link} (hfresh : state.relay.Fresh link)
    (hrouter : after.relay.router = state.relay.router)
    (hlinks : after.relay.links = state.relay.links ++ [link])
    (hwriting : after.writing = state.writing) : Talking heard after where
  passing := by
    rw [hrouter]
    exact h.passing
  talks := by
    -- A link that is new is at no write.
    have hfree : state.writing link.id = none := by
      by_contra hbusy
      obtain ⟨other, hother, hid, -⟩ := hsessions.writers link.id hbusy
      have hbound := hsessions.bounded other hother
      rw [hid, hfresh.id] at hbound
      exact Nat.lt_irrefl _ hbound
    intro other hother
    rw [hlinks, List.mem_append, List.mem_singleton] at hother
    rw [hwriting]
    rcases hother with hold | rfl
    · exact h.talks other hold
    · rw [hfree]
      rcases hfresh.sent with ⟨hlive, hsent⟩ | ⟨hended, hsent⟩
      · exact .still (Or.inl ⟨hfresh.member, hsent⟩) hlive
      · refine .ceased [Relay.limitReached] (.dismissed _ (Or.inl rfl)) ?_ hended
        rcases hsent with hsent | hsent
        · rw [hsent]
          exact List.nil_prefix
        · exact ⟨[], by rw [hsent, List.append_nil]⟩

theorem began {link link' : Link} {message? : Option Message} {write? : Option Write}
    (hbegan : Began state after link link' message? write?) :
    Talking (hear heard link.id message?) after where
  passing := hbegan.begins.passing h.passing
  talks := by
    intro other hother
    rcases hbegan.turned.mem_links hother with rfl | ⟨hold, hne⟩
    · have htalk := h.talks link hbegan.turned.mem
      rw [hbegan.free] at htalk
      rw [hbegan.begins.id, hbegan.writing, put_self, hear, if_pos rfl]
      exact htalk.begins hbegan.live h.passing (hsessions.silent_of_began hbegan) hbegan.begins
    · rw [hbegan.begins.id] at hne
      rw [hbegan.writing, put_of_ne hne, hear, if_neg hne]
      exact h.talks other hold

omit hsessions in
theorem finished {link link' : Link} {write : Write}
    (hfinished : Finished state after link link' write) :
    Talking heard after where
  passing := hfinished.finishes.passing h.passing
  talks := by
    intro other hother
    rcases hfinished.turned.mem_links hother with rfl | ⟨hold, hne⟩
    · have htalk := h.talks link hfinished.turned.mem
      rw [hfinished.busy] at htalk
      rw [hfinished.finishes.id, hfinished.writing, put_self]
      exact htalk.finishes hfinished.finishes
    · rw [hfinished.finishes.id] at hne
      rw [hfinished.writing, put_of_ne hne]
      exact h.talks other hold

/-- Every step takes the talk on a link from where it stands to where it may go. -/
theorem perform (step : Step) : Talking (hearIn heard state step) (state.perform step) := by
  cases perform_effect state step with
  | aside haside hwriting htaken htask =>
      rw [hearIn_of_none htaken]
      exact h.aside hsessions haside hwriting
  | accepted link hfresh hstep hrouter hlinks hnext hwriting htaken =>
      rw [hearIn_of_none htaken]
      exact h.accepted hsessions hfresh hrouter hlinks hwriting
  | began link link' write? hstep hbegan =>
      rw [hearIn_of_link? hstep]
      exact h.began hsessions hbegan
  | finished link link' write hstep htaken hfinished =>
      rw [hearIn_of_none htaken]
      exact h.finished hfinished
  | through middle link link' link'' write hstep hbegan hfinished =>
      rw [hearIn_of_link? hstep]
      exact (h.began hsessions hbegan).finished hfinished

end Talking

theorem talking_stateAt (options : RelayOptions) (steps : List Step) (i : Nat) :
    Talking (heard options steps i) (stateAt options steps i) := by
  -- What first messages do to sessions is known of every state, so it need not be carried along
  -- here.
  induction i with
  | zero => exact talking_new options
  | succ i ih =>
      cases hstep : steps[i]? with
      | none =>
          rw [stateAt_succ_of_none hstep]
          simp only [heard, hstep]
          exact ih
      | some step =>
          rw [stateAt_succ hstep]
          simp only [heard, hstep]
          exact ih.perform (sessions_stateAt options steps i) step

/-! ### Nothing is taken back -/

theorem exists_grown_of_turned {state after : Interleaved} {link link' : Link}
    (hids : (state.relay.links.map Link.id).Nodup)
    (hturned : Relay.Turned state.relay after.relay link link') (hgrows : link.Grows link') :
    ∀ old ∈ state.relay.links, ∃ new ∈ after.relay.links, old.Grows new := by
  obtain ⟨g, hlinks, hg⟩ := hturned.exists_map hids hgrows.id Link.Grows.refl hgrows
  intro old hold
  refine ⟨g old, ?_, hg old hold⟩
  rw [hlinks]
  exact List.mem_map_of_mem hold

theorem exists_grown_perform {heard : LinkId → List Message} {state : Interleaved}
    (hsessions : Sessions heard state) (step : Step) :
    ∀ old ∈ state.relay.links, ∃ new ∈ (state.perform step).relay.links, old.Grows new := by
  cases perform_effect state step with
  | aside haside hwriting htaken htask =>
      obtain ⟨g, hlinks, hg⟩ := haside.links
      intro old hold
      refine ⟨g old, ?_, (hg hsessions.ids old hold).1.grows⟩
      rw [hlinks]
      exact List.mem_map_of_mem hold
  | accepted link hfresh hstep hrouter hlinks hnext hwriting htaken =>
      intro old hold
      refine ⟨old, ?_, .refl old⟩
      rw [hlinks]
      exact List.mem_append_left _ hold
  | began link link' write? hstep hbegan =>
      exact exists_grown_of_turned hsessions.ids hbegan.turned hbegan.begins.grows
  | finished link link' write hstep htaken hfinished =>
      exact exists_grown_of_turned hsessions.ids hfinished.turned hfinished.finishes.grows
  | through middle link link' link'' write hstep hbegan hfinished =>
      intro old hold
      obtain ⟨between, hbetween, hfirst⟩ :=
        exists_grown_of_turned hsessions.ids hbegan.turned hbegan.begins.grows old hold
      obtain ⟨new, hnew, hsecond⟩ := exists_grown_of_turned (hsessions.began hbegan).ids
        hfinished.turned hfinished.finishes.grows between hbetween
      exact ⟨new, hnew, hfirst.trans hsecond⟩

theorem exists_grown_stateAt (options : RelayOptions) (steps : List Step) {i j : Nat}
    (hle : i ≤ j) :
    ∀ old ∈ (stateAt options steps i).relay.links,
      ∃ new ∈ (stateAt options steps j).relay.links, old.Grows new := by
  induction j, hle using Nat.le_induction with
  | base => exact fun old hold => ⟨old, hold, .refl old⟩
  | succ j _ ih =>
      intro old hold
      obtain ⟨between, hbetween, hfirst⟩ := ih old hold
      cases hstep : steps[j]? with
      | none =>
          rw [stateAt_succ_of_none hstep]
          exact ⟨between, hbetween, hfirst⟩
      | some step =>
          rw [stateAt_succ hstep]
          obtain ⟨new, hnew, hsecond⟩ :=
            exists_grown_perform (sessions_stateAt options steps j) step between hbetween
          exact ⟨new, hnew, hfirst.trans hsecond⟩

/-! ### What has been written -/

/-- What has been written on a link behind the first `i` steps of a run. -/
structure Recounted (options : RelayOptions) (steps : List Step) (i : Nat) (link : Link) :
    Prop where
  spoken : Spoken link.name (heard options steps i link.id) link.sent
  /-- The link ends with a farewell or a refusal. -/
  live : link.phase ≠ .ended → link.sent = [] ∨
    Relay.Served link.name (heard options steps i link.id) link.sent
  /-- While its session is being welcomed nothing has been written, whatever waits in its outbox. -/
  first : ∀ write, (stateAt options steps i).writing link.id = some write →
    write.message.envelope.kind = .welcome → link.sent = []
  /-- What has been written stays written. -/
  grown : ∀ j, i ≤ j → ∃ link' ∈ (stateAt options steps j).relay.links, link.Grows link'

/-- In every run, whatever clients send and in whatever order links take their steps, what has been
written on a link is the beginning of a transcript. -/
theorem spoken_stateAt (options : RelayOptions) (steps : List Step) (i : Nat) :
    ∀ link ∈ (stateAt options steps i).relay.links, Recounted options steps i link := by
  intro link hlink
  have htalk := (talking_stateAt options steps i).talks link hlink
  obtain ⟨whole, htranscript, hstart⟩ := htalk.transcript
  constructor
  · exact Relay.spoken_of_transcript htranscript hstart
  · exact htalk.sent_of_live
  · intro write hwrite hkind
    rw [hwrite] at htalk
    exact htalk.sent_of_welcome hkind
  · exact fun j hle => exists_grown_stateAt options steps hle link hlink

/-- A request for the cluster that its own session is in. -/
def question : Message := .request ⟨7⟩ "svc" 1000 ⟨#[1]⟩

/-- A run in which a session of the cluster `svc` joins and is passed a request before it has been
welcomed. -/
def passedRun : List Step :=
  [.whole .start, .whole (.accept "conn-1" (.v4 .loopback 0) 0),
    .whole (.accept "conn-2" (.v4 .loopback 0) 0),
    .whole (.receive 0 (Message.hello "svc" none).bytes 0), .begin (.readNext 0 0),
    .whole (.receive 1 ((Message.hello "svc" none).bytes ++ question.bytes) 0),
    .whole (.readNext 1 0), .whole (.readNext 1 0)]

theorem queued_passedRun :
    ((stateAt {} passedRun 8).relay.router.queued 1,
      (stateAt {} passedRun 8).relay.links.map fun link => (link.session.member, link.sent)) =
    ([.request ⟨1⟩ "svc" 1000 ⟨#[1]⟩], [(some 1, []), (some 2, [.welcome "conn-2"])]) := by
  decide +kernel

theorem spoken_of_passedRun :
    ∃ link ∈ (stateAt {} passedRun 8).relay.links, link.session.member = some 1 ∧
      link.sent = [] ∧ (stateAt {} passedRun 8).relay.router.queued 1 ≠ [] ∧
      Recounted {} passedRun 8 link := by
  obtain ⟨hqueued, hlinks⟩ := Prod.mk.inj queued_passedRun
  obtain ⟨link, rest, hall, hlink, -⟩ := List.map_eq_cons_iff.1 hlinks
  obtain ⟨hmember, hsent⟩ := Prod.mk.inj hlink
  have hmem : link ∈ (stateAt {} passedRun 8).relay.links := by
    rw [hall]
    exact List.mem_cons_self
  refine ⟨link, hmem, hmember, hsent, ?_, spoken_stateAt {} passedRun 8 link hmem⟩
  rw [hqueued]
  exact List.cons_ne_nil _ _

end Interleaved

end Switchboard
