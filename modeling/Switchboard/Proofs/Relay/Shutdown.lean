import Switchboard.Proofs.Relay.Interleaving

/-!
# Who hears of the end of a relay

The end of a relay is announced once, to everybody who is there then. The relay itself may accept
links until it takes notice, and the tasks of links may stand at any write meanwhile. A link that
was there when the end was announced heeds it ever after: it has ended, or takes its leave, or the
notice waits for it (`hears_of_announced`). Only a link that has been accepted since may not heed
the end (`heeds_or_late`). Such links there are (`unheeding_of_lateRun`): a relay that accepts one
more link between the announcement and its own notice leaves that link without one.
-/

namespace Switchboard

/-! ## What links keep of a notice -/

/-- A link that writes keeps its notice. -/
theorem Link.isNotified_of_write {link link' : Link} {message : Message}
    (h : link.write message = some link') : link'.isNotified = link.isNotified := by
  obtain ⟨-, -, rfl⟩ := Link.write_eq_some.1 h
  rfl

namespace Relay

/-- A link that deals with a message ends, or keeps its notice. -/
theorem Handled.isNotified {options : RelayOptions} {router router' : Router} {link link' : Link}
    {message : Message} {now : Instant}
    (h : Handled options router link message now router' link') :
    link'.phase = .ended ∨ link'.isNotified = link.isNotified := by
  cases h with
  | closed reason hmessage => exact Or.inl rfl
  | welcomed version cluster clientName link' hmember hmessage hopening hwrite =>
      have hkept := Link.isNotified_of_write hwrite
      exact Or.inr hkept
  | unwelcomed version cluster clientName session hmember hmessage hopening hsession hwrite =>
      exact Or.inl rfl
  | refused error hmember hopening hmessage => exact Or.inl rfl
  | request member id cluster timeoutMs hmember hmessage => exact Or.inr rfl
  | answer member hmember hmessage => exact Or.inr rfl
  | misplaced member link' hmember hmessage hwrite => exact Or.inr (Link.isNotified_of_write hwrite)
  | unheard member hmember hmessage hwrite => exact Or.inl rfl

/-- A link whose turn it is has not ended. It ends, or keeps its notice. -/
theorem Turn.isNotified {options : RelayOptions} {router router' : Router} {link link' : Link}
    {step : Step} (h : Turn options router link step router' link')
    (htask : step.link? = some link.id) :
    link.phase ≠ .ended ∧ (link'.phase = .ended ∨ link'.isNotified = link.isNotified) := by
  have hlive : ∀ {phase : LinkPhase}, link.phase = phase → phase ≠ .ended → link.phase ≠ .ended :=
    fun hphase hne => hphase ▸ hne
  cases h with
  | received data now hphase => exact ⟨hlive hphase nofun, Or.inr rfl⟩
  | waited decoder now hphase hnext => exact ⟨hlive hphase nofun, Or.inr rfl⟩
  | skipped fault decoder now hphase hnext hfault => exact ⟨hlive hphase nofun, Or.inr rfl⟩
  | failed fault decoder now hphase hnext hfault => exact ⟨hlive hphase nofun, Or.inl rfl⟩
  | handled message decoder now hphase hnext hhandled =>
      exact ⟨hlive hphase nofun, hhandled.isNotified⟩
  | foundEnd broken hphase => exact ⟨hlive hphase nofun, Or.inl rfl⟩
  | forwarded member message now router' link' hphase hmember hdrain hwrite =>
      have hkept := Link.isNotified_of_write hwrite
      exact ⟨hlive hphase nofun, Or.inr hkept⟩
  | unwritten member message now router' hphase hmember hdrain hwrite =>
      exact ⟨hlive hphase nofun, Or.inl rfl⟩
  | idled now hphase => exact ⟨hlive hphase nofun, Or.inl rfl⟩
  | heeded hphase hnotified => exact ⟨hlive hphase nofun, Or.inl rfl⟩
  | blocked => cases htask

/-- The write in which a link takes leave of its client at the end of the relay. -/
def parting : Write := { message := shuttingDown, ending := some true }

/-- A link that goes on up to a write keeps its notice, unless the write is its leave. -/
theorem FirstHalf.isNotified {relay started : Relay} {link : Link} {step : Step} {write : Write}
    (h : FirstHalf relay link step started write) :
    ∃ link', started.links = Lookup.replace Link.id link' relay.links ∧ link'.id = link.id ∧
      link'.phase = link.phase ∧ (link'.isNotified = link.isNotified ∨ write = parting) := by
  cases h with
  | opening message decoder now hphase hnext hmember h =>
      unfold beginOpening? at h
      split at h
      · cases h
      · cases h
        exact ⟨_, rfl, rfl, rfl, Or.inl rfl⟩
      · cases h
        exact ⟨_, rfl, rfl, rfl, Or.inl rfl⟩
      · cases h
  | routing message decoder now member hphase hnext hmember h =>
      unfold beginRouting? at h
      split at h
      · cases h
      · cases h
      · cases h
      · cases h
      · cases h
        exact ⟨_, rfl, rfl, rfl, Or.inl rfl⟩
  | draining member message router now hphase hmember hdrain => exact ⟨_, rfl, rfl, rfl, Or.inl rfl⟩
  | idling now hidle => exact ⟨_, rfl, rfl, rfl, Or.inl rfl⟩
  | heeding hnotified => exact ⟨_, rfl, rfl, rfl, Or.inr rfl⟩

/-- A link whose write comes to its end has ended, or it goes on with its notice. -/
theorem finish_isNotified (relay : Relay) (link : Link) (write : Write) :
    ∃ link', (relay.finish link write).links = Lookup.replace Link.id link' relay.links ∧
      link'.id = link.id ∧ (link'.phase = .ended ∨
        (write.ending = none ∧ link'.phase = link.phase ∧ link'.isNotified = link.isNotified)) := by
  unfold finish
  split
  · rename_i hending
    rcases became_writeOrEnd relay link write.message with
        ⟨link', hwrite, hbecame⟩ | ⟨-, hbecame⟩
    · obtain ⟨-, -, rfl⟩ := Link.write_eq_some.1 hwrite
      exact ⟨_, hbecame.links, rfl, Or.inr ⟨hending, rfl, rfl⟩⟩
    · exact ⟨_, hbecame.links, rfl, Or.inl rfl⟩
  · rename_i withError hending
    have hbecame := became_endLink relay (link.tryWrite write.message) withError
    obtain ⟨written, -, hfollows⟩ := Link.Follows.of_tryWrite link write.message
    exact ⟨_, hbecame.links, hfollows.id, Or.inl rfl⟩

end Relay

namespace Interleaved

variable {state : Interleaved}

/-- A link that has ended, or finds the notice of the end when it waits, or has found it and takes
its leave. -/
inductive Heeds (state : Interleaved) (link : Link) : Prop
  | ended (h : link.phase = .ended)
  | notified (h : link.isNotified = true)
  | parting (h : state.writing link.id = some Relay.parting)

/-- A link when the end has been announced. -/
def told (link : Link) : Link :=
  if link.phase = .ended then link else { link with isNotified := true }

theorem id_told (link : Link) : (told link).id = link.id := by
  unfold told
  split <;> rfl

theorem heeds_told (link : Link) : state.Heeds (told link) := by
  unfold told
  split
  · exact .ended ‹_›
  · exact .notified rfl

/-- What a step does to the links and to their notices. -/
inductive Stirs (state after : Interleaved) (step : Step) : Prop
  /-- Links stay as they are. -/
  | still (hlinks : after.relay.links = state.relay.links)
      (hwriting : after.writing = state.writing)
  /-- The end is announced. -/
  | announced (hlinks : after.relay.links = state.relay.links.map told)
      (hwriting : after.writing = state.writing)
  /-- A link is accepted, or refused. -/
  | accepted (name : String) (remote : SocketAddress) (now : Instant)
      (hstep : step = .whole (.accept name remote now)) (link : Link)
      (hid : link.id = state.relay.nextLink)
      (hlinks : after.relay.links = state.relay.links ++ [link])
      (hwriting : after.writing = state.writing)
  /-- It is the turn of a link. -/
  | turn (link link' : Link) (hlink : state.relay.link? link.id = some link)
      (hid : link'.id = link.id)
      (hlinks : after.relay.links = Lookup.replace Link.id link' state.relay.links)
      (hwriting : ∀ id, id ≠ link.id → after.writing id = state.writing id)
      (hheeds : state.Heeds link → after.Heeds link')

theorem whole_stirs (state : Interleaved) (step : Relay.Step) :
    Stirs state (state.perform (.whole step)) (.whole step) := by
  rcases perform_whole state step with ⟨hsame, -⟩ | ⟨hafter, hfree⟩
  · rw [hsame]
    exact .still rfl rfl
  · rw [hafter]
    cases Relay.perform_effect state.relay step with
    | still hrouter hlinks hnext => exact .still hlinks rfl
    | announced hrouter hlinks hnext => exact .announced hlinks rfl
    | hungUp member hstep hrouter hlinks hnext => exact .still hlinks rfl
    | swept now hstep hrouter hlinks hnext => exact .still hlinks rfl
    | accepted name remote now hstep hrouter hlinks hnext =>
        have hstep' : Step.whole step = .whole (.accept name remote now) := congrArg _ hstep
        rcases hlinks with hlinks | hlinks
        · exact .accepted name remote now hstep' _ rfl hlinks rfl
        · have hfresh := Relay.fresh_refused state.relay name remote now
          exact .accepted name remote now hstep' _ hfresh.id hlinks rfl
    | turn link link' hlink hturn hlinks hnext =>
        refine .turn link link' hlink hturn.continues.id hlinks (fun _ _ => rfl) ?_
        rcases hturn.link? with htask | ⟨-, -, rfl⟩
        · obtain ⟨hlive, hkept⟩ := hturn.isNotified htask
          rintro (hended | hnotified | hparting)
          · exact absurd hended hlive
          · exact hkept.elim .ended fun hsame => .notified (hsame.trans hnotified)
          · -- A link that takes its leave does nothing else.
            rw [writing_of_isFree htask hfree] at hparting
            cases hparting
        · rintro (hended | hnotified | hparting)
          · exact .ended hended
          · exact .notified hnotified
          · exact .parting hparting

theorem begin_stirs (state : Interleaved) (step : Relay.Step) :
    Stirs state (state.perform (.begin step)) (.begin step) := by
  rcases perform_begin state step with
      ⟨hsame, -⟩ | ⟨link, started, write, htask, hlink, hhalf, hfree, -, hafter⟩
  · rw [hsame]
    exact .still rfl rfl
  · obtain ⟨link', hlinks, hid, hphase, hkept⟩ := hhalf.isNotified
    rw [hafter]
    refine .turn link link' hlink hid hlinks (fun _ hother => put_of_ne hother) ?_
    rintro (hended | hnotified | hparting)
    · exact .ended (hphase.trans hended)
    · rcases hkept with hsame | hwrite
      · exact .notified (hsame.trans hnotified)
      · refine .parting ?_
        rw [hid, hwrite]
        exact put_self
    · rw [writing_of_isFree htask hfree] at hparting
      cases hparting

theorem finish_stirs (state : Interleaved) (id : LinkId) :
    Stirs state (state.perform (.finish id)) (.finish id) := by
  rcases perform_finish state id with hsame | ⟨link, write, rfl, hlink, hwriting, hafter⟩
  · rw [hsame]
    exact .still rfl rfl
  · obtain ⟨link', hlinks, hid, hkept⟩ := Relay.finish_isNotified state.relay link write
    rw [hafter]
    refine .turn link link' hlink hid hlinks (fun _ hother => put_of_ne hother) ?_
    rcases hkept with hended | ⟨hending, hphase, hsame⟩
    · exact fun _ => .ended hended
    · rintro (hended | hnotified | hparting)
      · exact .ended (hphase.trans hended)
      · exact .notified (hsame.trans hnotified)
      · -- Behind its leave a link does not go on.
        rw [hwriting] at hparting
        cases hparting
        cases hending

theorem perform_stirs (state : Interleaved) (step : Step) :
    Stirs state (state.perform step) step := by
  cases step with
  | whole step => exact whole_stirs state step
  | begin step => exact begin_stirs state step
  | finish id => exact finish_stirs state id

/-! ## Those who are there hear of the end -/

/-- The link of a name is there, and heeds the end. -/
def Hears (state : Interleaved) (id : LinkId) : Prop :=
  ∃ link, state.relay.link? id = some link ∧ state.Heeds link

/-- Whoever heeds the end goes on to do so, whatever the others do. -/
theorem Hears.perform {id : LinkId} (h : state.Hears id) (step : Step) :
    (state.perform step).Hears id := by
  obtain ⟨link, hlink, hheeds⟩ := h
  have hstirs := perform_stirs state step
  generalize state.perform step = after at hstirs ⊢
  -- A link that is found as before, and whose write is the same, heeds the end as before.
  have hsame : after.relay.link? id = state.relay.link? id →
      after.writing link.id = state.writing link.id → after.Hears id := by
    intro hfound hwriting
    refine ⟨link, hfound.trans hlink, ?_⟩
    rcases hheeds with hended | hnotified | hparting
    · exact .ended hended
    · exact .notified hnotified
    · exact .parting (hwriting.trans hparting)
  cases hstirs with
  | still hlinks hwriting =>
      refine hsame ?_ (congrFun hwriting _)
      rw [Relay.link?, Relay.link?, hlinks]
  | announced hlinks hwriting =>
      refine ⟨told link, ?_, heeds_told link⟩
      rw [Relay.link?_of_map hlinks id_told, hlink, Option.map_some]
  | accepted name remote now hstep new hid hlinks hwriting =>
      refine hsame ?_ (congrFun hwriting _)
      unfold Relay.link? at hlink ⊢
      rw [hlinks, List.find?_append, hlink, Option.some_or]
  | turn old link' hold hid hlinks hwriting hgoes =>
      obtain rfl := Relay.id_of_link? hlink
      by_cases hother : link.id = old.id
      · -- It is the turn of this link.
        obtain rfl : old = link := Option.some.inj (hold.symm.trans (hother ▸ hlink))
        exact ⟨link', Relay.link?_of_links link' hold hid hlinks, hgoes hheeds⟩
      · refine hsame ?_ (hwriting _ hother)
        exact Relay.link?_of_links_ne (hid.symm ▸ hother) hlinks

/-- A link that was not there before has just been accepted. -/
theorem accepted_of_new {step : Step} {id : LinkId} (hbefore : state.relay.link? id = none)
    {link : Link} (hafter : (state.perform step).relay.link? id = some link) :
    id = state.relay.nextLink ∧ ∃ name remote now, step = .whole (.accept name remote now) := by
  have hstirs := perform_stirs state step
  generalize state.perform step = after at hstirs hafter
  cases hstirs with
  | still hlinks hwriting =>
      rw [Relay.link?, hlinks] at hafter
      cases hbefore.symm.trans hafter
  | announced hlinks hwriting =>
      rw [Relay.link?_of_map hlinks id_told, hbefore] at hafter
      cases hafter
  | accepted name remote now hstep new hid hlinks hwriting =>
      refine ⟨?_, name, remote, now, hstep⟩
      unfold Relay.link? at hbefore hafter
      rw [hlinks, List.find?_append, hbefore, Option.none_or] at hafter
      have hnew : link = new := List.mem_singleton.1 (List.mem_of_find?_eq_some hafter)
      have hname : link.id = id := Lookup.key_of_find? hafter
      rw [← hid, ← hnew, hname]
  | turn old link' hold hid hlinks hwriting hgoes =>
      have hother : id ≠ link'.id := by
        rintro rfl
        rw [hid, hold] at hbefore
        cases hbefore
      rw [Relay.link?_of_links_ne hother hlinks, hbefore] at hafter
      cases hafter

section Run

variable {options : RelayOptions} {steps : List Step} {a j : Nat}

/-- Whoever is there when the end is announced hears of it, and heeds it ever after. -/
theorem hears_of_announced (hannounced : steps[a]? = some (.whole .announceEnd)) {id : LinkId}
    {link : Link} (hthere : (stateAt options steps a).relay.link? id = some link) (hlt : a < j) :
    (stateAt options steps j).Hears id := by
  induction j, hlt using Nat.le_induction with
  | base =>
      rw [stateAt_succ hannounced]
      refine ⟨told link, ?_, heeds_told link⟩
      have hlinks : ((stateAt options steps a).perform (.whole .announceEnd)).relay.links =
          (stateAt options steps a).relay.links.map told := rfl
      rw [Relay.link?_of_map hlinks id_told, hthere, Option.map_some]
  | succ j hlt ih =>
      cases hstep : steps[j]? with
      | none =>
          rw [stateAt_succ_of_none hstep]
          exact ih
      | some step =>
          rw [stateAt_succ hstep]
          exact ih.perform step

/-- A link that was not there at one point of a run, and is at a later one, has been accepted in
between. -/
theorem accepted_between (hle : a ≤ j) {id : LinkId}
    (hbefore : (stateAt options steps a).relay.link? id = none) {link : Link}
    (hafter : (stateAt options steps j).relay.link? id = some link) :
    ∃ k name remote now, a ≤ k ∧ k < j ∧ steps[k]? = some (.whole (.accept name remote now)) ∧
      id = (stateAt options steps k).relay.nextLink := by
  induction j, hle using Nat.le_induction generalizing link with
  | base => cases hbefore.symm.trans hafter
  | succ j hle ih =>
      cases hstep : steps[j]? with
      | none =>
          rw [stateAt_succ_of_none hstep] at hafter
          obtain ⟨k, name, remote, now, hak, hkj, hfound⟩ := ih hafter
          exact ⟨k, name, remote, now, hak, Nat.lt_succ_of_lt hkj, hfound⟩
      | some step =>
          cases hthere : (stateAt options steps j).relay.link? id with
          | some old =>
              obtain ⟨k, name, remote, now, hak, hkj, hfound⟩ := ih hthere
              exact ⟨k, name, remote, now, hak, Nat.lt_succ_of_lt hkj, hfound⟩
          | none =>
              rw [stateAt_succ hstep] at hafter
              obtain ⟨hid, name, remote, now, rfl⟩ := accepted_of_new hthere hafter
              exact ⟨j, name, remote, now, hle, Nat.lt_succ_self j, hstep, hid⟩

/-- Behind the announcement of the end, a link heeds it, or has been accepted since. -/
theorem heeds_or_late (hannounced : steps[a]? = some (.whole .announceEnd)) (hlt : a < j)
    {link : Link} (hlink : (stateAt options steps j).relay.link? link.id = some link) :
    (stateAt options steps j).Heeds link ∨
      ∃ k name remote now, a < k ∧ k < j ∧ steps[k]? = some (.whole (.accept name remote now)) ∧
        link.id = (stateAt options steps k).relay.nextLink := by
  cases hthere : (stateAt options steps a).relay.link? link.id with
  | some old =>
      obtain ⟨found, hfound, hheeds⟩ := hears_of_announced hannounced hthere hlt
      cases hlink.symm.trans hfound
      exact Or.inl hheeds
  | none =>
      obtain ⟨k, name, remote, now, hak, hkj, hstep, hid⟩ :=
        accepted_between (Nat.le_of_lt hlt) hthere hlink
      have hne : a ≠ k := by
        rintro rfl
        cases hannounced.symm.trans hstep
      exact Or.inr ⟨k, name, remote, now, Nat.lt_of_le_of_ne hak hne, hkj, hstep, hid⟩

end Run

/-- A relay that accepts one more link between the announcement of its end and its own notice. -/
def lateRun : List Step :=
  [.whole .start, .whole (.accept "conn-1" (.v4 .loopback 0) 0), .whole .announceEnd,
    .whole (.accept "conn-2" (.v4 .loopback 0) 0), .whole .stop]

/-- The link that came first heeds the end. The other one has no notice, and waits for its
client. -/
theorem unheeding_of_lateRun :
    (stateAt {} lateRun 4).relay.isRunning = true ∧ (stateAt {} lateRun 5).relay.isRunning = false ∧
      (stateAt {} lateRun 5).Hears 0 ∧
      ∃ link, (stateAt {} lateRun 5).relay.link? 1 = some link ∧ link.phase = .waiting ∧
        ¬ (stateAt {} lateRun 5).Heeds link := by
  have hfirst : (stateAt {} lateRun 2).relay.link? 0 = some (.new 0 "conn-1" (.v4 .loopback 0) 0) :=
    rfl
  have hannounced : lateRun[2]? = some (.whole .announceEnd) := rfl
  refine ⟨rfl, rfl, hears_of_announced hannounced hfirst (by decide), _, rfl, rfl, ?_⟩
  rintro (hended | hnotified | hparting)
  · cases hended
  · cases hnotified
  · cases hparting

end Interleaved

end Switchboard
