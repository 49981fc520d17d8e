import Switchboard.Proofs.Relay.Halves

/-!
# The links that a relay counts

A relay counts the links that it accepts, those that it refuses, and those that have not ended. Each
link that comes in is counted among the accepted or among the refused (`Tally.accept`), and nothing
else changes these two counts. The links that have not ended are as many as the third count says,
and no more than the options allow (`Tally`).
-/

namespace Switchboard

/-- Whether a link has not ended. -/
def Link.isLive (link : Link) : Bool := link.phase ≠ .ended

namespace Relay

/-- A relay with the given options that has accepted and refused so many links, and has counted
those that have not ended. -/
structure Tally (options : RelayOptions) (accepted refused : Nat) (relay : Relay) : Prop where
  setup : relay.options = options
  accepted : relay.stats.connectionsTotal = accepted
  refused : relay.stats.connectionsRejected = refused
  active : relay.stats.connectionsActive = relay.links.countP Link.isLive
  limit : relay.stats.connectionsActive ≤ options.maxConnections

theorem tally_new (options : RelayOptions) : Tally options 0 0 (.new options) :=
  ⟨rfl, rfl, rfl, rfl, Nat.zero_le _⟩

namespace Tally

variable {options : RelayOptions} {accepted refused : Nat} {relay : Relay}

/-- A link is put in the place of one that has ended if it has ended itself. -/
theorem setLink (h : relay.Tally options accepted refused) (hids : (relay.links.map Link.id).Nodup)
    {old link : Link} (hold : relay.link? link.id = some old) (hlive : link.isLive = old.isLive) :
    (relay.setLink link).Tally options accepted refused where
  setup := h.setup
  accepted := h.accepted
  refused := h.refused
  active := by
    have hcount := Lookup.countP_replace hids (mem_of_link? hold) (id_of_link? hold) Link.isLive
    rw [links_setLink]
    rw [hlive] at hcount
    exact h.active.trans (Nat.add_right_cancel hcount).symm
  limit := h.limit

/-- A link ends once. -/
theorem endLink (h : relay.Tally options accepted refused) (hids : (relay.links.map Link.id).Nodup)
    {old link : Link} (hold : relay.link? link.id = some old) (hlive : old.isLive = true)
    (withError : Bool) : (relay.endLink link withError).Tally options accepted refused := by
  have hid : old.id = (ended link).id := id_of_link? hold
  have hcount := Lookup.countP_replace hids (mem_of_link? hold) hid Link.isLive
  have hended : (ended link).isLive = false := rfl
  rw [hlive, hended, if_pos rfl, if_neg Bool.false_ne_true, Nat.add_zero, ← h.active] at hcount
  have hactive : (relay.endLink link withError).stats.connectionsActive =
      relay.stats.connectionsActive - 1 := by
    unfold Relay.endLink
    cases withError <;> rfl
  constructor
  case setup =>
    unfold Relay.endLink
    cases withError <;> exact h.setup
  case accepted =>
    unfold Relay.endLink
    cases withError <;> exact h.accepted
  case refused =>
    unfold Relay.endLink
    cases withError <;> exact h.refused
  case active =>
    rw [hactive, links_endLink]
    omega
  case limit =>
    rw [hactive]
    exact (Nat.sub_le _ _).trans h.limit

/-- A link ends behind its last words. -/
theorem endLink_tryWrite (h : relay.Tally options accepted refused)
    (hids : (relay.links.map Link.id).Nodup) {old link : Link}
    (hold : relay.link? link.id = some old) (hlive : old.isLive = true) (message : Message)
    (withError : Bool) :
    (relay.endLink (link.tryWrite message) withError).Tally options accepted refused := by
  obtain ⟨written, -, hfollows⟩ := Link.Follows.of_tryWrite link message
  refine h.endLink hids ?_ hlive withError
  rw [hfollows.id]
  exact hold

theorem writeOrEnd (h : relay.Tally options accepted refused)
    (hids : (relay.links.map Link.id).Nodup)
    {old link : Link} (hold : relay.link? link.id = some old) (hlive : old.isLive = true)
    (hlink : link.isLive = true) (message : Message) :
    (relay.writeOrEnd link message).Tally options accepted refused := by
  unfold Relay.writeOrEnd
  cases hwrite : link.write message with
  | none => exact h.endLink hids hold hlive true
  | some written =>
      obtain ⟨-, -, rfl⟩ := Link.write_eq_some.1 hwrite
      exact h.setLink hids hold (hlink.trans hlive.symm)

/-- Other counts do not matter, and neither does the router. -/
theorem of_eq (h : relay.Tally options accepted refused) {after : Relay}
    (hoptions : after.options = relay.options) (hlinks : after.links = relay.links)
    (hstats : after.stats = { relay.stats with
      messagesReceived := after.stats.messagesReceived, errorsTotal := after.stats.errorsTotal }) :
    after.Tally options accepted refused := by
  constructor
  case setup => exact hoptions.trans h.setup
  case accepted =>
    rw [hstats]
    exact h.accepted
  case refused =>
    rw [hstats]
    exact h.refused
  case active =>
    rw [hstats, hlinks]
    exact h.active
  case limit =>
    rw [hstats]
    exact h.limit

/-! ## Messages -/

theorem openSession (h : relay.Tally options accepted refused)
    (hids : (relay.links.map Link.id).Nodup) {old link : Link}
    (hold : relay.link? link.id = some old) (hlive : old.isLive = true) (hlink : link.isLive = true)
    (message : Message) : (relay.openSession link message).Tally options accepted refused := by
  unfold Relay.openSession
  split
  · refine h.endLink hids ?_ hlive false
    exact hold
  · rename_i version cluster clientName hmessage hopening
    have hjoined : ({ relay with
        router := (relay.router.join cluster relay.options.outboundQueue).2 } : Relay).Tally
          options accepted refused := h.of_eq rfl rfl rfl
    refine hjoined.writeOrEnd hids ?_ hlive ?_ _
    · exact hold
    · exact hlink
  · rename_i error hopening hclose
    exact h.endLink_tryWrite hids hold hlive _ true
  · exact h

theorem routeMessage (h : relay.Tally options accepted refused)
    (hids : (relay.links.map Link.id).Nodup) {old link : Link}
    (hold : relay.link? link.id = some old) (hlive : old.isLive = true) (hlink : link.isLive = true)
    (member : MemberId) (message : Message) (now : Instant) :
    (relay.routeMessage link member message now).Tally options accepted refused := by
  have hsame : ∀ session, (relay.setLink { link with session }).Tally options accepted refused :=
    fun session => h.setLink hids hold (hlink.trans hlive.symm)
  unfold Relay.routeMessage
  split
  · exact (hsame _).of_eq rfl rfl rfl
  · exact (hsame _).of_eq rfl rfl rfl
  · exact (hsame _).of_eq rfl rfl rfl
  · refine h.endLink hids ?_ hlive false
    exact hold
  · exact h.writeOrEnd hids hold hlive hlink _

theorem handle (h : relay.Tally options accepted refused) (hids : (relay.links.map Link.id).Nodup)
    {old link : Link} (hold : relay.link? link.id = some old) (hlive : old.isLive = true)
    (hlink : link.isLive = true) (message : Message) (now : Instant) :
    (relay.handle link message now).Tally options accepted refused := by
  unfold Relay.handle
  split
  · exact h.openSession hids hold hlive hlink message
  · exact h.routeMessage hids hold hlive hlink _ message now

/-! ## Steps -/

theorem isLive_of_phase {link : Link} (h : link.phase = .waiting ∨ link.phase = .reading) :
    link.isLive = true := by
  rcases h with h | h <;> simp [Link.isLive, h]

theorem receive (h : relay.Tally options accepted refused) (hids : (relay.links.map Link.id).Nodup)
    (id : LinkId) (data : ByteArray) (now : Instant) :
    (relay.receive id data now).Tally options accepted refused := by
  unfold Relay.receive
  split
  · rename_i link hlink
    obtain rfl := id_of_link? hlink
    split
    · rename_i hphase
      refine h.setLink hids (?_ : relay.link? link.id = some link) ?_
      · exact hlink
      · exact (isLive_of_phase (Or.inl hphase)).symm
    · exact h
  · exact h

theorem readNext (h : relay.Tally options accepted refused) (hids : (relay.links.map Link.id).Nodup)
    (id : LinkId) (now : Instant) : (relay.readNext id now).Tally options accepted refused := by
  unfold Relay.readNext
  split
  · rename_i link hlink
    obtain rfl := id_of_link? hlink
    split
    · rename_i hphase
      have hlive := isLive_of_phase (Or.inr hphase)
      split
      · refine h.setLink hids (?_ : relay.link? link.id = some link) ?_
        · exact hlink
        · exact hlive.symm
      · simp only
        split
        · have hset : ∀ decoder,
              (relay.setLink { link with decoder }).Tally options accepted refused :=
            fun decoder => h.setLink hids hlink rfl
          exact (hset _).of_eq rfl rfl rfl
        · refine h.endLink hids ?_ hlive true
          exact hlink
      · have hcounted : relay.countMessage.Tally options accepted refused := h.of_eq rfl rfl rfl
        refine hcounted.handle hids ?_ hlive ?_ _ now
        · exact hlink
        · exact hlive
    · exact h
  · exact h

theorem receiveEnd (h : relay.Tally options accepted refused)
    (hids : (relay.links.map Link.id).Nodup) (id : LinkId) (broken : Bool) :
    (relay.receiveEnd id broken).Tally options accepted refused := by
  unfold Relay.receiveEnd
  split
  · rename_i link hlink
    obtain rfl := id_of_link? hlink
    split
    · rename_i hphase
      exact h.endLink hids hlink (isLive_of_phase (Or.inl hphase)) broken
    · exact h
  · exact h

theorem forward (h : relay.Tally options accepted refused) (hids : (relay.links.map Link.id).Nodup)
    (id : LinkId) (now : Instant) : (relay.forward id now).Tally options accepted refused := by
  unfold Relay.forward
  split
  · rename_i link hlink
    obtain rfl := id_of_link? hlink
    split
    · rename_i member hphase hmember
      have hlive := isLive_of_phase (Or.inl hphase)
      split
      · rename_i message router hdrain
        have hdrained : ({ relay with router } : Relay).Tally options accepted refused :=
          h.of_eq rfl rfl rfl
        refine hdrained.writeOrEnd hids ?_ hlive ?_ message
        · exact hlink
        · exact hlive
      · exact h
    · exact h
  · exact h

theorem endIdle (h : relay.Tally options accepted refused) (hids : (relay.links.map Link.id).Nodup)
    (id : LinkId) (now : Instant) : (relay.endIdle id now).Tally options accepted refused := by
  unfold Relay.endIdle
  split
  · rename_i link hlink
    obtain rfl := id_of_link? hlink
    split
    · rename_i hidle
      simp only [Bool.and_eq_true, decide_eq_true_eq] at hidle
      exact h.endLink_tryWrite hids hlink (isLive_of_phase (Or.inl hidle.1.1)) idleTimeout false
    · exact h
  · exact h

theorem heedEnd (h : relay.Tally options accepted refused) (hids : (relay.links.map Link.id).Nodup)
    (id : LinkId) : (relay.heedEnd id).Tally options accepted refused := by
  unfold Relay.heedEnd
  split
  · rename_i link hlink
    obtain rfl := id_of_link? hlink
    split
    · rename_i hnotified
      simp only [Bool.and_eq_true, decide_eq_true_eq] at hnotified
      rw [← tryWrite_unnotified]
      refine h.endLink_tryWrite hids ?_ (isLive_of_phase (Or.inl hnotified.1)) shuttingDown true
      exact hlink
    · exact h
  · exact h

theorem announceEnd (h : relay.Tally options accepted refused) :
    relay.announceEnd.Tally options accepted refused where
  setup := h.setup
  accepted := h.accepted
  refused := h.refused
  active := by
    have hsame : relay.announceEnd.links.countP Link.isLive = relay.links.countP Link.isLive := by
      show (relay.links.map _).countP Link.isLive = _
      rw [List.countP_map]
      apply List.countP_congr
      intro link _
      show Link.isLive (if _ then _ else _) = true ↔ _
      split <;> rfl
    rw [hsame]
    exact h.active
  limit := h.limit

/-- What is done to a relay or to its links does not change what it has counted, unless a link comes
in. -/
theorem perform (h : relay.Tally options accepted refused) (hids : (relay.links.map Link.id).Nodup)
    (step : Step) (hother : ∀ name remote now, step ≠ .accept name remote now) :
    (relay.perform step).Tally options accepted refused := by
  cases step with
  | start => exact h.of_eq rfl rfl rfl
  | announceEnd => exact h.announceEnd
  | stop =>
      show relay.stop.Tally options accepted refused
      unfold Relay.stop
      split
      · exact h.of_eq rfl rfl rfl
      · exact h
  | accept name remote now => exact absurd rfl (hother name remote now)
  | receive id data now => exact h.receive hids id data now
  | readNext id now => exact h.readNext hids id now
  | receiveEnd id broken => exact h.receiveEnd hids id broken
  | forward id now => exact h.forward hids id now
  | endIdle id now => exact h.endIdle hids id now
  | heedEnd id => exact h.heedEnd hids id
  | blockWrites id =>
      show (relay.blockWrites id).Tally options accepted refused
      unfold Relay.blockWrites
      split
      · rename_i link hlink
        obtain rfl := id_of_link? hlink
        refine h.setLink hids (?_ : relay.link? link.id = some link) ?_
        · exact hlink
        · rfl
      · exact h
  | hangUp member => exact h.of_eq rfl rfl rfl
  | sweep now =>
      show (relay.sweep now).Tally options accepted refused
      unfold Relay.sweep
      split
      · exact h.of_eq rfl rfl rfl
      · exact h

/-- A link that comes in is accepted, or it is refused. -/
theorem accept (h : relay.Tally options accepted refused) (name : String) (remote : SocketAddress)
    (now : Instant) :
    (relay.accept name remote now).2.Tally options (accepted + 1) refused ∨
      (relay.accept name remote now).2.Tally options accepted (refused + 1) := by
  have hactive := h.active
  unfold Relay.accept
  simp only
  split
  · right
    constructor
    case setup => exact h.setup
    case accepted => exact h.accepted
    case refused =>
      show relay.stats.connectionsRejected + 1 = _
      rw [h.refused]
    case active =>
      show relay.stats.connectionsActive = (relay.links ++ [_]).countP Link.isLive
      rw [List.countP_append, List.countP_singleton]
      exact hactive
    case limit => exact h.limit
  · rename_i hroom
    left
    constructor
    case setup => exact h.setup
    case accepted =>
      show relay.stats.connectionsTotal + 1 = _
      rw [h.accepted]
    case refused => exact h.refused
    case active =>
      show relay.stats.connectionsActive + 1 = (relay.links ++ [_]).countP Link.isLive
      rw [List.countP_append, List.countP_singleton, hactive]
      rfl
    case limit =>
      show relay.stats.connectionsActive + 1 ≤ _
      rw [h.setup] at hroom
      omega

/-! ## Halves of steps -/

theorem begin? (h : relay.Tally options accepted refused) (hids : (relay.links.map Link.id).Nodup)
    {started : Relay} {step : Step} {link : Link} {write : Write}
    (hhalf : FirstHalf relay link step started write) (hlink : relay.link? link.id = some link) :
    started.Tally options accepted refused := by
  have hcounted : relay.countMessage.Tally options accepted refused := h.of_eq rfl rfl rfl
  -- The first half of a step ends no link, so that every link counts as it did.
  cases hhalf with
  | opening message decoder now hphase hnext hmember hbegin =>
      unfold beginOpening? at hbegin
      split at hbegin
      · cases hbegin
      · rename_i version cluster clientName hmessage hopening
        cases hbegin
        have hjoined : ({ relay.countMessage with
            router := (relay.countMessage.router.join cluster
              relay.countMessage.options.outboundQueue).2 } : Relay).Tally
                options accepted refused := hcounted.of_eq rfl rfl rfl
        refine hjoined.setLink hids (?_ : relay.link? link.id = some link) ?_
        · exact hlink
        · rfl
      · cases hbegin
        refine hcounted.setLink hids (?_ : relay.link? link.id = some link) ?_
        · exact hlink
        · rfl
      · cases hbegin
  | routing message decoder now member hphase hnext hmember hbegin =>
      unfold beginRouting? at hbegin
      split at hbegin
      · cases hbegin
      · cases hbegin
      · cases hbegin
      · cases hbegin
      · cases hbegin
        refine hcounted.setLink hids (?_ : relay.link? link.id = some link) ?_
        · exact hlink
        · rfl
  | draining member message router now hphase hmember hdrain =>
      have hdrained : ({ relay with router } : Relay).Tally options accepted refused :=
        h.of_eq rfl rfl rfl
      refine hdrained.setLink hids (?_ : relay.link? link.id = some link) ?_
      · exact hlink
      · rfl
  | idling now hidle => exact h.setLink hids hlink rfl
  | heeding hnotified =>
      refine h.setLink hids (?_ : relay.link? link.id = some link) ?_
      · exact hlink
      · rfl

theorem finish (h : relay.Tally options accepted refused) (hids : (relay.links.map Link.id).Nodup)
    {link : Link} (hlink : relay.link? link.id = some link) (hlive : link.isLive = true)
    (write : Write) : (relay.finish link write).Tally options accepted refused := by
  unfold Relay.finish
  split
  · exact h.writeOrEnd hids hlink hlive hlive _
  · exact h.endLink_tryWrite hids hlink hlive _ _

end Tally

end Relay

end Switchboard
