import Mathlib.Data.List.Perm.Subperm
import Switchboard.Proofs.Relay.Exits
import Switchboard.Proofs.Relay.Standing
import Switchboard.Proofs.Relay.Tally
import Switchboard.Proofs.Router.Registry

/-!
# The registry mirrors the sessions

Along a run of an interleaved relay the members of the router are the sessions that have been opened
and have not ended (`Mirrored`), as long as the counter of members does not come round.
`registry_reflects` puts this together with what opens a session, with the steps that end one and
with the counts of links.
-/

namespace Switchboard

/-- Two links with the same session, which have both ended or both not. -/
structure Link.Alike (link link' : Link) : Prop where
  member : link'.session.member = link.session.member
  cluster : link'.session.cluster = link.session.cluster
  live : link'.phase ≠ .ended ↔ link.phase ≠ .ended

theorem Link.Alike.refl (link : Link) : link.Alike link := ⟨rfl, rfl, Iff.rfl⟩

theorem Link.Follows.alike {link link' : Link} {written : List Message}
    (h : link.Follows link' written) (hlive : link.phase ≠ .ended) (hlive' : link'.phase ≠ .ended) :
    link.Alike link' := ⟨h.member, h.cluster, ⟨fun _ => hlive, fun _ => hlive'⟩⟩

namespace Relay

/-! ## The router without a session -/

theorem mem_routerWithout {router : Router} {id? : Option MemberId} {member : Member} :
    member ∈ (routerWithout router id?).members ↔ member ∈ router.members ∧
      id? ≠ some member.id := by
  cases id? with
  | none => simp [routerWithout]
  | some id =>
      show member ∈ (router.leave id).2.members ↔ _
      rw [Router.mem_members_leave, ne_comm, ne_eq, ne_eq, Option.some.injEq]

theorem wired_routerWithout {router : Router} (h : router.Wired) (id? : Option MemberId) :
    (routerWithout router id?).Wired := by
  cases id? with
  | none => exact h
  | some id =>
      refine h.perform (.leave id) (fun hjoin => nomatch hjoin) ?_
      rintro route cluster ⟨_, _, _, hstep, -⟩
      cases hstep

/-- What is done aside from the tasks of links retains the members. -/
theorem Aside.retains {relay after : Relay} (h : Aside relay after) :
    Router.Retains relay.router after.router := by
  rcases h.router with hsame | ⟨member, hhung⟩ | ⟨now, hswept⟩
  · rw [hsame]
    exact .refl _
  · rw [hhung]
    exact Router.retains_of_not_isRequest (.hangUp member) rfl
      (fun _ => Router.Step.noConfusion) rfl
  · rw [hswept]
    exact Router.retains_of_not_isRequest (.sweep now) rfl (fun _ => Router.Step.noConfusion) rfl

end Relay

namespace Interleaved

open Relay (Turned Aside routerWithout)

/-- The registry agrees with itself, its members are the sessions that have been opened and have not
ended, and `joined` numbers of members have been drawn. -/
structure Mirrored (joined : Nat) (state : Interleaved) : Prop where
  wired : state.relay.router.Wired
  counted : Router.handedOut state.relay.router.nextMember = joined
  hosted : ∀ member ∈ state.relay.router.members,
    ∃ link ∈ state.relay.links, link.phase ≠ .ended ∧ link.session.member = some member.id
  owned : ∀ link ∈ state.relay.links, link.phase ≠ .ended → ∀ id cluster,
    link.session.member = some id → link.session.cluster = some cluster →
      (⟨id, cluster⟩ : Member) ∈ state.relay.router.members
  distinct : ∀ link ∈ state.relay.links, ∀ other ∈ state.relay.links, ∀ id,
    link.session.member = some id → other.session.member = some id → link = other
  drawn : ∀ link ∈ state.relay.links, ∀ id, link.session.member = some id → id.toNat ≤ joined

theorem mirrored_new (options : RelayOptions) : Mirrored 0 (.new options) where
  wired := Router.wired_new
  counted := Router.handedOut_one
  hosted := fun _ h => nomatch h
  owned := fun _ h => nomatch h
  distinct := fun _ h => nomatch h
  drawn := fun _ h => nomatch h

namespace Mirrored

variable {joined : Nat} {state after : Interleaved} (h : Mirrored joined state)

include h

/-- Links go on as they are, and nobody comes or goes. -/
theorem carry {g : Link → Link} (hlinks : after.relay.links = state.relay.links.map g)
    (hg : ∀ link ∈ state.relay.links, link.Alike (g link))
    (hretains : Router.Retains state.relay.router after.relay.router) : Mirrored joined after := by
  have hmem : ∀ link' ∈ after.relay.links, ∃ link ∈ state.relay.links, g link = link' := by
    intro link' hlink'
    rw [hlinks] at hlink'
    exact List.mem_map.1 hlink'
  constructor
  case wired => exact hretains.wired h.wired
  case counted =>
    rw [hretains.nextMember]
    exact h.counted
  case hosted =>
    intro member hmember
    rw [hretains.members] at hmember
    obtain ⟨link, hlink, hlive, hsession⟩ := h.hosted member hmember
    refine ⟨g link, ?_, (hg link hlink).live.2 hlive, (hg link hlink).member.trans hsession⟩
    rw [hlinks]
    exact List.mem_map_of_mem hlink
  case owned =>
    intro link' hlink' hlive id cluster hmember hcluster
    obtain ⟨link, hlink, rfl⟩ := hmem link' hlink'
    rw [hretains.members]
    exact h.owned link hlink ((hg link hlink).live.1 hlive) id cluster
      ((hg link hlink).member.symm.trans hmember) ((hg link hlink).cluster.symm.trans hcluster)
  case distinct =>
    intro link' hlink' other' hother' id hmember hsame
    obtain ⟨link, hlink, rfl⟩ := hmem link' hlink'
    obtain ⟨other, hother, rfl⟩ := hmem other' hother'
    rw [h.distinct link hlink other hother id ((hg link hlink).member.symm.trans hmember)
      ((hg other hother).member.symm.trans hsame)]
  case drawn =>
    intro link' hlink' id hmember
    obtain ⟨link, hlink, rfl⟩ := hmem link' hlink'
    exact h.drawn link hlink id ((hg link hlink).member.symm.trans hmember)

/-- A turn with which nobody comes or goes. -/
theorem turn {link link' : Link} (hids : (state.relay.links.map Link.id).Nodup)
    (hturned : Turned state.relay after.relay link link') (hid : link'.id = link.id)
    (halike : link.Alike link')
    (hretains : Router.Retains state.relay.router after.relay.router) : Mirrored joined after := by
  obtain ⟨g, hlinks, hg⟩ := hturned.exists_map hids hid Link.Alike.refl halike
  exact h.carry hlinks hg hretains

theorem accepted {link : Link} (hnone : link.session.member = none)
    (hlinks : after.relay.links = state.relay.links ++ [link])
    (hrouter : after.relay.router = state.relay.router) : Mirrored joined after := by
  -- A new link has no member, so what is said of members is said of old links.
  have hold : ∀ other ∈ after.relay.links, ∀ id, other.session.member = some id →
      other ∈ state.relay.links := by
    intro other hother id hmember
    rw [hlinks, List.mem_append, List.mem_singleton] at hother
    rcases hother with hold | rfl
    · exact hold
    · rw [hnone] at hmember
      cases hmember
  constructor
  case wired =>
    rw [hrouter]
    exact h.wired
  case counted =>
    rw [hrouter]
    exact h.counted
  case hosted =>
    intro member hmember
    rw [hrouter] at hmember
    obtain ⟨other, hother, hlive, hsession⟩ := h.hosted member hmember
    refine ⟨other, ?_, hlive, hsession⟩
    rw [hlinks]
    exact List.mem_append_left _ hother
  case owned =>
    intro other hother hlive id cluster hmember hcluster
    rw [hrouter]
    exact h.owned other (hold other hother id hmember) hlive id cluster hmember hcluster
  case distinct =>
    intro other hother another hanother id hmember hsame
    exact h.distinct other (hold other hother id hmember) another
      (hold another hanother id hsame) id
      hmember hsame
  case drawn =>
    intro other hother id hmember
    exact h.drawn other (hold other hother id hmember) id hmember

/-- A link ends, and its session leaves. -/
theorem ceased {link link' : Link} (hids : (state.relay.links.map Link.id).Nodup)
    (hturned : Turned state.relay after.relay link link') (hid : link'.id = link.id)
    (hmember : link'.session.member = link.session.member) (hended : link'.phase = .ended)
    (hrouter : after.relay.router = routerWithout state.relay.router link.session.member) :
    Mirrored joined after := by
  have hself := hturned.mem
  -- Links behind the step have the members that they had.
  have hback : ∀ other ∈ after.relay.links, ∃ old ∈ state.relay.links, old.id = other.id ∧
      other.session.member = old.session.member := by
    intro other hother
    rcases hturned.mem_links hother with rfl | ⟨hold, -⟩
    · exact ⟨link, hself, hid.symm, hmember⟩
    · exact ⟨other, hold, rfl, rfl⟩
  have hlive : ∀ other ∈ after.relay.links, other.phase ≠ .ended →
      other ∈ state.relay.links ∧ other ≠ link := by
    intro other hother hphase
    rcases hturned.mem_links hother with rfl | ⟨hold, hne⟩
    · exact absurd hended hphase
    · refine ⟨hold, ?_⟩
      rintro rfl
      exact hne hid.symm
  constructor
  case wired =>
    rw [hrouter]
    exact Relay.wired_routerWithout h.wired _
  case counted =>
    rw [hrouter, Relay.nextMember_routerWithout]
    exact h.counted
  case hosted =>
    intro member hmem
    rw [hrouter, Relay.mem_routerWithout] at hmem
    obtain ⟨other, hother, hphase, hsession⟩ := h.hosted member hmem.1
    refine ⟨other, hturned.mem_of_ne hother ?_, hphase, hsession⟩
    intro hsame
    rw [Lookup.eq_of_key hids hother hself (hsame.trans hid)] at hsession
    exact hmem.2 hsession
  case owned =>
    intro other hother hphase id cluster hsession hcluster
    obtain ⟨hold, hne⟩ := hlive other hother hphase
    rw [hrouter, Relay.mem_routerWithout]
    refine ⟨h.owned other hold hphase id cluster hsession hcluster, ?_⟩
    intro hsame
    exact hne (h.distinct other hold link hself id hsession hsame)
  case distinct =>
    intro other hother another hanother id hsession hsame
    obtain ⟨old, hold, holdId, holdMember⟩ := hback other hother
    obtain ⟨older, holder, holderId, holderMember⟩ := hback another hanother
    have heq := h.distinct old hold older holder id (holdMember.symm.trans hsession)
      (holderMember.symm.trans hsame)
    have hids' : (after.relay.links.map Link.id).Nodup := by
      rw [hturned.ids]
      exact hids
    refine Lookup.eq_of_key hids' hother hanother ?_
    rw [← holdId, ← holderId, heq]
  case drawn =>
    intro other hother id hsession
    obtain ⟨old, hold, -, holdMember⟩ := hback other hother
    exact h.drawn old hold id (holdMember.symm.trans hsession)

/-- A session joins under a number that nobody has. -/
theorem join {link link' : Link} {cluster : String} {capacity : Nat}
    (hids : (state.relay.links.map Link.id).Nodup)
    (hturned : Turned state.relay after.relay link link') (hid : link'.id = link.id)
    (hnone : link.session.member = none)
    (hmember : link'.session.member = some state.relay.router.nextMember)
    (hcluster : link'.session.cluster = some cluster) (hlive : link'.phase ≠ .ended)
    (hrouter : after.relay.router = (state.relay.router.join cluster capacity).2)
    (hsize : joined + 1 < UInt64.size) : Mirrored (joined + 1) after := by
  have hself := hturned.mem
  have hroom : Router.handedOut state.relay.router.nextMember + 1 < UInt64.size := by
    rw [h.counted]
    exact hsize
  have hnumber : state.relay.router.nextMember.toNat = joined + 1 := by
    rw [Router.toNat_of_handedOut hroom, h.counted]
  have hmembers : after.relay.router.members =
      state.relay.router.members ++ [⟨state.relay.router.nextMember, cluster⟩] := by
    rw [hrouter]
    rfl
  -- The number is new, so no link had a member of that number.
  have hnew : ∀ other ∈ state.relay.links,
      other.session.member ≠ some state.relay.router.nextMember := by
    intro other hother hsame
    have hdrawn := h.drawn other hother _ hsame
    omega
  constructor
  case wired =>
    rw [hrouter]
    refine h.wired.perform (.join cluster capacity) (fun _ => hroom) ?_
    rintro route cluster ⟨_, _, _, hstep, -⟩
    cases hstep
  case counted =>
    rw [hrouter]
    show Router.handedOut (state.relay.router.nextMember + 1) = _
    rw [Router.handedOut_succ hroom, h.counted]
  case hosted =>
    intro member hmem
    rw [hmembers, List.mem_append, List.mem_singleton] at hmem
    rcases hmem with hold | rfl
    · obtain ⟨other, hother, hphase, hsession⟩ := h.hosted member hold
      refine ⟨other, hturned.mem_of_ne hother ?_, hphase, hsession⟩
      intro hsame
      rw [Lookup.eq_of_key hids hother hself (hsame.trans hid), hnone] at hsession
      cases hsession
    · exact ⟨link', hturned.self_mem hid, hlive, hmember⟩
  case owned =>
    intro other hother hphase id cluster' hsession hin
    rw [hmembers, List.mem_append, List.mem_singleton]
    rcases hturned.mem_links hother with rfl | ⟨hold, -⟩
    · right
      rw [hmember, Option.some.injEq] at hsession
      rw [hcluster, Option.some.injEq] at hin
      rw [hsession, hin]
    · exact Or.inl (h.owned other hold hphase id cluster' hsession hin)
  case distinct =>
    intro other hother another hanother id hsession hsame
    rcases hturned.mem_links hother with rfl | ⟨hold, -⟩
    · rcases hturned.mem_links hanother with rfl | ⟨holder, -⟩
      · rfl
      · rw [hmember, Option.some.injEq] at hsession
        exact absurd (hsession ▸ hsame) (hnew another holder)
    · rcases hturned.mem_links hanother with rfl | ⟨holder, -⟩
      · rw [hmember, Option.some.injEq] at hsame
        exact absurd (hsame ▸ hsession) (hnew other hold)
      · exact h.distinct other hold another holder id hsession hsame
  case drawn =>
    intro other hother id hsession
    rcases hturned.mem_links hother with rfl | ⟨hold, -⟩
    · rw [hmember, Option.some.injEq] at hsession
      rw [← hsession, hnumber]
    · exact (h.drawn other hold id hsession).trans (Nat.le_succ joined)

/-- The task of a link goes on up to its first write. -/
theorem began {heard : LinkId → List Message} (hsessions : Sessions heard state) {link link' : Link}
    {message? : Option Message} {write? : Option Write}
    (hbegan : Began state after link link' message? write?)
    (hsize : after.relay.router.nextMember ≠ state.relay.router.nextMember →
      joined + 1 < UInt64.size) :
    Mirrored (joined + moves state.relay.router.nextMember after.relay.router.nextMember)
      after := by
  have hids := hsessions.ids
  have hturned := hbegan.turned
  have hbegins := hbegan.begins
  have hid := hbegins.id
  -- Unless a session joins, no number is drawn.
  have hstill : Mirrored joined after →
      after.relay.router.nextMember = state.relay.router.nextMember →
      Mirrored (joined + moves state.relay.router.nextMember after.relay.router.nextMember)
        after := by
    intro hafter hsame
    rw [moves_of_eq hsame]
    exact hafter
  have hretained : link.Alike link' → Router.Retains state.relay.router after.relay.router →
      Mirrored (joined + moves state.relay.router.nextMember after.relay.router.nextMember) after :=
    fun halike hretains =>
      hstill (h.turn hids hturned hid halike hretains) hretains.nextMember
  generalize hrouter : after.relay.router = router' at hbegins hstill hretained hsize
  cases hbegins with
  | kept hfollows hlive => exact hretained (hfollows.alike hbegan.live hlive) (.refl _)
  | ceased hfollows hended hclose =>
      apply hstill
      · exact h.ceased hids hturned hid hfollows.member hended hrouter
      · exact Relay.nextMember_routerWithout _ _
  | joined cluster clientName capacity hnone hmessage hcluster hid hname hsent hmember hcluster'
      hlive =>
      have hmoves : moves state.relay.router.nextMember
          (state.relay.router.join cluster capacity).2.nextMember = 1 := moves_succ _
      rw [hmoves]
      exact h.join hids hturned hid hnone hmember hcluster' hlive hrouter (hsize (succ_ne_self _))
  | refused error hnone hopening hfollows hlive =>
      exact hretained (hfollows.alike hbegan.live hlive) (.refl _)
  | @request message _ member id cluster timeout now hmember hmessage hfollows hlive =>
      apply hretained (hfollows.alike hbegan.live hlive)
      apply Router.retains_perform (.request member id cluster timeout message.payload now) rfl
      · exact fun _ => Router.Step.noConfusion
      · -- The origin of a request is the session that makes it.
        rintro route named ⟨_, _, _, hstep, -⟩
        obtain ⟨first, rest, joinedCluster, -, -, hcluster⟩ :=
          hsessions.opened link hturned.mem member hmember
        rw [← (Router.Step.request.inj hstep).1]
        exact ⟨_, h.owned link hturned.mem hbegan.live member joinedCluster hmember hcluster, rfl⟩
  | @answer message _ member hmember hmessage hfollows hlive =>
      apply hretained (hfollows.alike hbegan.live hlive)
      exact Router.retains_of_not_isRequest (.reply member message) rfl
        (fun _ => Router.Step.noConfusion) rfl
  | misplaced member text hmember hmessage hfollows hlive =>
      exact hretained (hfollows.alike hbegan.live hlive) (.refl _)
  | drained member message hmember hdrain hfollows hlive =>
      apply hretained (hfollows.alike hbegan.live hlive)
      have hdrained : router' = state.relay.router.perform (.drain member (some 1)) :=
        (congrArg Prod.snd hdrain).symm
      rw [hdrained]
      exact Router.retains_of_not_isRequest _ rfl (fun _ => Router.Step.noConfusion) rfl
  | parting farewell withError hfarewell hfollows hlive =>
      exact hretained (hfollows.alike hbegan.live hlive) (.refl _)

/-- A write comes to its end. -/
theorem finished {heard : LinkId → List Message} (hsessions : Sessions heard state)
    {link link' : Link}
    {write : Write} (hfinished : Finished state after link link' write) :
    Mirrored joined after := by
  have hids := hsessions.ids
  have hturned := hfinished.turned
  have hfinishes := hfinished.finishes
  have hid := hfinishes.id
  have hlive := hsessions.live_of_writing hturned.mem hfinished.busy
  generalize hrouter : after.relay.router = router' at hfinishes
  cases hfinishes with
  | written hending hfollows hphase =>
      refine h.turn hids hturned hid (hfollows.alike hlive (hphase ▸ hlive)) ?_
      rw [hrouter]
      exact .refl _
  | unwritten hending hfollows hended =>
      exact h.ceased hids hturned hid hfollows.member hended hrouter
  | last withError hending written hwritten hfollows hended =>
      exact h.ceased hids hturned hid hfollows.member hended hrouter

/-- The registry mirrors the sessions behind every step, as long as the number that it draws is
there. -/
theorem perform {heard : LinkId → List Message} (hsessions : Sessions heard state) (step : Step)
    (hsize : (state.perform step).relay.router.nextMember ≠ state.relay.router.nextMember →
      joined + 1 < UInt64.size) :
    Mirrored (joined + moves state.relay.router.nextMember
      (state.perform step).relay.router.nextMember) (state.perform step) := by
  -- A number is drawn in the first half of a step or not at all.
  cases perform_effect state step with
  | aside haside hwriting htaken htask =>
      obtain ⟨g, hlinks, hg⟩ := haside.links
      rw [moves_of_eq haside.retains.nextMember]
      refine h.carry hlinks ?_ haside.retains
      intro link hlink
      obtain ⟨hfollows, hphase⟩ := hg hsessions.ids link hlink
      exact ⟨hfollows.member, hfollows.cluster, by rw [hphase]⟩
  | accepted link hfresh hstep hrouter hlinks hnext hwriting htaken =>
      rw [hrouter, moves_of_eq rfl]
      exact h.accepted hfresh.member hlinks hrouter
  | began link link' write? hstep hbegan => exact h.began hsessions hbegan hsize
  | finished link link' write hstep htaken hfinished =>
      rw [moves_of_eq hfinished.finishes.nextMember]
      exact h.finished hsessions hfinished
  | through middle link link' link'' write hstep hbegan hfinished =>
      rw [hfinished.finishes.nextMember] at hsize ⊢
      exact (h.began hsessions hbegan hsize).finished (hsessions.began hbegan) hfinished

end Mirrored

/-! ## Along a run -/

section Run

variable (options : RelayOptions) (steps : List Step)

/-- How many numbers of members have been drawn in the first `i` steps of a run. -/
def joins : Nat → Nat
  | 0 => 0
  | i + 1 => joins i + moves (stateAt options steps i).relay.router.nextMember
      (stateAt options steps (i + 1)).relay.router.nextMember

theorem joins_le (i : Nat) : joins options steps i ≤ i := by
  induction i with
  | zero => exact Nat.le_refl 0
  | succ i ih =>
      unfold joins moves
      split <;> omega

theorem mirrored_stateAt {i : Nat} (hjoins : joins options steps i < UInt64.size) :
    Mirrored (joins options steps i) (stateAt options steps i) := by
  -- If the counter has not come round by the end, it had not before the last step.
  induction i with
  | zero => exact mirrored_new options
  | succ i ih =>
      have hmirrored := ih ((Nat.le_add_right _ _).trans_lt hjoins)
      unfold joins at hjoins ⊢
      cases hstep : steps[i]? with
      | none =>
          rw [stateAt_succ_of_none hstep, moves_of_eq rfl]
          exact hmirrored
      | some step =>
          rw [stateAt_succ hstep] at hjoins ⊢
          refine hmirrored.perform (sessions_stateAt options steps i) step ?_
          intro hmoved
          rwa [moves_of_ne hmoved] at hjoins

/-- A link comes in. -/
def Step.isIncoming : Step → Bool
  | whole (.accept ..) => true
  | _ => false

variable {options steps}

/-- A link that comes in is counted as accepted or as refused, and nothing else is. -/
theorem tally_perform {heard : LinkId → List Message} {state : Interleaved} {accepted refused : Nat}
    (h : state.relay.Tally options accepted refused) (hsessions : Sessions heard state)
    (step : Step) :
    ∃ a b, a + b = (if step.isIncoming then 1 else 0) ∧
      (state.perform step).relay.Tally options (accepted + a) (refused + b) := by
  have hids := hsessions.ids
  -- Links come in with whole steps only.
  cases step with
  | whole step =>
      by_cases hincoming : ∃ name remote now, step = .accept name remote now
      · obtain ⟨name, remote, now, rfl⟩ := hincoming
        rcases h.accept name remote now with hafter | hafter
        · exact ⟨1, 0, rfl, hafter⟩
        · exact ⟨0, 1, rfl, hafter⟩
      · have hother : ∀ name remote now, step ≠ .accept name remote now :=
          fun name remote now hstep => hincoming ⟨name, remote, now, hstep⟩
        refine ⟨0, 0, ?_, ?_⟩
        · cases step with
          | accept name remote now => exact absurd rfl (hother name remote now)
          | _ => rfl
        · simp only [perform]
          split
          · exact h.perform hids step hother
          · exact h
  | begin step =>
      refine ⟨0, 0, rfl, ?_⟩
      simp only [perform]
      split
      · rename_i id started write hid hbegin
        split
        · obtain ⟨link, hlink, hhalf⟩ := Relay.firstHalf_of_begin? hid hbegin
          obtain rfl := Relay.id_of_link? hlink
          exact h.begin? hids hhalf hlink
        · exact h
      · exact h
  | finish id =>
      refine ⟨0, 0, rfl, ?_⟩
      simp only [perform]
      split
      · rename_i write link hwriting hlink
        obtain rfl := Relay.id_of_link? hlink
        have hlive := hsessions.live_of_writing (Relay.mem_of_link? hlink) hwriting
        exact h.finish hids hlink (decide_eq_true hlive) write
      · exact h

/-- The counts of a run. -/
theorem exists_tally (options : RelayOptions) (steps : List Step) (i : Nat) :
    ∃ accepted refused, (stateAt options steps i).relay.Tally options accepted refused := by
  induction i with
  | zero => exact ⟨0, 0, Relay.tally_new options⟩
  | succ i ih =>
      cases hstep : steps[i]? with
      | none =>
          rw [stateAt_succ_of_none hstep]
          exact ih
      | some step =>
          obtain ⟨accepted, refused, h⟩ := ih
          obtain ⟨a, b, -, hafter⟩ := tally_perform h (sessions_stateAt options steps i) step
          rw [stateAt_succ hstep]
          exact ⟨_, _, hafter⟩

/-! ### Joining -/

/-- The task of link `id` takes the step behind the first `i` and draws the number of a member for
its session. -/
def JoinsAt (options : RelayOptions) (steps : List Step) (id : LinkId) (i : Nat) : Prop :=
  ∃ step, steps[i]? = some step ∧ step.link? = some id ∧
    (stateAt options steps (i + 1)).relay.router.nextMember ≠
      (stateAt options steps i).relay.router.nextMember

theorem heard_succ {i : Nat} {step : Step} (hstep : steps[i]? = some step) :
    heard options steps (i + 1) = hearIn (heard options steps i)
      (stateAt options steps i) step := by
  simp only [heard, hstep]

/-- What a link has heard stays heard. -/
theorem heard_ne_nil_of_le {id : LinkId} {i j : Nat} (hle : i ≤ j)
    (h : heard options steps i id ≠ []) :
    heard options steps j id ≠ [] := by
  induction j, hle using Nat.le_induction with
  | base => exact h
  | succ j _ ih =>
      cases hstep : steps[j]? with
      | none =>
          simp only [heard, hstep]
          exact ih
      | some step =>
          rw [heard_succ hstep]
          exact fun hnil => ih (List.prefix_nil.1 (hnil ▸ prefix_hearIn step id))

/-- A session that joins has heard nothing before, and something afterwards. -/
theorem JoinsAt.heard {id : LinkId} {i : Nat} (h : JoinsAt options steps id i) :
    heard options steps i id = [] ∧ Interleaved.heard options steps (i + 1) id ≠ [] := by
  obtain ⟨step, hstep, hid, hmoved⟩ := h
  rw [stateAt_succ hstep] at hmoved
  obtain ⟨hsilent, message, htaken⟩ := (sessions_stateAt options steps i).silent_of_join hid hmoved
  refine ⟨hsilent, ?_⟩
  rw [heard_succ hstep, hearIn_of_link? hid, htaken, hear, if_pos rfl]
  exact List.append_ne_nil_of_right_ne_nil _ (List.cons_ne_nil _ _)

/-- A session joins once. -/
theorem JoinsAt.unique {id : LinkId} {i j : Nat} (hi : JoinsAt options steps id i)
    (hj : JoinsAt options steps id j) : i = j := by
  -- The earlier of two joins would have been heard of before the later one.
  rcases Nat.lt_trichotomy i j with hlt | heq | hgt
  · exact absurd hj.heard.1 (heard_ne_nil_of_le hlt hi.heard.2)
  · exact heq
  · exact absurd hi.heard.1 (heard_ne_nil_of_le hgt hj.heard.2)

/-! ### What the registry says -/

/-- The first message that link `id` has taken in the first `i` steps of a run opens a session of
`cluster`. -/
def Opened (options : RelayOptions) (steps : List Step) (i : Nat) (id : LinkId) (cluster : String) :
    Prop :=
  ∃ first, (heard options steps i id).head? = some first ∧ first.Opens cluster

/-- What a run of a relay does to the registry and to the counts of links. -/
structure Conduct (options : RelayOptions) (steps : List Step) : Prop where
  /-- A session joins once at most, however many greetings follow the first. -/
  once : ∀ id i j, JoinsAt options steps id i → JoinsAt options steps id j → i = j
  /-- The task of a link changes the router only if its first message has opened a session. -/
  inert : ∀ i step id, steps[i]? = some step → step.link? = some id →
    (stateAt options steps (i + 1)).relay.router ≠ (stateAt options steps i).relay.router →
      ∃ cluster, Opened options steps (i + 1) id cluster
  /-- A link stays there. It has ended behind a step just if it had ended before, or its task has
  ended with the step. -/
  exits : ∀ i step, steps[i]? = some step → ∀ id link,
    (stateAt options steps i).relay.link? id = some link →
      ∃ link', (stateAt options steps (i + 1)).relay.link? id = some link' ∧
        (link'.phase = .ended ↔
          link.phase = .ended ∨ (stateAt options steps i).Exits link step)
  /-- A link that comes in is counted as accepted or else as refused, and nothing else is. -/
  counted : ∀ i step, steps[i]? = some step → ∃ accepted refused,
    accepted + refused = (if step.isIncoming then 1 else 0) ∧
      (stateAt options steps (i + 1)).relay.stats.connectionsTotal =
        (stateAt options steps i).relay.stats.connectionsTotal + accepted ∧
      (stateAt options steps (i + 1)).relay.stats.connectionsRejected =
        (stateAt options steps i).relay.stats.connectionsRejected + refused
  /-- The links that have not ended are counted. -/
  active : ∀ i, (stateAt options steps i).relay.stats.connectionsActive =
    (stateAt options steps i).relay.links.countP Link.isLive
  /-- They are not more than the options allow. -/
  limit : ∀ i, (stateAt options steps i).relay.stats.connectionsActive ≤ options.maxConnections

/-- What the registry says of the sessions behind the first `i` steps of a run. -/
structure Reflected (options : RelayOptions) (steps : List Step) (i : Nat) : Prop where
  /-- A session owns a member of a cluster just if the first message of its link has opened a
  session of that cluster and the link has not ended. -/
  owned : ∀ link ∈ (stateAt options steps i).relay.links, ∀ cluster,
    (∃ id, link.session.member = some id ∧
      (⟨id, cluster⟩ : Member) ∈ (stateAt options steps i).relay.router.members) ↔
        (link.phase ≠ .ended ∧ Opened options steps i link.id cluster)
  /-- A cluster lists the members that are registered with its name. -/
  listed : ∀ id cluster, (stateAt options steps i).relay.router.InCluster id cluster ↔
    (⟨id, cluster⟩ : Member) ∈ (stateAt options steps i).relay.router.members
  /-- Each member is that of one session, whose link has not ended. -/
  hosted : ∀ member ∈ (stateAt options steps i).relay.router.members,
    ∃ link ∈ (stateAt options steps i).relay.links, link.phase ≠ .ended ∧
      link.session.member = some member.id ∧
      ∀ other ∈ (stateAt options steps i).relay.links,
        other.session.member = some member.id → other = link
  /-- Of a session whose link has ended nothing is left: it is not registered, no cluster lists it,
  and no route begins or ends at it. -/
  gone : ∀ link ∈ (stateAt options steps i).relay.links, link.phase = .ended →
    ∀ id, link.session.member = some id →
      ¬ (stateAt options steps i).relay.router.Registered id ∧
      (∀ cluster, ¬ (stateAt options steps i).relay.router.InCluster id cluster) ∧
      ∀ route ∈ (stateAt options steps i).relay.router.routes, route.touches id = false
  /-- There are no more members than links that have not ended. -/
  fewer : (stateAt options steps i).relay.router.members.length ≤
    (stateAt options steps i).relay.stats.connectionsActive

theorem conduct (options : RelayOptions) (steps : List Step) : Conduct options steps := by
  constructor
  case once => exact fun id i j hi hj => hi.unique hj
  case inert =>
    intro i step id hstep hid hchanged
    -- Behind the step the link has a session, and its first message has opened it.
    rw [stateAt_succ hstep] at hchanged
    obtain ⟨link, hlink, hlinkId, hsession⟩ := Sessions.exists_session_of_router hid hchanged
    obtain ⟨member, hmember⟩ := Option.ne_none_iff_exists'.1 hsession
    rw [← stateAt_succ hstep] at hlink
    obtain ⟨first, rest, cluster, hheard, hopens, -⟩ :=
      (sessions_stateAt options steps (i + 1)).opened link hlink member hmember
    refine ⟨cluster, first, ?_, hopens⟩
    rw [← hlinkId, hheard, List.head?_cons]
  case exits =>
    intro i step hstep id link hlink
    obtain rfl := Relay.id_of_link? hlink
    rw [stateAt_succ hstep]
    exact ended_iff (sessions_stateAt options steps i) hlink step
  case counted =>
    intro i step hstep
    obtain ⟨accepted, refused, h⟩ := exists_tally options steps i
    obtain ⟨a, b, hsum, hafter⟩ := tally_perform h (sessions_stateAt options steps i) step
    rw [stateAt_succ hstep]
    refine ⟨a, b, hsum, ?_, ?_⟩
    · rw [h.accepted]
      exact hafter.accepted
    · rw [h.refused]
      exact hafter.refused
  case active =>
    intro i
    obtain ⟨accepted, refused, h⟩ := exists_tally options steps i
    exact h.active
  case limit =>
    intro i
    obtain ⟨accepted, refused, h⟩ := exists_tally options steps i
    exact h.limit

namespace Mirrored

variable {joined i : Nat} (h : Mirrored joined (stateAt options steps i))

include h

/-- A registered member is that of a link that has not ended. -/
theorem live {link : Link} {id : MemberId} (hlink : link ∈ (stateAt options steps i).relay.links)
    (hmember : link.session.member = some id)
    (hregistered : (stateAt options steps i).relay.router.Registered id) : link.phase ≠ .ended := by
  obtain ⟨member, hmem, rfl⟩ := hregistered
  obtain ⟨other, hother, hlive, hsession⟩ := h.hosted member hmem
  rw [h.distinct link hlink other hother member.id hmember hsession]
  exact hlive

theorem owned_iff {link : Link} (hlink : link ∈ (stateAt options steps i).relay.links)
    (cluster : String) :
    (∃ id, link.session.member = some id ∧
      (⟨id, cluster⟩ : Member) ∈ (stateAt options steps i).relay.router.members) ↔
        (link.phase ≠ .ended ∧ Opened options steps i link.id cluster) := by
  have hsessions := sessions_stateAt options steps i
  constructor
  · rintro ⟨id, hmember, hregistered⟩
    have hlive := h.live hlink hmember ⟨_, hregistered, rfl⟩
    obtain ⟨first, rest, joinedCluster, hheard, hopens, hcluster⟩ :=
      hsessions.opened link hlink id hmember
    have hsame := Lookup.eq_of_key h.wired.consistent.distinct hregistered
      (h.owned link hlink hlive id joinedCluster hmember hcluster) rfl
    obtain rfl : cluster = joinedCluster := congrArg Member.cluster hsame
    refine ⟨hlive, first, ?_, hopens⟩
    rw [hheard, List.head?_cons]
  · rintro ⟨hlive, first, hfirst, hopens⟩
    obtain ⟨rest, hheard⟩ := List.head?_eq_some_iff.1 hfirst
    cases hmember : link.session.member with
    | none =>
        have hfault := (hsessions.unopened link hlink hmember first rest hheard).1
        exact absurd hopens.openingFault? hfault
    | some id =>
        obtain ⟨first', rest', joinedCluster, hheard', hopens', hcluster⟩ :=
          hsessions.opened link hlink id hmember
        obtain ⟨rfl, -⟩ := List.cons.inj (hheard.symm.trans hheard')
        obtain rfl := hopens.unique hopens'
        exact ⟨id, rfl, h.owned link hlink hlive id cluster hmember hcluster⟩

theorem gone {link : Link} {id : MemberId} (hlink : link ∈ (stateAt options steps i).relay.links)
    (hended : link.phase = .ended) (hmember : link.session.member = some id) :
    ¬ (stateAt options steps i).relay.router.Registered id ∧
      (∀ cluster, ¬ (stateAt options steps i).relay.router.InCluster id cluster) ∧
      ∀ route ∈ (stateAt options steps i).relay.router.routes, route.touches id = false := by
  have hnot : ¬ (stateAt options steps i).relay.router.Registered id :=
    fun hregistered => h.live hlink hmember hregistered hended
  refine ⟨hnot, ?_, ?_⟩
  · intro cluster hin
    exact hnot ⟨_, (h.wired.consistent.listed id cluster).1 hin, rfl⟩
  · intro route hroute
    -- Both ends of a route are registered.
    obtain ⟨cluster, horigin, htarget⟩ := h.wired.moored route hroute
    apply Bool.eq_false_of_not_eq_true
    intro htouches
    simp only [Route.touches, Bool.or_eq_true, beq_iff_eq] at htouches
    rcases htouches with rfl | rfl
    · exact hnot horigin
    · exact hnot ⟨_, htarget, rfl⟩

theorem length_members_le :
    (stateAt options steps i).relay.router.members.length ≤
      (stateAt options steps i).relay.stats.connectionsActive := by
  rw [(conduct options steps).active i, List.countP_eq_length_filter]
  -- Members have numbers of their own, and each is the number of a session whose link has not
  -- ended.
  have hsubset : (stateAt options steps i).relay.router.members.map Member.id ⊆
      ((stateAt options steps i).relay.links.filter Link.isLive).filterMap
        fun link => link.session.member := by
    intro id hid
    obtain ⟨member, hmember, rfl⟩ := List.mem_map.1 hid
    obtain ⟨link, hlink, hlive, hsession⟩ := h.hosted member hmember
    exact List.mem_filterMap.2 ⟨link, List.mem_filter.2 ⟨hlink, decide_eq_true hlive⟩, hsession⟩
  have hlength := (List.subperm_of_subset h.wired.consistent.distinct hsubset).length_le
  rw [List.length_map] at hlength
  exact hlength.trans (List.length_filterMap_le _ _)

theorem reflected : Reflected options steps i where
  owned := fun _ hlink cluster => h.owned_iff hlink cluster
  listed := h.wired.consistent.listed
  hosted := by
    intro member hmember
    obtain ⟨link, hlink, hlive, hsession⟩ := h.hosted member hmember
    exact ⟨link, hlink, hlive, hsession, fun other hother hsame =>
      h.distinct other hother link hlink member.id hsame hsession⟩
  gone := fun _ hlink hended _ hmember => h.gone hlink hended hmember
  fewer := h.length_members_le

end Mirrored

/-- In every run the registry reflects the sessions, until the counter of members has come round. -/
theorem registry_reflects (options : RelayOptions) (steps : List Step) :
    Conduct options steps ∧
      ∀ i, joins options steps i < UInt64.size → Reflected options steps i :=
  ⟨conduct options steps, fun _ hjoins => (mirrored_stateAt options steps hjoins).reflected⟩

end Run

/-! ### A session that has not been welcomed -/

/-- The greeting of a client of the cluster `clients`. -/
def greeting : Message := .hello "clients" none

/-- A run in which a session joins its cluster and is about to be welcomed. By then its client takes
nothing any more. -/
def greetedRun : List Step :=
  [.whole .start, .whole (.accept "conn-1" (.v4 .loopback 0) 0),
    .whole (.receive 0 greeting.bytes 0), .begin (.readNext 0 0), .whole (.blockWrites 0),
    .finish 0]

/-- The link of this run, once the greeting has arrived. -/
def greetedLink : Link :=
  { Link.new 0 "conn-1" (.v4 .loopback 0) 0 with
    phase := .reading
    decoder := Decoder.new.extend greeting.bytes }

theorem link?_greetedRun :
    (stateAt {} greetedRun 3).relay.link? greetedLink.id = some greetedLink := rfl

theorem nextMessage_greetedLink :
    greetedLink.decoder.nextMessage = (.item greeting, ⟨ByteArray.empty⟩) := by
  have hgreeting : greeting.Fits := by decide
  have hbytes := Message.decode_bytes hgreeting ByteArray.empty
  rw [ByteArray.append_empty] at hbytes
  have hbuffer : greetedLink.decoder.buffer = greeting.bytes := ByteArray.empty_append
  unfold Decoder.nextMessage
  rw [hbuffer, hbytes]
  rfl

/-- The link of this run, once its session has joined. -/
def joinedLink : Link :=
  { greetedLink with
    session := greetedLink.session.completeHandshake "clients" none 1
    decoder := ⟨ByteArray.empty⟩ }

/-- The write that it is at then. -/
def welcoming : Write := { message := .welcome "conn-1" }

/-- The session joins before it is welcomed. -/
theorem begin?_greetedRun : ∃ started,
    (stateAt {} greetedRun 3).relay.begin? (.readNext greetedLink.id 0) =
        some (started, welcoming) ∧
      started.router.members = [⟨1, "clients"⟩] ∧ started.link? 0 = some joinedLink := by
  have hphase : greetedLink.phase = .reading := rfl
  simp only [Relay.begin?, link?_greetedRun, hphase, nextMessage_greetedLink]
  exact ⟨_, rfl, rfl, rfl⟩

theorem opened_greetedRun : Opened {} greetedRun 4 0 "clients" := by
  obtain ⟨started, hbegin, -⟩ := begin?_greetedRun
  have hstep : greetedRun[3]? = some (.begin (.readNext greetedLink.id 0)) := rfl
  have hfree : (stateAt {} greetedRun 3).isFree (.readNext greetedLink.id 0) = true := rfl
  have htaken : (stateAt {} greetedRun 3).taken? (.begin (.readNext greetedLink.id 0)) =
      some greeting := by
    simp only [taken?, hbegin, hfree]
    exact Relay.taken?_of_item link?_greetedRun rfl nextMessage_greetedLink 0
  refine ⟨greeting, ?_, by decide, none, rfl⟩
  rw [heard_succ hstep, hearIn_of_link? rfl, htaken]
  rfl

/-- The session has joined and is about to be welcomed. -/
theorem joined_greetedRun :
    (stateAt {} greetedRun 4).relay.router.members = [⟨1, "clients"⟩] ∧
      (stateAt {} greetedRun 4).relay.link? 0 = some joinedLink ∧
      (stateAt {} greetedRun 4).writing 0 = some welcoming := by
  obtain ⟨started, hbegin, hmembers, hjoined⟩ := begin?_greetedRun
  have hstep : greetedRun[3]? = some (.begin (.readNext greetedLink.id 0)) := rfl
  have hlink : Relay.Step.link? (.readNext greetedLink.id 0) = some greetedLink.id := rfl
  have hfree : (stateAt {} greetedRun 3).isFree (.readNext greetedLink.id 0) = true := rfl
  rw [stateAt_succ hstep]
  simp only [perform, hlink, hbegin, hfree, if_true]
  exact ⟨hmembers, hjoined, put_self⟩

/-- The link of this run, once its client takes nothing any more. -/
def blockedLink : Link := { joinedLink with isWritable := false }

theorem write_blockedLink (message : Message) : blockedLink.write message = none := by
  cases hwrite : blockedLink.write message with
  | none => rfl
  | some link' =>
      obtain ⟨-, hwritable, -⟩ := Link.write_eq_some.1 hwrite
      cases hwritable

theorem blocked_greetedRun :
    (stateAt {} greetedRun 5).relay.router.members = [⟨1, "clients"⟩] ∧
      (stateAt {} greetedRun 5).relay.link? 0 = some blockedLink ∧
      (stateAt {} greetedRun 5).writing 0 = some welcoming := by
  obtain ⟨hmembers, hlink, hwriting⟩ := joined_greetedRun
  have hstep : greetedRun[4]? = some (.whole (.blockWrites 0)) := rfl
  have hfree : (stateAt {} greetedRun 4).isFree (.blockWrites 0) = true := rfl
  rw [stateAt_succ hstep]
  simp only [perform, hfree, if_true, Relay.perform, Relay.blockWrites, hlink]
  have hself : (stateAt {} greetedRun 4).relay.link? joinedLink.id = some joinedLink := hlink
  exact ⟨hmembers, Relay.link?_of_links blockedLink hself rfl rfl, hwriting⟩

/-- The session leaves where its welcome cannot be written. -/
theorem left_greetedRun : (stateAt {} greetedRun 6).relay.router.members = [] := by
  obtain ⟨hmembers, hlink, hwriting⟩ := blocked_greetedRun
  have hstep : greetedRun[5]? = some (.finish 0) := rfl
  have hbecame := Relay.became_endLink (stateAt {} greetedRun 5).relay blockedLink true
  have hfinish : ((stateAt {} greetedRun 5).perform (.finish 0)).relay =
      (stateAt {} greetedRun 5).relay.endLink blockedLink true := by
    simp only [perform, hwriting, hlink, Relay.finish, welcoming, Relay.writeOrEnd,
      write_blockedLink]
  rw [stateAt_succ hstep, hfinish, hbecame.router]
  apply List.eq_nil_iff_forall_not_mem.2
  intro member hmember
  rw [Relay.mem_routerWithout, hmembers, List.mem_singleton] at hmember
  exact hmember.2 (by rw [hmember.1]; rfl)

theorem registry_reflects_of_greetedRun :
    joins {} greetedRun 6 < UInt64.size ∧
      (Opened {} greetedRun 4 0 "clients" ∧
        (stateAt {} greetedRun 4).relay.router.members = [⟨1, "clients"⟩] ∧
        Reflected {} greetedRun 4) ∧
      ((stateAt {} greetedRun 6).relay.HasEnded 0 ∧
        (stateAt {} greetedRun 6).relay.router.members = [] ∧ Reflected {} greetedRun 6) := by
  have hjoins : ∀ i ≤ 6, joins {} greetedRun i < UInt64.size :=
    fun i hi => ((joins_le {} greetedRun i).trans hi).trans_lt (by decide)
  obtain ⟨hconduct, hreflected⟩ := registry_reflects {} greetedRun
  obtain ⟨-, hlink, hwriting⟩ := blocked_greetedRun
  refine ⟨hjoins 6 le_rfl,
    ⟨opened_greetedRun, joined_greetedRun.1, hreflected 4 (hjoins 4 (by decide))⟩,
    ?_, left_greetedRun, hreflected 6 (hjoins 6 le_rfl)⟩
  obtain ⟨link', hlink', hended⟩ := hconduct.exits 5 (.finish 0) rfl 0 blockedLink hlink
  exact ⟨link', hlink', hended.2 (Or.inr (.unwritten welcoming hwriting (write_blockedLink _)))⟩

end Interleaved

end Switchboard
