import Switchboard.Proofs.Network.Journey

/-!
# A client sees a stream

What the session of a client comes to is whether it was accepted, the requests that its handler was
given, the outcomes that its calls received, and how it has ended, if it has (`account`). It depends
on the bytes that the relay has sent, and on the calls that were begun and where in the stream they
were, and on nothing else: neither on the portions in which the bytes arrived nor on what handlers,
the writer and callers did beside them (`account_eq`). Frames that are of no use may be strewn
between the others (`account_strewn`), and a stream that begins with an acceptance is accepted,
whatever stands behind it (`verdict_of_opening`). What happens beside the stream has to leave calls
alone that have no outcome, and to tell calls in progress apart, which it does until the numbers run
out (`along_permits`). `account_of_stream` puts this together.
-/

namespace Switchboard

open Connection (Step Yield)

/-- What the session of a client has come to. -/
structure Account where
  /-- The name that the relay has given to the connection, or why there is none, once that is
  known. -/
  verdict : Option (Except ClientError String)
  /-- Requests for the handler, outcomes of calls, and how calls have begun. -/
  yield : Yield
  /-- How the connection stands, and for what reasons it was lost. -/
  life : Option Connection.Life

/-- Phases that agree in all that comes from the stream and from calls that begin. -/
inductive PeerPhase.Alike : PeerPhase → PeerPhase → Prop
  | opening (attempt : Opening) : Alike (.opening attempt) (.opening attempt)
  | joined {a b : Connection} (h : a.Alike b) (ha : a.Going) (hb : b.Going) :
      Alike (.joined a) (.joined b)
  | failed (error : ClientError) : Alike (.failed error) (.failed error)

namespace Journey

/-- Whether the session was accepted. -/
def verdict (journey : Journey) : Option (Except ClientError String) :=
  match journey.phase with
  | .opening _ => none
  | .joined conn => some (.ok conn.connectionId)
  | .failed error => some (.error error)

/-- What the session has come to. -/
def account (journey : Journey) : Account where
  verdict := journey.verdict
  yield := journey.yield
  life :=
    match journey.phase with
    | .joined conn => some conn.life
    | _ => none

/-! ## What happens beside the stream -/

/-- What holds of the connection, as soon as there is one, and of each step of a run. -/
def Along (p : Connection → Step → Prop) (journey : Journey) : List Step → Prop
  | [] => True
  | step :: run =>
      (∀ conn, journey.phase = .joined conn → p conn step) ∧ Along p (journey.perform step) run

/-- Clients that agree in all that comes from the stream and from calls that begin. -/
structure Alike (a b : Journey) : Prop where
  options : a.options = b.options
  cluster : a.cluster = b.cluster
  phase : a.phase.Alike b.phase
  yield : a.yield = b.yield

theorem alike_start (options : ConnectionOptions) (cluster : String) (hello : ByteArray) :
    (start options cluster hello).Alike (start options cluster hello) :=
  ⟨rfl, rfl, .opening _, rfl⟩

theorem Alike.account {a b : Journey} (h : a.Alike b) : a.account = b.account := by
  have hphase := h.phase
  simp only [Journey.account, verdict, h.yield]
  generalize a.phase = phase at hphase ⊢
  generalize b.phase = other at hphase ⊢
  cases hphase with
  | opening attempt => rfl
  | failed error => rfl
  | joined halike hgoing hgoing' => simp only [halike.connectionId, halike.life]

/-- What happens beside the stream makes no difference. -/
theorem Alike.aside {a b : Journey} (h : a.Alike b) {step : Step}
    (hpermits : ∀ conn, a.phase = .joined conn → conn.Permits step) (haside : step.counts = false) :
    (a.perform step).Alike b := by
  have hphase := h.phase
  obtain ⟨hread, hevent⟩ := Step.counts_eq_false haside
  cases ha : a.phase with
  | opening attempt =>
      rcases perform_of_opening ha hread with hsame | ⟨hends, -⟩
      · rw [hsame]
        exact h
      · cases hends.symm.trans hevent
  | failed error =>
      rw [perform_of_failed ha]
      exact h
  | joined conn =>
      rw [ha] at hphase
      rw [perform_of_joined ha]
      generalize hother : b.phase = phase at hphase
      cases hphase with
      | joined halike hgoing hgoing' =>
          obtain ⟨hsame, hnothing⟩ := Connection.alike_of_aside hgoing (hpermits conn ha) haside
          refine ⟨h.options, h.cluster, ?_, ?_⟩
          · rw [hother]
            exact .joined (hsame.trans halike) (hgoing.perform (hpermits conn ha).undisturbed)
              hgoing'
          · show a.yield ++ conn.yield step = b.yield
            rw [hnothing, Yield.append_nothing, h.yield]

/-- A connection that has just been accepted is alike to itself, and goes on. -/
theorem Alike.accepted {a b : Journey} (hoptions : a.options = b.options)
    (hcluster : a.cluster = b.cluster) (hyield : a.yield = b.yield) (progress : Opening.Progress) :
    (a.answer progress).Alike (b.answer progress) := by
  cases progress with
  | pending attempt => exact ⟨hoptions, hcluster, .opening attempt, hyield⟩
  | failed error => exact ⟨hoptions, hcluster, .failed error, hyield⟩
  | accepted connectionId decoder =>
      have hnew := Connection.going_new b.options b.cluster connectionId decoder
      have hcalm : (Connection.new b.options b.cluster connectionId decoder).Undisturbed
          (.receive ByteArray.empty) := trivial
      have hgoing := hnew.perform hcalm
      refine ⟨hoptions, hcluster, ?_, ?_⟩
      · simp only [answer, take, hoptions, hcluster]
        exact .joined (.refl _) hgoing hgoing
      · simp only [answer, take, hoptions, hcluster, hyield]

/-- The stream, and calls that begin, do the same to clients that are alike. -/
theorem Alike.perform {a b : Journey} (h : a.Alike b) {step : Step}
    (hcounts : step.counts = true) : (a.perform step).Alike (b.perform step) := by
  have hphase := h.phase
  cases ha : a.phase with
  | failed error =>
      rw [ha] at hphase
      generalize hother : b.phase = phase at hphase
      cases hphase
      rw [perform_of_failed ha, perform_of_failed hother]
      exact h
  | joined conn =>
      rw [ha] at hphase
      generalize hother : b.phase = phase at hphase
      cases hphase with
      | joined halike hgoing hgoing' =>
          rename_i conn'
          obtain ⟨hsame, hyield⟩ := halike.perform hgoing.matched hgoing'.matched hcounts
          rw [perform_of_joined ha, perform_of_joined hother]
          refine ⟨h.options, h.cluster, ?_, ?_⟩
          · exact .joined hsame (hgoing.perform (conn.undisturbed_of_counts hcounts))
              (hgoing'.perform (conn'.undisturbed_of_counts hcounts))
          · show a.yield ++ conn.yield step = b.yield ++ conn'.yield step
            rw [h.yield, hyield]
  | opening attempt =>
      rw [ha] at hphase
      generalize hother : b.phase = phase at hphase
      cases hphase
      cases step with
      | receive data =>
          rw [receive_of_opening ha, receive_of_opening hother]
          exact .accepted h.options h.cluster h.yield _
      | receiveEnd =>
          simp only [Journey.perform, ha, hother]
          exact ⟨h.options, h.cluster, .failed _, h.yield⟩
      | request cluster payload timeout now =>
          simp only [Journey.perform, ha, hother]
          exact h
      -- What the writer, callers and handlers do has no place in the stream.
      | write room => cases hcounts
      | poll key now => cases hcounts
      | act act =>
          cases act with
          | receiveFault fault =>
              simp only [Journey.perform, ha, hother]
              exact ⟨h.options, h.cluster, .failed _, h.yield⟩
          | _ => cases hcounts

/-- A run comes to the same as the run without what happens beside the stream. -/
theorem Alike.run {a b : Journey} (h : a.Alike b) {steps : List Step}
    (halong : a.Along Connection.Permits steps) :
    (a.run steps).Alike (b.run (steps.filter Step.counts)) := by
  induction steps generalizing a b with
  | nil => exact h
  | cons step steps ih =>
      obtain ⟨hpermits, hrest⟩ := halong
      cases hcounts : step.counts with
      | true =>
          rw [List.filter_cons_of_pos hcounts]
          exact ih (h.perform hcounts) hrest
      | false =>
          rw [List.filter_cons_of_neg (Bool.eq_false_iff.1 hcounts)]
          exact ih (h.aside hpermits hcounts) hrest

/-- The calls that begin in a run, and the end of the stream, each with its place in the stream. -/
def events (run : List Step) : List (Nat × Step) :=
  (placed 0 run).filter fun place => place.2.isEvent

theorem streamed_filter (run : List Step) :
    streamed (run.filter Step.counts) = streamed run := by
  induction run with
  | nil => rfl
  | cons step run ih =>
      cases hcounts : step.counts with
      | true => rw [List.filter_cons_of_pos hcounts, streamed, streamed, ih]
      | false =>
          have hread := (Step.counts_eq_false hcounts).1
          rw [List.filter_cons_of_neg (Bool.eq_false_iff.1 hcounts), ih, streamed,
            Step.data_of_not_isRead hread, ByteArray.empty_append]

theorem placed_filter (offset : Nat) (run : List Step) :
    placed offset (run.filter Step.counts) =
      (placed offset run).filter fun place => place.2.isEvent := by
  induction run generalizing offset with
  | nil => rfl
  | cons step run ih =>
      cases hread : step.isRead with
      | true =>
          have hcounts : step.counts = true := by simp only [Step.counts, hread, Bool.true_or]
          rw [List.filter_cons_of_pos hcounts, placed, placed, if_pos hread, if_pos hread, ih]
      | false =>
          have hcounts : step.counts = step.isEvent := by
            simp only [Step.counts, hread, Bool.false_or]
          cases hevent : step.isEvent with
          | true =>
              rw [List.filter_cons_of_pos (hcounts.trans hevent)]
              simp [placed, hread, hevent, ih]
          | false =>
              rw [List.filter_cons_of_neg (Bool.eq_false_iff.1 (hcounts.trans hevent))]
              simp [placed, hread, hevent, ih]

/-- Runs with the same stream, and the same calls at the same places, do the same once what happens
beside the stream is left out. -/
theorem run_filter_eq {journey : Journey} (hreads : journey.Reads ByteArray.empty)
    {run other : List Step} (hstream : streamed run = streamed other)
    (hevents : events run = events other) :
    journey.run (run.filter Step.counts) = journey.run (other.filter Step.counts) := by
  have hplaced : placed 0 (run.filter Step.counts) = placed 0 (other.filter Step.counts) := by
    rw [placed_filter, placed_filter]
    exact hevents
  rw [run_eq_script hreads, run_eq_script hreads (other.filter _), hplaced, streamed_filter,
    streamed_filter, hstream]

/-- Runs with the same stream, and the same calls at the same places, come to the same. -/
theorem account_eq {journey : Journey} (h : journey.Alike journey)
    (hreads : journey.Reads ByteArray.empty) {run other : List Step}
    (hrun : journey.Along Connection.Permits run) (hother : journey.Along Connection.Permits other)
    (hstream : streamed run = streamed other) (hevents : events run = events other) :
    (journey.run run).account = (journey.run other).account := by
  rw [(h.run hrun).account, (h.run hother).account, run_filter_eq hreads hstream hevents]

/-! ## Numbers that last -/

/-- The calls of the connection, as soon as there is one, have different numbers, and so many
numbers have been drawn at most. -/
def Apart (drawn : Nat) (journey : Journey) : Prop :=
  ∀ conn, journey.phase = .joined conn →
    conn.Sound ∧ ∃ accepted, ∃ few ≤ drawn, Connection.Numbered accepted few conn

theorem apart_start (options : ConnectionOptions) (cluster : String) (hello : ByteArray) :
    (start options cluster hello).Apart 0 :=
  fun _ hphase => nomatch hphase

/-- Every step keeps calls apart as long as the numbers last. -/
theorem Apart.perform {drawn : Nat} {journey : Journey} (h : journey.Apart drawn) (step : Step)
    (hlast : (drawn + if step.isRequest then 1 else 0) < UInt64.size) :
    (journey.perform step).Apart (drawn + if step.isRequest then 1 else 0) := by
  cases hphase : journey.phase with
  | joined conn =>
      obtain ⟨hsound, accepted, few, hfew, hnumbered⟩ := h conn hphase
      have hby := conn.drawnBy_le step hsound
      rw [perform_of_joined hphase]
      rintro after hafter
      cases hafter
      exact ⟨Connection.sound_perform hsound step, _, few + conn.drawnBy step, by omega,
        hnumbered.perform hsound step (by omega)⟩
  | failed error =>
      rw [perform_of_failed hphase]
      rintro after hafter
      cases hphase.symm.trans hafter
  | opening attempt =>
      cases hread : step.isRead with
      | false =>
          rintro after hafter
          rcases perform_of_opening hphase hread with hsame | ⟨-, error, hfailed⟩
          · rw [hsame, hphase] at hafter
            cases hafter
          · rw [hfailed] at hafter
            cases hafter
      | true =>
          rw [Step.eq_receive hread, receive_of_opening hphase]
          cases attempt.receive step.data with
          | pending next => exact fun _ hafter => nomatch hafter
          | failed error => exact fun _ hafter => nomatch hafter
          | accepted connectionId decoder =>
              -- A connection begins with no number drawn, and what came with the acceptance draws
              -- none.
              let new := Connection.new journey.options journey.cluster connectionId decoder
              have hsound : new.Sound :=
                Connection.sound_new journey.options journey.cluster connectionId decoder
              have hby := new.drawnBy_le (.receive ByteArray.empty) hsound
              have hnumbered : Connection.Numbered [] 0 new :=
                Connection.numbered_new journey.options journey.cluster connectionId decoder
              have hnone : new.drawnBy (.receive ByteArray.empty) = 0 := Nat.le_zero.1 hby
              have hfirst := hnumbered.perform hsound (.receive ByteArray.empty) (by omega)
              rw [hnone] at hfirst
              rintro after hafter
              cases hafter
              exact ⟨Connection.sound_perform hsound _, _, 0, Nat.zero_le _, hfirst⟩

/-- A run with fewer calls than numbers tells calls in progress apart. -/
theorem along_permits {drawn : Nat} {journey : Journey} (h : journey.Apart drawn) {run : List Step}
    (hfew : drawn + run.countP Step.isRequest < UInt64.size)
    (hcalm : journey.Along Connection.Undisturbed run) : journey.Along Connection.Permits run := by
  induction run generalizing drawn journey with
  | nil => trivial
  | cons step run ih =>
      obtain ⟨hstep, hrest⟩ := hcalm
      rw [List.countP_cons] at hfew
      refine ⟨?_, ih (h.perform step (by omega)) (by omega) hrest⟩
      intro conn hphase
      obtain ⟨-, accepted, few, -, hnumbered⟩ := h conn hphase
      exact Connection.permits_of_distinct (hstep conn hphase) hnumbered.callsDistinct

/-! ## Frames that are of no use -/

/-- Whether a frame ends where the stream has come to, behind at least one frame. -/
def IsBoundary (sofar : ByteArray) : Prop :=
  ∃ first results, (Decoder.mk sofar).readOut = ⟨first :: results, .ok ByteArray.empty⟩

/-- A stream that ends with a piece ends at a boundary. -/
theorem isBoundary_spell (piece : Piece) (pieces : List Piece) :
    IsBoundary (Piece.spell (piece :: pieces)) :=
  ⟨piece.result, pieces.map Piece.result, Piece.readOut_spell_all (piece :: pieces)⟩

/-- The second run is the first one, with frames that are of no use strewn between its frames. The
stream has come so far before. -/
inductive Strewn : ByteArray → List Step → List Step → Prop
  | nil (sofar : ByteArray) : Strewn sofar [] []
  | cons {sofar : ByteArray} (step : Step) {run other : List Step}
      (h : Strewn (sofar ++ step.data) run other) : Strewn sofar (step :: run) (step :: other)
  | noise {sofar noise : ByteArray} {run other : List Step} (hboundary : IsBoundary sofar)
      (hnoise : Connection.IsNoise noise) (h : Strewn sofar run other) :
      Strewn sofar run (.receive noise :: other)

/-- A frame that is of no use does nothing behind a frame. -/
theorem receive_noise {sofar noise : ByteArray} {journey : Journey} (h : journey.Reads sofar)
    (hboundary : IsBoundary sofar) (hnoise : Connection.IsNoise noise) :
    journey.perform (.receive noise) = journey := by
  obtain ⟨first, results, hread⟩ := hboundary
  cases hphase : journey.phase with
  | failed error => exact perform_of_failed hphase _
  | opening attempt =>
      -- No frame has come yet.
      have hneed := (h.opening attempt hphase).2
      rw [Decoder.readOut_eq, hneed] at hread
      cases hread
  | joined conn =>
      have hreads := h.joined conn hphase
      have hreader : conn.reader = none ∨ conn.reader = some ⟨ByteArray.empty⟩ := by
        cases hreader : conn.reader with
        | none => exact Or.inl rfl
        | some decoder =>
            obtain ⟨found, hleft⟩ := hreads.left decoder hreader
            rw [hread] at hleft
            obtain ⟨buffer⟩ := decoder
            cases hleft
            exact Or.inr rfl
      rw [perform_of_joined hphase]
      exact take_eq_self hphase (Connection.receive_noise hnoise hreader) rfl rfl

/-- Frames that are of no use make no difference, wherever they are strewn. -/
theorem run_strewn {sofar : ByteArray} {run other : List Step} (h : Strewn sofar run other)
    {journey : Journey} (hreads : journey.Reads sofar) : journey.run other = journey.run run := by
  induction h generalizing journey with
  | nil sofar => rfl
  | cons step h ih => exact ih (hreads.perform step)
  | noise hboundary hnoise h ih =>
      rw [run_cons, receive_noise hreads hboundary hnoise]
      exact ih hreads

/-- What happens beside the stream may be left out where frames are strewn. -/
theorem Strewn.filter {sofar : ByteArray} {run other : List Step} (h : Strewn sofar run other) :
    Strewn sofar (run.filter Step.counts) (other.filter Step.counts) := by
  induction h with
  | nil sofar => exact .nil sofar
  | cons step h ih =>
      cases hcounts : step.counts with
      | true =>
          rw [List.filter_cons_of_pos hcounts, List.filter_cons_of_pos hcounts]
          exact .cons step ih
      | false =>
          rw [Step.data_of_not_isRead (Step.counts_eq_false hcounts).1, ByteArray.append_empty]
            at ih
          rw [List.filter_cons_of_neg (Bool.eq_false_iff.1 hcounts),
            List.filter_cons_of_neg (Bool.eq_false_iff.1 hcounts)]
          exact ih
  | noise hboundary hnoise h ih =>
      rw [List.filter_cons_of_pos rfl]
      exact .noise hboundary hnoise ih

/-- A run comes to the same as one into whose stream frames that are of no use have been put,
however the two streams are cut. -/
theorem account_strewn {journey : Journey} (h : journey.Alike journey)
    (hreads : journey.Reads ByteArray.empty) {run cut noisy other : List Step}
    (hrun : journey.Along Connection.Permits run) (hother : journey.Along Connection.Permits other)
    (hstrewn : Strewn ByteArray.empty cut noisy) (hcut : streamed run = streamed cut)
    (hcutEvents : events run = events cut) (hnoisy : streamed other = streamed noisy)
    (hnoisyEvents : events other = events noisy) :
    (journey.run other).account = (journey.run run).account := by
  rw [(h.run hrun).account, (h.run hother).account, run_filter_eq hreads hcut hcutEvents,
    run_filter_eq hreads hnoisy hnoisyEvents, run_strewn hstrewn.filter hreads]

/-! ## A stream that begins with an acceptance -/

/-- A connection stays, with its name. -/
theorem verdict_of_joined {sofar : ByteArray} {journey : Journey} (h : journey.Reads sofar)
    {conn : Connection} (hphase : journey.phase = .joined conn) (steps : List Step) :
    (journey.run steps).verdict = some (.ok conn.connectionId) := by
  induction steps generalizing sofar journey conn with
  | nil =>
      rw [run_nil, verdict, hphase]
  | cons step steps ih =>
      have hstep : (journey.perform step).phase = .joined (conn.perform step) := by
        rw [perform_of_joined hphase]
        rfl
      rw [run_cons, ih (h.perform step) hstep,
        Connection.connectionId_perform (h.joined conn hphase).kept step]

/-- What has come of a stream has its first frame in front, or is shorter than that. -/
theorem decode_of_front {front rest sofar missing : ByteArray} {message : Message}
    (hfront : Message.decode front = .taken (.ok message) ByteArray.empty)
    (hstream : sofar ++ missing = front ++ rest) :
    (Message.decode sofar = .needMore ∧ sofar.size < front.size) ∨
      ∃ behind, Message.decode sofar = .taken (.ok message) behind := by
  by_cases hsize : front.size ≤ sofar.size
  · right
    have hbegin : sofar.extract 0 front.size = front := by
      have hwhole := congrArg (fun bytes : ByteArray => bytes.extract 0 front.size) hstream
      simp only [Frame.extract_append_of_le _ hsize, ByteArray.extract_append_eq_left rfl] at hwhole
      exact hwhole
    have hsplit := extract_append_extract sofar front.size
    rw [hbegin] at hsplit
    rw [← hsplit]
    exact ⟨_, Message.decode_append_of_taken hfront _⟩
  · -- What is decided about the beginning of the stream is decided about the whole.
    have hwhole := Message.decode_append_of_taken hfront rest
    rw [← hstream] at hwhole
    cases hdecode : Message.decode sofar with
    | needMore => exact Or.inl ⟨rfl, Nat.lt_of_not_le hsize⟩
    | refused fault => cases (Message.decode_append_of_refused hdecode missing).symm.trans hwhole
    | taken result behind =>
        have hresult := (Message.decode_append_of_taken hdecode missing).symm.trans hwhole
        simp only [Frame.Taken.taken.injEq] at hresult
        exact Or.inr ⟨behind, by rw [hresult.1]⟩

/-- With the acceptance there is a connection of the name that the relay gives. -/
theorem receive_of_welcome {journey : Journey} {attempt : Opening} {data behind : ByteArray}
    {message : Message} {connectionId : String} (hphase : journey.phase = .opening attempt)
    (hdecode : Message.decode (attempt.decoder.buffer ++ data) = .taken (.ok message) behind)
    (hwelcome : message.envelope = .welcome connectionId) :
    ∃ conn, (journey.perform (.receive data)).phase = .joined conn ∧
      conn.connectionId = connectionId := by
  let new := Connection.new journey.options journey.cluster connectionId ⟨behind⟩
  have hmatched : new.pending.Matched := PendingTable.matched_new
  refine ⟨new.receive ByteArray.empty, ?_, Connection.connectionId_receive hmatched ByteArray.empty⟩
  rw [receive_of_opening hphase, Opening.receive_eq, hdecode]
  simp only [Opening.verdict, hwelcome]
  rfl

/-- A stream that begins with an acceptance is accepted, unless the stream ends before. -/
theorem verdict_of_opening {front rest sofar : ByteArray} {message : Message}
    {connectionId : String}
    (hfront : Message.decode front = .taken (.ok message) ByteArray.empty)
    (hwelcome : message.envelope = .welcome connectionId) {journey : Journey}
    (h : journey.Reads sofar) {attempt : Opening} (hphase : journey.phase = .opening attempt)
    {steps : List Step} (hstream : sofar ++ streamed steps = front ++ rest)
    (hevents : ∀ place ∈ placed sofar.size steps, place.2.isEvent = true → front.size ≤ place.1) :
    (journey.run steps).verdict = some (.ok connectionId) := by
  induction steps generalizing sofar journey attempt with
  | nil =>
      have hsizes := congrArg ByteArray.size hstream
      rw [streamed, ByteArray.append_empty, ByteArray.size_append] at hsizes
      rcases decode_of_front hfront hstream with ⟨-, hshort⟩ | ⟨behind, hdecode⟩
      · omega
      · cases (h.opening attempt hphase).2.symm.trans hdecode
  | cons step steps ih =>
      have hnext := h.perform step
      have hbuffer := (h.opening attempt hphase).1
      rw [streamed, ← ByteArray.append_assoc] at hstream
      rw [run_cons]
      cases hread : step.isRead with
      | false =>
          rw [placed, hread, if_neg Bool.false_ne_true] at hevents
          rw [Step.data_of_not_isRead hread, ByteArray.append_empty] at hnext hstream
          rcases perform_of_opening hphase hread with hsame | ⟨hevent, -⟩
          · rw [hsame]
            exact ih h hphase hstream fun place hplace =>
              hevents place (List.mem_cons_of_mem _ hplace)
          · -- The stream has not come to its end here.
            have hsize := hevents _ List.mem_cons_self hevent
            rcases decode_of_front hfront hstream with ⟨-, hshort⟩ | ⟨behind, hdecode⟩
            · exact absurd hsize (Nat.not_le_of_lt hshort)
            · cases (h.opening attempt hphase).2.symm.trans hdecode
      | true =>
          rw [placed, if_pos hread, ← ByteArray.size_append] at hevents
          rw [Step.eq_receive hread] at hnext ⊢
          rcases decode_of_front hfront hstream with ⟨hneed, -⟩ | ⟨behind, hdecode⟩
          · rw [receive_of_opening hphase, Opening.receive_eq, hbuffer, hneed] at hnext ⊢
            exact ih hnext rfl hstream hevents
          · rw [← hbuffer] at hdecode
            obtain ⟨conn, hjoined, hname⟩ := receive_of_welcome hphase hdecode hwelcome
            rw [verdict_of_joined hnext hjoined steps, hname]

/-- What the session of a client comes to is determined by the stream from its relay and by the
calls that begin at places in it. Runs with the same stream, cut in two ways, and with the same
steps at the same places, do the same. Where only the calls and the end of the stream are at the
same places, and handlers, the writer and callers do what they do at any other times, the runs still
come to the same; this is so if no call is given up or runs out of time and nobody closes the
connection from this side, and if calls in progress have different numbers, as they have in any run
with fewer calls than numbers. A client whose stream begins with an acceptance is accepted, whatever
stands behind it, and what comes in one portion with the acceptance does what it would do if it came
later. Between any frames behind the first, frames of no use may be put: those with a wrong checksum
or a header that is not an envelope, and messages of an opening. -/
theorem account_of_stream (options : ConnectionOptions) (cluster : String) (hello : ByteArray) :
    let begun := start options cluster hello
    (∀ run other, streamed run = streamed other → placed 0 run = placed 0 other →
      begun.run run = begun.run other) ∧
    (∀ run other, begun.Along Connection.Permits run → begun.Along Connection.Permits other →
      streamed run = streamed other → events run = events other →
      (begun.run run).account = (begun.run other).account) ∧
    (∀ run, run.countP Step.isRequest < UInt64.size → begun.Along Connection.Undisturbed run →
      begun.Along Connection.Permits run) ∧
    (∀ front message connectionId rest run,
      Message.decode front = .taken (.ok message) ByteArray.empty →
      message.envelope = .welcome connectionId → streamed run = front ++ rest →
      (∀ place ∈ events run, front.size ≤ place.1) →
      (begun.run run).account.verdict = some (.ok connectionId)) ∧
    (∀ front more run,
      begun.run (.receive (front ++ more) :: run) =
        begun.run (.receive front :: .receive more :: run)) ∧
    (∀ run cut noisy other,
      begun.Along Connection.Permits run → begun.Along Connection.Permits other →
      Strewn ByteArray.empty cut noisy → streamed run = streamed cut → events run = events cut →
      streamed other = streamed noisy → events other = events noisy →
      (begun.run other).account = (begun.run run).account) ∧
    (∀ piece pieces, IsBoundary (Piece.spell (piece :: pieces))) ∧
    (∀ piece : Piece, piece.message? = none → Connection.IsNoise piece.bytes) ∧
    (∀ message : Message, ∀ bytes, message.encode = .ok bytes →
      message.envelope.kind = .hello ∨ message.envelope.kind = .welcome →
      Connection.IsNoise bytes) := by
  intro begun
  have hreads : begun.Reads ByteArray.empty := reads_start options cluster hello
  have halike : begun.Alike begun := alike_start options cluster hello
  refine ⟨?_, ?_, ?_, ?_, ?_, ?_, isBoundary_spell, fun _ => Connection.isNoise_of_useless,
    fun _ _ => Connection.isNoise_of_encode⟩
  · intro run other hstream hplaced
    rw [run_eq_script hreads run, run_eq_script hreads other, hstream, hplaced]
  · intro run other hrun hother
    exact account_eq halike hreads hrun hother
  · intro run hfew
    apply along_permits (apart_start options cluster hello)
    omega
  · intro front message connectionId rest run hfront hwelcome hstream hevents
    show (begun.run run).verdict = _
    refine verdict_of_opening hfront hwelcome hreads rfl
      (ByteArray.empty_append.trans hstream) fun place hplace hevent => ?_
    exact hevents place (List.mem_filter.2 ⟨hplace, hevent⟩)
  · intro front more run
    simp only [run_cons, receive_receive hreads]
  · intro run cut noisy other hrun hother
    exact account_strewn halike hreads hrun hother

/-- A client whose opening message has been written. -/
def greeted : Journey := start (.new (.v4 .loopback defaultPort)) "clients" ByteArray.empty

/-- The relay's acceptance. -/
def acceptance : Piece :=
  .good (.welcome "conn-1") (Message.welcome "conn-1").bytes (Message.encode_of_fits (by decide))

/-- The reply to the first call. -/
def firstReply : Message := .reply ⟨1⟩ ⟨#[20]⟩

/-- The reply, with a checksum that is wrong. -/
def damagedReply : Piece :=
  .damaged firstReply.toFrame (Message.sound_toFrame (by decide)) rfl
    ⟨0, firstReply.toFrame.header, firstReply.toFrame.payload, rfl, rfl, by decide +kernel⟩

/-- A call, which is told of its reply. A request of somebody else has come with the acceptance. -/
def promptRun : List Step :=
  [.receive (acceptance.bytes ++ Connection.inbound.bytes), .request "svc" ⟨#[1]⟩ (.ofSecs 30) 0,
    .act .takeItem, .receive firstReply.bytes, .poll 0 0]

/-- The same stream and the same call, while the handler is at work and nobody looks after the
call. -/
def choppedRun : List Step :=
  [.receive (acceptance.bytes.extract 0 5),
    .receive (acceptance.bytes.extract 5 acceptance.bytes.size),
    .receive Connection.inbound.bytes, .act (.complete 0 (.answered ByteArray.empty)),
    .request "svc" ⟨#[1]⟩ (.ofSecs 30) 0, .receive firstReply.bytes]

/-- The same stream, cut behind the acceptance. -/
def cutRun : List Step :=
  [.receive acceptance.bytes, .receive Connection.inbound.bytes,
    .request "svc" ⟨#[1]⟩ (.ofSecs 30) 0, .receive firstReply.bytes]

/-- The same again, with a damaged frame behind the acceptance. -/
def strewnRun : List Step :=
  [.receive acceptance.bytes, .receive damagedReply.bytes, .receive Connection.inbound.bytes,
    .request "svc" ⟨#[1]⟩ (.ofSecs 30) 0, .receive firstReply.bytes]

/-- Where callers looked after a call that has run out of time, one of them has been told so. -/
theorem told_of_late {journey : Journey} {conn : Connection} (hphase : journey.phase = .joined conn)
    {key : CallKey} {now : Instant} {call : Call} (hcall : conn.call? key = some call)
    (hlate : (conn.poll call now).1 = some (.error .requestTimeout)) :
    (key, .error .requestTimeout) ∈ (journey.perform (.poll key now)).told := by
  have htells : conn.tells (.poll key now) = [(key, .error .requestTimeout)] := by
    rw [Connection.tells, Connection.pollBy_of_some hcall, hlate]
    rfl
  rw [perform_of_joined hphase]
  show _ ∈ journey.told ++ conn.tells (.poll key now)
  rw [htells]
  exact List.mem_append_right _ List.mem_cons_self

/-- All of these come to the same: the client is accepted, its handler is given the request, and the
caller that looks after its call is told of the reply. -/
theorem account_of_stream_promptRun :
    (greeted.run promptRun).account = (greeted.run choppedRun).account ∧
      (greeted.run strewnRun).account = (greeted.run promptRun).account ∧
      (greeted.run promptRun).account.verdict = some (.ok "conn-1") ∧
      (greeted.run promptRun).yield.inbound = [⟨0, ⟨7⟩, ByteArray.empty⟩] ∧
      (greeted.run promptRun).told = [(0, .ok ⟨#[20]⟩)] := by
  obtain ⟨-, hsame, hfew, haccepted, -, hstrewn, hboundary, hnoise, -⟩ :=
    account_of_stream (.new (.v4 .loopback defaultPort)) "clients" ByteArray.empty
  have hbrought : ((greeted.run promptRun).yield.inbound, (greeted.run promptRun).told) =
      ([⟨0, ⟨7⟩, ByteArray.empty⟩], [(0, .ok ⟨#[20]⟩)]) := by decide +kernel
  obtain ⟨hinbound, htold⟩ := Prod.mk.inj hbrought
  have hcalm : greeted.Along Connection.Undisturbed promptRun := by
    refine ⟨fun _ _ => trivial, fun _ _ => trivial, fun _ _ => trivial, fun _ _ => trivial, ?_, ⟨⟩⟩
    -- Nobody has been told that its time is over.
    intro conn hphase call hcall hlate
    have hmem := told_of_late hphase hcall hlate
    simp only [promptRun, run_cons, run_nil] at htold
    rw [htold] at hmem
    simp at hmem
  have hprompt := hfew promptRun (by decide) hcalm
  have hchopped := hfew choppedRun (by decide) (by simp [choppedRun, Along, Connection.Undisturbed])
  have hstrewnRun := hfew strewnRun (by decide) (by simp [strewnRun, Along, Connection.Undisturbed])
  -- The acceptance is cut in two.
  have hwhole : acceptance.bytes.extract 0 5 ++ acceptance.bytes.extract 5 acceptance.bytes.size =
      acceptance.bytes := extract_append_extract _ 5
  have hstream : streamed promptRun = streamed choppedRun := by
    simp [promptRun, choppedRun, streamed, Step.data, ← ByteArray.append_assoc, hwhole]
  have hevents : events promptRun = events choppedRun := by
    simp [events, placed, promptRun, choppedRun, Step.isRead, Step.isEvent, Step.data]
    omega
  have hcut : Strewn ByteArray.empty cutRun strewnRun := by
    refine .cons _ (.noise ?_ (hnoise damagedReply rfl) (.cons _ (.cons _ (.cons _ (.nil _)))))
    have hspell : ByteArray.empty ++ acceptance.bytes = Piece.spell [acceptance] := by
      simp [Piece.spell, Reading.joined]
    show IsBoundary (ByteArray.empty ++ acceptance.bytes)
    rw [hspell]
    exact hboundary acceptance []
  refine ⟨hsame _ _ hprompt hchopped hstream hevents, ?_, ?_, hinbound, htold⟩
  · apply hstrewn promptRun cutRun strewnRun strewnRun hprompt hstrewnRun hcut
    · simp [promptRun, cutRun, streamed, Step.data, ByteArray.append_assoc]
    · simp [events, placed, promptRun, cutRun, Step.isRead, Step.isEvent, Step.data]
    · rfl
    · rfl
  · apply haccepted acceptance.bytes (.welcome "conn-1") "conn-1"
      (Connection.inbound.bytes ++ firstReply.bytes) promptRun
    · have hfront := acceptance.decode_bytes ByteArray.empty
      rwa [ByteArray.append_empty] at hfront
    · rfl
    · simp [promptRun, streamed, Step.data, ByteArray.append_assoc]
    · simp [events, placed, promptRun, Step.isRead, Step.isEvent, Step.data]

end Journey

end Switchboard
