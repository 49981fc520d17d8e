import Switchboard.Network.Basic
import Switchboard.Proofs.Connection.Likeness
import Switchboard.Proofs.Connection.Placement

/-!
# A client between its stream and its callers

A client waits for the relay's answer to its opening message, and then serves a connection
(`Journey`). It sees a stream of bytes, in whatever portions they arrive, and in between calls begin
and other things happen (`streamed`, `placed`). Two portions one behind the other do the same as
both together, also where the answer to the opening message ends within one of them
(`receive_receive`). So a run does the same as the script of its stream and of what is placed in it
(`run_eq_script`).
-/

namespace Switchboard

open Connection (Step Yield)

namespace Connection

/-- What a caller is told by a step. -/
def tells (conn : Connection) : Step → List (CallKey × Except ClientError ByteArray)
  | .poll key now => ((conn.pollBy key now).1.map fun result => (key, result)).toList
  | _ => []

end Connection

/-- What the answer to an opening message is, by what stands at the front of what has been
received. -/
theorem Opening.receive_eq (attempt : Opening) (data : ByteArray) :
    attempt.receive data = match Message.decode (attempt.decoder.buffer ++ data) with
      | .needMore => .pending { attempt with decoder := attempt.decoder.extend data }
      | .refused fault => .failed (.protocol fault)
      | .taken (.error fault) _ => .failed (.protocol fault)
      | .taken (.ok message) rest =>
          match verdict message with
          | .ok connectionId => .accepted connectionId ⟨rest⟩
          | .error error => .failed error := by
  have hbuffer : (attempt.decoder.extend data).buffer = attempt.decoder.buffer ++ data := rfl
  unfold receive Decoder.nextMessage
  rw [hbuffer]
  cases Message.decode (attempt.decoder.buffer ++ data) with
  | needMore => rfl
  | refused fault => rfl
  | taken result rest => cases result <;> rfl

/-- A client behind its opening message: how far it has come, and what it has brought to those who
use it. -/
structure Journey where
  options : ConnectionOptions
  cluster : String
  phase : PeerPhase
  yield : Yield := .nothing
  /-- What callers have been told of their calls, in order. -/
  told : List (CallKey × Except ClientError ByteArray) := []

namespace Journey

/-- A client that has written its opening message. -/
def start (options : ConnectionOptions) (cluster : String) (hello : ByteArray) : Journey :=
  { options, cluster, phase := .opening { hello, written := hello.size } }

/-- A step of the connection. -/
def take (journey : Journey) (conn : Connection) (step : Step) : Journey :=
  { journey with
    phase := .joined (conn.perform step)
    yield := journey.yield ++ conn.yield step
    told := journey.told ++ conn.tells step }

/-- The relay's answer. What came behind an acceptance is dealt with at once. -/
def answer (journey : Journey) : Opening.Progress → Journey
  | .pending attempt => { journey with phase := .opening attempt }
  | .failed error => { journey with phase := .failed error }
  | .accepted connectionId decoder =>
      journey.take (.new journey.options journey.cluster connectionId decoder)
        (.receive ByteArray.empty)

/-- The client behind a step. Before there is a connection, only what comes from the stream
counts. -/
def perform (journey : Journey) (step : Step) : Journey :=
  match journey.phase, step with
  | .joined conn, step => journey.take conn step
  | .opening attempt, .receive data => journey.answer (attempt.receive data)
  | .opening _, .receiveEnd => { journey with phase := .failed .connectionClosed }
  | .opening _, .act (.receiveFault fault) => { journey with phase := .failed (.transport fault) }
  | _, _ => journey

/-- The client behind a run. -/
def run (journey : Journey) (steps : List Step) : Journey := steps.foldl perform journey

@[simp] theorem run_nil (journey : Journey) : journey.run [] = journey := rfl

@[simp] theorem run_cons (journey : Journey) (step : Step) (steps : List Step) :
    journey.run (step :: steps) = (journey.perform step).run steps := rfl

section Phases

variable {journey : Journey}

theorem perform_of_joined {conn : Connection} (h : journey.phase = .joined conn) (step : Step) :
    journey.perform step = journey.take conn step := by
  simp only [perform, h]

theorem perform_of_failed {error : ClientError} (h : journey.phase = .failed error) (step : Step) :
    journey.perform step = journey := by
  simp only [perform, h]

theorem receive_of_opening {attempt : Opening} (h : journey.phase = .opening attempt)
    (data : ByteArray) :
    journey.perform (.receive data) = journey.answer (attempt.receive data) := by
  simp only [perform, h]

/-- Whatever does not come from the stream waits until there is a connection. -/
theorem perform_of_opening {attempt : Opening} (h : journey.phase = .opening attempt) {step : Step}
    (hread : step.isRead = false) :
    journey.perform step = journey ∨
      (step.isEvent = true ∧ ∃ error,
        journey.perform step = { journey with phase := .failed error }) := by
  cases step with
  | receive data => cases hread
  | receiveEnd => exact Or.inr ⟨rfl, .connectionClosed, by simp only [perform, h]⟩
  | act act =>
      cases act with
      | receiveFault fault => exact Or.inr ⟨rfl, .transport fault, by simp only [perform, h]⟩
      | _ => exact Or.inl (by simp only [perform, h])
  | _ => exact Or.inl (by simp only [perform, h])

end Phases

end Journey

/-! ## The client of a network -/

namespace Peer

/-- The journey of a client in a network, from where it stands. -/
def journey (peer : Peer) : Journey :=
  { options := peer.options, cluster := peer.cluster, phase := peer.phase }

/-- What a client does with bytes that arrive, once its opening message has been written. -/
theorem phase_read {peer : Peer}
    (hwritten : ∀ attempt, peer.phase = .opening attempt → attempt.isWritten = true) (limit : Nat) :
    (peer.read limit).phase =
      (peer.journey.perform (.receive (peer.toClient.extract 0 limit))).phase := by
  unfold read journey Journey.perform
  cases hphase : peer.phase with
  | joined conn => rfl
  | failed error => rfl
  | opening attempt =>
      simp only [hwritten attempt hphase, if_true]
      cases attempt.receive (peer.toClient.extract 0 limit) with
      | pending next => rfl
      | accepted connectionId decoder => rfl
      | failed error => rfl

theorem phase_readEnd (peer : Peer) :
    peer.readEnd.phase = (peer.journey.perform .receiveEnd).phase := by
  unfold readEnd journey Journey.perform
  cases hphase : peer.phase with
  | opening attempt => rfl
  | joined conn => rfl
  | failed error => exact hphase

theorem phase_breakOff (peer : Peer) (fault : HostFault) :
    (peer.breakOff fault).phase =
      (peer.journey.perform (.act (.receiveFault (.host fault)))).phase := by
  unfold breakOff journey Journey.perform
  cases hphase : peer.phase with
  | opening attempt => rfl
  | joined conn => rfl
  | failed error => rfl

end Peer

/-! ## What has been read so far -/

/-- A connection that has read so much of the stream from its beginning, with the acceptance in
front. -/
structure Connection.Reads (sofar : ByteArray) (conn : Connection) : Prop where
  told : ∃ log, Desk.Told log conn.desk
  drained : conn.Drained
  welcome : ∃ message rest, Message.decode sofar = .taken (.ok message) rest ∧
    message.envelope = .welcome conn.connectionId
  left : ∀ decoder, conn.reader = some decoder →
    ∃ results, (Decoder.mk sofar).readOut = ⟨results, .ok decoder.buffer⟩

namespace Connection.Reads

variable {sofar : ByteArray} {conn : Connection} (h : conn.Reads sofar)

include h

theorem kept : conn.desk.Kept := h.told.choose_spec.kept

theorem matched : conn.pending.Matched := h.kept.matched

theorem perform (step : Step) : (conn.perform step).Reads (sofar ++ step.data) where
  told := by
    obtain ⟨log, htold⟩ := h.told
    exact ⟨_, htold.moves (moves_perform htold.kept step)⟩
  drained := h.drained.perform h.kept step
  welcome := by
    obtain ⟨message, rest, hfront, hwelcome⟩ := h.welcome
    rw [connectionId_perform h.kept step]
    exact ⟨message, rest ++ step.data, Message.decode_append_of_taken hfront _, hwelcome⟩
  left := by
    intro left hleft
    cases hread : step.isRead with
    | false =>
        rw [Step.data_of_not_isRead hread, ByteArray.append_empty]
        rcases (remains_perform conn h.kept hread).reader with hsame | hnone
        · exact h.left left (hsame.symm.trans hleft)
        · cases hnone.symm.trans hleft
    | true =>
        rw [Step.eq_receive hread] at hleft
        have hreceive : (conn.receive step.data).reader = some left := hleft
        cases hreader : conn.reader with
        | none =>
            rw [receive_of_none hreader, hreader] at hreceive
            cases hreceive
        | some decoder =>
            obtain ⟨results, hresults⟩ := h.left decoder hreader
            have hstanding := standing_of_receive h.matched hreader hreceive
            have hmore := Reading.readOut_append sofar step.data
            rw [hresults] at hmore
            refine ⟨results ++ (decoder.extend step.data).readOut.results, ?_⟩
            rw [hmore, ← hstanding]
            rfl

end Connection.Reads

namespace Journey

/-- A client that has read so much of the stream from its beginning. -/
structure Reads (sofar : ByteArray) (journey : Journey) : Prop where
  opening : ∀ attempt, journey.phase = .opening attempt →
    attempt.decoder.buffer = sofar ∧ Message.decode sofar = .needMore
  joined : ∀ conn, journey.phase = .joined conn → conn.Reads sofar

theorem reads_start (options : ConnectionOptions) (cluster : String) (hello : ByteArray) :
    (start options cluster hello).Reads ByteArray.empty where
  opening := by
    rintro attempt hphase
    cases hphase
    exact ⟨rfl, Message.decode_empty⟩
  joined := fun _ hphase => nomatch hphase

/-- Behind an acceptance, the connection has read what came with it. -/
theorem reads_accepted (options : ConnectionOptions) (cluster : String) {sofar rest : ByteArray}
    {message : Message} {connectionId : String}
    (hfront : Message.decode sofar = .taken (.ok message) rest)
    (hverdict : Opening.verdict message = .ok connectionId) :
    ((Connection.new options cluster connectionId ⟨rest⟩).receive ByteArray.empty).Reads sofar := by
  let conn := Connection.new options cluster connectionId ⟨rest⟩
  have htold : Desk.Told [] conn.desk := Desk.told_new
  have hmatched : conn.pending.Matched := htold.kept.matched
  refine ⟨⟨_, htold.moves (Connection.moves_receive conn ByteArray.empty)⟩,
    Connection.drained_receive hmatched ByteArray.empty, ?_, ?_⟩
  · refine ⟨message, rest, hfront, ?_⟩
    rw [Connection.connectionId_receive hmatched]
    unfold Opening.verdict at hverdict
    cases henvelope : message.envelope <;> rw [henvelope] at hverdict <;> cases hverdict
    rfl
  · intro left hleft
    have hstanding := Connection.standing_of_receive hmatched rfl hleft
    have hextend : Decoder.extend ⟨rest⟩ ByteArray.empty = ⟨rest⟩ := by
      simp only [Decoder.extend, ByteArray.append_empty]
    rw [hextend] at hstanding
    refine ⟨.ok message :: (Decoder.mk rest).readOut.results, ?_⟩
    rw [Decoder.readOut_eq, hfront, ← hstanding]
    rfl

theorem Reads.answer {sofar : ByteArray} {journey : Journey} {attempt : Opening}
    (hbuffer : attempt.decoder.buffer = sofar) (data : ByteArray) :
    (journey.answer (attempt.receive data)).Reads (sofar ++ data) := by
  rw [Opening.receive_eq, hbuffer]
  cases hfront : Message.decode (sofar ++ data) with
  | needMore =>
      refine ⟨?_, fun _ hphase => nomatch hphase⟩
      rintro next hphase
      cases hphase
      exact ⟨congrArg (· ++ data) hbuffer, hfront⟩
  | refused fault => exact ⟨(fun _ hother => nomatch hother), fun _ hother => nomatch hother⟩
  | taken result rest =>
      cases result with
      | error fault => exact ⟨(fun _ hother => nomatch hother), fun _ hother => nomatch hother⟩
      | ok message =>
          dsimp only
          cases hverdict : Opening.verdict message with
          | error error => exact ⟨(fun _ hother => nomatch hother), fun _ hother => nomatch hother⟩
          | ok connectionId =>
              refine ⟨(fun _ hother => nomatch hother), ?_⟩
              rintro conn hphase
              cases hphase
              exact reads_accepted journey.options journey.cluster hfront hverdict

/-- Every step reads on. -/
theorem Reads.perform {sofar : ByteArray} {journey : Journey} (h : journey.Reads sofar)
    (step : Step) :
    (journey.perform step).Reads (sofar ++ step.data) := by
  cases hphase : journey.phase with
  | joined conn =>
      rw [perform_of_joined hphase]
      refine ⟨(fun _ hother => nomatch hother), ?_⟩
      rintro after hafter
      cases hafter
      exact (h.joined conn hphase).perform step
  | failed error =>
      rw [perform_of_failed hphase]
      refine ⟨?_, ?_⟩
      · intro attempt hother
        cases hphase.symm.trans hother
      · intro conn hother
        cases hphase.symm.trans hother
  | opening attempt =>
      cases hread : step.isRead with
      | true =>
          rw [Step.eq_receive hread, receive_of_opening hphase]
          exact Reads.answer (h.opening attempt hphase).1 step.data
      | false =>
          rw [Step.data_of_not_isRead hread, ByteArray.append_empty]
          rcases perform_of_opening hphase hread with hsame | ⟨-, error, hfailed⟩
          · rw [hsame]
            exact h
          · rw [hfailed]
            exact ⟨(fun _ hother => nomatch hother), fun _ hother => nomatch hother⟩

/-! ## Portions one behind the other -/

/-- Portions that come to a connection one behind the other do the same as both together. -/
theorem take_receive_receive {conn : Connection} (h : conn.pending.Matched) (journey : Journey)
    (data more : ByteArray) :
    (journey.take conn (.receive data)).perform (.receive more) =
      journey.take conn (.receive (data ++ more)) := by
  have hreceive : (conn.perform (.receive data)).perform (.receive more) =
      conn.perform (.receive (data ++ more)) := Connection.receive_receive h data more
  have hyield := Connection.yield_receive_receive h data more
  rw [perform_of_joined rfl]
  simp only [take, hreceive, Yield.append_assoc]
  refine congrArg₂ (Journey.mk _ _ _) ?_ ?_
  · exact congrArg (journey.yield ++ ·) hyield
  · exact List.append_nil _

/-- Bytes that stand behind an acceptance are dealt with as if they came later. -/
theorem take_new (journey : Journey) (connectionId : String) (rest more : ByteArray) :
    journey.take (.new journey.options journey.cluster connectionId ⟨rest ++ more⟩)
        (.receive ByteArray.empty) =
      journey.take (.new journey.options journey.cluster connectionId ⟨rest⟩) (.receive more) := by
  let new := Connection.new journey.options journey.cluster connectionId
  have hextend : Decoder.extend ⟨rest ++ more⟩ ByteArray.empty = Decoder.extend ⟨rest⟩ more := by
    simp only [Decoder.extend, ByteArray.append_empty]
  have hreceive : (new ⟨rest ++ more⟩).perform (.receive ByteArray.empty) =
      (new ⟨rest⟩).perform (.receive more) := by
    have hwhole : (new ⟨rest ++ more⟩).reader = some ⟨rest ++ more⟩ := rfl
    have hpart : (new ⟨rest⟩).reader = some ⟨rest⟩ := rfl
    have hfirst := Connection.receive_eq hwhole ByteArray.empty
    rw [hextend] at hfirst
    exact hfirst.trans (Connection.receive_eq hpart more).symm
  show journey.take (new _) _ = journey.take (new _) _
  simp only [take, Connection.yield, hreceive]
  rfl

theorem answer_receive (journey : Journey) (attempt : Opening) (data more : ByteArray) :
    (journey.answer (attempt.receive data)).perform (.receive more) =
      journey.answer (attempt.receive (data ++ more)) := by
  rw [Opening.receive_eq, Opening.receive_eq attempt (data ++ more), ← ByteArray.append_assoc]
  cases hfront : Message.decode (attempt.decoder.buffer ++ data) with
  | needMore =>
      have hbuffer : (attempt.decoder.extend data).extend more =
          attempt.decoder.extend (data ++ more) := by
        simp only [Decoder.extend, ByteArray.append_assoc]
      have hattempt :=
        Opening.receive_eq { attempt with decoder := attempt.decoder.extend data } more
      simp only [hbuffer] at hattempt
      rw [answer, receive_of_opening rfl, hattempt]
      rfl
  | refused fault =>
      rw [Message.decode_append_of_refused hfront]
      exact perform_of_failed rfl _
  | taken result rest =>
      rw [Message.decode_append_of_taken hfront]
      cases result with
      | error fault => exact perform_of_failed rfl _
      | ok message =>
          dsimp only
          cases Opening.verdict message with
          | error error => exact perform_of_failed rfl _
          | ok connectionId =>
              have hmatched : (Connection.new journey.options journey.cluster connectionId
                  ⟨rest⟩).pending.Matched := PendingTable.matched_new
              simp only [answer]
              rw [take_receive_receive hmatched, ByteArray.empty_append, take_new]

/-- Two portions one behind the other do the same as both together, wherever the cut is. -/
theorem receive_receive {sofar : ByteArray} {journey : Journey} (h : journey.Reads sofar)
    (data more : ByteArray) :
    (journey.perform (.receive data)).perform (.receive more) =
      journey.perform (.receive (data ++ more)) := by
  cases hphase : journey.phase with
  | joined conn =>
      rw [perform_of_joined hphase, perform_of_joined hphase]
      exact take_receive_receive (h.joined conn hphase).matched journey data more
  | failed error =>
      rw [perform_of_failed hphase, perform_of_failed hphase, perform_of_failed hphase]
  | opening attempt =>
      rw [receive_of_opening hphase, receive_of_opening hphase]
      exact answer_receive journey attempt data more

/-- A step that changes nothing and brings nothing. -/
theorem take_eq_self {journey : Journey} {conn : Connection} (hphase : journey.phase = .joined conn)
    {step : Step} (hsame : conn.perform step = conn) (hstarts : conn.startsBy step = [])
    (htells : conn.tells step = []) : journey.take conn step = journey := by
  simp only [take, hsame, Connection.yield_of_eq hsame hstarts, htells, Yield.append_nothing,
    List.append_nil, ← hphase]

theorem receive_empty {sofar : ByteArray} {journey : Journey} (h : journey.Reads sofar) :
    journey.perform (.receive ByteArray.empty) = journey := by
  cases hphase : journey.phase with
  | joined conn =>
      rw [perform_of_joined hphase]
      exact take_eq_self hphase (Connection.receive_empty (h.joined conn hphase).drained) rfl rfl
  | failed error => exact perform_of_failed hphase _
  | opening attempt =>
      obtain ⟨hbuffer, hneed⟩ := h.opening attempt hphase
      have hextend : attempt.decoder.extend ByteArray.empty = attempt.decoder := by
        simp only [Decoder.extend, ByteArray.append_empty]
      rw [receive_of_opening hphase, Opening.receive_eq, ByteArray.append_empty, hbuffer, hneed,
        hextend]
      simp only [answer, ← hphase]

/-! ## The stream of a run, and what is placed in it -/

/-- The bytes that arrive in a run. -/
def streamed : List Step → ByteArray
  | [] => ByteArray.empty
  | step :: run => step.data ++ streamed run

/-- All that happens in a run besides, each with the number of bytes of the stream that have arrived
before. -/
def placed (offset : Nat) : List Step → List (Nat × Step)
  | [] => []
  | step :: run =>
      if step.isRead then placed (offset + step.data.size) run
      else (offset, step) :: placed offset run

/-- The run in which a stream arrives in portions as large as what is placed in it allows. -/
def script (stream : ByteArray) (offset : Nat) : List (Nat × Step) → List Step
  | [] => [.receive (stream.extract offset stream.size)]
  | (place, step) :: rest =>
      .receive (stream.extract offset place) :: step :: script stream place rest

/-- The run in which portions that follow each other are put together, behind those held back. -/
def gathered (held : ByteArray) : List Step → List Step
  | [] => [.receive held]
  | step :: run =>
      if step.isRead then gathered (held ++ step.data) run
      else .receive held :: step :: gathered ByteArray.empty run

theorem extract_held (before held rest : ByteArray) :
    (before ++ held ++ rest).extract before.size (before.size + held.size) = held := by
  rw [Frame.extract_append_of_le rest (Nat.le_of_eq ByteArray.size_append.symm)]
  exact ByteArray.extract_append_eq_right rfl rfl

/-- A run whose portions are put together is known from its stream and what is placed in it. -/
theorem gathered_eq_script (before held : ByteArray) (run : List Step) :
    gathered held run =
      script (before ++ held ++ streamed run) before.size
        (placed (before.size + held.size) run) := by
  induction run generalizing before held with
  | nil =>
      have hall := extract_held before held ByteArray.empty
      rw [ByteArray.append_empty, ← ByteArray.size_append] at hall
      rw [gathered, placed, script, streamed, ByteArray.append_empty, hall]
  | cons step run ih =>
      cases hread : step.isRead with
      | true =>
          rw [gathered, placed, if_pos hread, if_pos hread, ih before, streamed,
            ByteArray.size_append]
          simp only [ByteArray.append_assoc, Nat.add_assoc]
      | false =>
          have hnext := ih (before ++ held) ByteArray.empty
          rw [ByteArray.append_empty, ByteArray.size_append] at hnext
          rw [gathered, placed, hread, if_neg Bool.false_ne_true, if_neg Bool.false_ne_true, script,
            extract_held, hnext, streamed, Step.data_of_not_isRead hread, ByteArray.empty_append]
          rfl

/-- A run does the same as when its portions are put together. -/
theorem run_gathered {sofar : ByteArray} {journey : Journey} (h : journey.Reads sofar)
    (held : ByteArray) (steps : List Step) :
    (journey.perform (.receive held)).run steps = journey.run (gathered held steps) := by
  induction steps generalizing sofar journey held with
  | nil => rfl
  | cons step steps ih =>
      cases hread : step.isRead with
      | true =>
          rw [gathered, if_pos hread, run_cons, Step.eq_receive hread, receive_receive h, ih h]
          rfl
      | false =>
          -- Behind a step of another kind nothing is held back.
          have hnext := (h.perform (.receive held)).perform step
          have hrest := ih hnext ByteArray.empty
          rw [receive_empty hnext] at hrest
          rw [gathered, hread, if_neg Bool.false_ne_true, run_cons, hrest]
          rfl

/-- A run does what the script of its stream, and of all that is placed in it, does. -/
theorem run_eq_script {journey : Journey} (h : journey.Reads ByteArray.empty) (steps : List Step) :
    journey.run steps = journey.run (script (streamed steps) 0 (placed 0 steps)) := by
  have hgathered := run_gathered h ByteArray.empty steps
  rw [receive_empty h, gathered_eq_script ByteArray.empty] at hgathered
  simp only [ByteArray.empty_append] at hgathered
  exact hgathered

end Journey

end Switchboard
