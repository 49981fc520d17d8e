import Switchboard.Proofs.Connection.Output
import Switchboard.Proofs.Network.Run

/-!
# What a client says

A client opens its stream with one greeting, and behind that come the frames of its connection. Here
a client is run against a relay that may do anything: bytes arrive and leave in any portions,
callers, handlers and the owner take their steps in any order, and the streams break off at any
point (`Happening`). Beside the client, a run keeps all that the client has written and all items
that have come into its write queue (`Speech`).

What has been written is at all times the beginning of what the accepted items spell behind the
greeting (`speaks_of_start`): frame by frame, in the order in which they came into the queue, and
nothing behind the last frame.
-/

namespace Switchboard

/-- What may happen at a client. -/
inductive Happening where
  /-- Somebody at the client takes a step. -/
  | does (step : Peer.Step) (now : Instant)
  /-- Bytes go on their way to the client. -/
  | arrives (data : ByteArray)
  /-- Bytes of the client come to the end of their way. -/
  | departs (count : Nat)
  /-- The streams break off. -/
  | breaks (fault : HostFault)

namespace Happening

/-- Whether a caller begins a call. -/
def isRequest : Happening → Bool
  | does (.request ..) _ => true
  | _ => false

/-- The step of the connection, if it takes one. -/
def step? (peer : Peer) : Happening → Option Connection.Step
  | does (.write room) _ => some (.write room)
  | does (.read limit) _ => some (.receive (peer.toClient.extract 0 limit))
  | does .readEnd _ => some .receiveEnd
  | does (.request cluster payload timeout) now => some (.request cluster payload timeout now)
  | does (.poll key) now => some (.poll key now)
  | does (.act act) _ => some (.act act)
  | arrives _ => none
  | departs _ => none
  | breaks fault => some (.act (.receiveFault (.host fault)))

/-- A step that begins a call is one in which a caller does. -/
theorem isRequest_of_step? {peer : Peer} {happening : Happening} {step : Connection.Step}
    (h : happening.step? peer = some step) : step.isRequest = happening.isRequest := by
  cases happening with
  | does doing now => cases doing <;> cases h <;> rfl
  | arrives data => cases h
  | departs count => cases h
  | breaks fault =>
      cases h
      rfl

end Happening

/-- An attempt that waits for more of the answer has written as much as before. -/
theorem Opening.eq_of_pending {attempt next : Opening} {data : ByteArray}
    (h : attempt.receive data = .pending next) :
    next.hello = attempt.hello ∧ next.written = attempt.written := by
  unfold receive at h
  split at h
  · cases h
    exact ⟨rfl, rfl⟩
  · cases h
  · split at h <;> cases h

namespace Peer

/-- The client behind what happens. -/
def occur (peer : Peer) : Happening → Peer
  | .does step now => peer.perform now step
  | .arrives data => { peer with toClient := peer.toClient ++ data }
  | .departs count => { peer with toRelay := peer.toRelay.extract count peer.toRelay.size }
  | .breaks fault => peer.breakOff fault

/-- The bytes that the client writes: what stands behind the bytes that were on their way before. -/
def output (peer : Peer) (happening : Happening) : ByteArray :=
  (peer.occur happening).toRelay.extract peer.toRelay.size (peer.occur happening).toRelay.size

/-- The items that come into the write queue. A client that has just joined may have some
already. -/
def admitted (peer : Peer) (happening : Happening) : List WriteItem :=
  match peer.connection?, happening.step? peer with
  | some conn, some step => conn.admitted step
  | some _, none => []
  | none, _ =>
      ((peer.occur happening).connection?.map fun conn => conn.queue.items).getD []

section Output

variable {peer : Peer} {happening : Happening}

theorem output_of_append {bytes : ByteArray}
    (h : (peer.occur happening).toRelay = peer.toRelay ++ bytes) :
    peer.output happening = bytes := by
  rw [output, h]
  exact ByteArray.extract_append_eq_right rfl ByteArray.size_append

theorem output_of_size_le (h : (peer.occur happening).toRelay.size ≤ peer.toRelay.size) :
    peer.output happening = ByteArray.empty :=
  ByteArray.extract_eq_empty_iff.2 (Nat.min_le_left _ _ |>.trans h)

theorem output_of_eq (h : (peer.occur happening).toRelay = peer.toRelay) :
    peer.output happening = ByteArray.empty := output_of_size_le (Nat.le_of_eq (congrArg _ h))

theorem output_of_departs (peer : Peer) (count : Nat) :
    peer.output (.departs count) = ByteArray.empty := by
  apply output_of_size_le
  show (peer.toRelay.extract count peer.toRelay.size).size ≤ _
  simp

end Output

/-! ## Phases -/

/-- A client that has joined takes the steps of its connection, and writes what the connection
does. -/
theorem occur_of_joined {peer : Peer} {conn : Connection} (hphase : peer.phase = .joined conn)
    (happening : Happening) :
    (peer.occur happening).phase = .joined ((happening.step? peer).elim conn conn.perform) ∧
      peer.output happening = (happening.step? peer).elim ByteArray.empty conn.output := by
  cases happening with
  | does step now =>
      cases step with
      | write room =>
          have hafter : peer.occur (.does (.write room) now) =
              { peer with
                phase := .joined (conn.write room).2
                toRelay := peer.toRelay ++ (conn.write room).1 } := by
            simp only [occur, perform, write, hphase]
          exact ⟨by rw [hafter]; rfl, output_of_append (by rw [hafter]; rfl)⟩
      | read limit =>
          have hafter : peer.occur (.does (.read limit) now) =
              { peer with
                phase := .joined (conn.receive (peer.toClient.extract 0 limit))
                toClient := peer.toClient.extract limit peer.toClient.size } := by
            simp only [occur, perform, read, hphase]
          exact ⟨by rw [hafter]; rfl, output_of_eq (by rw [hafter])⟩
      | readEnd =>
          have hafter : peer.occur (.does .readEnd now) =
              { peer with phase := .joined conn.receiveEnd } := by
            simp only [occur, perform, readEnd, hphase]
          exact ⟨by rw [hafter]; rfl, output_of_eq (by rw [hafter])⟩
      | request cluster payload timeout =>
          have hafter : peer.occur (.does (.request cluster payload timeout) now) =
              { peer with phase := .joined (conn.request cluster payload timeout now).2 } := by
            simp only [occur, perform, onConnection, hphase]
          exact ⟨by rw [hafter]; rfl, output_of_eq (by rw [hafter])⟩
      | poll key =>
          have hafter : peer.occur (.does (.poll key) now) =
              { peer with phase := .joined (conn.pollBy key now).2 } := by
            simp only [occur, perform, onConnection, hphase]
          exact ⟨by rw [hafter]; rfl, output_of_eq (by rw [hafter])⟩
      | act act =>
          have hafter : peer.occur (.does (.act act) now) =
              { peer with phase := .joined (conn.act act) } := by
            simp only [occur, perform, onConnection, hphase]
          exact ⟨by rw [hafter]; rfl, output_of_eq (by rw [hafter])⟩
  | arrives data => exact ⟨hphase, output_of_eq rfl⟩
  | departs count => exact ⟨hphase, output_of_departs peer count⟩
  | breaks fault =>
      have hafter : peer.occur (.breaks fault) =
          { peer with
            phase := .joined (conn.receiveFault (.host fault))
            toRelay := ByteArray.empty
            toClient := ByteArray.empty
            isBroken := true } := by
        simp only [occur, breakOff, hphase]
      exact ⟨by rw [hafter]; rfl, output_of_size_le (by rw [hafter]; exact Nat.zero_le _)⟩

theorem admitted_of_joined {peer : Peer} {conn : Connection} (hphase : peer.phase = .joined conn)
    (happening : Happening) :
    peer.admitted happening = (happening.step? peer).elim [] conn.admitted := by
  unfold admitted connection?
  rw [hphase]
  cases happening.step? peer <;> rfl

/-- A client that has failed writes nothing more. -/
theorem occur_of_failed {peer : Peer} {error : ClientError} (hphase : peer.phase = .failed error)
    (happening : Happening) :
    (peer.occur happening).phase = .failed error ∧ peer.output happening = ByteArray.empty := by
  cases happening with
  | does step now =>
      have hsame : (peer.perform now step).phase = .failed error ∧
          (peer.perform now step).toRelay = peer.toRelay := by
        cases step <;> simp only [perform, write, read, readEnd, onConnection, hphase, and_self]
      exact ⟨hsame.1, output_of_eq hsame.2⟩
  | arrives data => exact ⟨hphase, output_of_eq rfl⟩
  | departs count => exact ⟨hphase, output_of_departs peer count⟩
  | breaks fault =>
      have hafter : peer.occur (.breaks fault) =
          { peer with
            toRelay := ByteArray.empty
            toClient := ByteArray.empty
            isBroken := true } := by
        simp only [occur, breakOff, hphase]
      refine ⟨by rw [hafter]; exact hphase, output_of_size_le ?_⟩
      rw [hafter]
      exact Nat.zero_le _

/-- Before a client has joined, nothing is accepted. -/
theorem admitted_of_not_joined {peer : Peer} {happening : Happening}
    (hbefore : peer.connection? = none)
    (hafter : (peer.occur happening).connection? = none) : peer.admitted happening = [] := by
  unfold admitted
  rw [hbefore, hafter]
  rfl

/-- What a new connection has put into its queue already comes in when its client joins. -/
theorem admitted_of_joins {peer : Peer} {happening : Happening} {options : ConnectionOptions}
    {cluster connectionId : String} {decoder : Decoder} {data : ByteArray}
    (hbefore : peer.connection? = none)
    (hafter : (peer.occur happening).phase =
      .joined ((Connection.new options cluster connectionId decoder).perform (.receive data))) :
    peer.admitted happening =
      (Connection.new options cluster connectionId decoder).admitted (.receive data) := by
  have hjoined : (peer.occur happening).connection? =
      some ((Connection.new options cluster connectionId decoder).perform (.receive data)) := by
    unfold connection?
    rw [hafter]
  unfold admitted
  rw [hbefore, hjoined]
  rfl

/-- What becomes of a client that opens its stream. -/
inductive Opens (peer : Peer) (attempt : Opening) (happening : Happening) : Prop
  /-- It goes on, and writes more of its greeting. -/
  | goes (next : Opening) (hphase : (peer.occur happening).phase = .opening next)
      (hhello : next.hello = attempt.hello) (hle : attempt.written ≤ next.written)
      (hwithin : next.written ≤ attempt.hello.size)
      (houtput : peer.output happening = attempt.hello.extract attempt.written next.written)
  /-- It joins. Then it has written its greeting, and deals with what came behind the answer. -/
  | joins (connectionId : String) (decoder : Decoder) (hwritten : attempt.isWritten = true)
      (hphase : (peer.occur happening).phase =
        .joined ((Connection.new peer.options peer.cluster connectionId decoder).perform
          (.receive ByteArray.empty)))
      (houtput : peer.output happening = ByteArray.empty)
  /-- It fails. -/
  | fails (error : ClientError) (hphase : (peer.occur happening).phase = .failed error)
      (houtput : peer.output happening = ByteArray.empty)

/-- Where neither the attempt nor the stream to the relay is touched, the client goes on as
before. -/
theorem Opens.stays {peer : Peer} {attempt next : Opening} {happening : Happening}
    (hwithin : attempt.written ≤ attempt.hello.size)
    (hphase : (peer.occur happening).phase = .opening next) (hhello : next.hello = attempt.hello)
    (hwritten : next.written = attempt.written)
    (houtput : peer.output happening = ByteArray.empty) :
    peer.Opens attempt happening := by
  refine .goes next hphase hhello (Nat.le_of_eq hwritten.symm) (hwritten ▸ hwithin) ?_
  rw [houtput, hwritten]
  exact (ByteArray.extract_eq_empty_iff.2 (Nat.min_le_left _ _)).symm

/-- A client that waits for an answer reads it, once it has written its greeting. -/
theorem opens_read {peer : Peer} {attempt : Opening} (hphase : peer.phase = .opening attempt)
    (hwithin : attempt.written ≤ attempt.hello.size) (hwritten : attempt.isWritten = true)
    (limit : Nat) (now : Instant) : peer.Opens attempt (.does (.read limit) now) := by
  have hstream : (peer.occur (.does (.read limit) now)).toRelay = peer.toRelay := by
    simp only [occur, perform, read, hphase, if_pos hwritten]
    split <;> rfl
  cases hanswer : attempt.receive (peer.toClient.extract 0 limit) with
  | pending next =>
      have hafter : (peer.occur (.does (.read limit) now)).phase = .opening next := by
        simp only [occur, perform, read, hphase, if_pos hwritten, hanswer]
      obtain ⟨hhello, hsame⟩ := Opening.eq_of_pending hanswer
      exact .stays hwithin hafter hhello hsame (output_of_eq hstream)
  | accepted connectionId decoder =>
      refine .joins connectionId decoder hwritten ?_ (output_of_eq hstream)
      simp only [occur, perform, read, hphase, if_pos hwritten, hanswer]
      rfl
  | failed error =>
      refine .fails error ?_ (output_of_eq hstream)
      simp only [occur, perform, read, hphase, if_pos hwritten, hanswer]

theorem opens {peer : Peer} {attempt : Opening} (hphase : peer.phase = .opening attempt)
    (hwithin : attempt.written ≤ attempt.hello.size) (happening : Happening) :
    peer.Opens attempt happening := by
  -- The steps of a connection do nothing before there is one.
  have huntouched : peer.occur happening = peer → peer.Opens attempt happening := by
    intro hsame
    exact .stays hwithin (hsame.symm ▸ hphase) rfl rfl (output_of_eq (by rw [hsame]))
  cases happening with
  | does step now =>
      cases step with
      | write room =>
          have hafter : peer.occur (.does (.write room) now) =
              { peer with
                phase := .opening (attempt.write room).2
                toRelay := peer.toRelay ++ (attempt.write room).1 } := by
            simp only [occur, perform, write, hphase]
          refine .goes (attempt.write room).2 (by rw [hafter]) rfl ?_ (Nat.min_le_left _ _)
            (output_of_append (by rw [hafter]; rfl))
          exact Nat.le_min.2 ⟨hwithin, Nat.le_add_right _ _⟩
      | read limit =>
          by_cases hwritten : attempt.isWritten = true
          · exact opens_read hphase hwithin hwritten limit now
          · apply huntouched
            simp only [occur, perform, read, hphase, if_neg hwritten]
      | readEnd =>
          have hafter : peer.occur (.does .readEnd now) =
              { peer with phase := .failed .connectionClosed } := by
            simp only [occur, perform, readEnd, hphase]
          exact .fails _ (by rw [hafter]) (output_of_eq (by rw [hafter]))
      | request cluster payload timeout =>
          apply huntouched
          simp only [occur, perform, onConnection, hphase]
      | poll key =>
          apply huntouched
          simp only [occur, perform, onConnection, hphase]
      | act act =>
          apply huntouched
          simp only [occur, perform, onConnection, hphase]
  | arrives data => exact .stays hwithin hphase rfl rfl (output_of_eq rfl)
  | departs count => exact .stays hwithin hphase rfl rfl (output_of_departs peer count)
  | breaks fault =>
      have hafter : peer.occur (.breaks fault) =
          { peer with
            phase := .failed (.transport (.host fault))
            toRelay := ByteArray.empty
            toClient := ByteArray.empty
            isBroken := true } := by
        simp only [occur, breakOff, hphase]
      refine .fails _ (by rw [hafter]) (output_of_size_le ?_)
      rw [hafter]
      exact Nat.zero_le _

end Peer

/-! ## Runs -/

/-- A client in a run, all that it has written, and all items that have come into its write
queue. -/
structure Speech where
  peer : Peer
  written : ByteArray := ByteArray.empty
  accepted : List WriteItem := []

namespace Speech

/-- The record behind what happens. -/
def perform (speech : Speech) (happening : Happening) : Speech where
  peer := speech.peer.occur happening
  written := speech.written ++ speech.peer.output happening
  accepted := speech.accepted ++ speech.peer.admitted happening

section Perform

variable (speech : Speech) (happening : Happening)

@[simp] theorem perform_peer : (speech.perform happening).peer = speech.peer.occur happening := rfl

@[simp] theorem perform_written :
    (speech.perform happening).written = speech.written ++ speech.peer.output happening := rfl

@[simp] theorem perform_accepted :
    (speech.perform happening).accepted = speech.accepted ++ speech.peer.admitted happening := rfl

end Perform

/-- The record of what a client says from here on, behind the first `i` happenings of a run. -/
def stateAt (peer : Peer) (run : List Happening) (i : Nat) : Speech :=
  (run.take i).foldl perform { peer }

theorem stateAt_succ {peer : Peer} {run : List Happening} {i : Nat} {happening : Happening}
    (h : run[i]? = some happening) :
    stateAt peer run (i + 1) = (stateAt peer run i).perform happening := by
  unfold stateAt
  rw [List.take_add_one, h, List.foldl_append]
  rfl

theorem stateAt_succ_of_none {peer : Peer} {run : List Happening} {i : Nat} (h : run[i]? = none) :
    stateAt peer run (i + 1) = stateAt peer run i := by
  unfold stateAt
  rw [List.take_add_one, h, Option.toList_none, List.append_nil]

theorem countP_take_le (run : List Happening) (i : Nat) :
    (run.take i).countP Happening.isRequest ≤ run.countP Happening.isRequest :=
  (List.take_sublist i run).countP_le

theorem countP_take_succ {run : List Happening} {i : Nat} {happening : Happening}
    (h : run[i]? = some happening) :
    (run.take (i + 1)).countP Happening.isRequest =
      (run.take i).countP Happening.isRequest + happening.isRequest.toNat := by
  rw [List.take_add_one, h, List.countP_append, Option.toList_some, List.countP_singleton]
  cases happening.isRequest <;> rfl

/-- What holds at first, and is kept by every happening of a run, holds behind all of them. The
number of calls that have begun counts up. -/
theorem stateAt_induction {peer : Peer} {run : List Happening} {P : Nat → Speech → Prop} {i j : Nat}
    (hle : i ≤ j) (hfirst : P ((run.take i).countP Happening.isRequest) (stateAt peer run i))
    (hstep : ∀ calls speech happening,
      calls + happening.isRequest.toNat ≤ run.countP Happening.isRequest →
      P calls speech → P (calls + happening.isRequest.toNat) (speech.perform happening)) :
    P ((run.take j).countP Happening.isRequest) (stateAt peer run j) := by
  induction j, hle using Nat.le_induction with
  | base => exact hfirst
  | succ j hle ih =>
      cases hrun : run[j]? with
      | none =>
          rw [stateAt_succ_of_none hrun, List.take_add_one, hrun, Option.toList_none,
            List.append_nil]
          exact ih
      | some happening =>
          have hcalls := countP_take_succ hrun
          rw [stateAt_succ hrun, hcalls]
          exact hstep _ _ happening (hcalls ▸ countP_take_le run (j + 1)) ih

/-- What has been written and accepted stays. -/
theorem grows (peer : Peer) (run : List Happening) {i j : Nat} (hle : i ≤ j) :
    (stateAt peer run i).accepted <+: (stateAt peer run j).accepted ∧
      StartsWith (stateAt peer run j).written (stateAt peer run i).written := by
  refine stateAt_induction (P := fun _ speech =>
    (stateAt peer run i).accepted <+: speech.accepted ∧
      StartsWith speech.written (stateAt peer run i).written) hle ?_ ?_
  · exact ⟨List.prefix_rfl, .refl _⟩
  · rintro calls speech happening - ⟨haccepted, hwritten⟩
    exact ⟨haccepted.trans (List.prefix_append _ _), (StartsWith.append _ _).trans hwritten⟩

end Speech

/-! ## What a run keeps -/

namespace Connection

/-- A connection that has written and accepted so much behind a greeting, when `calls` calls have
begun. -/
structure Talking (hello : ByteArray) (calls : Nat) (written : ByteArray)
    (accepted : List WriteItem)
    (conn : Connection) : Prop where
  sound : conn.Sound
  wire : Wire hello written accepted conn
  placed : Placed accepted conn
  numbered : calls < UInt64.size → ∃ drawn ≤ calls, Numbered accepted drawn conn

theorem talking_new (hello : ByteArray) (calls : Nat) (options : ConnectionOptions)
    (cluster connectionId : String) (decoder : Decoder) :
    Talking hello calls hello [] (new options cluster connectionId decoder) where
  sound := sound_new options cluster connectionId decoder
  wire := wire_new hello options cluster connectionId decoder
  placed := placed_new options cluster connectionId decoder
  numbered := fun _ => ⟨0, Nat.zero_le _, numbered_new options cluster connectionId decoder⟩

/-- More calls may have begun, and come to nothing. -/
theorem Talking.more {hello : ByteArray} {calls calls' : Nat} {written : ByteArray}
    {accepted : List WriteItem} {conn : Connection} (h : Talking hello calls written accepted conn)
    (hle : calls ≤ calls') : Talking hello calls' written accepted conn :=
  { h with
    numbered := by
      intro hcalls
      obtain ⟨drawn, hdrawn, hnumbered⟩ := h.numbered (hle.trans_lt hcalls)
      exact ⟨drawn, hdrawn.trans hle, hnumbered⟩ }

/-- Numbers last as long as there are more of them than calls. -/
theorem drawn_le {conn : Connection} {calls drawn : Nat} (hsound : conn.Sound) (step : Step)
    (hdrawn : drawn ≤ calls) : drawn + conn.drawnBy step ≤ calls + step.isRequest.toNat := by
  have hby := conn.drawnBy_le step hsound
  refine Nat.add_le_add hdrawn (hby.trans ?_)
  cases step.isRequest <;> simp

theorem Talking.perform {hello : ByteArray} {calls : Nat} {written : ByteArray}
    {accepted : List WriteItem} {conn : Connection} (h : Talking hello calls written accepted conn)
    (step : Step) :
    Talking hello (calls + step.isRequest.toNat) (written ++ conn.output step)
      (accepted ++ conn.admitted step) (conn.perform step) where
  sound := sound_perform h.sound step
  wire := h.wire.perform step
  placed := h.placed.perform h.sound step
  numbered := by
    intro hcalls
    obtain ⟨drawn, hdrawn, hnumbered⟩ :=
      h.numbered (Nat.lt_of_le_of_lt (Nat.le_add_right _ _) hcalls)
    have hle := drawn_le h.sound step hdrawn
    exact ⟨_, hle, hnumbered.perform h.sound step (Nat.lt_of_le_of_lt hle hcalls)⟩

end Connection

namespace Speech

/-- How far a client has come with what it says, when `calls` calls have begun. -/
inductive Stage (hello : ByteArray) (calls : Nat) (speech : Speech) : Prop
  /-- It is at its greeting. -/
  | greeting (attempt : Opening) (hphase : speech.peer.phase = .opening attempt)
      (hhello : attempt.hello = hello) (hwithin : attempt.written ≤ attempt.hello.size)
      (hwritten : speech.written = hello.extract 0 attempt.written)
      (haccepted : speech.accepted = [])
  /-- It has joined. -/
  | joined (conn : Connection) (hphase : speech.peer.phase = .joined conn)
      (htalking : conn.Talking hello calls speech.written speech.accepted)
  /-- It has failed before it could join. -/
  | failed (error : ClientError) (hphase : speech.peer.phase = .failed error)
      (hwritten : StartsWith hello speech.written) (haccepted : speech.accepted = [])

variable {hello : ByteArray} {calls : Nat} {speech : Speech}

/-- A client that has joined takes a step of its connection, or none. -/
theorem perform_of_joined {conn : Connection} (hphase : speech.peer.phase = .joined conn)
    (happening : Happening) :
    ((speech.perform happening).peer.phase = .joined conn ∧
        (speech.perform happening).written = speech.written ∧
        (speech.perform happening).accepted = speech.accepted) ∨
      ∃ step, step.isRequest = happening.isRequest ∧
        (speech.perform happening).peer.phase = .joined (conn.perform step) ∧
        (speech.perform happening).written = speech.written ++ conn.output step ∧
        (speech.perform happening).accepted = speech.accepted ++ conn.admitted step := by
  obtain ⟨hafter, houtput⟩ := Peer.occur_of_joined hphase happening
  have hadmitted := Peer.admitted_of_joined hphase happening
  have hwritten : (speech.perform happening).written = speech.written ++ _ :=
    congrArg (speech.written ++ ·) houtput
  have haccepted : (speech.perform happening).accepted = speech.accepted ++ _ :=
    congrArg (speech.accepted ++ ·) hadmitted
  cases hstep : happening.step? speech.peer with
  | none =>
      rw [hstep] at hafter hwritten haccepted
      refine Or.inl ⟨hafter, ?_, ?_⟩
      · rw [hwritten, Option.elim_none, ByteArray.append_empty]
      · rw [haccepted, Option.elim_none, List.append_nil]
  | some step =>
      rw [hstep] at hafter hwritten haccepted
      exact Or.inr ⟨step, Happening.isRequest_of_step? hstep, hafter, hwritten, haccepted⟩

/-- Nothing has been accepted as long as a client has not joined. -/
theorem accepted_of_not_joined {happening : Happening} (hnothing : speech.accepted = [])
    (hbefore : speech.peer.connection? = none)
    (hafter : (speech.perform happening).peer.connection? = none) :
    (speech.perform happening).accepted = [] := by
  rw [perform_accepted, hnothing, Peer.admitted_of_not_joined hbefore hafter]
  rfl

/-- A client at its greeting writes on, joins behind it, or fails. -/
theorem stage_of_greeting {attempt : Opening} (hphase : speech.peer.phase = .opening attempt)
    (hwithin : attempt.written ≤ attempt.hello.size)
    (hwritten : speech.written = attempt.hello.extract 0 attempt.written)
    (hnothing : speech.accepted = []) (happening : Happening) :
    Stage attempt.hello calls (speech.perform happening) := by
  have hbefore : speech.peer.connection? = none := by simp only [Peer.connection?, hphase]
  cases speech.peer.opens hphase hwithin happening with
  | goes next hnext hhello hle hwithin houtput =>
      have hafter : (speech.perform happening).peer.connection? = none := by
        simp only [perform_peer, Peer.connection?, hnext]
      refine .greeting next hnext hhello (hhello ▸ hwithin) ?_
        (accepted_of_not_joined hnothing hbefore hafter)
      rw [perform_written, hwritten, houtput, Connection.Wire.extract_append_extract_of_le hle]
  | fails error hfailed houtput =>
      have hafter : (speech.perform happening).peer.connection? = none := by
        simp only [perform_peer, Peer.connection?, hfailed]
      refine .failed error hfailed ?_ (accepted_of_not_joined hnothing hbefore hafter)
      rw [perform_written, hwritten, houtput, ByteArray.append_empty]
      exact .extract _ _
  | joins connectionId decoder hwhole hjoined houtput =>
      -- The greeting has been written, and the connection begins behind it.
      have hsize : attempt.written = attempt.hello.size :=
        Nat.le_antisymm hwithin (of_decide_eq_true hwhole)
      have htalking := (Connection.talking_new attempt.hello calls speech.peer.options
        speech.peer.cluster connectionId decoder).perform (.receive ByteArray.empty)
      refine .joined _ hjoined ?_
      rw [perform_written, perform_accepted, hwritten, hnothing, houtput, hsize,
        ByteArray.extract_zero_size, Peer.admitted_of_joins hbefore hjoined]
      exact htalking

/-- Whatever happens at a client, it goes on saying what it has begun. -/
theorem Stage.perform (h : Stage hello calls speech) (happening : Happening) :
    Stage hello (calls + happening.isRequest.toNat) (speech.perform happening) := by
  cases h with
  | greeting attempt hphase hhello hwithin hwritten haccepted =>
      subst hhello
      exact stage_of_greeting hphase hwithin hwritten haccepted happening
  | joined conn hphase htalking =>
      rcases perform_of_joined hphase happening with
          ⟨hafter, hwritten, haccepted⟩ | ⟨step, hrequest, hafter, hwritten, haccepted⟩
      · refine .joined conn hafter ?_
        rw [hwritten, haccepted]
        exact htalking.more (Nat.le_add_right _ _)
      · refine .joined (conn.perform step) hafter ?_
        rw [hwritten, haccepted, ← hrequest]
        exact htalking.perform step
  | failed error hphase hwritten haccepted =>
      have hbefore : speech.peer.connection? = none := by simp only [Peer.connection?, hphase]
      obtain ⟨hfailed, houtput⟩ := Peer.occur_of_failed hphase happening
      have hafter : (speech.perform happening).peer.connection? = none := by
        simp only [perform_peer, Peer.connection?, hfailed]
      refine .failed error hfailed ?_ (accepted_of_not_joined haccepted hbefore hafter)
      rw [perform_written, houtput, ByteArray.append_empty]
      exact hwritten

/-! ## Calls that leave the line -/

/-- A call that has left the line: its number has been drawn, and is with no frame. -/
inductive Withdrawn (id : RequestId) (calls : Nat) (speech : Speech) : Prop
  | intro (conn : Connection) (drawn : Nat) (hphase : speech.peer.phase = .joined conn)
      (hsound : conn.Sound) (hdrawn : drawn ≤ calls)
      (hnumbered : conn.Numbered speech.accepted drawn)
      (hretired : conn.Retired id speech.accepted drawn)

theorem Withdrawn.perform {id : RequestId} (h : Withdrawn id calls speech) (happening : Happening)
    (hcalls : calls + happening.isRequest.toNat < UInt64.size) :
    Withdrawn id (calls + happening.isRequest.toNat) (speech.perform happening) := by
  obtain ⟨conn, drawn, hphase, hsound, hdrawn, hnumbered, hretired⟩ := h
  rcases perform_of_joined hphase happening with
      ⟨hafter, -, haccepted⟩ | ⟨step, hrequest, hafter, -, haccepted⟩
  · refine ⟨conn, drawn, hafter, hsound, hdrawn.trans (Nat.le_add_right _ _), ?_, ?_⟩
    · rwa [haccepted]
    · rwa [haccepted]
  · have hle := Connection.drawn_le hsound step hdrawn
    rw [hrequest] at hle
    have hlast := hle.trans_lt hcalls
    refine ⟨_, _, hafter, Connection.sound_perform hsound step, hle, ?_, ?_⟩
    · rw [haccepted]
      exact hnumbered.perform hsound step hlast
    · rw [haccepted]
      exact hretired.perform hnumbered hsound step hlast

/-- A call that ends while its frame stands in line leaves it with the frame. -/
theorem withdrawn_of_left {conn after : Connection} (hphase : speech.peer.phase = .joined conn)
    (htalking : conn.Talking hello calls speech.written speech.accepted) {happening : Happening}
    (hafter : (speech.perform happening).peer.phase = .joined after)
    (hcalls : calls + happening.isRequest.toNat < UInt64.size) {call : Call}
    (hcall : call ∈ conn.calls) (hholds : conn.queue.holds call.key = true)
    (hgone : call ∉ after.calls) :
    Withdrawn call.id (calls + happening.isRequest.toNat) (speech.perform happening) := by
  obtain ⟨drawn, hdrawn, hnumbered⟩ := htalking.numbered ((Nat.le_add_right _ _).trans_lt hcalls)
  rcases perform_of_joined hphase happening with
      ⟨hnow, -, haccepted⟩ | ⟨step, hrequest, hnow, -, haccepted⟩
  · -- Nobody has taken a step, and the call is still there.
    cases hafter.symm.trans hnow
    exact absurd hcall hgone
  · cases hafter.symm.trans hnow
    have hle := Connection.drawn_le htalking.sound step hdrawn
    rw [hrequest] at hle
    have hlast := hle.trans_lt hcalls
    refine ⟨_, _, hnow, Connection.sound_perform htalking.sound step, hle, ?_, ?_⟩
    · rw [haccepted]
      exact hnumbered.perform htalking.sound step hlast
    · rw [haccepted]
      exact Connection.retired_of_dropped htalking.placed hnumbered htalking.sound step hcall
        hholds hgone

/-! ## All that a client says -/

/-- The greeting of a client. -/
def greetingOf (peer : Peer) : Message := .hello peer.cluster peer.options.clientName

/-- What a client says in a run, behind a greeting. -/
structure Speaks (hello : ByteArray) (peer : Peer) (run : List Happening) : Prop where
  /-- What has been written is the beginning of the greeting and of what the accepted items
  spell. -/
  starts :
    ∀ i, StartsWith (hello ++ script (stateAt peer run i).accepted) (stateAt peer run i).written
  /-- While the queue is open, what has been accepted are the frames that have been written whole,
  the item that the writer is at, and those in the queue, each once and in this order. -/
  queued : ∀ i conn, (stateAt peer run i).peer.phase = .joined conn → conn.queue.isOpen = true →
    ∃ done, (∀ item ∈ done, item.isFrame = true) ∧
      (stateAt peer run i).accepted = done ++ (conn.writer.held ++ conn.queue.items) ∧
      (stateAt peer run i).written = hello ++ (script done ++ conn.writer.progress)
  /-- What has been written and accepted stays. -/
  grows : ∀ i j, i ≤ j → (stateAt peer run i).accepted <+: (stateAt peer run j).accepted ∧
    StartsWith (stateAt peer run j).written (stateAt peer run i).written
  /-- Every frame is that of one request or of one answer. -/
  frames : ∀ i frame, .frame frame ∈ (stateAt peer run i).accepted → Uttered frame
  /-- The last frame is that of one closing message. -/
  farewells : ∀ i bytes, .shutdown (some bytes) ∈ (stateAt peer run i).accepted →
    bytes = (Message.close none).bytes
  /-- Nothing comes behind a frame that has been accepted before it has been written whole. -/
  whole : ∀ i j front frame back, i ≤ j →
    (stateAt peer run i).accepted = front ++ .frame frame :: back →
      (∀ item ∈ front, item.isFrame = true) →
        StartsWith (hello ++ (script front ++ frame)) (stateAt peer run j).written ∨
          StartsWith (stateAt peer run j).written (hello ++ (script front ++ frame))
  /-- Nothing at all comes behind the order to end the stream and its last frame. -/
  last : ∀ i j front farewell back, i ≤ j →
    (stateAt peer run i).accepted = front ++ .shutdown farewell :: back →
      StartsWith (hello ++ (script front ++ farewell.getD ByteArray.empty))
        (stateAt peer run j).written
  /-- When the queue is closed, nothing more is written. -/
  ceases : ∀ i j conn, i ≤ j → (stateAt peer run i).peer.phase = .joined conn →
    conn.queue.isOpen = false → (stateAt peer run j).written = (stateAt peer run i).written
  /-- As long as the numbers last, no two requests have the same, and none has the number zero. -/
  numbers : run.countP Happening.isRequest < UInt64.size → ∀ i,
    (requestIds (stateAt peer run i).accepted).Nodup ∧
      ∀ id ∈ requestIds (stateAt peer run i).accepted, id.value ≠ 0
  /-- A call that does not begin leaves stream, queue and line as they are. -/
  refused : ∀ i conn cluster payload timeout now,
    run[i]? = some (.does (.request cluster payload timeout) now) →
      (stateAt peer run i).peer.phase = .joined conn →
        (∀ key, (conn.request cluster payload timeout now).1 ≠ .started key) →
          (stateAt peer run (i + 1)).accepted = (stateAt peer run i).accepted ∧
            (stateAt peer run (i + 1)).written = (stateAt peer run i).written ∧
            ∃ after, (stateAt peer run (i + 1)).peer.phase = .joined after ∧
            after.queue = conn.queue
  /-- While the queue is open, the frame of a call in progress stands in line, or it has been
  accepted. -/
  placed : ∀ i conn call, (stateAt peer run i).peer.phase = .joined conn →
    conn.queue.isOpen = true → call ∈ conn.calls → conn.queue.holds call.key = true ∨
      ∃ frame, .frame frame ∈ (stateAt peer run i).accepted ∧ askedIn frame = some call.id
  /-- As long as the numbers last, the frame of a call that ends in line is never accepted. -/
  leaves : run.countP Happening.isRequest < UInt64.size → ∀ i conn after call,
    (stateAt peer run i).peer.phase = .joined conn →
      (stateAt peer run (i + 1)).peer.phase = .joined after →
      call ∈ conn.calls → conn.queue.holds call.key = true → call ∉ after.calls →
        ∀ j frame, .frame frame ∈ (stateAt peer run j).accepted → askedIn frame ≠ some call.id

section Run

variable {peer : Peer} {attempt : Opening} {run : List Happening}

theorem start_of_fits {cluster : String} {name : Option String}
    (hfits : (Message.hello cluster name).Fits) :
    Opening.start cluster name = .ok { hello := (Message.hello cluster name).bytes } := by
  rw [Opening.start, Message.encode_of_fits hfits]

theorem stage_start (hstart : Opening.start peer.cluster peer.options.clientName = .ok attempt)
    (hphase : peer.phase = .opening attempt) :
    (greetingOf peer).Fits ∧ Stage (greetingOf peer).bytes 0 { peer } := by
  by_cases hfits : (greetingOf peer).Fits
  · have hattempt : attempt = { hello := (greetingOf peer).bytes } :=
      Except.ok.inj (hstart.symm.trans (start_of_fits hfits))
    subst hattempt
    refine ⟨hfits, .greeting _ hphase rfl (Nat.zero_le _) ?_ rfl⟩
    exact (ByteArray.extract_eq_empty_iff.2 (by simp)).symm
  · obtain ⟨fault, hfault⟩ := Message.encode_of_not_fits hfits
    rw [greetingOf] at hfault
    rw [Opening.start, hfault] at hstart
    cases hstart

theorem Stage.starts (h : Stage hello calls speech) :
    StartsWith (hello ++ script speech.accepted) speech.written := by
  cases h with
  | greeting attempt hphase hhello hwithin hwritten haccepted =>
      rw [haccepted, hwritten]
      exact (StartsWith.append hello _).trans (.extract hello _)
  | joined conn hphase htalking => exact htalking.wire.starts
  | failed error hphase hwritten haccepted =>
      rw [haccepted]
      exact (StartsWith.append hello _).trans hwritten

/-- A client that has a connection talks. -/
theorem Stage.talking (h : Stage hello calls speech) {conn : Connection}
    (hphase : speech.peer.phase = .joined conn) :
    conn.Talking hello calls speech.written speech.accepted := by
  cases h with
  | greeting attempt hopening => cases hphase.symm.trans hopening
  | failed error hfailed => cases hphase.symm.trans hfailed
  | joined other hjoined htalking =>
      cases hphase.symm.trans hjoined
      exact htalking

/-- Only a client that has a connection has accepted something. -/
theorem Stage.joined_of_mem (h : Stage hello calls speech) {item : WriteItem}
    (hitem : item ∈ speech.accepted) :
    ∃ conn : Connection, conn.Talking hello calls speech.written speech.accepted := by
  cases h with
  | greeting attempt hopening hhello hwithin hwritten haccepted =>
      rw [haccepted] at hitem
      cases hitem
  | failed error hfailed hwritten haccepted =>
      rw [haccepted] at hitem
      cases hitem
  | joined conn hjoined htalking => exact ⟨conn, htalking⟩

theorem Stage.numbers (h : Stage hello calls speech) (hcalls : calls < UInt64.size) :
    (requestIds speech.accepted).Nodup ∧ ∀ id ∈ requestIds speech.accepted, id.value ≠ 0 := by
  have hnumbers : ∀ {conn : Connection}, conn.Talking hello calls speech.written speech.accepted →
      (requestIds speech.accepted).Nodup ∧ ∀ id ∈ requestIds speech.accepted, id.value ≠ 0 := by
    intro conn htalking
    obtain ⟨drawn, -, hnumbered⟩ := htalking.numbered hcalls
    refine ⟨(List.nodup_append.1 hnumbered.distinct).1, fun id hid hzero => ?_⟩
    have hpos := (hnumbered.issued id (List.mem_append_left _ hid)).1
    rw [hzero] at hpos
    exact absurd hpos (by decide)
  cases hitems : speech.accepted with
  | nil => exact ⟨List.nodup_nil, fun _ hid => nomatch hid⟩
  | cons item items =>
      obtain ⟨conn, htalking⟩ := h.joined_of_mem (hitems ▸ List.mem_cons_self)
      exact hitems ▸ hnumbers htalking

/-- A call that does not begin leaves stream, queue and line as they are. -/
theorem perform_of_refused {conn : Connection} {cluster : String} {payload : ByteArray}
    {timeout : Duration} {now : Instant} (hphase : speech.peer.phase = .joined conn)
    (h : ∀ key, (conn.request cluster payload timeout now).1 ≠ .started key) :
    (speech.perform (.does (.request cluster payload timeout) now)).accepted = speech.accepted ∧
      (speech.perform (.does (.request cluster payload timeout) now)).written = speech.written ∧
      ∃ after, (speech.perform (.does (.request cluster payload timeout) now)).peer.phase =
        .joined after ∧ after.queue = conn.queue := by
  have hqueue := Connection.queue_of_not_started conn h
  obtain ⟨hafter, houtput⟩ :=
    Peer.occur_of_joined hphase (.does (.request cluster payload timeout) now)
  have hadmitted := Peer.admitted_of_joined hphase (.does (.request cluster payload timeout) now)
  have hnone : conn.admitted (.request cluster payload timeout now) = [] :=
    Connection.admitted_of_items rfl ((congrArg _ hqueue).trans (List.append_nil _).symm)
  refine ⟨?_, ?_, _, hafter, hqueue⟩
  · rw [perform_accepted, hadmitted]
    show speech.accepted ++ conn.admitted _ = _
    rw [hnone, List.append_nil]
  · rw [perform_written, houtput]
    exact ByteArray.append_empty

/-- A client whose queue is closed has said all that it will say. -/
theorem Stage.ceased (h : Stage hello calls speech) {conn : Connection}
    (hphase : speech.peer.phase = .joined conn) (hclosed : conn.queue.isOpen = false)
    (happening : Happening) :
    (speech.perform happening).written = speech.written ∧
      ∃ after, (speech.perform happening).peer.phase = .joined after ∧
        after.queue.isOpen = false := by
  have hwire := (h.talking hphase).wire
  rcases perform_of_joined hphase happening with
      ⟨hafter, hwritten, -⟩ | ⟨step, -, hafter, hwritten, -⟩
  · exact ⟨hwritten, conn, hafter, hclosed⟩
  · refine ⟨?_, _, hafter, Connection.closed_perform hclosed step⟩
    rw [hwritten, hwire.output_of_closed hclosed step, ByteArray.append_empty]

/-- A call that has left the line is not heard of again, and was not before. -/
theorem Withdrawn.absent {id : RequestId} (h : Withdrawn id calls speech) :
    id ∉ requestIds speech.accepted := by
  obtain ⟨conn, drawn, -, -, -, -, hretired⟩ := h
  exact fun hid => hretired.absent (List.mem_append_left _ hid)

/-- Behind every part of a run, a client is at some stage of what it says. -/
def Staged (hello : ByteArray) (peer : Peer) (run : List Happening) : Prop :=
  ∀ i, Stage hello ((run.take i).countP Happening.isRequest) (stateAt peer run i)

theorem staged_of_start (hstart : Opening.start peer.cluster peer.options.clientName = .ok attempt)
    (hphase : peer.phase = .opening attempt) : Staged (greetingOf peer).bytes peer run := by
  intro i
  refine stateAt_induction (P := Stage (greetingOf peer).bytes) (Nat.zero_le i) ?_ ?_
  · exact (stage_start hstart hphase).2
  · exact fun calls speech happening _ hstage => hstage.perform happening

namespace Staged

variable {i j : Nat} (h : Staged hello peer run)

include h

/-- What has been written ends within a frame that has been accepted, or before it, or begins with
all that there is up to its end. -/
theorem whole {front back : List WriteItem} {frame : ByteArray} (hle : i ≤ j)
    (haccepted : (stateAt peer run i).accepted = front ++ .frame frame :: back)
    (hfront : ∀ item ∈ front, item.isFrame = true) :
    StartsWith (hello ++ (script front ++ frame)) (stateAt peer run j).written ∨
      StartsWith (stateAt peer run j).written (hello ++ (script front ++ frame)) := by
  obtain ⟨more, hmore⟩ := (grows peer run hle).1
  have hscript : script (stateAt peer run j).accepted =
      script front ++ frame ++ script (back ++ more) := by
    rw [← hmore, haccepted, List.append_assoc, script_append hfront, List.cons_append, script,
      ByteArray.append_assoc]
  have hstarts := (h j).starts
  rw [hscript] at hstarts
  exact hstarts.total ((StartsWith.append _ _).append_left _)

/-- What has been written ends with the last frame, or before. -/
theorem last {front back : List WriteItem} {farewell : Option ByteArray} (hle : i ≤ j)
    (haccepted : (stateAt peer run i).accepted = front ++ .shutdown farewell :: back) :
    StartsWith (hello ++ (script front ++ farewell.getD ByteArray.empty))
      (stateAt peer run j).written := by
  obtain ⟨more, hmore⟩ := (grows peer run hle).1
  have hstarts := (h j).starts
  rw [← hmore, haccepted, List.append_assoc, List.cons_append] at hstarts
  exact ((startsWith_script_shutdown front farewell (back ++ more)).append_left _).trans hstarts

theorem ceases {conn : Connection} (hle : i ≤ j)
    (hjoined : (stateAt peer run i).peer.phase = .joined conn)
    (hclosed : conn.queue.isOpen = false) :
    (stateAt peer run j).written = (stateAt peer run i).written := by
  refine (stateAt_induction (P := fun calls speech =>
    Stage hello calls speech ∧ speech.written = (stateAt peer run i).written ∧
      ∃ conn, speech.peer.phase = .joined conn ∧ conn.queue.isOpen = false) hle ?_ ?_).2.1
  · exact ⟨h i, rfl, conn, hjoined, hclosed⟩
  · rintro calls speech happening - ⟨hspeech, hwritten, conn, hjoined, hclosed⟩
    obtain ⟨hsame, hafter⟩ := hspeech.ceased hjoined hclosed happening
    exact ⟨hspeech.perform happening, hsame.trans hwritten, hafter⟩

/-- The frame of a call that ends in line is never accepted. -/
theorem leaves (hcalls : run.countP Happening.isRequest < UInt64.size) {conn after : Connection}
    {call : Call} (hjoined : (stateAt peer run i).peer.phase = .joined conn)
    (hafter : (stateAt peer run (i + 1)).peer.phase = .joined after) (hcall : call ∈ conn.calls)
    (hholds : conn.queue.holds call.key = true) (hgone : call ∉ after.calls) (j : Nat) :
    call.id ∉ requestIds (stateAt peer run j).accepted := by
  cases hrun : run[i]? with
  | none =>
      rw [stateAt_succ_of_none hrun, hjoined] at hafter
      cases hafter
      exact absurd hcall hgone
  | some happening =>
      have hnext : (run.take (i + 1)).countP Happening.isRequest =
          (run.take i).countP Happening.isRequest + happening.isRequest.toNat :=
        countP_take_succ hrun
      have hleft : Withdrawn call.id ((run.take (i + 1)).countP Happening.isRequest)
          (stateAt peer run (i + 1)) := by
        rw [stateAt_succ hrun] at hafter ⊢
        rw [hnext]
        exact withdrawn_of_left hjoined ((h i).talking hjoined) hafter
          (hnext ▸ (countP_take_le run (i + 1)).trans_lt hcalls) hcall hholds hgone
      have habsent : ∀ k, i + 1 ≤ k → call.id ∉ requestIds (stateAt peer run k).accepted := by
        intro k hle
        refine (stateAt_induction (P := Withdrawn call.id) hle hleft ?_).absent
        exact fun calls speech happening hbound hwithdrawn =>
          hwithdrawn.perform happening (hbound.trans_lt hcalls)
      -- What was accepted before the call ended is still there behind its end.
      intro hid
      have hlater := (grows peer run (Nat.le_max_left j (i + 1))).1
      obtain ⟨frame, hframe, hasked⟩ := mem_requestIds.1 hid
      exact habsent _ (Nat.le_max_right j (i + 1))
        (mem_requestIds.2 ⟨frame, hlater.subset hframe, hasked⟩)

end Staged

/-- In any run of a client, what it says is one greeting and the accepted frames behind it, each
whole and in order, up to the last one. -/
theorem speaks_of_start (hstart : Opening.start peer.cluster peer.options.clientName = .ok attempt)
    (hphase : peer.phase = .opening attempt) (run : List Happening) :
    (greetingOf peer).Fits ∧ Speaks (greetingOf peer).bytes peer run := by
  have hstaged : Staged (greetingOf peer).bytes peer run := staged_of_start hstart hphase
  refine ⟨(stage_start hstart hphase).1, ?_⟩
  constructor
  case starts => exact fun i => (hstaged i).starts
  case queued =>
    intro i conn hjoined hopen
    cases ((hstaged i).talking hjoined).wire with
    | live done hdone _ _ _ haccepted hwritten => exact ⟨done, hdone, haccepted, hwritten⟩
    | ceased hclosed _ _ =>
        rw [hopen] at hclosed
        cases hclosed
  case grows => exact fun i j hle => grows peer run hle
  case frames =>
    intro i frame hframe
    obtain ⟨conn, htalking⟩ := (hstaged i).joined_of_mem hframe
    exact htalking.placed.frames frame hframe
  case farewells =>
    intro i bytes hbytes
    obtain ⟨conn, htalking⟩ := (hstaged i).joined_of_mem hbytes
    exact htalking.placed.farewells bytes hbytes
  case whole => exact fun i j front frame back hle => hstaged.whole hle
  case last => exact fun i j front farewell back hle => hstaged.last hle
  case ceases => exact fun i j conn hle => hstaged.ceases hle
  case numbers => exact fun hcalls i => (hstaged i).numbers ((countP_take_le run i).trans_lt hcalls)
  case refused =>
    intro i conn cluster payload timeout now hrun hjoined hrefused
    rw [stateAt_succ hrun]
    exact perform_of_refused hjoined hrefused
  case placed =>
    intro i conn call hjoined hopen hcall
    exact (((hstaged i).talking hjoined).placed.placed call hcall hopen).imp_right mem_requestIds.1
  case leaves =>
    intro hcalls i conn after call hjoined hafter hcall hholds hgone j frame hframe hasked
    exact hstaged.leaves hcalls hjoined hafter hcall hholds hgone j
      (mem_requestIds.2 ⟨frame, hframe, hasked⟩)

end Run

/-- A client that is at its greeting, and whose write queue holds one item. -/
def greeter : Peer where
  name := "greeter"
  cluster := "c"
  options := { ConnectionOptions.new Network.remote with writeQueueCapacity := 1 }
  phase := .opening { hello := (Message.hello "c" none).bytes }
  link := 0

/-- The greeting is written in two parts, and the answer comes with a request of somebody else. Of
five calls the first is given up while its frame is being written, the second and the fourth go on,
the third gives up in line and the fifth is refused. The streams break off in the closing
message. -/
def crowdedRun : List Happening :=
  [.does (.write 10) 0, .arrives (Message.welcome "conn-1").bytes,
    .arrives (Message.request ⟨9⟩ "c" 50 ⟨#[9]⟩).bytes, .does (.read 1000) 0, .does (.write 1000) 0,
    .does (.read 1000) 0, .does (.request "svc" ⟨#[1]⟩ (.ofMillis 5)) 0, .does (.act .takeItem) 0,
    .does (.write 7) 0, .does (.request "svc" ⟨#[2]⟩ (.ofMillis 50)) 0,
    .does (.request "svc" ⟨#[3]⟩ (.ofMillis 5)) 0, .does (.request "svc" ⟨#[4]⟩ (.ofMillis 50)) 0,
    .does (.request "svc" ⟨#[5]⟩ .zero) 0, .does (.act (.complete 0 (.answered ⟨#[8]⟩))) 0,
    .does (.poll 2) 6000000, .does (.act (.abandon 0)) 0, .departs 20, .does (.write 1000) 0,
    .does (.act .takeItem) 0, .does (.write 1000) 0, .does (.act .takeItem) 0,
    .does (.write 1000) 0,
    .does (.act .takeItem) 0, .does (.act .close) 0, .does (.write 1000) 0,
    .does (.act .takeItem) 0,
    .does (.write 5) 0, .breaks .brokenPipe, .does (.act (.writeFault (.host .brokenPipe))) 0,
    .does (.request "svc" ⟨#[6]⟩ (.ofMillis 5)) 0]

theorem said_crowdedRun :
    requestIds (stateAt greeter crowdedRun 30).accepted = [⟨1⟩, ⟨2⟩, ⟨4⟩] ∧
      (stateAt greeter crowdedRun 30).accepted.map WriteItem.isFrame =
        [true, true, true, true, false] ∧
      (stateAt greeter crowdedRun 30).written.size + (Message.close none).bytes.size =
        (greetingOf greeter).bytes.size + (script (stateAt greeter crowdedRun 30).accepted).size +
          5 := by
  decide +kernel

/-- The client has written its greeting, the frames of three calls and of one answer, and five bytes
of the closing message. -/
theorem speaks_of_crowdedRun :
    Opening.start greeter.cluster greeter.options.clientName =
        .ok { hello := (Message.hello "c" none).bytes } ∧
      crowdedRun.countP Happening.isRequest < UInt64.size ∧
      requestIds (stateAt greeter crowdedRun 30).accepted = [⟨1⟩, ⟨2⟩, ⟨4⟩] ∧
      (stateAt greeter crowdedRun 30).accepted.map WriteItem.isFrame =
        [true, true, true, true, false] ∧
      (stateAt greeter crowdedRun 30).written.size + (Message.close none).bytes.size =
        (greetingOf greeter).bytes.size + (script (stateAt greeter crowdedRun 30).accepted).size +
          5 ∧
      Speaks (greetingOf greeter).bytes greeter crowdedRun := by
  have hstart : Opening.start greeter.cluster greeter.options.clientName =
      .ok { hello := (Message.hello "c" none).bytes } := start_of_fits (by decide)
  obtain ⟨hnumbers, hframes, hsize⟩ := said_crowdedRun
  exact ⟨hstart, by decide, hnumbers, hframes, hsize, (speaks_of_start hstart rfl crowdedRun).2⟩

end Speech

end Switchboard
