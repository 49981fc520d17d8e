import Switchboard.Proofs.Connection.FirstAnswers
import Switchboard.Proofs.Connection.Loss

/-!
# What the reader makes of what it has taken off the stream

The reader deals with the messages that it hears, up to the first thing that ends the session
(`heard`, `reasonIn`). All that the messages do is known from the list of them: their requests
become services, and the first answer to each number settles it (`hear`, `dispatchAll_eq`). So two
parts of a stream may be dealt with one after the other, or at once (`heard_append`, `hear_hear`).
-/

namespace Switchboard

namespace Connection

/-- Why the reader ends with what it has taken off the stream, if it ends. -/
def reasonIn : List (Decoder.Outcome Message) → Option ClientError
  | [] => none
  | .needMore :: outcomes => reasonIn outcomes
  | .failed fault :: outcomes =>
      if fault.isRecoverable then reasonIn outcomes else some (.protocol fault)
  | .item message :: outcomes =>
      if message.envelope.kind = .close then some .connectionClosed else reasonIn outcomes

/-- What messages settle a number with: the first answer to it. -/
def settling (messages : List Message) (id : RequestId) : Option SlotState :=
  (messages.findSome? (Message.answerTo? id)).map .resolved

/-- The connection behind messages that do not end the session. -/
def hear (conn : Connection) (messages : List Message) : Connection :=
  conn.withServices (messages.filterMap Message.asked?) (conn.pending.settleBy (settling messages))

/-- The connection behind the reader, which ends if there is a reason. -/
def endOn (conn : Connection) : Option ClientError → Connection
  | none => conn
  | some reason => conn.endReader reason

theorem isSome_reasonIn (outcomes : List (Decoder.Outcome Message)) :
    (reasonIn outcomes).isSome = endsIn outcomes := by
  induction outcomes with
  | nil => rfl
  | cons outcome outcomes ih =>
      cases outcome with
      | needMore => exact ih
      | failed fault =>
          rw [reasonIn, endsIn]
          split
          · exact ih
          · rfl
      | item message =>
          rw [reasonIn, endsIn]
          split
          · rfl
          · exact ih

/-! ## Messages one after the other -/

@[simp] theorem settling_nil : settling [] = fun _ => none := rfl

theorem settling_ne_waiting (messages : List Message) (id : RequestId) :
    settling messages id ≠ some .waiting := by
  unfold settling
  cases messages.findSome? (Message.answerTo? id) <;> simp

theorem settling_append (messages more : List Message) (id : RequestId) :
    settling (messages ++ more) id = (settling messages id).or (settling more id) := by
  unfold settling
  rw [List.findSome?_append]
  cases messages.findSome? (Message.answerTo? id) <;> rfl

theorem hear_nil (conn : Connection) : conn.hear [] = conn := by
  rw [hear, settling_nil, PendingTable.settleBy_none]
  exact withServices_nil conn

theorem hear_hear (conn : Connection) (messages more : List Message) :
    (conn.hear messages).hear more = conn.hear (messages ++ more) := by
  unfold hear
  rw [withServices_withServices, ← List.filterMap_append]
  congr 1
  show (conn.pending.settleBy (settling messages)).settleBy (settling more) = _
  rw [PendingTable.settleBy_settleBy _ (settling_ne_waiting messages)]
  simp only [← settling_append]

/-- A message that does not end the session is heard. -/
theorem dispatch_eq_hear {conn : Connection} (h : conn.pending.Matched) {message : Message}
    (hmessage : message.envelope.kind ≠ .close) :
    conn.dispatch message = (none, conn.hear [message]) := by
  -- A message that neither answers nor asks changes nothing.
  have hsilent : message.outcome? = none → message.asked? = none →
      conn.hear [message] = conn := by
    intro hnone hasked
    have hsettling : settling [message] = fun _ => none := by
      funext id
      simp [settling, Message.answerTo?, hnone]
    rw [hear, hsettling, PendingTable.settleBy_none, List.filterMap_cons_none hasked]
    exact withServices_nil conn
  -- An answer settles the slot that waits under its number.
  have hanswer : ∀ {id outcome}, message.outcome? = some (id, outcome) → message.asked? = none →
      conn.hear [message] =
        { conn with
          pending := conn.pending.settleBy (PendingTable.only id (.resolved outcome)) } := by
    intro id outcome hsome hasked
    have hsettling : settling [message] = PendingTable.only id (.resolved outcome) := by
      funext other
      by_cases hother : other = id
      · simp [settling, Message.answerTo?, hsome, hother, PendingTable.only_self]
      · simp [settling, Message.answerTo?, hsome, Ne.symm hother, PendingTable.only_ne hother]
    rw [hear, hsettling, List.filterMap_cons_none hasked, withServices]
    simp [servicesFrom]
  cases henvelope : message.envelope with
  | hello version cluster clientName =>
      have hdispatch : conn.dispatch message = (none, conn) := by simp only [dispatch, henvelope]
      rw [hdispatch, hsilent (by simp [Message.outcome?, henvelope])
        (by simp [Message.asked?, henvelope])]
  | welcome connectionId =>
      have hdispatch : conn.dispatch message = (none, conn) := by simp only [dispatch, henvelope]
      rw [hdispatch, hsilent (by simp [Message.outcome?, henvelope])
        (by simp [Message.asked?, henvelope])]
  | request id cluster timeoutMs =>
      have hsettling : settling [message] = fun _ => none := by
        funext other
        simp [settling, Message.answerTo?, Message.outcome?, henvelope]
      have hasked : message.asked? = some (id, message.payload) := by
        simp [Message.asked?, henvelope]
      simp only [dispatch, henvelope, hear, hsettling, PendingTable.settleBy_none,
        List.filterMap_cons_some hasked]
      rfl
  | reply id =>
      have houtcome : message.outcome? = some (id, .reply message.payload) := by
        simp [Message.outcome?, henvelope]
      rw [dispatch_answer h houtcome, hanswer houtcome (by simp [Message.asked?, henvelope])]
  | errorReply id error =>
      have houtcome : message.outcome? = some (id, .rejected error) := by
        simp [Message.outcome?, henvelope]
      rw [dispatch_answer h houtcome, hanswer houtcome (by simp [Message.asked?, henvelope])]
  | close reason =>
      rw [henvelope] at hmessage
      exact absurd rfl hmessage

theorem matched_hear {conn : Connection} (h : conn.pending.Matched) (messages : List Message) :
    (conn.hear messages).pending.Matched := h.settleBy (settling_ne_waiting messages)

/-- The reader hears what it has taken off the stream, and ends if it finds a reason. -/
theorem dispatchAll_eq {conn : Connection} (h : conn.pending.Matched)
    (outcomes : List (Decoder.Outcome Message)) :
    conn.dispatchAll outcomes = (conn.hear (heard outcomes)).endOn (reasonIn outcomes) := by
  induction outcomes generalizing conn with
  | nil => exact (hear_nil conn).symm
  | cons outcome outcomes ih =>
      cases outcome with
      | needMore => exact ih h
      | failed fault =>
          rw [dispatchAll, heard, reasonIn]
          by_cases hfault : fault.isRecoverable = true
          · rw [if_pos hfault, if_pos hfault, if_pos hfault]
            exact ih h
          · rw [if_neg hfault, if_neg hfault, if_neg hfault, hear_nil]
            rfl
      | item message =>
          rw [dispatchAll, heard, reasonIn]
          by_cases hclose : message.envelope.kind = .close
          · rw [if_pos hclose, if_pos hclose, dispatch_of_close conn hclose, hear_nil]
            rfl
          · rw [if_neg hclose, if_neg hclose, dispatch_eq_hear h hclose]
            simp only [ih (matched_hear h [message]), hear_hear, List.cons_append, List.nil_append]

/-- A reader that receives bytes hears the messages in all that it has. -/
theorem receive_eq_hear {conn : Connection} (h : conn.pending.Matched) {decoder : Decoder}
    (hreader : conn.reader = some decoder) (data : ByteArray) :
    conn.receive data =
      ({ conn with reader := some (decoder.extend data).drain.2 }.hear
        (heard (decoder.extend data).drain.1)).endOn (reasonIn (decoder.extend data).drain.1) := by
  have hread :
      ({ conn with reader := some (decoder.extend data).drain.2 } : Connection).pending.Matched :=
    h
  rw [receive_eq hreader]
  exact dispatchAll_eq hread _

/-! ## Parts of a stream -/

theorem reasonIn_append (outcomes more : List (Decoder.Outcome Message)) :
    reasonIn (outcomes ++ more) = (reasonIn outcomes).or (reasonIn more) := by
  induction outcomes with
  | nil => rfl
  | cons outcome outcomes ih =>
      cases outcome with
      | needMore => exact ih
      | failed fault =>
          rw [List.cons_append, reasonIn, reasonIn, ih]
          split <;> rfl
      | item message =>
          rw [List.cons_append, reasonIn, reasonIn, ih]
          split <;> rfl

/-- Nothing is heard behind the end. -/
theorem heard_append (outcomes more : List (Decoder.Outcome Message)) :
    heard (outcomes ++ more) =
      heard outcomes ++ if (reasonIn outcomes).isSome then [] else heard more := by
  induction outcomes with
  | nil => rfl
  | cons outcome outcomes ih =>
      cases outcome with
      | needMore => exact ih
      | failed fault =>
          rw [List.cons_append, heard, heard, reasonIn, ih]
          split <;> rfl
      | item message =>
          rw [List.cons_append, heard, heard, reasonIn, ih]
          split <;> rfl

end Connection

end Switchboard
