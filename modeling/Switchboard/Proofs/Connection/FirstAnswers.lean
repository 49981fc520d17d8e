import Switchboard.Proofs.Connection.Answers
import Switchboard.Proofs.Connection.Calls

/-!
# The first answer counts

Whatever a relay sends, a call is told of the first answer that bears its number and is heard while
its entry is in the table, and of no other. An answer that is not the first to a call in progress
leaves the connection as it is. What a row of answers does depends on the first answer to each
number alone (`dispatchAll_answers`), so answers to different numbers may come in any order.
-/

namespace Switchboard

/-- The outcome that a message brings to the number, if it answers it. -/
def Message.answerTo? (id : RequestId) (message : Message) : Option Outcome :=
  message.outcome?.bind fun answer => if answer.1 = id then some answer.2 else none

namespace Connection

/-! ## A row of answers -/

/-- An answer settles its number. -/
theorem dispatch_answer {conn : Connection} (h : conn.pending.Matched) {message : Message}
    {id : RequestId} {outcome : Outcome} (hmessage : message.outcome? = some (id, outcome)) :
    conn.dispatch message =
      (none,
        { conn with
          pending := conn.pending.settleBy (PendingTable.only id (.resolved outcome)) }) := by
  unfold Message.outcome? at hmessage
  unfold dispatch
  cases henvelope : message.envelope <;> rw [henvelope] at hmessage <;> cases hmessage
  case reply => simp only [h.resolve_eq]
  case errorReply => simp only [h.resolve_eq]

/-- Answers that come one after the other settle each number with the first answer to it. -/
theorem dispatchAll_answers {conn : Connection} (h : conn.pending.Matched) {answers : List Message}
    (hanswers : ∀ message ∈ answers, message.outcome?.isSome = true) :
    conn.dispatchAll (answers.map .item) =
      { conn with
        pending := conn.pending.settleBy fun id =>
          (answers.findSome? (Message.answerTo? id)).map .resolved } := by
  induction answers generalizing conn with
  | nil =>
      show conn = { conn with pending := conn.pending.settleBy fun _ => none }
      rw [PendingTable.settleBy_none]
  | cons message answers ih =>
      obtain ⟨⟨id, outcome⟩, hmessage⟩ :=
        Option.isSome_iff_exists.1 (hanswers message List.mem_cons_self)
      have hnot := PendingTable.only_ne_waiting (SlotState.resolved_ne_waiting outcome) id
      have hsettled : PendingTable.Matched { conn with
          pending := conn.pending.settleBy (PendingTable.only id (.resolved outcome)) }.pending :=
        h.settleBy hnot
      have hrest := ih hsettled fun other hother => hanswers other (List.mem_cons_of_mem _ hother)
      rw [List.map_cons, dispatchAll, dispatch_answer h hmessage]
      simp only [hrest, PendingTable.settleBy_settleBy _ hnot]
      congr 2
      funext number
      rw [List.findSome?_cons]
      unfold Message.answerTo?
      rw [hmessage, Option.bind_some]
      by_cases hnumber : number = id
      · rw [hnumber, PendingTable.only_self, if_pos rfl]
        rfl
      · rw [PendingTable.only_ne hnumber, if_neg fun hsame => hnumber hsame.symm, Option.none_or]

/-- An answer under whose number nobody waits is passed over. -/
theorem dispatch_of_stray {conn : Connection} (h : conn.pending.Matched) {message : Message}
    {id : RequestId} {outcome : Outcome} (hmessage : message.outcome? = some (id, outcome))
    (hholder : conn.pending.holder? id = none) : conn.dispatch message = (none, conn) := by
  rw [dispatch_answer h hmessage, h.settleBy_only_of_none hholder]

/-! ## What callers are told -/

/-- A call that is refused has been told of no answer. -/
theorem not_remote_of_refused {conn : Connection} {cluster : String} {payload : ByteArray}
    {timeout : Duration} {now : Instant} {error : ClientError}
    (h : (conn.request cluster payload timeout now).1 = .refused error) (remote : ReplyError) :
    error ≠ .remote remote := by
  rintro rfl
  unfold request at h
  split at h
  · cases h
  · split at h
    · cases h
    · split at h
      · cases h
      · split at h
        · -- The number cannot be registered.
          rename_i hregister
          unfold PendingTable.register at hregister
          cases h
          split at hregister
          · cases hregister
          · split at hregister <;> cases hregister
        · split at h <;> cases h

/-- A call behind the line is told of the first answer that has been heard to it. -/
theorem poll_of_firstAnswer {log : List CallEvent} {conn : Connection}
    (htold : Desk.Told log conn.desk) {call : Call} (hcall : call ∈ conn.calls)
    (hholds : conn.queue.holds call.key = false) {outcome : Outcome}
    (hfirst : firstAnswer log call.ident = some outcome) (now : Instant) :
    (conn.poll call now).1 = some outcome.toResult := by
  obtain ⟨slot, hslot, hident⟩ := htold.kept.exists_slot hcall
  have hstate := htold.states slot hslot
  rw [hident, hfirst] at hstate
  rw [poll_eq_verdict htold.kept.matched hslot (congrArg Prod.fst hident)]
  show conn.verdict call slot.state now = some outcome.toResult
  rw [verdict, hholds, hstate]
  rfl

/-- Who waits under a number is a call in progress that has had no answer. -/
theorem exists_call_of_holder? {log : List CallEvent} {conn : Connection}
    (htold : Desk.Told log conn.desk) {id : RequestId} {key : SlotKey}
    (hholder : conn.pending.holder? id = some key) :
    ∃ call ∈ conn.calls, call.id = id ∧ call.slot = key ∧ firstAnswer log call.ident = none := by
  obtain ⟨slot, hslot, hident, hwaiting⟩ := htold.kept.matched.exists_slot_of_holder? hholder
  obtain ⟨call, hcall, hsame⟩ := htold.kept.exists_call hslot
  obtain ⟨hkey, hid⟩ := Prod.mk.inj (hsame.trans hident)
  refine ⟨call, hcall, hid, hkey, ?_⟩
  rw [hsame]
  exact htold.firstAnswer_of_waiting hslot hwaiting

/-- Calls and answers of a connection, in any run with any relay. A call ends at most once. It ends
with a payload only if the first answer to it is a reply with that payload, and with an error of the
other side only if the first answer to it is that error; a call that is refused is told of neither.
A call in progress that does not stand in line ends with the first answer to it as soon as its
caller looks. An answer that is not the first to a call in progress changes nothing. Of a row of
answers only the first to each number counts, in whatever order they come. -/
theorem answered_by_first (options : ConnectionOptions) (cluster connectionId : String)
    (decoder : Decoder) (steps : List Step) :
    let start := new options cluster connectionId decoder
    let conn := start.run steps
    let log := start.callTrace steps
    ((log.filterMap CallEvent.ended?).map Call.key).Nodup ∧
    (∀ call result, .ended call result ∈ log →
      (∀ payload, result = .ok payload → firstAnswer log call.ident = some (.reply payload)) ∧
      (∀ error, result = .error (.remote error) →
        firstAnswer log call.ident = some (.rejected error))) ∧
    (∀ name payload timeout now error, (conn.request name payload timeout now).1 = .refused error →
      ∀ remote, error ≠ .remote remote) ∧
    (∀ call ∈ conn.calls, conn.queue.holds call.key = false →
      ∀ outcome, firstAnswer log call.ident = some outcome →
        ∀ now, (conn.poll call now).1 = some outcome.toResult) ∧
    (∀ message id outcome, message.outcome? = some (id, outcome) →
      (¬ ∃ call ∈ conn.calls, call.id = id ∧ conn.pending.holder? id = some call.slot ∧
        firstAnswer log call.ident = none) →
      conn.dispatch message = (none, conn)) ∧
    (∀ answers others : List Message, (∀ message ∈ answers, message.outcome?.isSome = true) →
      (∀ message ∈ others, message.outcome?.isSome = true) →
      (∀ id, answers.findSome? (Message.answerTo? id) = others.findSome? (Message.answerTo? id)) →
      conn.dispatchAll (answers.map .item) = conn.dispatchAll (others.map .item)) := by
  intro start conn log
  have htold : Desk.Told log conn.desk := told_trace options cluster connectionId decoder steps
  have hmatched : conn.pending.Matched := htold.kept.matched
  refine ⟨htold.once, ?_, ?_, ?_, ?_, ?_⟩
  · intro call result hended
    have hanswered := htold.answered call result hended
    exact ⟨fun payload => hanswered (.reply payload) rfl,
      fun error => hanswered (.rejected error) rfl⟩
  · intro name payload timeout now error hrefused
    exact not_remote_of_refused hrefused
  · intro call hcall hholds outcome hfirst now
    exact poll_of_firstAnswer htold hcall hholds hfirst now
  · intro message id outcome hmessage hnobody
    apply dispatch_of_stray hmatched hmessage
    cases hholder : conn.pending.holder? id with
    | none => rfl
    | some key =>
        obtain ⟨call, hcall, hid, hkey, hfirst⟩ := exists_call_of_holder? htold hholder
        exact absurd ⟨call, hcall, hid, hkey ▸ hholder, hfirst⟩ hnobody
  · intro answers others hanswers hothers hsame
    rw [dispatchAll_answers hmatched hanswers, dispatchAll_answers hmatched hothers]
    simp only [hsame]

/-- Two calls, to which the answers come in the other order, and a second answer to the second
call. -/
def crossedRun : List Step :=
  [.request "svc" ⟨#[1]⟩ (.ofSecs 30) 0, .request "svc" ⟨#[2]⟩ (.ofSecs 30) 0,
    .receive (Message.reply ⟨2⟩ ⟨#[20]⟩).bytes, .receive (Message.reply ⟨2⟩ ⟨#[21]⟩).bytes,
    .receive (Message.reply ⟨1⟩ ⟨#[10]⟩).bytes, .poll 1 0]

/-- The first of the calls, which nobody has looked after yet. -/
def patientCall : Call := ⟨0, ⟨1⟩, 0, 30000000000⟩

/-- The second of the calls. -/
def crossedCall : Call := ⟨1, ⟨2⟩, 1, 30000000000⟩

/-- The second call has ended with the first of its answers, and the first call ends with its
own. -/
theorem answered_by_first_crossedRun :
    .ended crossedCall (.ok ⟨#[20]⟩) ∈ opened.callTrace crossedRun ∧
      firstAnswer (opened.callTrace crossedRun) crossedCall.ident = some (.reply ⟨#[20]⟩) ∧
      patientCall ∈ (opened.run crossedRun).calls ∧
      ((opened.run crossedRun).poll patientCall 0).1 = some (.ok ⟨#[10]⟩) :=
  have hended : .ended crossedCall (.ok ⟨#[20]⟩) ∈ opened.callTrace crossedRun := by decide +kernel
  have hcall : patientCall ∈ (opened.run crossedRun).calls := by decide +kernel
  have hfirst : firstAnswer (opened.callTrace crossedRun) patientCall.ident =
      some (.reply ⟨#[10]⟩) := by decide +kernel
  have hanswered :=
    answered_by_first (.new (.v4 .loopback defaultPort)) "clients" "conn-1" .new crossedRun
  ⟨hended, (hanswered.2.1 _ _ hended).1 _ rfl, hcall,
    hanswered.2.2.2.1 patientCall hcall (by decide +kernel) _ hfirst 0⟩

end Connection

end Switchboard
