import Switchboard.Proofs.Connection.Output
import Switchboard.Proofs.Connection.Reception

/-!
# The life of a connection

A connection ends when its reader or its writer is torn down, or when its owner closes or drops it
(`Ending`). All of this may happen more than once, and in any order: a task that is stopped may have
been on its way to a teardown, which then comes late (`Turn`). What a turn does to the flags of the
connection, to its table and to what the handler is told depends on the ending alone that it brings
(`life_turn`), and after any number of turns on the first ending (`life_run`). The last frame is
given to the writer by the owner who is the first to end the connection (`Farewells`).
`lifecycle_run` puts this together.
-/

namespace Switchboard

namespace Connection

/-- What ends a connection. -/
inductive Ending where
  /-- The reader or the writer is torn down for this reason. -/
  | lost (reason : ClientError)
  /-- The owner closes it. -/
  | closed
  /-- The owner drops it. -/
  | dropped
deriving DecidableEq

/-- What happens to a connection. -/
inductive Turn where
  /-- One of its steps. -/
  | step (step : Step)
  /-- The teardown of a reader or a writer that had found its end before it was stopped. -/
  | tearDown (reason : ClientError)

/-- The connection behind a turn. -/
def turn (conn : Connection) : Turn → Connection
  | .step step => conn.perform step
  | .tearDown reason => conn.tearDown reason

/-- The connection behind turns. -/
def turns (conn : Connection) (run : List Turn) : Connection := run.foldl turn conn

/-- The ending that a step brings. -/
def endingBy (conn : Connection) : Step → Option Ending
  | .receive data =>
      match conn.reader with
      | none => none
      | some decoder => (reasonIn (decoder.extend data).drain.1).map .lost
  | .receiveEnd => if conn.reader.isSome then some (.lost .connectionClosed) else none
  | .act (.receiveFault fault) =>
      if conn.reader.isSome then some (.lost (.transport fault)) else none
  | .act (.writeFault fault) =>
      match conn.writer with
      | .writing _ _ => some (.lost (.sendFailed fault))
      | _ => none
  | .act .close => some .closed
  | .act .drop => some .dropped
  | _ => none

/-- The ending that a turn brings. -/
def ending? (conn : Connection) : Turn → Option Ending
  | .step step => conn.endingBy step
  | .tearDown reason => some (.lost reason)

/-- All endings in some turns, in order. -/
def endings (conn : Connection) : List Turn → List Ending
  | [] => []
  | turn :: run => (conn.ending? turn).toList ++ endings (conn.turn turn) run

/-- What the handler is told when this is the first ending. -/
def Ending.told : Ending → List ClientError
  | lost reason => [reason]
  | closed => []
  | dropped => []

/-! ## Flags, table and news -/

/-- How a connection stands: its flags, whether its table is closed, and what its handler was
told. -/
structure Life where
  connected : Bool
  closing : Bool
  shut : Bool
  losses : List ClientError

/-- How a connection stands that has ended in this way. -/
def Life.endBy (life : Life) (ending : Ending) : Life :=
  ⟨false, true, true, if life.closing then life.losses else life.losses ++ ending.told⟩

/-- How a connection stands behind endings. -/
def Life.through (life : Life) (endings : List Ending) : Life := endings.foldl Life.endBy life

def life (conn : Connection) : Life :=
  ⟨conn.connected, conn.closing, conn.pending.closed, conn.losses⟩

@[simp] theorem Life.through_nil (life : Life) : life.through [] = life := rfl

@[simp] theorem Life.through_cons (life : Life) (ending : Ending) (endings : List Ending) :
    life.through (ending :: endings) = (life.endBy ending).through endings := rfl

theorem Life.through_append (life : Life) (endings more : List Ending) :
    life.through (endings ++ more) = (life.through endings).through more := List.foldl_append

/-- A connection that has ended is not changed by another end. -/
theorem Life.through_of_ended (losses : List ClientError) (endings : List Ending) :
    Life.through ⟨false, true, true, losses⟩ endings = ⟨false, true, true, losses⟩ := by
  induction endings with
  | nil => rfl
  | cons ending endings ih => exact ih

/-- Of a connection that was up, the first ending decides. -/
theorem Life.through_new (endings : List Ending) :
    Life.through ⟨true, false, false, []⟩ endings =
      ⟨endings.isEmpty, !endings.isEmpty, !endings.isEmpty,
        (endings.head?.map Ending.told).getD []⟩ := by
  cases endings with
  | nil => rfl
  | cons ending endings => exact Life.through_of_ended _ endings

section Steps

variable (conn : Connection)

theorem life_tearDown (reason : ClientError) :
    (conn.tearDown reason).life = conn.life.endBy (.lost reason) := by
  unfold tearDown Life.endBy life
  by_cases hclosing : conn.closing = true
  · simp [cutOff, hclosing, PendingTable.cancelAll]
  · simp [cutOff, hclosing, PendingTable.cancelAll, Ending.told]

theorem life_endReader (reason : ClientError) :
    (conn.endReader reason).life = conn.life.endBy (.lost reason) :=
  life_tearDown { conn with reader := none } reason

theorem life_endOn (reason : Option ClientError) :
    (conn.endOn reason).life = conn.life.through (reason.map Ending.lost).toList := by
  cases reason with
  | none => rfl
  | some reason => exact life_endReader conn reason

/-- A reader that may find its end. -/
theorem life_readerEnds (reason : ClientError) :
    (if conn.reader.isSome then conn.endReader reason else conn).life =
      conn.life.through (if conn.reader.isSome then some (Ending.lost reason)
        else none).toList := by
  split
  · exact life_endReader conn reason
  · rfl

theorem life_close : conn.close.2.life = conn.life.endBy .closed := by
  have hlife : ∀ after : Connection, after.connected = false → after.closing = true →
      after.pending.closed = true → after.losses = conn.losses →
        after.life = conn.life.endBy .closed := by
    intro after hconnected hclosing hpending hlosses
    unfold life Life.endBy Ending.told
    rw [hconnected, hclosing, hpending, hlosses, List.append_nil, ite_self]
  unfold close
  simp only
  split
  · exact hlife _ rfl rfl rfl rfl
  · split
    · exact hlife _ rfl rfl rfl rfl
    · split
      · exact hlife _ rfl rfl rfl rfl
      · exact hlife _ rfl rfl rfl rfl

theorem life_drop : conn.drop.life = conn.life.endBy .dropped := by
  simp [drop, endWriter, cutOff, life, Life.endBy, Ending.told, PendingTable.cancelAll]

theorem life_writeFault (fault : TransportFault) :
    (conn.writeFault fault).life =
      conn.life.through (conn.endingBy (.act (.writeFault fault))).toList := by
  unfold writeFault endingBy
  cases conn.writer with
  | writing frame written => exact life_tearDown conn (.sendFailed fault)
  | _ => rfl

theorem life_takeItem : conn.takeItem.life = conn.life := by
  have heffect := takeItem_effect conn
  generalize conn.takeItem = after at heffect ⊢
  cases heffect <;> rfl

theorem life_dropCall (call : Call) : (conn.dropCall call).life = conn.life := by
  simp only [life, dropCall, PendingTable.closed_drop]

theorem life_request (cluster : String) (payload : ByteArray) (timeout : Duration) (now : Instant) :
    (conn.request cluster payload timeout now).2.life = conn.life := by
  have heffect := request_effect conn cluster payload timeout now
  generalize (conn.request cluster payload timeout now).1 = start at heffect
  generalize (conn.request cluster payload timeout now).2 = after at heffect ⊢
  cases heffect with
  | unwritten slot pending fault hid hregister =>
      obtain ⟨hopen, hstill, -⟩ := PendingTable.of_register hregister
      simp only [life, PendingTable.closed_drop, hopen, hstill]
  | started slot pending hid hregister hfits =>
      obtain ⟨hopen, hstill, -⟩ := PendingTable.of_register hregister
      simp only [life, hopen, hstill]
  | _ => rfl

end Steps

section Kept

variable {conn : Connection} (h : conn.desk.Kept)

include h

theorem life_pollBy (key : CallKey) (now : Instant) : (conn.pollBy key now).2.life = conn.life := by
  cases hcall : conn.call? key with
  | none => rw [pollBy_of_none hcall]
  | some call =>
      obtain ⟨slot, hslot, hident⟩ := h.exists_slot (List.mem_of_find?_eq_some hcall)
      rw [pollBy_of_some hcall, poll_eq_verdict h.matched hslot (congrArg Prod.fst hident)]
      simp only
      split
      · exact life_dropCall conn call
      · rfl

/-- A step does to the life of a connection what its ending does. -/
theorem life_perform (step : Step) :
    (conn.perform step).life = conn.life.through (conn.endingBy step).toList := by
  cases step with
  | receive data =>
      cases hreader : conn.reader with
      | none =>
          have hnone : conn.perform (.receive data) = conn := receive_of_none hreader data
          simp only [endingBy, hreader, hnone]
          rfl
      | some decoder =>
          have hreceive : conn.perform (.receive data) = _ := receive_eq_hear h.matched hreader data
          simp only [endingBy, hreader, hreceive]
          exact life_endOn _ _
  | receiveEnd => exact life_readerEnds conn _
  | write room =>
      show (conn.write room).2.life = conn.life
      rcases write_effect conn room with ⟨writer, hafter⟩ | hafter <;> rw [hafter] <;> rfl
  | request cluster payload timeout now => exact life_request conn cluster payload timeout now
  | poll key now => exact life_pollBy h key now
  | act act =>
      cases act with
      | abandon key =>
          show (conn.abandon key).life = conn.life
          unfold abandon
          split
          · exact life_dropCall conn _
          · rfl
      | complete key result =>
          show (conn.completeBy key result).life = conn.life
          cases hservice : conn.service? key with
          | some service =>
              rw [completeBy_of_some hservice, complete_eq]
              rfl
          | none => rw [completeBy_of_none hservice]
      | takeItem => exact life_takeItem conn
      | writeFault fault => exact life_writeFault conn fault
      | receiveFault fault => exact life_readerEnds conn _
      | close => exact life_close conn
      | endWriter => rfl
      | drop => exact life_drop conn

theorem life_turn (turn : Turn) :
    (conn.turn turn).life = conn.life.through (conn.ending? turn).toList := by
  cases turn with
  | step step => exact life_perform h step
  | tearDown reason => exact life_tearDown conn reason

/-- A turn keeps the calls and their slots together. -/
theorem moves_turn (turn : Turn) : ∃ log, Desk.Moves conn.desk log (conn.turn turn).desk := by
  cases turn with
  | step step => exact ⟨_, moves_perform h step⟩
  | tearDown reason =>
      refine ⟨[], ?_⟩
      show Desk.Moves conn.desk [] (conn.tearDown reason).desk
      rw [desk_tearDown]
      exact desk_cutOff conn

end Kept

/-! ## The last frame -/

section Farewell

variable {conn : Connection}

/-- Those who only tell the writer to end bring no last frame. -/
theorem Steady.items {after : Connection} (h : Steady conn after) :
    after.queue.items = conn.queue.items ∨
      after.queue.items = conn.queue.items ++ [.shutdown none] := by
  rcases h.queue with hqueue | hqueue
  · exact Or.inl (congrArg WriteQueue.items hqueue)
  · by_cases hroom : conn.queue.hasRoom = true
    · exact Or.inr (by rw [hqueue, WriteQueue.items_offer hroom])
    · exact Or.inl (by rw [hqueue, WriteQueue.offer_of_full hroom])

/-- The writer takes an item, and at most one moves up. -/
theorem length_items_takeItem : conn.takeItem.queue.items.length ≤ conn.queue.items.length := by
  have hrising : ∀ {item next}, conn.queue.pop = some (item, next) →
      next.items.length ≤ conn.queue.items.length := by
    intro item next hpop
    obtain ⟨items, hitems, hnext, -⟩ := WriteQueue.items_of_pop hpop
    have hone : conn.queue.rising.length ≤ 1 := by
      unfold WriteQueue.rising
      cases conn.queue.line.head? <;> simp
    rw [hitems, hnext, List.length_append, List.length_cons]
    omega
  have heffect := takeItem_effect conn
  generalize conn.takeItem = after at heffect ⊢
  cases heffect with
  | idle hidle => exact Nat.le_refl _
  | frame bytes next hwriter hpop => exact hrising hpop
  | farewell bytes next hwriter hpop => exact hrising hpop
  | ended next hwriter hpop => exact Nat.zero_le _

/-- Whether a step is one of the reader. -/
def Step.ofReader : Step → Bool
  | receive _ => true
  | receiveEnd => true
  | act (.receiveFault _) => true
  | _ => false

theorem steady_of_reader {step : Step} (h : step.ofReader = true) :
    Steady conn (conn.perform step) := by
  cases step with
  | receive data => exact Steady.receive conn data
  | receiveEnd => exact Steady.receiveEnd conn
  | act act =>
      cases act with
      | receiveFault fault => exact Steady.receiveFault conn fault
      | _ => cases h
  | _ => cases h

/-- Apart from the reader, only an owner who closes a connection that has not ended tells the writer
to end. -/
theorem close_or_reader_of_told {step : Step} {last : Option ByteArray}
    (h : (conn.perform step).queue.items = conn.queue.items ++ [.shutdown last]) :
    (step = .act .close ∧ conn.closing = false) ∨ step.ofReader = true := by
  -- In every other case the queue does not grow, or grows by another item.
  have hshort : (conn.perform step).queue.items.length ≤ conn.queue.items.length → False := by
    intro hle
    rw [h, List.length_append, List.length_singleton] at hle
    omega
  have hsame : (conn.perform step).queue.items = conn.queue.items → False := by
    intro hitems
    exact hshort (Nat.le_of_eq (congrArg List.length hitems))
  have hpushed : ∀ waiter, (conn.perform step).queue = conn.queue.push waiter → False := by
    intro waiter hqueue
    rw [hqueue, WriteQueue.items_push] at h
    have hlast := List.append_cancel_left h
    unfold WriteQueue.entering at hlast
    split at hlast <;> cases hlast
  cases step with
  | receive data => exact Or.inr rfl
  | receiveEnd => exact Or.inr rfl
  | write room =>
      have hafter : (∃ writer, conn.perform (.write room) = { conn with writer }) ∨
          conn.perform (.write room) = conn.endWriter := write_effect conn room
      rcases hafter with ⟨writer, hafter⟩ | hafter
      · exact (hsame (by rw [hafter])).elim
      · exact (hshort (by rw [hafter]; exact Nat.zero_le _)).elim
  | request cluster payload timeout now =>
      have heffect := request_effect conn cluster payload timeout now
      have hafter : conn.perform (.request cluster payload timeout now) =
          (conn.request cluster payload timeout now).2 := rfl
      rw [hafter] at hsame hpushed
      generalize (conn.request cluster payload timeout now).1 = start at heffect
      generalize (conn.request cluster payload timeout now).2 = after at heffect hsame hpushed
      cases heffect with
      | started slot pending hid hregister hfits => exact (hpushed _ rfl).elim
      | _ => exact (hsame rfl).elim
  | poll key now =>
      have hafter : conn.perform (.poll key now) = (conn.pollBy key now).2 := rfl
      cases hcall : conn.call? key with
      | none => exact (hsame (by rw [hafter, pollBy_of_none hcall])).elim
      | some call =>
          rw [hafter, pollBy_of_some hcall] at hsame
          rcases poll_eq_dropCall conn call now with hpoll | ⟨before, hpoll, -, hqueue, -⟩
          · exact (hsame (by rw [hpoll])).elim
          · refine (hsame ?_).elim
            rw [hpoll, ← hqueue]
            rfl
  | act act =>
      cases act with
      | abandon key =>
          have hafter : conn.perform (.act (.abandon key)) = conn.abandon key := rfl
          refine (hsame ?_).elim
          rw [hafter]
          unfold abandon
          split <;> rfl
      | complete key result =>
          have hafter : conn.perform (.act (.complete key result)) = conn.completeBy key result :=
            rfl
          cases hservice : conn.service? key with
          | none => exact (hsame (by rw [hafter, completeBy_of_none hservice])).elim
          | some service =>
              rw [hafter, completeBy_of_some hservice, complete_eq] at hsame hpushed
              by_cases hfits : (result.toMessage service.id).Fits
              · simp only [if_pos hfits] at hpushed
                exact (hpushed _ rfl).elim
              · simp only [if_neg hfits] at hsame
                exact (hsame trivial).elim
      | takeItem => exact (hshort length_items_takeItem).elim
      | writeFault fault =>
          have hafter : conn.perform (.act (.writeFault fault)) = conn.writeFault fault := rfl
          refine (hshort ?_).elim
          rw [hafter]
          unfold writeFault
          split
          · exact Nat.zero_le _
          · exact Nat.zero_le _
          · exact Nat.le_refl _
      | receiveFault fault => exact Or.inr rfl
      | endWriter => exact (hshort (Nat.zero_le _)).elim
      | drop => exact (hshort (Nat.zero_le _)).elim
      | close =>
          refine Or.inl ⟨rfl, Bool.eq_false_iff.2 fun hclosing => ?_⟩
          -- A connection that has ended before is not given a last frame.
          have hafter : conn.perform (.act .close) = conn.close.2 := rfl
          have hfarewell : farewell = .ok (Message.close none).bytes :=
            Message.encode_of_fits (by decide)
          apply hsame
          rw [hafter]
          unfold close
          simp only [hfarewell, hclosing, if_true]
          rfl

/-- Only an owner who closes a connection that has not ended puts a last frame into the queue. -/
theorem close_of_farewell {step : Step} {bytes : ByteArray}
    (h : (conn.perform step).queue.items = conn.queue.items ++ [.shutdown (some bytes)]) :
    step = .act .close ∧ conn.closing = false := by
  rcases close_or_reader_of_told h with hclose | hreader
  · exact hclose
  · -- A reader tells the writer to end without a last frame.
    rcases (steady_of_reader hreader).items with hitems | hitems
    · rw [h] at hitems
      exact absurd (congrArg List.length hitems) (by simp)
    · rw [h] at hitems
      cases List.append_cancel_left hitems

/-- Whoever has a frame brings that. -/
theorem not_farewell_of_entering {waiter : Waiter} {bytes : ByteArray} :
    WriteItem.shutdown (some bytes) ∉ conn.queue.entering waiter := by
  unfold WriteQueue.entering
  split <;> simp

theorem not_farewell_of_rising {bytes : ByteArray} :
    WriteItem.shutdown (some bytes) ∉ conn.queue.rising := by
  unfold WriteQueue.rising
  cases conn.queue.line.head? <;> simp

theorem close_of_admitted {step : Step} {bytes : ByteArray}
    (h : .shutdown (some bytes) ∈ conn.admitted step) :
    step = .act .close ∧ conn.closing = false := by
  have htraffic := perform_traffic conn step
  suffices hitems : (conn.perform step).queue.items =
      conn.queue.items ++ [.shutdown (some bytes)] from close_of_farewell hitems
  generalize conn.admitted step = items at htraffic h
  generalize conn.perform step = after at htraffic ⊢
  cases htraffic with
  | told farewell hfarewell hroom hcalls hqueue hwriter =>
      rw [hqueue, WriteQueue.items_offer hroom, ← List.mem_singleton.1 h]
  | began call message hfits hasked hid hnumber hnext hstep hcalls hqueue hwriter =>
      exact absurd h not_farewell_of_entering
  | answered message hfits hanswer hcalls hqueue hwriter => exact absurd h not_farewell_of_entering
  | took item hidle hpop hcalls hwriter hlive => exact absurd h not_farewell_of_rising
  | _ => cases h

end Farewell

/-! ## Turns one after the other -/

/-- The items that come into the write queue in a turn. -/
def admittedIn (conn : Connection) : Turn → List WriteItem
  | .step step => conn.admitted step
  | .tearDown reason => (conn.tearDown reason).queue.items.drop conn.queue.items.length

/-- The bytes that the writer gives to the stream in a turn. -/
def writtenIn (conn : Connection) : Turn → ByteArray
  | .step step => conn.output step
  | .tearDown _ => ByteArray.empty

/-- All items that come into the write queue, in order. -/
def acceptedBy (conn : Connection) : List Turn → List WriteItem
  | [] => []
  | turn :: run => conn.admittedIn turn ++ acceptedBy (conn.turn turn) run

/-- All bytes that the writer gives to the stream, in order. -/
def writtenBy (conn : Connection) : List Turn → ByteArray
  | [] => ByteArray.empty
  | turn :: run => conn.writtenIn turn ++ writtenBy (conn.turn turn) run

/-- A connection that has come through endings, has written so much, and has accepted these items
into its write queue. -/
structure Lived (past : List Ending) (written : ByteArray) (accepted : List WriteItem)
    (conn : Connection) : Prop where
  sound : conn.Sound
  told : ∃ log, Desk.Told log conn.desk
  life : conn.life = Life.through ⟨true, false, false, []⟩ past
  wire : Wire ByteArray.empty written accepted conn
  placed : Placed accepted conn
  farewell : ∀ bytes, .shutdown (some bytes) ∈ accepted → past.head? = some .closed

theorem lived_new (options : ConnectionOptions) (cluster connectionId : String)
    (decoder : Decoder) :
    Lived [] ByteArray.empty [] (new options cluster connectionId decoder) where
  sound := sound_new options cluster connectionId decoder
  told := ⟨[], Desk.told_new⟩
  life := rfl
  wire := wire_new ByteArray.empty options cluster connectionId decoder
  placed := placed_new options cluster connectionId decoder
  farewell := fun _ h => nomatch h

namespace Lived

variable {past : List Ending} {written : ByteArray} {accepted : List WriteItem} {conn : Connection}
  (h : Lived past written accepted conn)

include h

theorem closing_eq : conn.closing = !past.isEmpty := by
  have hlife := congrArg Life.closing h.life
  rwa [Life.through_new] at hlife

theorem life_turn (turn : Turn) :
    (conn.turn turn).life =
      Life.through ⟨true, false, false, []⟩ (past ++ (conn.ending? turn).toList) := by
  obtain ⟨log, htold⟩ := h.told
  rw [Life.through_append, ← h.life]
  exact Connection.life_turn htold.kept turn

/-- A last frame comes in with the first ending, and that is a close. -/
theorem closed_of_farewell {step : Step} {bytes : ByteArray}
    (hbytes : .shutdown (some bytes) ∈ conn.admitted step) :
    past = [] ∧ conn.endingBy step = some .closed := by
  obtain ⟨rfl, hclosing⟩ := close_of_admitted hbytes
  rw [h.closing_eq] at hclosing
  refine ⟨?_, rfl⟩
  simpa using hclosing

theorem step (step : Step) :
    Lived (past ++ (conn.endingBy step).toList) (written ++ conn.output step)
      (accepted ++ conn.admitted step) (conn.perform step) where
  sound := sound_perform h.sound step
  told := by
    obtain ⟨log, htold⟩ := h.told
    exact ⟨_, htold.moves (moves_perform htold.kept step)⟩
  life := h.life_turn (.step step)
  wire := h.wire.perform step
  placed := h.placed.perform h.sound step
  farewell := by
    intro bytes hbytes
    rcases List.mem_append.1 hbytes with hold | hnew
    · rw [List.head?_append, h.farewell bytes hold]
      rfl
    · obtain ⟨rfl, hending⟩ := h.closed_of_farewell hnew
      rw [hending]
      rfl

/-- A teardown tells the writer to end, if there is room, and nothing else comes in. -/
theorem tearDown (reason : ClientError) :
    Lived (past ++ [.lost reason]) written (accepted ++ conn.admittedIn (.tearDown reason))
      (conn.tearDown reason) := by
  have hsteady := Steady.tearDown conn reason
  have hopen : (conn.tearDown reason).queue.isOpen = conn.queue.isOpen := by
    rcases hsteady.queue with hqueue | hqueue
    · rw [hqueue]
    · rw [hqueue, WriteQueue.isOpen_offer]
  have hline : (conn.tearDown reason).queue.line = conn.queue.line := by
    rcases hsteady.queue with hqueue | hqueue
    · rw [hqueue]
    · rw [hqueue, WriteQueue.line_offer]
  -- What comes in is the order to end, or nothing.
  obtain ⟨new, hitems, hnew⟩ : ∃ new, (conn.tearDown reason).queue.items = conn.queue.items ++ new ∧
      ∀ item ∈ new, item = .shutdown none := by
    rcases hsteady.items with hitems | hitems
    · exact ⟨[], by rw [hitems, List.append_nil], fun _ hitem => nomatch hitem⟩
    · exact ⟨_, hitems, fun _ hitem => List.mem_singleton.1 hitem⟩
  have hadmitted : conn.admittedIn (.tearDown reason) = new := by
    simp only [admittedIn, hitems, List.drop_left]
  rw [hadmitted]
  constructor
  case sound => exact h.sound.of_wanes (wanes_tearDown conn reason)
  case told =>
    obtain ⟨log, htold⟩ := h.told
    obtain ⟨more, hmoves⟩ := moves_turn htold.kept (.tearDown reason)
    exact ⟨_, htold.moves hmoves⟩
  case life => exact h.life_turn (.tearDown reason)
  case wire => exact h.wire.goes hsteady.writer hopen hitems
  case placed =>
    have hplaced : Placed accepted (conn.tearDown reason) := by
      refine h.placed.of_subset ?_ ?_ ?_ ?_
      · rw [hline]
        exact List.Subset.refl _
      · rw [hsteady.calls]
        exact fun _ hcall => hcall
      · rw [hsteady.calls]
        exact fun _ _ _ hcall _ => hcall
      · rw [hopen]
        refine fun hopened => ⟨hopened, fun call _ hholds => ?_⟩
        rwa [WriteQueue.holds_congr hline]
    apply hplaced.accept
    · intro frame hframe
      cases hnew _ hframe
    · intro bytes hbytes
      cases hnew _ hbytes
  case farewell =>
    intro bytes hbytes
    rcases List.mem_append.1 hbytes with hold | hlast
    · rw [List.head?_append, h.farewell bytes hold]
      rfl
    · cases hnew _ hlast

theorem turn (turn : Turn) :
    Lived (past ++ (conn.ending? turn).toList) (written ++ conn.writtenIn turn)
      (accepted ++ conn.admittedIn turn) (conn.turn turn) := by
  cases turn with
  | step step => exact h.step step
  | tearDown reason =>
      have hlived := h.tearDown reason
      rw [← ByteArray.append_empty (b := written)] at hlived
      exact hlived

theorem run (run : List Turn) :
    Lived (past ++ conn.endings run) (written ++ conn.writtenBy run)
      (accepted ++ conn.acceptedBy run) (conn.turns run) := by
  induction run generalizing past written accepted conn with
  | nil =>
      rw [endings, writtenBy, acceptedBy, List.append_nil, List.append_nil, ByteArray.append_empty]
      exact h
  | cons turn run ih =>
      rw [endings, writtenBy, acceptedBy, ← List.append_assoc, ← List.append_assoc,
        ← ByteArray.append_assoc]
      exact ih (h.turn turn)

end Lived

/-- The life of a connection, through any turns. It is not connected, its table is closed and its
end has begun, each of these if and only if something has ended it, and none of it is undone. Its
handler is told once if the first ending is the loss of the stream, with the reason of that, and
else not at all. What has been written is the beginning of the frames that the writer was given, in
order. These are requests and answers, and a last frame only if the first ending is a close by the
owner. -/
theorem lifecycle_run (options : ConnectionOptions) (cluster connectionId : String)
    (decoder : Decoder) (run : List Turn) :
    let start := new options cluster connectionId decoder
    let conn := start.turns run
    let past := start.endings run
    (conn.connected = false ↔ past ≠ []) ∧
    (conn.pending.closed = true ↔ past ≠ []) ∧
    (conn.closing = true ↔ past ≠ []) ∧
    (past ≠ [] → ∀ more, (conn.turns more).life = conn.life) ∧
    conn.losses = (match past.head? with
      | some (.lost reason) => [reason]
      | _ => []) ∧
    StartsWith (script (start.acceptedBy run)) (start.writtenBy run) ∧
    (∀ frame, .frame frame ∈ start.acceptedBy run → Uttered frame) ∧
    (∀ bytes, .shutdown (some bytes) ∈ start.acceptedBy run →
      bytes = (Message.close none).bytes ∧ past.head? = some .closed) := by
  intro start conn past
  have hlived := (lived_new options cluster connectionId decoder).run run
  rw [List.nil_append, List.nil_append, ByteArray.empty_append] at hlived
  have hlife : conn.life = ⟨past.isEmpty, !past.isEmpty, !past.isEmpty,
      (past.head?.map Ending.told).getD []⟩ := hlived.life.trans (Life.through_new past)
  refine ⟨?_, ?_, ?_, ?_, ?_, ?_, hlived.placed.frames, ?_⟩
  · have hconnected : conn.connected = past.isEmpty := congrArg Life.connected hlife
    rw [hconnected, List.isEmpty_eq_false_iff]
  · have hclosed : conn.pending.closed = !past.isEmpty := congrArg Life.shut hlife
    rw [hclosed, Bool.not_eq_true', List.isEmpty_eq_false_iff]
  · have hclosing : conn.closing = !past.isEmpty := congrArg Life.closing hlife
    rw [hclosing, Bool.not_eq_true', List.isEmpty_eq_false_iff]
  · intro hended more
    have hempty : past.isEmpty = false := List.isEmpty_eq_false_iff.2 hended
    rw [(hlived.run more).life, Life.through_append, ← hlived.life]
    show conn.life.through _ = conn.life
    rw [hlife, hempty]
    exact Life.through_of_ended _ _
  · have hlosses : conn.losses = (past.head?.map Ending.told).getD [] := congrArg Life.losses hlife
    rw [hlosses]
    cases past.head? with
    | none => rfl
    | some ending => cases ending <;> rfl
  · have hstarts := hlived.wire.starts
    rwa [ByteArray.empty_append] at hstarts
  · exact fun bytes hbytes => ⟨hlived.placed.farewells bytes hbytes, hlived.farewell bytes hbytes⟩

end Connection

end Switchboard
