import Switchboard.Client.Handler
import Switchboard.Client.Options
import Switchboard.Client.Pending
import Switchboard.Client.RequestIds
import Switchboard.Client.WriteQueue

/-!
# Connections

A connection carries any number of requests at a time over one byte stream. Each call gets a number
and an entry in the pending table, its frame goes through the write queue, and the reader resolves
the entry when the answer arrives. Requests of others are served on the side, each answered by one
frame.

Every definition here is one step of somebody: of a caller, of the reader, of the writer, of a
handler, or of the owner who closes the connection. A run is any sequence of such steps; what the
transport accepts and delivers, and how much time passes, is up to whoever takes the steps.
-/

namespace Switchboard

/-- A call in progress: the number of its request, the slot for its outcome, and when it gives
up. -/
structure Call where
  key : CallKey
  id : RequestId
  slot : SlotKey
  deadline : Instant
deriving DecidableEq

/-- A request of somebody else that is being served. -/
structure Service where
  key : Nat
  id : RequestId
  payload : ByteArray
deriving DecidableEq

/-- What the writer is doing. -/
inductive Writer where
  /-- It waits for an item. -/
  | idle
  /-- It has written so many bytes of a frame. -/
  | writing (frame : ByteArray) (written : Nat)
  /-- It has written so many bytes of the last frame. -/
  | parting (frame : ByteArray) (written : Nat)
  /-- It has ended, and the stream with it. -/
  | ended
deriving DecidableEq

/-- A connection that a relay has accepted. -/
structure Connection where
  cluster : String
  connectionId : String
  ids : RequestIds := .new
  pending : PendingTable := .new
  calls : List Call := []
  nextCall : CallKey := 0
  queue : WriteQueue
  writer : Writer := .idle
  /-- The reader, while it runs. -/
  reader : Option Decoder
  services : List Service := []
  nextService : Nat := 0
  connected : Bool := true
  /-- Whether the end has begun, from either side. -/
  closing : Bool := false
  /-- The reasons for which the handler was told that the connection is lost. -/
  losses : List ClientError := []

namespace Connection

/-- The connection behind an acceptance. -/
def new (options : ConnectionOptions) (cluster connectionId : String) (decoder : Decoder) :
    Connection :=
  { cluster, connectionId, queue := { capacity := options.writeQueueCapacity },
    reader := some decoder }

/-- How many calls have an entry in the pending table. -/
def pendingCount (conn : Connection) : Nat := conn.pending.size

/-! ## The end -/

/-- The connection is not to be used any more: every call that waits for its answer fails. -/
def cutOff (conn : Connection) : Connection :=
  { conn with connected := false, pending := (conn.pending.cancelAll .closed).2 }

/-- The connection is lost. Unless its end had begun before, the writer is told to end the stream,
if the queue has room for that, and the handler is told why. -/
def tearDown (conn : Connection) (reason : ClientError) : Connection :=
  let conn := conn.cutOff
  if conn.closing then conn
  else
    { conn with
      closing := true
      queue := conn.queue.offer (.shutdown none)
      losses := conn.losses ++ [reason] }

/-- The reader ends. -/
def endReader (conn : Connection) (reason : ClientError) : Connection :=
  { conn with reader := none }.tearDown reason

/-- The writer ends. -/
def endWriter (conn : Connection) : Connection :=
  { conn with writer := .ended, queue := conn.queue.close }

/-! ## Steps of the reader -/

/-- Deals with a message. Returns the reason to end, if the relay has ended the session. -/
def dispatch (conn : Connection) (message : Message) : Option ClientError × Connection :=
  match message.envelope with
  | .reply id =>
      (none, { conn with pending := (conn.pending.resolve id (.reply message.payload)).2 })
  | .errorReply id error =>
      (none, { conn with pending := (conn.pending.resolve id (.rejected error)).2 })
  | .request id _ _ =>
      (none,
        { conn with
          services := conn.services ++ [⟨conn.nextService, id, message.payload⟩]
          nextService := conn.nextService + 1 })
  | .close _ => (some .connectionClosed, conn)
  | _ => (none, conn)

/-- Deals with what has been taken off the stream. A frame that cannot be read is passed over,
unless the stream is out of step with it. -/
def dispatchAll (conn : Connection) : List (Decoder.Outcome Message) → Connection
  | [] => conn
  | .needMore :: outcomes => conn.dispatchAll outcomes
  | .failed fault :: outcomes =>
      if fault.isRecoverable then conn.dispatchAll outcomes else conn.endReader (.protocol fault)
  | .item message :: outcomes =>
      match conn.dispatch message with
      | (none, conn) => conn.dispatchAll outcomes
      | (some reason, conn) => conn.endReader reason

/-- The reader receives bytes. -/
def receive (conn : Connection) (data : ByteArray) : Connection :=
  match conn.reader with
  | none => conn
  | some decoder =>
      let (outcomes, decoder) := (decoder.extend data).drain
      { conn with reader := some decoder }.dispatchAll outcomes

/-- The reader finds the end of the stream. -/
def receiveEnd (conn : Connection) : Connection :=
  if conn.reader.isSome then conn.endReader .connectionClosed else conn

/-- The reader finds the stream broken. -/
def receiveFault (conn : Connection) (fault : TransportFault) : Connection :=
  if conn.reader.isSome then conn.endReader (.transport fault) else conn

/-! ## Steps of callers -/

/-- The longest time after which a call gives up: thirty years. -/
def farFuture : Duration := .ofSecs (86400 * 365 * 30)

/-- The timeout of a request as it is sent: at least one millisecond. -/
def wireTimeout (timeout : Duration) : UInt64 := max timeout.wireMillis 1

/-- How a call begins. -/
inductive CallStart where
  /-- It has failed already. -/
  | refused (error : ClientError)
  /-- It goes on under this name. -/
  | started (key : CallKey)
  /-- There are no numbers left. -/
  | exhausted
deriving DecidableEq

/-- A caller asks `cluster` to serve `payload`, and waits for the answer until the timeout has
passed. -/
def request (conn : Connection) (cluster : String) (payload : ByteArray) (timeout : Duration)
    (now : Instant) : CallStart × Connection :=
  if timeout = .zero then (.refused .zeroTimeout, conn)
  else if !conn.connected then (.refused .connectionClosed, conn)
  else match conn.ids.take with
    | (none, ids) => (.exhausted, { conn with ids })
    | (some id, ids) =>
        match conn.pending.register id with
        | (.error error, pending) => (.refused error, { conn with ids, pending })
        | (.ok slot, pending) =>
            match (Message.request id cluster (wireTimeout timeout) payload).encode with
            | .error fault =>
                (.refused (.protocol fault), { conn with ids, pending := pending.drop slot })
            | .ok frame =>
                let key := conn.nextCall
                let deadline := now.after (timeout.atMost farFuture)
                (.started key,
                  { conn with
                    ids, pending
                    calls := conn.calls ++ [⟨key, id, slot, deadline⟩]
                    nextCall := key + 1
                    queue := conn.queue.push ⟨some key, frame⟩ })

/-- The call of the given name, while it is in progress. -/
def call? (conn : Connection) (key : CallKey) : Option Call :=
  conn.calls.find? fun call => call.key = key

/-- A call ends. It leaves the line in front of the write queue, and drops its slot. -/
def dropCall (conn : Connection) (call : Call) : Connection :=
  { conn with
    calls := conn.calls.filter fun other => other.key ≠ call.key
    queue := conn.queue.withdraw call.key
    pending := conn.pending.drop call.slot }

/-- A caller gives its call up. -/
def abandon (conn : Connection) (key : CallKey) : Connection :=
  match conn.call? key with
  | some call => conn.dropCall call
  | none => conn

/-- A caller looks after its call. In line it fails when the queue is closed or its time is over.
Behind that it takes its outcome; without one it fails when its time is over. -/
def poll (conn : Connection) (call : Call) (now : Instant) :
    Option (Except ClientError ByteArray) × Connection :=
  if conn.queue.holds call.key then
    if !conn.queue.isOpen then (some (.error .connectionClosed), conn.dropCall call)
    else if call.deadline ≤ now then (some (.error .requestTimeout), conn.dropCall call)
    else (none, conn)
  else
    let pending := if call.deadline ≤ now then conn.pending.expire call.slot else conn.pending
    match pending.poll call.slot with
    | some outcome => (some outcome.toResult, { conn with pending }.dropCall call)
    | none => (none, conn)

/-- A call that has ended and its result. -/
structure Finished where
  key : CallKey
  result : Except ClientError ByteArray

/-- All callers look after their calls, one after the other. -/
def pollAll (conn : Connection) (now : Instant) : List Finished × Connection :=
  conn.calls.foldl
    (fun (finished, conn) call =>
      match conn.poll call now with
      | (some result, conn) => (finished ++ [⟨call.key, result⟩], conn)
      | (none, conn) => (finished, conn))
    ([], conn)

/-! ## Steps of handlers -/

/-- A handler is done with a request. An answer that does not fit into a frame is not sent. -/
def complete (conn : Connection) (service : Service) (result : HandlerResult) : Connection :=
  let conn := { conn with services := conn.services.filter fun other => other.key ≠ service.key }
  match (result.toMessage service.id).encode with
  | .ok frame => { conn with queue := conn.queue.push ⟨none, frame⟩ }
  | .error _ => conn

/-- All requests are served. -/
def completeAll (conn : Connection) (handler : Handler) : Connection :=
  conn.services.foldl (fun conn service => conn.complete service (handler service.payload)) conn

/-! ## Steps of the writer -/

/-- The writer, when it waits, takes the next item. -/
def takeItem (conn : Connection) : Connection :=
  match conn.writer, conn.queue.pop with
  | .idle, some (.frame bytes, queue) => { conn with queue, writer := .writing bytes 0 }
  | .idle, some (.shutdown (some bytes), queue) => { conn with queue, writer := .parting bytes 0 }
  | .idle, some (.shutdown none, queue) => { conn with queue }.endWriter
  | _, _ => conn

/-- The transport accepts at most `room` bytes. Returns those that the writer gives it. -/
def write (conn : Connection) (room : Nat) : ByteArray × Connection :=
  match conn.writer with
  | .writing frame written =>
      let next := min frame.size (written + room)
      (frame.extract written next,
        { conn with writer := if next = frame.size then .idle else .writing frame next })
  | .parting frame written =>
      let next := min frame.size (written + room)
      (frame.extract written next,
        if next = frame.size then conn.endWriter
        else { conn with writer := .parting frame next })
  | _ => (ByteArray.empty, conn)

/-- The transport refuses what the writer gives it. A last frame is given up without a word. -/
def writeFault (conn : Connection) (fault : TransportFault) : Connection :=
  match conn.writer with
  | .writing _ _ => (conn.tearDown (.sendFailed fault)).endWriter
  | .parting _ _ => conn.endWriter
  | _ => conn

/-! ## Steps of the owner -/

/-- How long a close waits for the writer. -/
def closeLinger : Duration := .ofMillis 250

/-- The last frame of a connection that is closed from this side. -/
def farewell : Except ProtocolError ByteArray := (Message.close none).encode

/-- The owner closes the connection. Every call that waits for its answer fails, and the reader
stops. If the end had not begun before, the writer is given a last frame and the owner waits for it
to end; a writer whose queue is full ends at once. Returns whether the owner waits. -/
def close (conn : Connection) : Bool × Connection :=
  let begun := conn.closing
  let conn := { conn.cutOff with closing := true, reader := none }
  match farewell with
  | .error _ => (false, conn)
  | .ok bytes =>
      if begun then (false, conn)
      else if conn.queue.hasRoom then
        (true, { conn with queue := conn.queue.offer (.shutdown (some bytes)) })
      else (false, conn.endWriter)

/-- The owner drops the connection: reader and writer stop where they are. -/
def drop (conn : Connection) : Connection :=
  { conn.cutOff with closing := true, reader := none }.endWriter

end Connection

end Switchboard
