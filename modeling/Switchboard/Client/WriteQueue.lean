import Switchboard.Bytes

/-!
# The write queue of a connection

Frames pass through a bounded queue to the writer of the connection. Those who find it full wait in
line and give their frames when it is their turn. When the writer ends, the queue is closed: what it
held is lost, and those who wait in line will find it closed.
-/

namespace Switchboard

/-- Names a call among all that a connection has seen. -/
abbrev CallKey := Nat

/-- What the writer is given. -/
inductive WriteItem where
  /-- A whole frame. -/
  | frame (bytes : ByteArray)
  /-- The end of the stream, behind a last frame if there is one. -/
  | shutdown (farewell : Option ByteArray)
deriving DecidableEq

/-- Somebody who waits in line with a frame: a call, or else the answer to a request. -/
structure Waiter where
  call : Option CallKey
  frame : ByteArray
deriving DecidableEq

/-- The queue in front of the writer. -/
structure WriteQueue where
  capacity : Nat
  items : List WriteItem := []
  line : List Waiter := []
  isOpen : Bool := true
deriving DecidableEq

namespace WriteQueue

/-- Whether the queue takes an item at once. -/
def hasRoom (queue : WriteQueue) : Bool := queue.isOpen && queue.items.length < queue.capacity

/-- Puts an item into the queue if there is room. -/
def offer (queue : WriteQueue) (item : WriteItem) : WriteQueue :=
  if queue.hasRoom then { queue with items := queue.items ++ [item] } else queue

/-- Puts a frame into the queue, or gets in line with it. -/
def push (queue : WriteQueue) (waiter : Waiter) : WriteQueue :=
  if queue.hasRoom then { queue with items := queue.items ++ [.frame waiter.frame] }
  else { queue with line := queue.line ++ [waiter] }

/-- Takes the first item. The first in line gives its frame. -/
def pop (queue : WriteQueue) : Option (WriteItem × WriteQueue) :=
  match queue.items, queue.line with
  | [], _ => none
  | item :: items, [] => some (item, { queue with items })
  | item :: items, first :: line =>
      some (item, { queue with items := items ++ [.frame first.frame], line })

/-- Whether a call waits in line. -/
def holds (queue : WriteQueue) (call : CallKey) : Bool :=
  queue.line.any fun waiter => waiter.call = some call

/-- A call leaves the line. -/
def withdraw (queue : WriteQueue) (call : CallKey) : WriteQueue :=
  { queue with line := queue.line.filter fun waiter => waiter.call ≠ some call }

/-- The writer is gone. -/
def close (queue : WriteQueue) : WriteQueue := { queue with items := [], isOpen := false }

end WriteQueue

end Switchboard
