import Switchboard.Message
import Switchboard.Relay.Session

/-!
# Outboxes

The messages that wait to be written to one member. An outbox holds a limited number of them, in the
order in which they came, and takes no more once nobody reads it.
-/

namespace Switchboard

/-- Why a message could not be put into a member's outbox. -/
inductive Undelivered where
  /-- The outbox holds as many messages as it may. -/
  | full (member : MemberId)
  /-- The member has left, or nobody reads its outbox. -/
  | gone (member : MemberId)
deriving DecidableEq, Repr

/-- The text that reports the failure. -/
def Undelivered.text : Undelivered → String
  | full member => s!"member {member} outbound queue full"
  | gone member => s!"member {member} is gone"

/-- The messages that wait to be written to one member. -/
structure Outbox where
  member : MemberId
  capacity : Nat
  queued : List Message := []
  isRead : Bool := true
deriving DecidableEq

namespace Outbox

/-- Puts a message at the end. -/
def push (outbox : Outbox) (message : Message) : Except Undelivered Outbox :=
  if outbox.isRead = false then .error (.gone outbox.member)
  else if outbox.capacity ≤ outbox.queued.length then .error (.full outbox.member)
  else .ok { outbox with queued := outbox.queued ++ [message] }

/-- Removes the first `count` messages. -/
def drop (outbox : Outbox) (count : Nat) : Outbox :=
  { outbox with queued := outbox.queued.drop count }

/-- Nobody reads the outbox any more, and what it held is lost. -/
def hangUp (outbox : Outbox) : Outbox := { outbox with queued := [], isRead := false }

/-- Pushing neither renames an outbox nor changes how much it may hold. -/
theorem push_eq_ok {outbox next : Outbox} {message : Message}
    (h : outbox.push message = .ok next) :
    next = { outbox with queued := outbox.queued ++ [message] } := by
  unfold push at h
  split at h
  · cases h
  · split at h
    · cases h
    · cases h
      rfl

end Outbox

end Switchboard
