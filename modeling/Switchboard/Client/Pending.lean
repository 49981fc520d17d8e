import Switchboard.Client.Error

/-!
# Requests that wait for an answer

A caller registers its request and is given a slot; whoever has the answer resolves the request by
its number, which takes the entry out of the table and puts the outcome into the slot. A slot that
is dropped makes the table forget the number of its request. A slot whose entry was forgotten
without an outcome reads as closed.
-/

namespace Switchboard

/-- Names a slot among all that a table has given out. -/
abbrev SlotKey := Nat

/-- What a slot holds. -/
inductive SlotState where
  /-- Nothing yet; the entry is in the table. -/
  | waiting
  /-- The outcome. -/
  | resolved (outcome : Outcome)
  /-- Nothing, and the entry has been forgotten. -/
  | orphaned
deriving DecidableEq

/-- A slot: its name, the number of its request, and what it holds. -/
structure Slot where
  key : SlotKey
  id : RequestId
  state : SlotState
deriving DecidableEq

/-- A table of waiting requests: the entries, at most one for each number, and the slots that
callers hold. -/
structure PendingTable where
  entries : List (RequestId × SlotKey) := []
  slots : List Slot := []
  nextKey : SlotKey := 0
  closed : Bool := false
deriving DecidableEq

namespace PendingTable

/-- A table without entries. -/
def new : PendingTable := {}

/-- The number of requests that wait. -/
def size (table : PendingTable) : Nat := table.entries.length

/-- The slot that a number would be resolved into. -/
def holder? (table : PendingTable) (id : RequestId) : Option SlotKey := table.entries.lookup id

/-- The slot with the given name, while its caller holds it. -/
def slot? (table : PendingTable) (key : SlotKey) : Option Slot :=
  table.slots.find? fun slot => slot.key = key

/-- Takes the entry of a number out of the table. -/
def eraseEntry (table : PendingTable) (id : RequestId) : PendingTable :=
  { table with entries := table.entries.filter fun entry => entry.1 ≠ id }

/-- Puts a state into a slot that waits. A slot that does not wait stays as it is. -/
def settle (table : PendingTable) (key : SlotKey) (state : SlotState) : PendingTable :=
  { table with
    slots := table.slots.map fun slot =>
      if slot.key = key ∧ slot.state = .waiting then { slot with state } else slot }

/-- Registers a request. -/
def register (table : PendingTable) (id : RequestId) :
    Except ClientError SlotKey × PendingTable :=
  if table.closed then (.error .connectionClosed, table)
  else if (table.holder? id).isSome then (.error (.duplicateRequest id), table)
  else
    let key := table.nextKey
    (.ok key,
      { table with
        entries := table.entries ++ [(id, key)]
        slots := table.slots ++ [⟨key, id, .waiting⟩]
        nextKey := key + 1 })

/-- Resolves the request of the given number. False if none waits under it. -/
def resolve (table : PendingTable) (id : RequestId) (outcome : Outcome) : Bool × PendingTable :=
  match table.holder? id with
  | none => (false, table)
  | some key => (true, (table.eraseEntry id).settle key (.resolved outcome))

/-- Closes the table and resolves every request that waits. Returns their number. -/
def cancelAll (table : PendingTable) (outcome : Outcome) : Nat × PendingTable :=
  let settled := table.entries.foldl (fun t entry => t.settle entry.2 (.resolved outcome)) table
  (table.size, { settled with entries := [], closed := true })

/-- Forgets a number. The slot that waits under it, whosever it is, is left without an entry. -/
def forget (table : PendingTable) (id : RequestId) : PendingTable :=
  match table.holder? id with
  | none => table
  | some key => (table.eraseEntry id).settle key .orphaned

/-- Drops a slot: its caller does not hold it any more, and its number is forgotten. -/
def drop (table : PendingTable) (key : SlotKey) : PendingTable :=
  match table.slot? key with
  | none => table
  | some slot =>
      { table with slots := table.slots.filter fun s => s.key ≠ key }.forget slot.id

/-- What a caller that looks at its slot finds: the outcome, if there is one. A look takes nothing,
so another one finds the same. It is not what a caller does that waits: that takes the outcome out
of the slot, and whoever has been given it must not wait on the slot again. -/
def poll (table : PendingTable) (key : SlotKey) : Option Outcome :=
  match (table.slot? key).map Slot.state with
  | some (.resolved outcome) => some outcome
  | some .orphaned => some .closed
  | _ => none

/-- An attempt to resolve a number at an instant, counted from the beginning of a wait. -/
structure TimedResolve where
  instant : Int
  id : RequestId
  outcome : Outcome
deriving DecidableEq

/-- Makes the attempts in order. Returns the result of each. -/
def resolveAll (table : PendingTable) : List TimedResolve → List Bool × PendingTable
  | [] => ([], table)
  | r :: rest =>
      let (found, table) := table.resolve r.id r.outcome
      let (results, table) := table.resolveAll rest
      (found :: results, table)

/-- Gives up a slot whose deadline has passed. A slot that holds an outcome keeps it. -/
def expire (table : PendingTable) (key : SlotKey) : PendingTable :=
  match table.slot? key with
  | some slot => if slot.state = .waiting then (table.resolve slot.id .timedOut).2 else table
  | none => table

/-- Waits for the outcome of a slot until the deadline, while the attempts, in order of time, are
made. The deadline does not take an outcome away that came before it. The attempts behind the
deadline are made before the answer is given. A slot is waited on until it has given its outcome,
and not again afterwards; the slot keeps no state for that. -/
def waitUntil (table : PendingTable) (key : SlotKey) (deadline : Int)
    (attempts : List TimedResolve) : (Option Outcome × List Bool) × PendingTable :=
  let before := attempts.takeWhile fun r => 0 ≤ r.instant && r.instant < deadline
  let (early, table) := table.resolveAll before
  let table := table.expire key
  let outcome := table.poll key
  let (late, table) := table.resolveAll (attempts.drop before.length)
  ((outcome, early ++ late), table)

end PendingTable

end Switchboard
