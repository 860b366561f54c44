import SearchOverlay.Activity

/-!
# Tasks of a simulation

What goes on beside a script: the gossip loops of the stations, the servers of connections,
and the scripted lines. Tasks take turns. In its turn a task goes on until it has to wait for
an answer of its node, for a connection, or for time to pass. A node takes turns as well: it
performs the commands in its mailbox.
-/

namespace SearchOverlay.Simulation

/-- Whoever waits for something: the script, or the task with a number. -/
inductive Party where
  | script
  | task (number : Nat)
deriving DecidableEq, Repr

inductive Turn where
  | node (station : Nat)
  | task (number : Nat)
deriving DecidableEq, Repr

/-- The number of a connection, which is the correlation of its request. -/
abbrev ConnectionId := UInt64

/-- A connection as its server has it: where the answer goes, and who waits for it. -/
structure ServerEnd where
  connection : ConnectionId
  client : Party
deriving DecidableEq, Repr

inductive Outcome where
  | cycled (cycles : Nat)
  /-- A line has read a request; it answers after some milliseconds, if at all. -/
  | received (server : ServerEnd) (request : Request) (answer : Option (Nat × Bytes))
  | answered (server : ServerEnd) (answer : Except CallError Bytes)

/-- Who waits for an answer, and how a task goes on with it. -/
inductive Reader (answer : Type) where
  | nobody
  | script
  | task (number : Nat) (next : answer → Activity Outcome)

structure Letter where
  command : Command
  reader : Reader command.Answer

/-- Where a task stands between two turns. A turn that comes too early changes nothing. -/
inductive Stage where
  | ready (rest : Activity Outcome)
  | pausing (deadline : Nat) (rest : Activity Outcome)
  | asking
  | connected (connection : ConnectionId) (next : Except CallError Bytes → Activity Outcome)

structure Task where
  number : Nat
  station : Nat
  isLoop : Bool
  stage : Stage

structure Alarm where
  time : Nat
  party : Party
deriving DecidableEq, Repr

/-- A connection that its client has not given up. -/
structure Connection where
  id : ConnectionId
  client : Party
  opened : Nat
  timeout : Nat
  answer : Option (Except CallError Bytes) := none

def Connection.isSettled (now : Nat) (c : Connection) : Bool :=
  c.answer.isSome || c.opened + c.timeout ≤ now

/-- What the client makes of a connection that is settled: without an answer, its time is
over. A server that fails sends nothing back. -/
def Connection.frame (c : Connection) : Except CallError Bytes :=
  match c.answer with
  | some r => .ok (r.toOption.getD [])
  | none => .error (.timedOut c.timeout)

end SearchOverlay.Simulation
