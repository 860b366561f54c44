import SearchOverlay.Activity

/-!
# Node lookup

The walk starts with the node's neighbours and asks every member it has not met for that
member's neighbours, until nobody new is left or the limit on queries is reached. What the
members report goes into the routing table as seen just now; a member that does not answer
is reported to the table.

A node joins the overlay by a walk from the address of one member: the seed is pinged, taken into
the routing table, and asked first. A seed that is itself in first sync counts as reached.
-/

namespace SearchOverlay

namespace Lookup

def limit : Nat := 160 * Bucket.capacity

/-- The contacts of a report, without the node itself, as seen now. -/
def reported (clock : Clock) (me : Identity) (cs : List Contact) : List Contact :=
  Contact.restamp clock (cs.filter (·.identity ≠ me))

/-- The walk after `queried` queries that has met `visited` and has the queue still to go.
The answer is the number of queries. -/
def walk (me : Identity) (visited : List Identity) (queried : Nat) :
    List Contact → Activity Nat
  | [] => .done queried
  | peer :: queue =>
    if limit ≤ queried then .done queried
    else if visited.contains peer.identity then walk me visited queried queue
    else
      let visited := peer.identity :: visited
      .ask peer .getPeers fun
        | .ok cs => .clock fun clock =>
          let found := reported clock me cs
          .tell (.pushAll found) fun _ =>
            walk me visited (queried + 1)
              (queue ++ found.filter fun c => !visited.contains c.identity)
        | .error _ => .tell (.remove peer.identity) fun _ => walk me visited (queried + 1) queue
termination_by queue => (limit - queried, queue.length)

/-- The whole walk. There is no answer from a node that has quit. -/
def run : Activity (Option Nat) := do
  match ← .command .self with
  | none => return none
  | some me =>
    let start ← .command .neighbours
    some <$> walk me.identity [me.identity] 0 start

end Lookup

namespace Join

inductive Failure where
  | stopped
  | unreachable (address : String)
deriving DecidableEq, Repr

def Failure.message : Failure → String
  | stopped => LocalNode.stoppedMessage
  | unreachable address => s!"bootstrap peer {address} unreachable"

def through (seed : Contact) : Activity (Except Failure Nat) := do
  .command (.pushAll [seed])
  match ← Lookup.run with
  | some queried => return .ok queried
  | none => return .error .stopped

def run (address : String) : Activity (Except Failure Nat) := do
  match ← .command .self with
  | none => return .error .stopped
  | some me =>
    let seed := Contact.ofAddress (← .readClock) address
    match ← .query seed (.ping me) with
    | .ok identity => through (.fresh (← .readClock) identity address)
    | .error e =>
      if e.isBootstrapping then through (.ofAddress (← .readClock) address)
      else return .error (.unreachable address)

end Join

end SearchOverlay
