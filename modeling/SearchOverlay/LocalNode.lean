import SearchOverlay.RoutingTable.Codec
import SearchOverlay.Store.Snapshot

/-!
# The local node

All state that the calls of peers and the activities of a member change: the routing table,
the store, the bootstrapping flag and the files. It changes only by commands, each of which
is performed as a whole. A node that has quit answers every command with a fixed value.
-/

namespace SearchOverlay

structure LocalNode where
  table : RoutingTable
  store : Store
  bootstrapping : Bool
  files : Directory
  /-- Whether the store is kept in the snapshot file. -/
  keepsStore : Bool
  /-- After which identity the routing file is named, if the table is kept in one. -/
  routingFile : Option Identity
  stopped : Bool

inductive PingReply where
  | pong (id : Identity)
  | bootstrapping
deriving DecidableEq, Repr

inductive Command where
  | pushAll (contacts : List Contact)
  | remove (id : Identity)
  | evict (id : Identity)
  | self
  | setSelf (contact : Contact)
  | neighbours
  | isRoutingFull
  | routingTable
  | insert (record : Record)
  | search (query : String)
  | status
  | isStoreEmpty
  | recordsSince (since : Time) (max : Nat)
  | metadataSince (since : Time) (max : Nat)
  | metadataOf (hash : ContentHash)
  | mergeRecords (records : List Record)
  | mergeMetadata (metadata : List Metadata)
  | isBootstrapping
  | setBootstrapping (value : Bool)
  | ping (caller : Contact)
  | persist
  | quit

namespace Command

/-- What a command is answered. Nothing stands for a node that has quit, where no other
answer says so. -/
abbrev Answer : Command → Type
  | pushAll _ | setSelf _ | setBootstrapping _ | persist | quit => Unit
  | remove _ | evict _ | isRoutingFull | isStoreEmpty | isBootstrapping => Bool
  | self => Option Contact
  | neighbours => List Contact
  | routingTable => Option RoutingTable
  | insert _ => Option Unit
  | search _ | recordsSince _ _ => List Record
  | metadataSince _ _ => List Metadata
  | metadataOf _ => Option Metadata
  | mergeRecords _ | mergeMetadata _ => Nat
  | status => SyncStatus
  | ping _ => PingReply

def stoppedAnswer : (c : Command) → c.Answer
  | pushAll _ | setSelf _ | setBootstrapping _ | persist | quit => ()
  | remove _ | evict _ | isRoutingFull | isBootstrapping => false
  | isStoreEmpty => true
  | self | routingTable | insert _ => none
  | neighbours => []
  | search _ | recordsSince _ _ => []
  | metadataSince _ _ => []
  | metadataOf _ => none
  | mergeRecords _ | mergeMetadata _ => 0
  | status => ⟨0, 0⟩
  | ping _ => .bootstrapping

/-- Whether whoever sends the command waits until it has been performed. -/
def isAwaited : Command → Bool
  | pushAll _ | setSelf _ | setBootstrapping _ => false
  | _ => true

/-- Whether there is nothing to perform, so that the command is not sent at all. -/
def isVoid : Command → Bool
  | pushAll [] => true
  | _ => false

end Command

namespace LocalNode

def stoppedMessage : String := "local node stopped"

def persist (n : LocalNode) : LocalNode :=
  let files := if n.keepsStore then n.store.save n.files else n.files
  match n.routingFile with
  | none => { n with files }
  | some id =>
    match n.table.save id files with
    | .ok files => { n with files }
    | .error _ => { n with files }

/-- Moves the node to another own contact. Under a new identity its routing file goes
along. -/
def setSelf (clock : Clock) (c : Contact) (n : LocalNode) : LocalNode :=
  let old := n.table.identity
  let n := { n with table := n.table.setSelf clock c }
  if n.table.identity = old then n
  else
    match n.routingFile with
    | none => n
    | some id =>
      { n with
        files := n.files.rename (RoutingTable.fileName id) (RoutingTable.fileName n.table.identity)
        routingFile := some n.table.identity }

def answerPing (now : Time) (caller : Contact) (n : LocalNode) : PingReply × LocalNode :=
  let n := { n with table := (n.table.push now caller).2 }
  (if n.bootstrapping then .bootstrapping else .pong n.table.identity, n)

def performRunning (clock : Clock) (n : LocalNode) : (c : Command) → c.Answer × LocalNode
  | .pushAll cs => ((), { n with table := n.table.pushAll clock cs })
  | .remove id =>
    let (was, table) := n.table.remove id
    (was, { n with table })
  | .evict id =>
    let (was, table) := n.table.evict id
    (was, { n with table })
  | .self => (some n.table.self, n)
  | .setSelf c => ((), n.setSelf clock c)
  | .neighbours => (n.table.neighbours, n)
  | .isRoutingFull => (n.table.isFull, n)
  | .routingTable => (some n.table, n)
  | .insert r => (some (), { n with store := n.store.insert r })
  | .search query => (n.store.search query, n)
  | .status => (n.store.status, n)
  | .isStoreEmpty => (n.store.isEmpty, n)
  | .recordsSince since max => (n.store.recordsSince since max, n)
  | .metadataSince since max => (n.store.metadataSince since max, n)
  | .metadataOf h => (n.store.metadata? h, n)
  | .mergeRecords rs =>
    let (count, store) := n.store.mergeRecords rs
    (count, { n with store })
  | .mergeMetadata ms =>
    let (count, store) := n.store.mergeMetadata ms
    (count, { n with store })
  | .isBootstrapping => (n.bootstrapping, n)
  | .setBootstrapping b => ((), { n with bootstrapping := b })
  | .ping c => n.answerPing clock.now c
  | .persist => ((), n.persist)
  | .quit => ((), { n.persist with stopped := true })

def perform (clock : Clock) (n : LocalNode) (c : Command) : c.Answer × LocalNode :=
  if n.stopped then (c.stoppedAnswer, n) else n.performRunning clock c

def performAll (n : LocalNode) (commands : List (Clock × Command)) : LocalNode :=
  commands.foldl (fun n c => (n.perform c.1 c.2).2) n

end LocalNode

end SearchOverlay
