import SearchOverlay.Lookup

/-!
# Gossip

A cycle visits the node's neighbours one after the other and pulls what each has newer than
the node. A peer that fails at some stage is evicted; one that is still in its own first
sync is skipped.

A node with an empty store starts in first sync: it turns pings away until a peer has
nothing newer for it. A marker file keeps that state over a restart, until the node has
caught up with some peer.
-/

namespace SearchOverlay

inductive SyncStage where
  | ping
  | refreshRouting
  | status
  | syncResults
  | syncMetadata
deriving DecidableEq, Repr

inductive PeerOutcome where
  /-- All stages ran; the counts are those of the entries that changed the store. -/
  | synced (results metadata : Nat)
  | skipped
  | evicted (stage : SyncStage)
deriving DecidableEq, Repr

namespace Sync

/-- Sets the node's flag if it differs from what the cycle knows of it. -/
def setFlag (known value : Bool) : Activity Bool :=
  if known = value then .done known
  else .tell (.setBootstrapping value) fun _ => .done value

def evict (peer : Contact) (stage : SyncStage) : Activity PeerOutcome :=
  .tell (.evict peer.identity) fun _ => .done (.evicted stage)

def pullMetadata (peer : Contact) (mine theirs : SyncStatus) (merged : Nat) :
    Activity PeerOutcome :=
  if mine.metadata < theirs.metadata then
    .ask peer (.getMetadataSince mine.metadata Call.maxBatch) fun
      | .ok ms => .tell (.mergeMetadata ms) fun count => .done (.synced merged count)
      | .error _ => evict peer .syncMetadata
  else .done (.synced merged 0)

/-- Leaves first sync if the peer gave nothing, and goes on to the metadata. -/
def afterResults (peer : Contact) (mine theirs : SyncStatus) (pulled merged : Nat)
    (firstSync : Bool) : Activity (PeerOutcome × Bool) := do
  let firstSync ← if pulled = 0 && firstSync then setFlag firstSync false else pure firstSync
  return (← pullMetadata peer mine theirs merged, firstSync)

def pullResults (peer : Contact) (mine theirs : SyncStatus) (firstSync : Bool) :
    Activity (PeerOutcome × Bool) :=
  if mine.results < theirs.results then
    .ask peer (.getResultsSince mine.results Call.maxBatch) fun
      | .ok rs => .tell (.mergeRecords rs) fun merged =>
        afterResults peer mine theirs rs.length merged firstSync
      | .error _ => return (← evict peer .syncResults, firstSync)
  else afterResults peer mine theirs 0 0 firstSync

def caughtUp (mine theirs : SyncStatus) : Bool :=
  theirs.results ≤ mine.results && theirs.metadata ≤ mine.metadata

/-- Compares the watermarks; a node in first sync that has caught up drops the marker. -/
def compareStatus (peer : Contact) (firstSync : Bool) : Activity (PeerOutcome × Bool) :=
  .ask peer .getStatus fun
    | .error _ => return (← evict peer .status, firstSync)
    | .ok theirs => .tell .status fun mine =>
      if firstSync && caughtUp mine theirs then
        .dropMarker fun _ => pullResults peer mine theirs firstSync
      else pullResults peer mine theirs firstSync

def refreshRouting (me : Identity) (peer : Contact) (firstSync : Bool) :
    Activity (PeerOutcome × Bool) :=
  .tell .isRoutingFull fun full =>
    if full then compareStatus peer firstSync
    else
      .ask peer .getPeers fun
        | .ok cs => .clock fun clock => .tell (.pushAll (Lookup.reported clock me cs)) fun _ =>
          compareStatus peer firstSync
        | .error _ => return (← evict peer .refreshRouting, firstSync)

/-- Visits one peer. `firstSync` is what the cycle knows of the node's flag; the answer
brings it up to date. -/
def visit (me peer : Contact) (firstSync : Bool) : Activity (PeerOutcome × Bool) :=
  .ask peer (.ping me) fun pong => do
    let firstSync ← if firstSync then setFlag firstSync pong.isOk else pure firstSync
    match pong with
    | .ok _ => refreshRouting me.identity peer firstSync
    | .error e =>
      if e.isBootstrapping then return (.skipped, firstSync)
      else return (← evict peer .ping, firstSync)

def visitAll (me : Contact) : List Contact → Bool → Activity (List (Contact × PeerOutcome))
  | [], _ => return []
  | peer :: peers, firstSync => do
    if peer.identity = me.identity then visitAll me peers firstSync
    else
      let (outcome, firstSync) ← visit me peer firstSync
      return (peer, outcome) :: (← visitAll me peers firstSync)

/-- One cycle over the neighbours of the moment. A node that has quit visits nobody. -/
def cycle : Activity (List (Contact × PeerOutcome)) := do
  match ← .command .self with
  | none => return []
  | some me =>
    let peers ← .command .neighbours
    let firstSync ← .command .isBootstrapping
    visitAll me peers firstSync

structure Pace where
  /-- Milliseconds between cycles in first sync. -/
  fast : Nat
  /-- Milliseconds between cycles after it. -/
  slow : Nat
  flushEvery : Nat
deriving DecidableEq, Repr

def Pace.default : Pace := ⟨5000, 60000, 5⟩

def Pace.delay (p : Pace) (bootstrapping : Bool) : Nat := if bootstrapping then p.fast else p.slow

def numberedCycle (p : Pace) (done : Nat) : Activity Unit := do
  let _ ← cycle
  if (done + 1) % max p.flushEvery 1 = 0 then .command .persist

def nextCycle (p : Pace) (done : Nat) : Activity Unit := do
  let bootstrapping ← .command .isBootstrapping
  .sleep (p.delay bootstrapping)
  numberedCycle p done

end Sync

/-- Prepares a node for gossip: an empty store gets the marker, and the marker decides about
the flag. -/
def LocalNode.startSync (n : LocalNode) : LocalNode :=
  let files :=
    if n.store.isEmpty && !n.files.has markerName then n.files.write markerName [] else n.files
  { n with files, bootstrapping := files.has markerName }

end SearchOverlay
