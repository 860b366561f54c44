import SearchOverlay.Sync
import SearchOverlay.SocketAddress

/-!
# Hosts

One machine that runs whole nodes, each over a data directory that outlives it. A host is on
no network: it takes any short address for one of its own, and none of its nodes can reach a
peer.
-/

namespace SearchOverlay

/-- What a node is started with, and what it is started with if nothing else is said. -/
structure Config where
  listen : String := "0.0.0.0:7000"
  /-- The address that peers are told; the bound one unless given. -/
  advertise : Option String := none
  dataDirectory : String := "meshseek-data"
  /-- How many connections are served at the same time. -/
  workers : Nat := 1
  /-- How many connections wait to be served. -/
  queueCapacity : Nat := 64
  connectTimeout : Nat := 10000
  callTimeout : Nat := defaultCallTimeout
  pace : Sync.Pace := .default
  seeds : List String := []
deriving DecidableEq, Repr

structure Host.Running where
  bound : SocketAddress
  node : LocalNode

/-- Nodes and the directories of nodes, by the name of the directory. The files of a node
that was started are its own. -/
structure Host where
  directories : List (String × Directory)
  nodes : List (String × Host.Running)
  /-- Where the servers of nodes listen that were replaced while they ran. -/
  detached : List SocketAddress

namespace Host

inductive StartError where
  | malformedSnapshot (directory : String)
  /-- The text is no address of the machine, or the address is taken. -/
  | notBound (address : String)
  | needsAdvertise (bound : SocketAddress)
deriving DecidableEq, Repr

def StartError.message : StartError → String
  | malformedSnapshot directory => s!"malformed store snapshot {directory}/{Store.fileName}"
  | notBound address => s!"failed to bind {address}"
  | needsAdvertise bound =>
    s!"listening on {bound.toText} needs an advertise address reachable by peers"

def empty : Host := ⟨[], [], []⟩

def node? (h : Host) (name : String) : Option LocalNode := (h.nodes.lookup name).map (·.node)

def files (h : Host) (name : String) : Directory :=
  match h.node? name with
  | some n => n.files
  | none => (h.directories.lookup name).getD .empty

def setNode (name : String) (r : Running) (h : Host) : Host :=
  { h with nodes := (name, r) :: h.nodes.filter (·.1 ≠ name) }

def writeFile (name file : String) (b : Bytes) (h : Host) : Host :=
  let d := (h.files name).write file b
  match h.nodes.lookup name with
  | some r => h.setNode name { r with node := { r.node with files := d } }
  | none => { h with directories := (name, d) :: h.directories.filter (·.1 ≠ name) }

/-- Where the server of a node listens, which is nowhere once the node has stopped. -/
def Running.listening (r : Running) : List SocketAddress :=
  if r.node.stopped then [] else [r.bound]

def listening (h : Host) : List SocketAddress :=
  h.nodes.flatMap (·.2.listening) ++ h.detached

def isFree (h : Host) (a : SocketAddress) : Bool :=
  a.host.isOwn && !h.listening.any (·.conflicts a)

def bind (h : Host) (address : String) : Except StartError SocketAddress :=
  match SocketAddress.parse? address with
  | some a => if h.isFree a then .ok a else .error (.notBound address)
  | none => .error (.notBound address)

def advertised (c : Config) (bound : SocketAddress) : Except StartError String :=
  match c.advertise with
  | some address => .ok address
  | none => if bound.host.isUnspecified then .error (.needsAdvertise bound) else .ok bound.toText

def detach (name : String) (h : Host) : Host :=
  match h.nodes.lookup name with
  | some r => { h with detached := r.listening ++ h.detached }
  | none => h

/-- Starts a node over its directory, in place of the one that was started there before. A
store that is given lives in memory only; the other one is read from the snapshot file and
kept there. -/
def start (now : Time) (c : Config) (memory : Option Store) (h : Host) :
    Except StartError Host := do
  let files := h.files c.dataDirectory
  let store ← match memory with
    | some s => pure s
    | none =>
      match Store.load files with
      | .ok s => pure s
      | .error _ => throw (.malformedSnapshot c.dataDirectory)
  let bound ← h.bind c.listen
  let self := Contact.ofAddress now (← advertised c bound)
  let node : LocalNode :=
    { table := .load now self files
      store
      bootstrapping := false
      files
      keepsStore := memory.isNone
      routingFile := some self.identity
      stopped := false }
  return (h.detach c.dataDirectory).setNode c.dataDirectory ⟨bound, node.startSync⟩

def nobody : Peers Unit := fun _ _ _ => (.error (.unreachable "connection refused"), ())

def run {α : Type} (now : Time) (name : String) (x : Activity α) (h : Host) :
    Option (α × Host) := do
  let r ← h.nodes.lookup name
  let (a, node, _) := x.run (nobody.at now) r.node ()
  return (a, h.setNode name { r with node })

end Host

end SearchOverlay
