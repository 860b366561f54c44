import SearchOverlay.Simulation.Script
import SearchOverlay.Simulation.Task
import SearchOverlay.Serving
import SearchOverlay.Sync

/-!
# Simulations

Nodes that run against each other, and against scripted peers, in one process. Two clocks
are kept apart: `clock` is what the nodes read, and `elapsed` counts the milliseconds that
are waited.

A script drives the simulation from outside; the tasks of the simulation take turns in the
order in which they became ready.
-/

namespace SearchOverlay

/-- A node of a simulation. It serves connections at `address`, whatever becomes of it. -/
structure Station where
  name : String
  address : String
  node : LocalNode
  /-- The pace of its gossip loops, if it can run any. -/
  pace : Option Sync.Pace
  callTimeout : Nat
  /-- The commands on their way to the node, in the order in which they were sent. -/
  mailbox : List Simulation.Letter := []

structure Station.Plan where
  name : String
  self : Contact
  records : List Record := []
  metadata : List Metadata := []
  peers : List Contact := []
  marked : Bool := false
  onDisk : Bool := false
  bootstrapping : Bool := false
  pace : Option Sync.Pace := some .default
  callTimeout : Nat := defaultCallTimeout

def Station.Plan.build (now : Time) (p : Plan) : Station :=
  let node : LocalNode :=
    { table := (RoutingTable.new p.self).pushAll now p.peers
      store := .ofEntries p.records p.metadata
      bootstrapping := p.bootstrapping
      files := if p.marked then Directory.empty.write markerName [] else .empty
      keepsStore := p.onDisk
      routingFile := if p.onDisk then some p.self.identity else none
      stopped := false }
  { name := p.name
    address := p.self.address
    node := if p.pace.isSome then node.startSync else node
    pace := p.pace
    callTimeout := p.callTimeout }

namespace Simulation

structure Entry where
  elapsed : Nat
  address : String
  query : Query

def turnsPerLook : Nat := 61

/-- The longest pause, thirty years of 365 days. -/
def longestPause : Nat := 30 * 365 * 86400000

end Simulation

structure Simulation where
  stations : List Station
  stubs : List (String × Simulation.Stub)
  lines : List (String × Simulation.Line)
  chain : Option Simulation.Chain
  clock : Time
  elapsed : Nat := 0
  correlation : UInt64 := 0x9e3779b97f4a7c15
  tasks : List Simulation.Task := []
  nextTask : Nat := 0
  /-- Who is ready, in the order in which they became so. -/
  turns : List Simulation.Turn := []
  alarms : List Simulation.Alarm := []
  connections : List Simulation.Connection := []
  awake : Bool := false
  credit : Nat := Simulation.turnsPerLook
  /-- The node of a station as the last command of the script found it. -/
  found : Option LocalNode := none
  queries : List Simulation.Entry := []
  /-- The requests that lines were sent, the latest first. -/
  requests : List Request := []

namespace Simulation

def anyone : String := "*"

/-! ## Stations -/

def number? (s : Simulation) (name : String) : Option Nat := s.stations.findIdx? (·.name = name)

/-- The number of the station that serves an address: of several, the last one. -/
def serverAt? (s : Simulation) (address : String) : Option Nat :=
  (s.stations.zipIdx.reverse.find? (·.1.address = address)).map (·.2)

def updateStation (i : Nat) (f : Station → Station) (s : Simulation) : Simulation :=
  { s with stations := s.stations.modify i f }

def update (i : Nat) (f : LocalNode → LocalNode) (s : Simulation) : Simulation :=
  s.updateStation i fun t => { t with node := f t.node }

def isRunning (i : Nat) (s : Simulation) : Bool := s.stations[i]?.any (!·.node.stopped)

/-! ## Scripted peers -/

/-- Gives a key a value in a list of pairs, or takes it out. -/
def assign {α : Type} (key : String) (a : Option α) (pairs : List (String × α)) :
    List (String × α) :=
  let others := pairs.filter (·.1 ≠ key)
  match a with
  | some a => (key, a) :: others
  | none => others

def setStub (address : String) (stub : Option Stub) (s : Simulation) : Simulation :=
  { s with stubs := assign address stub s.stubs }

def setLine (address : String) (line : Option Line) (s : Simulation) : Simulation :=
  { s with lines := assign address line s.lines }

def clearTrace (s : Simulation) : Simulation := { s with queries := [], requests := [] }

/-! ## Turns -/

def enqueue (t : Turn) (s : Simulation) : Simulation :=
  if s.turns.contains t then s else { s with turns := s.turns ++ [t] }

def wake : Party → Simulation → Simulation
  | .script, s => { s with awake := true }
  | .task n, s => s.enqueue (.task n)

def setAlarm (ms : Nat) (p : Party) (s : Simulation) : Simulation :=
  { s with alarms := s.alarms ++ [⟨s.elapsed + ms, p⟩] }

def dropAlarms (p : Party) (s : Simulation) : Simulation :=
  { s with alarms := s.alarms.filter (·.party ≠ p) }

def ring (s : Simulation) : Option Simulation := do
  let time ← (s.alarms.map (·.time)).min?
  let (due, later) := s.alarms.partition (·.time ≤ time)
  let s := { s with elapsed := max s.elapsed time, alarms := later }
  return due.foldl (fun s a => s.wake a.party) s

/-! ## Tasks -/

def spawn (station : Nat) (isLoop : Bool) (x : Activity Outcome) (s : Simulation) : Simulation :=
  let n := s.nextTask
  let t : Task := { number := n, station, isLoop, stage := .ready x }
  { s with tasks := s.tasks ++ [t], nextTask := n + 1 }.enqueue (.task n)

def task? (n : Nat) (s : Simulation) : Option Task := s.tasks.find? (·.number = n)

def setStage (n : Nat) (stage : Stage) (s : Simulation) : Simulation :=
  { s with tasks := updateFirst (·.number = n) (fun t => { t with stage }) s.tasks }

/-- Ends a task. Nothing that it waits for reaches it any more. -/
def endTask (n : Nat) (s : Simulation) : Simulation :=
  { s with
    tasks := s.tasks.filter (·.number ≠ n)
    connections := s.connections.filter (·.client ≠ Party.task n) }.dropAlarms (.task n)

/-! ## Commands -/

def post (i : Nat) (l : Letter) (s : Simulation) : Simulation :=
  (s.updateStation i fun t => { t with mailbox := t.mailbox ++ [l] }).enqueue (.node i)

def send (i : Nat) (c : Command) (s : Simulation) : Simulation :=
  if c.isVoid then s else s.post i ⟨c, .nobody⟩

def deliver (i : Nat) (s : Simulation) (l : Letter) : Simulation :=
  match s.stations[i]? with
  | none => s
  | some t =>
    let (a, node) := t.node.perform s.clock l.command
    let s := s.update i fun _ => node
    match l.reader with
    | .nobody => s
    | .script => { s with found := some t.node }.wake .script
    | .task n next =>
      if (s.task? n).isSome then (s.setStage n (.ready (next a))).wake (.task n) else s

def nodeTurn (i : Nat) (s : Simulation) : Simulation :=
  match s.stations[i]? with
  | none => s
  | some t => t.mailbox.foldl (deliver i) (s.updateStation i fun t => { t with mailbox := [] })

/-! ## Connections -/

/-- Waits for what a connection brings. There is no waiting without time. -/
def awaitConnection (c : Connection) (s : Simulation) :
    Except CallError ConnectionId × Simulation :=
  if c.timeout = 0 then (.error (.timedOut 0), s)
  else
    (.ok c.id, { s with connections := s.connections ++ [c] }.setAlarm c.timeout c.client)

/-- What a line sends back for a request, and after how many milliseconds. -/
def Line.response? (q : Request) : Line → Option (Nat × Bytes)
  | refuses _ | neverOpens | neverAnswers => none
  | answers delay echo => some (delay, echo.toFrame q)

def connect (client : Party) (timeout : Nat) (address : String) (q : Request) (frame : Bytes)
    (s : Simulation) : Except CallError ConnectionId × Simulation :=
  let c : Connection := { id := q.correlation, client, opened := s.elapsed, timeout }
  let server : ServerEnd := ⟨c.id, client⟩
  match s.lines.lookup address with
  | some (.refuses reason) => (.error (.unreachable reason), s)
  | some .neverOpens => s.awaitConnection c
  | some line =>
    let x := Activity.done (.received server q (line.response? q))
    (s.spawn s.stations.length false x).awaitConnection c
  | none =>
    match s.serverAt? address with
    | some i =>
      let x := (Serving.exchange frame).bind fun r => .done (.answered server r)
      (s.spawn i false x).awaitConnection c
    | none => (.error (.unreachable "connection refused"), s)

def call (client : Party) (station : Nat) (address : String) (c : Call) (s : Simulation) :
    Except CallError ConnectionId × Simulation :=
  let id := s.correlation
  let s := { s with correlation := id + 1 }
  let timeout := s.stations[station]?.elim defaultCallTimeout (·.callTimeout)
  match c.request id, c.frame id with
  | .ok q, .ok frame => s.connect client timeout address q frame
  | .error e, _ => (.error (.malformed (.wire e)), s)
  | .ok _, .error e => (.error e, s)

def waitOf (id : ConnectionId) (s : Simulation) : Nat :=
  (s.connections.find? (·.id = id)).elim 0 (·.timeout)

/-- Calls a task that may have nothing to go on with. -/
def nudge : Party → Simulation → Simulation
  | .script, s => s
  | .task n, s => if (s.task? n).isSome then s.enqueue (.task n) else s

/-- Ends a connection on the server's side. A task that has given the connection up is called
as well, for it still listens; the script is not, since it would find nothing. -/
def answer (server : ServerEnd) (r : Except CallError Bytes) (s : Simulation) : Simulation :=
  let isMeant := fun (c : Connection) => c.id = server.connection
  if s.connections.any isMeant then
    { s with
      connections := updateFirst isMeant (fun c => { c with answer := some r }) s.connections
    }.wake server.client
  else s.nudge server.client

def isSettled (id : ConnectionId) (s : Simulation) : Bool :=
  (s.connections.find? (·.id = id)).all (·.isSettled s.elapsed)

/-- Ends a connection on the client's side: the value of the response. -/
def close (id : ConnectionId) (s : Simulation) : Except CallError Bytes × Simulation :=
  match s.connections.find? (·.id = id) with
  | none => (.error (.timedOut 0), s)
  | some c =>
    (c.frame.bind (Call.responseValue id),
      { s with connections := s.connections.filter (·.id ≠ id) }.dropAlarms c.client)

end Simulation

end SearchOverlay
