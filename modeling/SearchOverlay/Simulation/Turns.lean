import SearchOverlay.Simulation.Basic

/-!
# Taking turns

Who is ready takes a turn, the first to become ready first. When nobody is, time goes on to
the next alarm. The script is looked at after every so many turns, and whenever nobody is
ready or time has gone on.
-/

namespace SearchOverlay.Simulation

/-- What becomes of a query at first: an answer, or a connection that will bring one. -/
inductive Asked (q : Query) where
  | answered (r : Except CallError q.Reply)
  | connected (connection : ConnectionId)

def ask (client : Party) (station : Nat) (peer : Contact) (q : Query) (s : Simulation) :
    Asked q × Simulation :=
  let address := peer.address
  let s := { s with queries := ⟨s.elapsed, address, q⟩ :: s.queries }
  match s.chain.bind fun c => (c.position? address).map (c, ·) with
  | some (c, k) => (.answered (c.answer s.clock k q), s)
  | none =>
    let scripted := fun (key : String) => (s.stubs.lookup key).map (key, ·)
    match (scripted address).or (scripted anyone) with
    | some (key, stub) =>
      let (r, stub) := stub.answer s.clock peer q
      (.answered r, s.setStub key (some stub))
    | none =>
      match s.call client station address q.call with
      | (.error e, s) => (.answered (q.answer (.error e)), s)
      | (.ok id, s) => (.connected id, s)

/-- Goes on with an activity of a task until it has to wait, or to its end. -/
def drive (n station : Nat) : Activity Outcome → Simulation → Option Outcome × Simulation
  | .done o, s => (some o, s)
  | .clock k, s => drive n station (k s.clock) s
  | .pause ms k, s =>
    if ms = 0 then drive n station (k ()) s
    else
      let ms := min ms longestPause
      (none, (s.setStage n (.pausing (s.elapsed + ms) (k ()))).setAlarm ms (.task n))
  | .tell c k, s =>
    if s.isRunning station then
      if c.isAwaited then (none, (s.setStage n .asking).post station ⟨c, .task n k⟩)
      else drive n station (k c.stoppedAnswer) (s.send station c)
    else drive n station (k c.stoppedAnswer) s
  | .dropMarker k, s => drive n station (k ()) (s.update station LocalNode.dropMarker)
  | .ask p q k, s =>
    match s.ask (.task n) station p q with
    | (.answered r, s) => drive n station (k r) s
    | (.connected id, s) => (none, s.setStage n (.connected id fun value => k (q.answer value)))

/-- A gossip loop after some cycles, up to the end of the next one. -/
def gossip (pace : Sync.Pace) (cycles : Nat) : Activity Outcome := do
  Sync.nextCycle pace cycles
  return .cycled (cycles + 1)

def follow (station : Nat) (o : Outcome) (s : Simulation) :
    Option (Activity Outcome) × Simulation :=
  match o with
  | .cycled cycles => ((s.stations[station]?.bind (·.pace)).map (gossip · cycles), s)
  | .received server q response =>
    (response.map fun (delay, frame) => (Activity.sleep delay).bind fun _ =>
        .done (.answered server (.ok frame)),
      { s with requests := q :: s.requests })
  | .answered server r => (none, s.answer server r)

def proceed (n station : Nat) (x : Activity Outcome) (s : Simulation) : Simulation :=
  match s.drive n station x with
  | (none, s) => s
  | (some o, s) =>
    match s.follow station o with
    | (none, s) => s.endTask n
    | (some next, s) =>
      match s.drive n station next with
      | (none, s) => s
      | (some o, s) => (s.setStage n (.ready (.done o))).enqueue (.task n)

def taskTurn (n : Nat) (s : Simulation) : Simulation :=
  match s.task? n with
  | none => s
  | some t =>
    match t.stage with
    | .asking => s
    | .ready rest => s.proceed n t.station rest
    | .pausing deadline rest => if deadline ≤ s.elapsed then s.proceed n t.station rest else s
    | .connected id next =>
      if s.isSettled id then
        let (value, s) := s.close id
        s.proceed n t.station (next value)
      else s

def take : Turn → Simulation → Simulation
  | .node i, s => s.nodeTurn i
  | .task n, s => s.taskTurn n

/-- Takes turns until the script goes on, at most `fuel` of them, with the time that passes
between them. -/
def takeTurns : Nat → Simulation → Simulation
  | 0, s => s
  | fuel + 1, s =>
    match s.credit, s.turns with
    | credit + 1, turn :: turns => takeTurns fuel ({ s with turns, credit }.take turn)
    | _, turns =>
      if s.awake then { s with awake := false, credit := turnsPerLook }
      else if turns.isEmpty then
        match s.ring with
        | some s => takeTurns fuel { s with credit := 0 }
        | none => s
      else takeTurns fuel { s with credit := turnsPerLook }

def turnsPerTask : Nat := 100000

def await (ms : Nat) (s : Simulation) : Simulation :=
  takeTurns ((s.tasks.length + 1) * (ms + 2) * turnsPerTask)
    { s with awake := false, credit := turnsPerLook, found := none }

end SearchOverlay.Simulation
