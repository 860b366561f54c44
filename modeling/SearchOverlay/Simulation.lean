import SearchOverlay.Simulation.Turns

/-!
# Scripts

What a script does to a simulation: it runs activities of stations to their end, starts and
stops gossip loops, and talks to servers. While it waits, the tasks take turns.
-/

namespace SearchOverlay.Simulation

def run {α : Type} (station : Nat) : Activity α → Simulation → α × Simulation
  | .done a, s => (a, s)
  | .clock k, s => run station (k s.clock) s
  | .pause ms k, s =>
    if ms = 0 then run station (k ()) s
    else
      let ms := min ms longestPause
      run station (k ()) ((s.setAlarm ms .script).await ms)
  | .tell c k, s =>
    if s.isRunning station then
      if c.isAwaited then
        let s := (s.post station ⟨c, .script⟩).await 0
        let a := s.found.elim c.stoppedAnswer fun n => (n.perform s.clock c).1
        run station (k a) s
      else run station (k c.stoppedAnswer) (s.send station c)
    else run station (k c.stoppedAnswer) s
  | .dropMarker k, s => run station (k ()) (s.update station LocalNode.dropMarker)
  | .ask p q k, s =>
    match s.ask .script station p q with
    | (.answered r, s) => run station (k r) s
    | (.connected id, s) =>
      let (value, s) := (s.await (s.waitOf id)).close id
      run station (k (q.answer value)) s

def callAndWait (station : Nat) (address : String) (c : Call) (s : Simulation) :
    Except CallError Bytes × Simulation :=
  match s.call .script station address c with
  | (.error e, s) => (.error e, s)
  | (.ok id, s) => (s.await (s.waitOf id)).close id

def startLoop (station : Nat) (s : Simulation) : Simulation :=
  match s.stations[station]?.bind (·.pace) with
  | some pace => s.spawn station true (gossip pace 0)
  | none => s

/-- Stops the gossip loops of a station, wherever they are. What they have sent already is
not taken back. -/
def stopLoops (station : Nat) (s : Simulation) : Simulation :=
  let loops := s.tasks.filter fun t => t.isLoop && t.station = station
  loops.foldl (fun s t => (s.endTask t.number).enqueue (.task t.number)) s

/-- One exchange with the server of a station: what it sends back, and after how many
milliseconds. It gives up on a client that does not end its frame. -/
def serve (station : Nat) (frame : Bytes) (ended : Bool) (s : Simulation) :
    Except CallError Bytes × Nat × Simulation :=
  let id := s.correlation
  let exchange :=
    if ended || Frame.maxLength < frame.length then Serving.exchange frame
    else (Activity.sleep requestTimeout).bind fun _ => .done (.error (.timedOut requestTimeout))
  let before := s.elapsed
  let c : Connection :=
    { id, client := .script, opened := s.elapsed, timeout := requestTimeout }
  let s : Simulation := { s with correlation := id + 1, connections := s.connections ++ [c] }
  let x := exchange.bind fun r => .done (.answered ⟨id, .script⟩ r)
  let s := (s.spawn station false x).await requestTimeout
  let r := (s.connections.find? (·.id = id)).bind (·.answer)
  let r := r.getD (.error (.timedOut requestTimeout))
  (r, s.elapsed - before, (s.close id).2)

end SearchOverlay.Simulation
