import SearchOverlay.Activity

/-!
# Serving calls

A connection brings one frame and takes one back. A frame that is no request, a function
that does not exist and arguments of the wrong shape are answered with an error code; any
other request is answered from the local node. Only a ping changes the node.

`LocalNode.serve` serves a connection at one moment, `Serving.exchange` as an activity in
whose course others may act on the node; `run_exchange` says that they agree when nobody
does.
-/

namespace SearchOverlay

/-- How long a server waits for the end of a request, in milliseconds. -/
def requestTimeout : Nat := 5000

namespace Call

/-- How many entries a pull of `max` entries gets at most. -/
def batchSize (max : UInt32) : Nat := min max.toNat maxBatch

/-- The command to the local node that a call comes down to. -/
abbrev command : Call → Command
  | ping caller => .ping caller
  | getStatus => .status
  | getResultsSince r => .recordsSince r.since (batchSize r.max)
  | getPeers => .neighbours
  | getMetadataSince r => .metadataSince r.since (batchSize r.max)
  | getMetadataOf h => .metadataOf h

/-- The value of a reply, or the error code for one that is too long. -/
def replyValue {α : Type} [Wire α] (a : α) : Except ErrorCode Bytes :=
  match Wire.encode a with
  | .ok b => .ok b
  | .error _ => .error .unmarshalFailure

def valueOf : (c : Call) → c.command.Answer → Except ErrorCode Bytes
  | ping _, .pong id => replyValue id
  | ping _, .bootstrapping => .error .bootstrapping
  | getStatus, s => replyValue s
  | getResultsSince _, rs => replyValue rs
  | getPeers, cs => replyValue cs
  | getMetadataSince _, ms => replyValue ms
  | getMetadataOf _, m => replyValue m

end Call

namespace Request

def readCall (q : Request) : Except ErrorCode Call :=
  match FunctionCode.ofByte? q.function with
  | none => .error .noSuchFunction
  | some f =>
    match Call.decode f q.arguments with
    | .error _ => .error .argumentMismatch
    | .ok call => .ok call

def answered (q : Request) : Except ErrorCode Bytes → Response
  | .ok value => .ok q.correlation value
  | .error code => .failed q.correlation code

end Request

/-- Sends a response, unless its envelope is too long. -/
def Response.send [Snappy.Encoder] (p : Response) : Except CallError Bytes :=
  match Frame.encode p with
  | .ok b => .ok b
  | .error f => .error (.malformed f)

namespace LocalNode

def answerCall (clock : Clock) (n : LocalNode) (c : Call) : Except ErrorCode Bytes × LocalNode :=
  let (a, n) := n.perform clock c.command
  (c.valueOf a, n)

def answerRequest (clock : Clock) (n : LocalNode) (q : Request) : Response × LocalNode :=
  match q.readCall with
  | .error code => (q.answered (.error code), n)
  | .ok c =>
    let (r, n) := n.answerCall clock c
    (q.answered r, n)

/-- Serves one connection: the frame that arrives is answered with the frame that is sent
back. Reading stops behind the longest frame. -/
def serve [Snappy.Encoder] (clock : Clock) (n : LocalNode) (frame : Bytes) :
    Except CallError Bytes × LocalNode :=
  if Frame.maxLength < frame.length then (.error (.tooLarge (Frame.maxLength + 1)), n)
  else
    match Frame.decode frame with
    | .error _ => ((Response.failed 0 .unmarshalFailure).send, n)
    | .ok q =>
      let (p, n) := n.answerRequest clock q
      (p.send, n)

end LocalNode

namespace Serving

/-- Answers a request in its turn with the other commands to the node. -/
def answer (q : Request) : Activity Response :=
  match q.readCall with
  | .error code => .done (q.answered (.error code))
  | .ok c => .tell c.command fun a => .done (q.answered (c.valueOf a))

variable [Snappy.Encoder]

def exchange (frame : Bytes) : Activity (Except CallError Bytes) :=
  if Frame.maxLength < frame.length then .done (.error (.tooLarge (Frame.maxLength + 1)))
  else
    match Frame.decode frame with
    | .error _ => .done (Response.failed 0 .unmarshalFailure).send
    | .ok q => (answer q).bind fun p => .done p.send

theorem run_exchange {σ : Type} (now : Time) (peers : Peers σ) (frame : Bytes) (n : LocalNode)
    (w : σ) :
    (exchange frame).run (peers.at now) n w =
      ((n.serve now frame).1, (n.serve now frame).2, w) := by
  unfold exchange LocalNode.serve
  split
  · rfl
  · split
    · rfl
    · next q _ =>
      unfold answer LocalNode.answerRequest
      split <;> rfl

end Serving

end SearchOverlay
