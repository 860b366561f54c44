import SearchOverlay.Message

/-!
# Queries

What an activity asks a peer, and the caller's side of the connection that brings the
answer: the frame that is sent, what the frame that comes back means, and why a call may come to
nothing. No query moves more entries than a batch, whatever it asks for and whatever the peer sends.
-/

namespace SearchOverlay

/-! ## Failed calls -/

namespace Duration

/-- The decimal places of `ms` thousandths, without the zeros at the end. -/
def places (ms : Nat) : String :=
  let digits := [ms / 100, ms / 10 % 10, ms % 10]
  let kept := (digits.reverse.dropWhile (· = 0)).reverse
  if kept.isEmpty then "" else "." ++ String.join (kept.map toString)

/-- The zero duration is counted in the smallest unit. -/
def toText (ms : Nat) : String :=
  if ms = 0 then "0ns"
  else if ms < 1000 then s!"{ms}ms"
  else s!"{ms / 1000}{places (ms % 1000)}s"

end Duration

inductive CallError where
  | unreachable (reason : String)
  /-- Nothing came within the given milliseconds. -/
  | timedOut (ms : Nat)
  | malformed (fault : Frame.Fault)
  | tooLarge (length : Nat)
  | correlationMismatch (sent received : UInt64)
  | remote (code : ErrorCode)
  | unknownErrorCode (code : UInt8)
  | unexpectedReply (fault : Wire.Fault)
  | other (reason : String)
deriving DecidableEq, Repr

namespace CallError

/-- A malformed frame and a mismatch have no text of their own. -/
def message? : CallError → Option String
  | unreachable m => some ("peer unreachable: " ++ m)
  | timedOut ms => some ("rpc timed out after " ++ Duration.toText ms)
  | malformed _ => none
  | tooLarge n => some s!"frame of {n} bytes exceeds the size limit"
  | correlationMismatch _ _ => none
  | remote code => some ("remote error: " ++ code.message)
  | unknownErrorCode code => some s!"unknown remote error code {code.toNat}"
  | unexpectedReply f => some ("reply value does not decode: " ++ f.message)
  | other m => some m

def isBootstrapping (e : CallError) : Bool := e = .remote .bootstrapping

end CallError

/-! ## Asking -/

/-- The bound on a whole call unless another is given, in milliseconds. -/
def defaultCallTimeout : Nat := 30000

inductive Query where
  | ping (caller : Contact)
  | getStatus
  | getPeers
  | getResultsSince (since : Time) (max : Nat)
  | getMetadataSince (since : Time) (max : Nat)
  | getMetadataOf (hash : ContentHash)
deriving DecidableEq

namespace Query

/-- The part of a pull's maximum that is asked for. -/
def batch (max : Nat) : Nat := min max Call.maxBatch

def call : Query → Call
  | ping c => .ping c
  | getStatus => .getStatus
  | getPeers => .getPeers
  | getResultsSince since max => .getResultsSince ⟨since, UInt32.ofNat (batch max)⟩
  | getMetadataSince since max => .getMetadataSince ⟨since, UInt32.ofNat (batch max)⟩
  | getMetadataOf h => .getMetadataOf h

abbrev Reply (q : Query) : Type := q.call.Reply

def trim : (q : Query) → q.Reply → q.Reply
  | ping _, id => id
  | getStatus, s => s
  | getPeers, cs => cs
  | getResultsSince _ max, rs => rs.take (batch max)
  | getMetadataSince _ max, ms => ms.take (batch max)
  | getMetadataOf _, m => m

end Query

namespace Call

def frame [Snappy.Encoder] (c : Call) (correlation : UInt64) : Except CallError Bytes :=
  match c.request correlation with
  | .error e => .error (.malformed (.wire e))
  | .ok q =>
    match Frame.encode q with
    | .ok b => .ok b
    | .error f => .error (.malformed f)

/-- The value that a response frame carries for the request with a correlation. -/
def responseValue (correlation : UInt64) (frame : Bytes) : Except CallError Bytes :=
  if Frame.maxLength < frame.length then .error (.tooLarge (Frame.maxLength + 1))
  else
    match (Frame.decode frame : Except Frame.Fault Response) with
    | .error f => .error (.malformed f)
    | .ok p =>
      if p.correlation ≠ correlation then
        .error (.correlationMismatch correlation p.correlation)
      else
        match ErrorCode.ofByte? p.error with
        | some .none => .ok p.value
        | some code => .error (.remote code)
        | none => .error (.unknownErrorCode p.error)

def readReply (c : Call) (value : Bytes) : Except CallError c.Reply :=
  match (Wire.decode value : Except Wire.Fault c.Reply) with
  | .ok a => .ok a
  | .error e => .error (.unexpectedReply e)

end Call

def Query.answer (q : Query) (value : Except CallError Bytes) : Except CallError q.Reply :=
  match value with
  | .error e => .error e
  | .ok b => (q.call.readReply b).map q.trim

end SearchOverlay
