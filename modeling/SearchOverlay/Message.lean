import SearchOverlay.Call
import SearchOverlay.Snappy

/-!
# Messages and frames

A request carries a call, a response its reply or an error code. Either travels as a frame:
the compressed message of the envelope.
-/

namespace SearchOverlay

/-- Why a peer did not answer a call. `none` stands for no error. -/
inductive ErrorCode where
  | none
  | unmarshalFailure
  | noSuchFunction
  | argumentMismatch
  | bootstrapping
deriving DecidableEq, Repr

namespace ErrorCode

def toByte : ErrorCode → UInt8
  | none => 0
  | unmarshalFailure => 1
  | noSuchFunction => 2
  | argumentMismatch => 3
  | bootstrapping => 4

def ofByte? : UInt8 → Option ErrorCode
  | 0 => some none
  | 1 => some unmarshalFailure
  | 2 => some noSuchFunction
  | 3 => some argumentMismatch
  | 4 => some bootstrapping
  | _ => Option.none

def message : ErrorCode → String
  | none => "none"
  | unmarshalFailure => "unmarshal failure"
  | noSuchFunction => "no such function"
  | argumentMismatch => "argument mismatch"
  | bootstrapping => "peer is bootstrapping"

theorem ofByte?_toByte (e : ErrorCode) : ofByte? e.toByte = some e := by cases e <;> rfl

end ErrorCode

structure Request where
  function : UInt8
  correlation : UInt64
  arguments : Bytes
deriving DecidableEq, Repr

structure Response where
  error : UInt8
  correlation : UInt64
  value : Bytes
deriving DecidableEq, Repr

open Wire in
instance : Wire Request where
  write q := write q.function ++ write q.correlation ++ write q.arguments
  read := do return ⟨← read, ← read, ← read⟩

open Wire in
instance : Wire Response where
  write p := write p.error ++ write p.correlation ++ write p.value
  read := do return ⟨← read, ← read, ← read⟩

def Response.ok (correlation : UInt64) (value : Bytes) : Response :=
  ⟨ErrorCode.none.toByte, correlation, value⟩

def Response.failed (correlation : UInt64) (e : ErrorCode) : Response :=
  ⟨e.toByte, correlation, []⟩

def Call.request (c : Call) (correlation : UInt64) : Except Wire.Fault Request :=
  c.arguments.map fun b => ⟨c.function.toByte, correlation, b⟩

namespace Frame

inductive Fault where
  | compression
  | wire (fault : Wire.Fault)
  /-- The content is longer than any message. -/
  | tooLarge (length : Nat)
deriving DecidableEq, Repr

/-- A compression fault has no text of its own. -/
def Fault.message? : Fault → Option String
  | compression => none
  | wire f => some ("bincode: " ++ f.message)
  | tooLarge n => some s!"frame of {n} bytes exceeds the message size limit"

/-- The longest frame that is taken from a connection. -/
def maxLength : Nat := 32 + Wire.maxMessage + Wire.maxMessage / 6

def encode [Snappy.Encoder] {α : Type} [Wire α] (a : α) : Except Fault Bytes :=
  match Wire.encode a with
  | .ok b => .ok (Snappy.Encoder.encode b)
  | .error e => .error (.wire e)

/-- The content of a frame. The length in the header is checked first. -/
def content (b : Bytes) : Except Fault Bytes :=
  match Snappy.contentLength b with
  | none => .error .compression
  | some n =>
    if Wire.maxMessage < n then .error (.tooLarge n)
    else
      match Snappy.decompress b with
      | none => .error .compression
      | some x => .ok x

def decode {α : Type} [Wire α] (b : Bytes) : Except Fault α :=
  match content b with
  | .error e => .error e
  | .ok x =>
    match Wire.decode x with
    | .ok a => .ok a
    | .error e => .error (.wire e)

end Frame

end SearchOverlay
