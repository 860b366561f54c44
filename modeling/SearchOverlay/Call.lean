import SearchOverlay.Wire

/-!
# Calls

What a member can ask of another one. A call has a function code, arguments in wire form,
and a type of replies.
-/

namespace SearchOverlay

inductive FunctionCode where
  | ping
  | getStatus
  | getResultsSince
  | getPeers
  | getMetadataSince
  | getMetadataOf
deriving DecidableEq, Repr

namespace FunctionCode

def toByte : FunctionCode → UInt8
  | ping => 0
  | getStatus => 1
  | getResultsSince => 2
  | getPeers => 3
  | getMetadataSince => 4
  | getMetadataOf => 5

def ofByte? : UInt8 → Option FunctionCode
  | 0 => some ping
  | 1 => some getStatus
  | 2 => some getResultsSince
  | 3 => some getPeers
  | 4 => some getMetadataSince
  | 5 => some getMetadataOf
  | _ => none

theorem ofByte?_toByte (f : FunctionCode) : ofByte? f.toByte = some f := by cases f <;> rfl

end FunctionCode

/-- Which entries a pull asks for: those newer than `since`, at most `max` of them. -/
structure Since where
  since : Time
  max : UInt32
deriving DecidableEq, Repr, Inhabited

instance : Wire Since where
  write s := Wire.write s.since ++ Wire.write s.max
  read := do return ⟨← Wire.read, ← Wire.read⟩

inductive Call where
  | ping (caller : Contact)
  | getStatus
  | getResultsSince (range : Since)
  | getPeers
  | getMetadataSince (range : Since)
  | getMetadataOf (hash : ContentHash)
deriving DecidableEq

namespace Call

/-- The most entries that one pull moves. -/
def maxBatch : Nat := 2048

def function : Call → FunctionCode
  | ping _ => .ping
  | getStatus => .getStatus
  | getResultsSince _ => .getResultsSince
  | getPeers => .getPeers
  | getMetadataSince _ => .getMetadataSince
  | getMetadataOf _ => .getMetadataOf

def arguments : Call → Except Wire.Fault Bytes
  | ping c => Wire.encode c
  | getStatus | getPeers => Wire.encode ()
  | getResultsSince r | getMetadataSince r => Wire.encode r
  | getMetadataOf h => Wire.encode h

/-- The call of a function with arguments in wire form. -/
def decode (f : FunctionCode) (b : Bytes) : Except Wire.Fault Call :=
  match f with
  | .ping => (Wire.decode b).map ping
  | .getStatus => (Wire.decode b).map fun () => getStatus
  | .getResultsSince => (Wire.decode b).map getResultsSince
  | .getPeers => (Wire.decode b).map fun () => getPeers
  | .getMetadataSince => (Wire.decode b).map getMetadataSince
  | .getMetadataOf => (Wire.decode b).map getMetadataOf

abbrev Reply : Call → Type
  | ping _ => Identity
  | getStatus => SyncStatus
  | getResultsSince _ => List Record
  | getPeers => List Contact
  | getMetadataSince _ => List Metadata
  | getMetadataOf _ => Option Metadata

instance (c : Call) : Wire c.Reply :=
  match c with
  | ping _ => inferInstanceAs (Wire Identity)
  | getStatus => inferInstanceAs (Wire SyncStatus)
  | getResultsSince _ => inferInstanceAs (Wire (List Record))
  | getPeers => inferInstanceAs (Wire (List Contact))
  | getMetadataSince _ => inferInstanceAs (Wire (List Metadata))
  | getMetadataOf _ => inferInstanceAs (Wire (Option Metadata))

end Call

end SearchOverlay
