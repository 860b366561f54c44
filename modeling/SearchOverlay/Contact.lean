import SearchOverlay.Identity

/-!
# Contacts

A contact is what a member knows of another one: its identity, its address, when it was
last seen and how many removals it has survived since.
-/

namespace SearchOverlay

/-- Milliseconds since the Unix epoch. -/
abbrev Time := UInt64

/-- What is read when one looks at the clock again and again. It may stand still, and it may
be set back. -/
structure Clock where
  reading : Nat → Time

namespace Clock

def still (t : Time) : Clock := ⟨fun _ => t⟩

instance : Coe Time Clock := ⟨still⟩

def now (c : Clock) : Time := c.reading 0

@[simp] theorem now_still (t : Time) : (still t).now = t := rfl

end Clock

structure Contact where
  identity : Identity
  address : String
  lastSeen : Time
  staleCount : UInt8
deriving DecidableEq, Repr, Inhabited

namespace Contact

def fresh (now : Time) (identity : Identity) (address : String) : Contact :=
  ⟨identity, address, now, 0⟩

/-- The contact at an address that names itself. -/
def ofAddress (now : Time) (address : String) : Contact :=
  fresh now (.ofSeed (Utf8.encode address)) address

def touch (now : Time) (c : Contact) : Contact := { c with lastSeen := now, staleCount := 0 }

/-- What others say about contacts: whoever they name counts as seen just now, one look at the
clock for each. -/
def restamp (clock : Clock) (cs : List Contact) : List Contact :=
  cs.mapIdx fun i c => fresh (clock.reading i) c.identity c.address

def sameMember (c d : Contact) : Bool := c.identity = d.identity

/-- The form shown to a developer. -/
def describe (c : Contact) : String :=
  "Contact \x7b identity: " ++ c.identity.describe ++ ", addr: " ++ Escaped.text c.address ++
    ", last_seen: " ++ toString c.lastSeen.toNat ++
    ", stale_count: " ++ toString c.staleCount.toNat ++ " \x7d"

end Contact

end SearchOverlay
