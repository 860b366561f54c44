import SearchOverlay.Contact
import SearchOverlay.Sorting

/-!
# Buckets

A bucket holds at most `capacity` active contacts and as many replacements. A contact that
does not answer is not dropped at once: it is replaced by the replacement seen last, and if
there is none its stale count grows. A newcomer to a full bucket takes the place of the
stalest contact at or above `staleThreshold`, and waits among the replacements otherwise.
-/

namespace SearchOverlay

def updateFirst {α : Type} (p : α → Bool) (f : α → α) : List α → List α
  | [] => []
  | a :: r => if p a then f a :: r else a :: updateFirst p f r

/-- What became of a contact offered to a bucket. -/
inductive PushOutcome where
  | refreshed
  | inserted
  /-- Took the place of an active contact, which was dropped. -/
  | replacedStale (dropped : Contact)
  | deferred
deriving DecidableEq, Repr

structure Bucket where
  height : UInt8
  active : List Contact
  replacements : List Contact
deriving DecidableEq, Repr, Inhabited

namespace Bucket

def capacity : Nat := 20

/-- The stale count from which a newcomer may take an active contact's place. -/
def staleThreshold : Nat := 5

def empty (height : UInt8) : Bucket := ⟨height, [], []⟩

def isEmpty (b : Bucket) : Bool := b.active.isEmpty

def isFull (b : Bucket) : Bool := b.active.length = capacity

def held (b : Bucket) : List Contact := b.active ++ b.replacements

def hasId (id : Identity) (c : Contact) : Bool := c.identity = id

/-- The contact `old`, seen now at the address of `c`. -/
def renew (now : Time) (c old : Contact) : Contact :=
  { old with address := c.address }.touch now

def seenNoEarlier (c d : Contact) : Bool := d.lastSeen ≤ c.lastSeen

/-- Last seen first; contacts seen at the same time keep their order. -/
def sortBySeen (cs : List Contact) : List Contact := sortBy seenNoEarlier cs

/-- The index of the first active contact with the highest stale count, if that count reaches
the threshold. -/
def stalest? (active : List Contact) : Option Nat :=
  match (active.map (·.staleCount.toNat)).max? with
  | some worst =>
    if staleThreshold ≤ worst then active.findIdx? (·.staleCount.toNat = worst) else none
  | none => none

def dropOldest (cs : List Contact) : List Contact :=
  match (cs.map (·.lastSeen.toNat)).min? with
  | some oldest => cs.eraseP (·.lastSeen.toNat = oldest)
  | none => cs

/-- Keeps `c` among the replacements, or the address of `c` if it is there already. -/
def defer (now : Time) (c : Contact) (replacements : List Contact) : List Contact :=
  if replacements.any (hasId c.identity) then
    sortBySeen (updateFirst (hasId c.identity) (renew now c) replacements)
  else
    let more := replacements ++ [c]
    sortBySeen (if more.length > capacity then dropOldest more else more)

def push (now : Time) (c : Contact) (b : Bucket) : PushOutcome × Bucket :=
  match b.active.find? (hasId c.identity) with
  | some old =>
    (.refreshed, { b with active := renew now c old :: b.active.eraseP (hasId c.identity) })
  | none =>
    if b.active.length < capacity then
      (.inserted,
        { b with
          active := b.active ++ [c]
          replacements := b.replacements.filter (! hasId c.identity ·) })
    else
      match stalest? b.active with
      | some i =>
        (.replacedStale (b.active.getD i c), { b with active := b.active.set i c })
      | none => (.deferred, { b with replacements := defer now c b.replacements })

def moreStale (c : Contact) : Contact :=
  { c with staleCount := if c.staleCount = 255 then 255 else c.staleCount + 1 }

/-- Reports that a contact did not answer. Says whether it was active. -/
def remove (id : Identity) (b : Bucket) : Bool × Bucket :=
  if b.active.any (hasId id) then
    match b.replacements with
    | [] => (true, { b with active := updateFirst (hasId id) moreStale b.active })
    | next :: rest =>
      (true,
        { b with
          active := updateFirst (hasId id) (fun _ => next) b.active
          replacements := sortBySeen rest })
  else (false, b)

/-- Drops a contact for good. Says whether it was held. -/
def evict (id : Identity) (b : Bucket) : Bool × Bucket :=
  if b.active.any (hasId id) then
    match b.replacements with
    | [] => (true, { b with active := b.active.eraseP (hasId id) })
    | next :: rest =>
      (true,
        { b with
          active := updateFirst (hasId id) (fun _ => next) b.active
          replacements := rest })
  else if b.replacements.any (hasId id) then
    (true, { b with replacements := b.replacements.eraseP (hasId id) })
  else (false, b)

end Bucket

end SearchOverlay
