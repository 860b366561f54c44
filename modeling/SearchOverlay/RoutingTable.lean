import SearchOverlay.Bucket

/-!
# The routing table

One bucket for every height. A contact lives in the bucket of the height of its distance to
the table's own identity, so the own identity itself and addresses that the stored form
cannot hold are refused.
-/

namespace SearchOverlay

structure RoutingTable where
  self : Contact
  buckets : Vector Bucket 160
deriving DecidableEq

namespace RoutingTable

/-- The longest address, in bytes, that a table takes. -/
def maxAddress : Nat := 255

def emptyBuckets : Vector Bucket 160 := Vector.ofFn fun h => Bucket.empty (UInt8.ofNat h)

def new (self : Contact) : RoutingTable := ⟨self, emptyBuckets⟩

def identity (t : RoutingTable) : Identity := t.self.identity

def bucket (t : RoutingTable) (i : Fin 160) : Bucket := t.buckets[i]

def setBucket (t : RoutingTable) (i : Fin 160) (b : Bucket) : RoutingTable :=
  { t with buckets := t.buckets.set i b }

theorem bucket_setBucket (t : RoutingTable) (i j : Fin 160) (b : Bucket) :
    (t.setBucket i b).bucket j = if i = j then b else t.bucket j := by
  simp only [bucket, setBucket, Fin.getElem_fin, Vector.getElem_set, Fin.ext_iff]

@[simp] theorem bucket_setBucket_self (t : RoutingTable) (i : Fin 160) (b : Bucket) :
    (t.setBucket i b).bucket i = b := by
  rw [bucket_setBucket, if_pos rfl]

@[simp] theorem setBucket_bucket (t : RoutingTable) (i : Fin 160) :
    t.setBucket i (t.bucket i) = t := by
  simp [bucket, setBucket]

@[simp] theorem setBucket_setBucket (t : RoutingTable) (i : Fin 160) (b b' : Bucket) :
    (t.setBucket i b).setBucket i b' = t.setBucket i b' := by
  simp [setBucket]

@[simp] theorem bucket_map (t : RoutingTable) (f : Bucket → Bucket) (i : Fin 160) :
    ({ t with buckets := t.buckets.map f } : RoutingTable).bucket i = f (t.bucket i) := by
  simp [bucket]

theorem mem_buckets_iff {t : RoutingTable} {b : Bucket} :
    b ∈ t.buckets.toList ↔ ∃ i, b = t.bucket i := by
  rw [Vector.mem_toList_iff, Vector.mem_iff_getElem]
  constructor
  · rintro ⟨i, hi, rfl⟩
    exact ⟨⟨i, hi⟩, rfl⟩
  · rintro ⟨i, rfl⟩
    exact ⟨i, i.isLt, rfl⟩

theorem ext_bucket {t t' : RoutingTable} (hself : t.self = t'.self)
    (h : ∀ i, t.bucket i = t'.bucket i) : t = t' := by
  obtain ⟨self, buckets⟩ := t
  obtain rfl : self = t'.self := hself
  have hbuckets : buckets = t'.buckets := by
    ext1 i hi
    exact h ⟨i, hi⟩
  rw [hbuckets]

/-- The height of the home bucket of an identity. -/
def index (t : RoutingTable) (id : Identity) : Fin 160 :=
  ⟨(id.xor t.identity).height, Identity.height_lt _⟩

def home (t : RoutingTable) (id : Identity) : Bucket := t.bucket (t.index id)

def setHome (t : RoutingTable) (id : Identity) (b : Bucket) : RoutingTable :=
  t.setBucket (t.index id) b

/-- Offers a contact to its home bucket; no outcome means that it was refused. -/
def push (now : Time) (c : Contact) (t : RoutingTable) : Option PushOutcome × RoutingTable :=
  if c.identity = t.identity then (none, t)
  else if maxAddress < c.address.utf8ByteSize then (none, t)
  else
    let (outcome, b) := (t.home c.identity).push now c
    (some outcome, t.setHome c.identity b)

/-- Offers contacts one after the other, the first at the reading `i` of the clock. -/
def pushFrom (clock : Clock) : Nat → List Contact → RoutingTable → RoutingTable
  | _, [], t => t
  | i, c :: cs, t => pushFrom clock (i + 1) cs (t.push (clock.reading i) c).2

def pushAll (clock : Clock) (cs : List Contact) (t : RoutingTable) : RoutingTable :=
  t.pushFrom clock 0 cs

/-- Reports that a contact did not answer. Says whether it was active. -/
def remove (id : Identity) (t : RoutingTable) : Bool × RoutingTable :=
  if id = t.identity then (false, t)
  else
    let (was, b) := (t.home id).remove id
    (was, t.setHome id b)

/-- Drops a contact for good. Says whether it was held. -/
def evict (id : Identity) (t : RoutingTable) : Bool × RoutingTable :=
  if id = t.identity then (false, t)
  else
    let (was, b) := (t.home id).evict id
    (was, t.setHome id b)

def contains (t : RoutingTable) (id : Identity) : Bool :=
  id ≠ t.identity && (t.home id).active.any (Bucket.hasId id)

/-- All contacts, bucket by bucket, the active ones of a bucket first. -/
def held (t : RoutingTable) : List Contact := t.buckets.toList.flatMap Bucket.held

def active (t : RoutingTable) : List Contact := t.buckets.toList.flatMap Bucket.active

/-- Moves the table to another own contact. Under a new identity every contact is offered
to its new home; under the same one only the address changes. -/
def setSelf (clock : Clock) (c : Contact) (t : RoutingTable) : RoutingTable :=
  if c.identity = t.identity then { t with self := { t.self with address := c.address } }
  else (new c).pushAll clock t.held

def noFarther (target : Identity) (c d : Contact) : Bool :=
  (compare (c.identity.xor target) (d.identity.xor target)).isLE

/-- The contacts to choose the closest from: the active ones, and the own contact unless the
target is the own identity. -/
def candidates (t : RoutingTable) (target : Identity) : List Contact :=
  if target = t.identity then t.active else t.active ++ [t.self]

/-- The `n` candidates closest to a target, the closest first. -/
def closest (t : RoutingTable) (target : Identity) (n : Nat) : List Contact :=
  (sortBy (noFarther target) (t.candidates target)).take n

def neighbours (t : RoutingTable) : List Contact := t.closest t.identity Bucket.capacity

def size (t : RoutingTable) : Nat := t.active.length

def isEmpty (t : RoutingTable) : Bool := t.buckets.all Bucket.isEmpty

def isFull (t : RoutingTable) : Bool := t.buckets.any Bucket.isFull

end RoutingTable

end SearchOverlay
