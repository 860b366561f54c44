import Std.Data.ExtTreeMap
import SearchOverlay.Record

/-!
# The record store

Records and metadata by content hash, with two watermarks: the largest timestamp of the
records, and of the metadata, taken up so far. A peer that knows the watermarks of an
earlier state asks for what is newer.
-/

namespace SearchOverlay

/-- The two watermarks. -/
structure SyncStatus where
  results : Time
  metadata : Time
deriving DecidableEq, Repr, Inhabited

structure Store where
  records : Std.ExtTreeMap ContentHash Record
  metadata : Std.ExtTreeMap ContentHash Metadata
  status : SyncStatus

namespace Store

def empty : Store := ⟨∅, ∅, ⟨0, 0⟩⟩

instance : Inhabited Store := ⟨empty⟩

def isEmpty (s : Store) : Bool := s.records.isEmpty && s.metadata.isEmpty

def size (s : Store) : Nat := s.records.size

def record? (s : Store) (h : ContentHash) : Option Record := s.records[h]?

def metadata? (s : Store) (h : ContentHash) : Option Metadata := s.metadata[h]?

/-- All records, by content hash. -/
def recordList (s : Store) : List Record := s.records.toList.map (·.2)

/-- All metadata, by content hash. -/
def metadataList (s : Store) : List Metadata := s.metadata.toList.map (·.2)

def insert (r : Record) (s : Store) : Store :=
  { s with
    records := s.records.insert r.hash r
    status := { s.status with results := max s.status.results r.timestamp } }

def insertMetadata (m : Metadata) (s : Store) : Store :=
  { s with
    metadata := s.metadata.insert m.hash m
    status := { s.status with metadata := max s.status.metadata m.timestamp } }

/-- The records that mention a text in any case, the latest first; those of one time are in
the order of their hashes. -/
def search (query : String) (s : Store) : List Record :=
  let needle := Lowercase.ofList query.toList
  (s.recordList.filter (Record.mentions needle)).mergeSort fun r q => q.timestamp ≤ r.timestamp

/-- Earlier first; at one time, the smaller hash first. -/
def notLater (t : Time) (h : ContentHash) (u : Time) (i : ContentHash) : Bool :=
  ((compare t u).then (compare h i)).isLE

/-- The first `max` of the records newer than `since`, the earliest first. -/
def recordsSince (since : Time) (max : Nat) (s : Store) : List Record :=
  ((s.recordList.filter (since < ·.timestamp)).mergeSort
    fun r q => notLater r.timestamp r.hash q.timestamp q.hash).take max

/-- The first `max` of the metadata newer than `since`, the earliest first. -/
def metadataSince (since : Time) (max : Nat) (s : Store) : List Metadata :=
  ((s.metadataList.filter (since < ·.timestamp)).mergeSort
    fun m q => notLater m.timestamp m.hash q.timestamp q.hash).take max

/-- Takes up a record unless the store holds one of its hash that is not older. Says whether
the store changed. -/
def mergeRecord (r : Record) (s : Store) : Bool × Store :=
  match s.record? r.hash with
  | some old => if r.timestamp ≤ old.timestamp then (false, s) else (true, s.insert r)
  | none => (true, s.insert r)

def combine (old new : Metadata) : Metadata :=
  ⟨new.hash, old.score.average new.score, max old.votes new.votes,
    max old.timestamp new.timestamp⟩

/-- Takes up metadata unless the entry of its hash has as many votes and is not older. Says
whether the store changed. -/
def mergeMetadatum (m : Metadata) (s : Store) : Bool × Store :=
  match s.metadata? m.hash with
  | some old =>
    if m.timestamp ≤ old.timestamp && m.votes ≤ old.votes then (false, s)
    else (true, s.insertMetadata (combine old m))
  | none => (true, s.insertMetadata m)

def mergeEach {α : Type} (f : α → Store → Bool × Store) (items : List α) (s : Store) :
    Nat × Store :=
  items.foldl (fun (n, s) a =>
    let (changed, s') := f a s
    (if changed then n + 1 else n, s')) (0, s)

def mergeRecords : List Record → Store → Nat × Store := mergeEach mergeRecord

def mergeMetadata : List Metadata → Store → Nat × Store := mergeEach mergeMetadatum

end Store

end SearchOverlay
