import SearchOverlay.Wire
import SearchOverlay.Directory

/-!
# Snapshots of a store

A snapshot holds all records and all metadata. A store is restored from it by merging both
into an empty one, so the watermarks come from the entries.
-/

namespace SearchOverlay

structure Snapshot where
  records : List Record
  metadata : List Metadata

open Wire in
instance : Wire Snapshot where
  write s := write s.records ++ write s.metadata
  read := do return ⟨← read, ← read⟩

namespace Store

def snapshot (s : Store) : Snapshot := ⟨s.recordList, s.metadataList⟩

def ofEntries (records : List Record) (metadata : List Metadata) : Store :=
  (mergeMetadata metadata (mergeRecords records empty).2).2

/-- Reads a snapshot; what follows it is ignored. -/
def restore (b : Bytes) : Except Wire.Fault Store :=
  match Wire.decodeFront b with
  | .ok (s : Snapshot) => .ok (ofEntries s.records s.metadata)
  | .error e => .error e

def fileName : String := "store.bin"

def temporaryName : String := "store.tmp"

def save (s : Store) (d : Directory) : Directory :=
  d.replace temporaryName fileName (Wire.write s.snapshot)

/-- The store of a directory: the one in its snapshot file, or an empty one. -/
def load (d : Directory) : Except Wire.Fault Store :=
  match d.read? fileName with
  | some b => restore b
  | none => .ok empty

end Store

end SearchOverlay
