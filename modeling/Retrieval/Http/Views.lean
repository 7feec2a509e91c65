import Retrieval.Fault
import Retrieval.Store.Entities

/-!
# What callers see

Stores, files and search results as they are sent to callers. Scores are rounded to six decimals for
display; distances are not.
-/

namespace Retrieval.View

def ofCounts (c : FileCounts) : Value :=
  .record [("inProgress", .number c.inProgress), ("completed", .number c.completed),
    ("failed", .number c.failed), ("total", .number c.total)]

def ofStore (s : VectorStore) : Value :=
  .record [("id", .text s.id), ("name", .text s.name), ("metadata", s.metadata),
    ("fileCounts", ofCounts s.fileCounts), ("createdAt", .text (Instant.text s.createdAt)),
    ("updatedAt", .text (Instant.text s.updatedAt))]

def textOrNull : Option String → Value
  | some s => .text s
  | none => .null

def ofFile (f : StoredFile) : Value :=
  .record [("id", .text f.id), ("vectorStoreId", .text f.storeId), ("filename", .text f.filename),
    ("status", .text f.status.name), ("chunkCount", .ofNat f.chunkCount),
    ("attributes", f.attributes), ("error", textOrNull f.error),
    ("createdAt", .text (Instant.text f.createdAt))]

/-- A score with six decimals. -/
def shownScore (x : Float) : Float := Number.round (x * 1000000) / 1000000

/-- The members that a value has of its own: those of a record, and the items of a list or the units
of a text under their positions. -/
def membersOf : Value → List (String × Value)
  | .record members => members
  | .list items => items.zipIdx.map fun (v, i) => (Nat.repr i, v)
  | .text s => s.toList.zipIdx.map fun (c, i) => (Nat.repr i, .text (String.singleton c))
  | _ => []

def ofResult (r : SearchResult Float) : Value :=
  .record [("chunkId", .text r.chunkId), ("fileId", .text r.fileId),
    ("filename", textOrNull r.filename), ("chunkIndex", .ofNat r.chunkIndex),
    ("content", .text r.content.toString), ("score", .number (shownScore r.score)),
    ("distance", .number r.distance), ("metadata", .record (membersOf r.metadata))]

/-- The fault for an instant that cannot be written. -/
def invalidInstant : Fault := .other "RangeError" "Invalid time value" none

/-- The instant that a row brings, as a text or as a count of milliseconds. -/
def instantOf (v : Value) : Except Fault Instant :=
  let t :=
    match v with
    | .text s => Instant.ofText? s
    | .number x => Instant.ofNumber? x
    | _ => none
  t.elim (.error invalidInstant) .ok

end Retrieval.View
