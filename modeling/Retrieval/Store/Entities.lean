import Retrieval.Schema.Requests
import Retrieval.Text.Basic
import Retrieval.Time

/-!
# Stores, files and chunks

A store holds files, a file holds chunks, and each chunk carries the vector of its text. Vectors and
distances are over a type `δ` of scalars.
-/

namespace Retrieval

/-- How far the ingestion of a file has come. -/
inductive FileStatus where
  | inProgress
  | completed
  | failed
  /-- a status that is not known here -/
  | unlisted (name : String)
deriving Repr, DecidableEq

namespace FileStatus

def name : FileStatus → String
  | inProgress => "in_progress"
  | completed => "completed"
  | failed => "failed"
  | unlisted name => name

def ofName (s : String) : FileStatus :=
  if s = "in_progress" then inProgress
  else if s = "completed" then completed
  else if s = "failed" then failed
  else unlisted s

end FileStatus

instance coeNatFloat : Coe Nat Float := ⟨Float.ofNat⟩

/-- How many files of a store have each status, and how many there are. The counts are added up as
doubles. -/
structure FileCounts where
  inProgress : Float
  completed : Float
  failed : Float
  total : Float
deriving Repr

namespace FileCounts

def zero : FileCounts := ⟨0, 0, 0, 0⟩

/-- Counts `n` more files of a status. A status that is not known counts in the total alone. -/
def add (c : FileCounts) (status : FileStatus) (n : Float) : FileCounts :=
  let c := { c with total := c.total + n }
  match status with
  | .inProgress => { c with inProgress := c.inProgress + n }
  | .completed => { c with completed := c.completed + n }
  | .failed => { c with failed := c.failed + n }
  | .unlisted _ => c

end FileCounts

structure VectorStore where
  id : String
  name : String
  /-- as they were sent; `null` where none were -/
  metadata : Value
  fileCounts : FileCounts
  createdAt : Instant
  updatedAt : Instant

structure StoredFile where
  id : String
  storeId : String
  filename : String
  status : FileStatus
  chunkCount : Nat
  /-- as they were sent; `null` where none were -/
  attributes : Value
  error : Option String
  createdAt : Instant

structure FileChunk (δ : Type) where
  id : String
  fileId : String
  storeId : String
  index : Nat
  content : Text
  tokenCount : Nat
  embedding : List δ
  metadata : Option Metadata
  createdAt : Instant

/-- A page of the list of stores: how many, how many to skip, and in which order. -/
structure Page where
  limit : Nat
  offset : Nat
  order : Order
deriving Repr, DecidableEq

/-- The stores of a page, and whether there are more behind them. -/
structure StorePage where
  stores : List VectorStore
  hasMore : Bool

structure NewFile where
  storeId : String
  filename : String
  attributes : Option Metadata

/-- A change of a file's status. What is `none` stays as it is. -/
structure StatusUpdate where
  status : FileStatus
  chunkCount : Option Nat := none
  error : Option (Option String) := none

structure NeighborQuery (δ : Type) where
  storeId : String
  vector : List δ
  limit : Nat
  /-- members of the metadata that have to have these texts -/
  filter : Option (List (String × String))
  /-- chunks that are farther away do not count -/
  maxDistance : Option δ

structure Candidate (δ : Type) where
  chunkId : String
  fileId : String
  filename : Option String
  chunkIndex : Nat
  content : Text
  metadata : Value
  distance : δ

structure SearchResult (δ : Type) where
  chunkId : String
  fileId : String
  filename : Option String
  chunkIndex : Nat
  content : Text
  distance : δ
  score : δ
  metadata : Value

/-! ## Calls -/

inductive StoreCall where
  | create (name : String) (metadata : Option Metadata)
  | findById (id : String)
  | list (page : Page)
  | delete (id : String)

@[reducible] def StoreCall.Answer : StoreCall → Type
  | create .. => VectorStore
  | findById _ => Option VectorStore
  | list _ => StorePage
  | delete _ => Bool

inductive FileCall where
  | create (file : NewFile)
  | updateStatus (id : String) (update : StatusUpdate)
  | findById (storeId id : String)
  | listByStore (storeId : String)
  | delete (storeId id : String)

@[reducible] def FileCall.Answer : FileCall → Type
  | create _ => StoredFile
  | updateStatus .. => Unit
  | findById .. => Option StoredFile
  | listByStore _ => List StoredFile
  | delete .. => Bool

inductive ChunkCall (δ : Type) where
  | saveBatch (chunks : List (FileChunk δ))
  | nearestNeighbors (query : NeighborQuery δ)
  | deleteByFile (fileId : String)

@[reducible] def ChunkCall.Answer {δ : Type} : ChunkCall δ → Type
  | saveBatch _ => Unit
  | nearestNeighbors _ => List (Candidate δ)
  | deleteByFile _ => Unit

end Retrieval
