import Retrieval.Chunk.Split
import Retrieval.Embedding.Client

/-!
# Ingesting a document

A document is split before anything is stored; then its file is made, its chunks are embedded and
stored, and the file is marked as completed. If anything fails once the file is there, the file is
marked as failed and the failure is raised as it came.
-/

namespace Retrieval

def uploadableEndings : List String := [".txt", ".md"]

/-- The name ends like that of a file that may be uploaded, in capital or small letters. -/
def isUploadable (filename : String) : Bool :=
  let small := filename.toList.map Char.toLower
  uploadableEndings.any fun e => e.toList.isSuffixOf small

def uploadRefusal (filename : String) : Fault :=
  .invalidArgument ("Unsupported file type: " ++ filename ++ ". Only "
    ++ " and ".intercalate uploadableEndings ++ " files are accepted.")

structure Document where
  storeId : String
  filename : String
  text : Text
  metadata : Option Metadata
  attributes : Option Metadata
  chunkSize : Option Float
  overlap : Option Float

namespace Ingestion

structure Setup where
  tokenizer : Tokenizer
  client : Embedding.Client
  defaults : Window.Defaults

variable {δ : Type}

def storeMissing : Fault := .notFound "Vector store not found"

def fileMissing : Fault := .notFound "File not found"

def requireStore (id : String) : Task δ Unit := do
  match ← Task.stores (.findById id) with
  | some _ => pure ()
  | none => throw storeMissing

def chunksOf (s : Setup) (d : Document) : Task δ (List Chunk) := do
  match Window.resolve s.defaults d.chunkSize d.overlap with
  | .error fault => throw (.service .invalidConfiguration fault.message none)
  | .ok window =>
    let reason ← Task.signal
    let watch := if reason.isSome then Watch.after 0 else .never
    match splitWatched? watch s.tokenizer window d.text with
    | some chunks => pure chunks
    | none => throw (.cancelled "Chunking cancelled" reason)

def identify (file : StoredFile) (metadata : Option Metadata) (createdAt : Instant) :
    List (Chunk × List δ) → Task δ (List (FileChunk δ))
  | [] => pure []
  | (c, vector) :: rest => do
    let id ← Task.freshId
    let more ← identify file metadata createdAt rest
    pure (⟨id, file.id, file.storeId, c.index, c.text, c.tokenCount, vector, metadata, createdAt⟩
      :: more)

/-- Embeds the chunks of a file and stores them; without chunks there is nothing to do. -/
def embedAndStore (s : Setup) (file : StoredFile) (chunks : List Chunk)
    (metadata : Option Metadata) : Task δ Unit := do
  if chunks.isEmpty then pure ()
  else
    let vectors ← s.client.embedAll (chunks.map Chunk.text) none
    let createdAt ← Task.now
    let rows ← identify file metadata createdAt (chunks.zip vectors)
    Task.chunks (.saveBatch rows)

/-- Marks a file as failed. That this fails as well is only logged. -/
def markFailed (fileId : String) (fault : Fault) : Task δ Unit := do
  let words ← Task.lift fault.words
  Task.log .error "File ingestion failed" [("fileId", .text fileId), ("error", .text words)]
  match ← (Task.files (.updateStatus fileId ⟨.failed, none, some (some words)⟩)).outcome with
  | .ok () => pure ()
  | .error second =>
    let words ← Task.lift second.words
    Task.log .error "Could not mark file as failed"
      [("fileId", .text fileId), ("error", .text words)]

def ingest (s : Setup) (d : Document) : Task δ StoredFile := do
  let started ← Task.now
  requireStore d.storeId
  let chunks ← chunksOf s d
  let file ← Task.files (.create ⟨d.storeId, d.filename, d.attributes⟩)
  let stored : Task δ Unit := do
    embedAndStore s file chunks d.metadata
    Task.files (.updateStatus file.id ⟨.completed, some chunks.length, none⟩)
  match ← stored.outcome with
  | .error fault =>
    markFailed file.id fault
    throw fault
  | .ok () =>
    let ended ← Task.now
    Task.log .info "File ingested"
      [("fileId", .text file.id), ("vectorStoreId", .text d.storeId),
        ("chunks", .ofNat chunks.length), ("latency", Issue.ofInt (ended - started))]
    pure { file with status := .completed, chunkCount := chunks.length, error := none }

end Ingestion
end Retrieval
