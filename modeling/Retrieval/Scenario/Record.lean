import Retrieval.Chunk.Basic
import Retrieval.Config
import Retrieval.Http.Views
import Retrieval.Ingestion
import Retrieval.Scenario.World

/-!
# What scenarios put on record

What was asked of the world and what came of it, as values: chunks, entities, calls, and the state
of the tables.
-/

namespace Retrieval.Scenario.Record

def ofText (t : Text) : Value := .text t.toString

def ofVector (v : List Float) : Value := .list (v.map .number)

def ofVectors (l : List (List Float)) : Value := .list (l.map ofVector)

def ofChunk (c : Chunk) : Value :=
  .record [("index", .ofNat c.index), ("text", ofText c.text), ("tokenCount", .ofNat c.tokenCount),
    ("startChar", .ofNat c.start), ("endChar", .ofNat c.stop), ("overlapLength", .ofNat c.overlap),
    ("ownText", ofText c.ownText)]

def ofConfig (c : Config) : Value :=
  .ofPresent [("port", .number c.port), ("databaseUrl", .ofText? c.databaseUrl),
    ("corsOrigin", .text c.corsOrigin), ("logLevel", .text c.logLevel.name),
    ("openai", .ofPresent [("apiKey", .text c.apiKey), ("baseURL", .ofText? c.baseUrl),
      ("timeoutMs", .number c.requestTimeoutMs)]),
    ("embedding", .record [("model", .text c.model), ("maxBatchSize", .number c.maxBatchSize),
      ("maxAttempts", .number c.maxAttempts), ("initialBackoffMs", .number c.initialBackoffMs)]),
    ("chunking", .record [("encoding", .text c.encoding), ("chunkSize", .number c.chunkSize),
      ("overlap", .number c.chunkOverlap)]),
    ("frozen", .flag true)]

/-! ## Calls of the provider -/

def ofCall (c : EmbedCall) : Value :=
  .ofPresent [("count", .ofNat c.texts.length),
    ("first", (c.texts.head?.map ofText).getD .absent),
    ("last", (c.texts.getLast?.map ofText).getD .absent), ("model", .text c.model),
    ("signal", .flag c.signalled)]

def ofInterfaceCall (c : EmbedCall) : Value :=
  let body := (Embedding.Request.mk c.texts c.model).body
  .ofPresent [("count", .ofNat c.texts.length), ("model", body.get "model"),
    ("dimensions", body.get "dimensions")]

def ofTrace (w : World) : List (String × Value) :=
  [("calls", .list (w.calls.map ofCall)), ("waits", .list (w.waits.map .number))]

def unlessEmpty (name : String) (l : List Value) : List (String × Value) :=
  if l.isEmpty then [] else [(name, .list l)]

/-- What a request led to: calls of the interface, waits, and statements. -/
def ofTraffic (w : World) : List (String × Value) :=
  unlessEmpty "calls" (w.calls.map ofInterfaceCall) ++ unlessEmpty "waits" (w.waits.map .number)
    ++ unlessEmpty "sql" (w.statements.map .text)

/-! ## Searches -/

def ofResult (r : SearchResult Float) : Value :=
  .ofPresent [("chunkRef", .text r.chunkId), ("fileId", .text r.fileId),
    ("filename", View.textOrNull r.filename), ("chunkIndex", .ofNat r.chunkIndex),
    ("content", ofText r.content), ("distance", .number r.distance), ("score", .number r.score),
    ("metadata", r.metadata)]

def ofCandidate (c : Candidate Float) : Value :=
  .ofPresent [("chunkId", .text c.chunkId), ("fileId", .text c.fileId),
    ("filename", View.textOrNull c.filename), ("chunkIndex", .ofNat c.chunkIndex),
    ("content", ofText c.content), ("distance", .number c.distance), ("metadata", c.metadata)]

def ofLookup (q : NeighborQuery Float) : Value :=
  .ofPresent [("vectorStoreId", .text q.storeId), ("vector", ofVector q.vector),
    ("limit", .ofNat q.limit),
    ("filter", metadataMember (q.filter.map fun f => f.map fun (k, v) => (k, .text v))),
    ("maxDistance", .ofNumber? q.maxDistance)]

/-! ## Documents and tables -/

def ofDocument (d : Document) : Value :=
  .ofPresent [("vectorStoreId", .text d.storeId), ("filename", .text d.filename),
    ("text", ofText d.text), ("metadata", metadataMember d.metadata),
    ("attributes", metadataMember d.attributes), ("chunkSize", .ofNumber? d.chunkSize),
    ("overlap", .ofNumber? d.overlap)]

def ofFileChunk (c : FileChunk Float) : Value :=
  .record [("id", .text c.id), ("fileId", .text c.fileId), ("vectorStoreId", .text c.storeId),
    ("chunkIndex", .ofNat c.index), ("content", ofText c.content),
    ("tokenCount", .ofNat c.tokenCount), ("embedding", ofVector c.embedding),
    ("metadata", Metadata.toValue c.metadata), ("createdAt", .text (Instant.text c.createdAt))]

def ofStorePage (p : StorePage) : Value :=
  .record [("stores", .list (p.stores.map View.ofStore)), ("hasMore", .flag p.hasMore)]

/-- The state of the tables: the names of the stores, the files with their status, and the number of
chunks. -/
def ofTables (t : Tables) : Value :=
  .record [("stores", .list (t.stores.map fun s => .text s.name)),
    ("files", .list (t.files.map fun f =>
      .list [.text f.filename, .text f.status.name, .ofNat f.chunkCount, View.textOrNull f.error])),
    ("chunks", .ofNat t.chunks.length)]

/-! ## Answers of the tables -/

def ofStoreAnswer : (c : StoreCall) → c.Answer → Value
  | .create .., store => View.ofStore store
  | .findById _, store => store.elim .null View.ofStore
  | .list _, page => ofStorePage page
  | .delete _, done => .flag done

def ofFileAnswer : (c : FileCall) → c.Answer → Value
  | .create _, file => View.ofFile file
  | .updateStatus .., _ => .null
  | .findById .., file => file.elim .null View.ofFile
  | .listByStore _, files => .list (files.map View.ofFile)
  | .delete .., done => .flag done

def ofChunkAnswer : (c : ChunkCall Float) → c.Answer → Value
  | .saveBatch _, _ => .null
  | .nearestNeighbors _, candidates => .list (candidates.map ofCandidate)
  | .deleteByFile _, _ => .null

end Retrieval.Scenario.Record
