import Retrieval.Effect
import Retrieval.Store.Ranking

/-!
# Tables in memory

The three tables as lists in the order of insertion. Deleting a store or a file leaves what belongs
to it in place, and file counts are not kept.
-/

namespace Retrieval

/-- The rows of the three tables. -/
structure Tables where
  stores : List VectorStore := []
  files : List StoredFile := []
  chunks : List (FileChunk Float) := []

namespace Tables

/-- The inner products of two vectors and of each with itself, added to what has been summed so far.
The first vector says how many components count; one that the second lacks is no number. -/
def productsFrom (dot x y : Float) : List Float → List Float → Float × Float × Float
  | [], _ => (dot, x, y)
  | u :: us, v :: vs => productsFrom (dot + u * v) (x + u * u) (y + v * v) us vs
  | u :: us, [] => productsFrom Number.nan (x + u * u) Number.nan us []

/-- The distance between the directions of two vectors: none for equal directions, two for opposite
ones. -/
def cosineDistance (a b : List Float) : Float :=
  let (dot, x, y) := productsFrom 0 0 0 a b
  1 - dot / (x.sqrt * y.sqrt)

/-! ## Calls -/

def callStores (t : Tables) (now : Instant) (id : String) :
    (call : StoreCall) → call.Answer × Tables
  | .create name metadata =>
    let store : VectorStore := ⟨id, name, Metadata.toValue metadata, .zero, now, now⟩
    (store, { t with stores := t.stores ++ [store] })
  | .findById id => (t.stores.find? (·.id == id), t)
  | .list page =>
    let ordered := if page.order = .ascending then t.stores else t.stores.reverse
    (⟨(ordered.drop page.offset).take page.limit, page.offset + page.limit < ordered.length⟩, t)
  | .delete id =>
    let rest := t.stores.filter (·.id != id)
    (rest.length < t.stores.length, { t with stores := rest })

def updated (update : StatusUpdate) (f : StoredFile) : StoredFile :=
  { f with
    status := update.status
    chunkCount := update.chunkCount.getD f.chunkCount
    error := update.error.getD f.error }

def callFiles (t : Tables) (now : Instant) (id : String) : (call : FileCall) → call.Answer × Tables
  | .create file =>
    let stored : StoredFile :=
      ⟨id, file.storeId, file.filename, .inProgress, 0, Metadata.toValue file.attributes, none, now⟩
    (stored, { t with files := t.files ++ [stored] })
  | .updateStatus id update =>
    ((), { t with files := t.files.map fun f => if f.id == id then updated update f else f })
  | .findById storeId id => (t.files.find? fun f => f.id == id && f.storeId == storeId, t)
  | .listByStore storeId => (t.files.filter (·.storeId == storeId), t)
  | .delete storeId id =>
    let rest := t.files.filter fun f => !(f.id == id && f.storeId == storeId)
    (rest.length < t.files.length, { t with files := rest })

def candidateOf (vector : List Float) (c : FileChunk Float) : Candidate Float :=
  ⟨c.id, c.fileId, none, c.index, c.content, .record (c.metadata.getD []),
    cosineDistance c.embedding vector⟩

/-- A call on the table of chunks. Neighbours are ranked by distance alone. -/
def callChunks (t : Tables) : (call : ChunkCall Float) → call.Answer × Tables
  | .saveBatch chunks => ((), { t with chunks := t.chunks ++ chunks })
  | .nearestNeighbors query =>
    let own := t.chunks.filter (·.storeId == query.storeId)
    let nearer (a b : Candidate Float) : Bool := a.distance < b.distance
    ((Ranking.ranked nearer (own.map (candidateOf query.vector))).take query.limit, t)
  | .deleteByFile fileId => ((), { t with chunks := t.chunks.filter (·.fileId != fileId) })

end Tables
end Retrieval
