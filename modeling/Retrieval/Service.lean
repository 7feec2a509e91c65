import Retrieval.Ingestion
import Retrieval.Search

/-!
# The service

What callers can have done: make, list, read and delete stores; ingest, list, read and delete
files; and search.
-/

namespace Retrieval.Service

variable {δ : Type}

def createStore (name : String) (metadata : Option Metadata) : Task δ VectorStore :=
  Task.stores (.create name metadata)

def listStores (page : Page) : Task δ StorePage := Task.stores (.list page)

def getStore (id : String) : Task δ VectorStore := do
  match ← Task.stores (.findById id) with
  | some store => pure store
  | none => throw Ingestion.storeMissing

def deleteStore (id : String) : Task δ String := do
  if ← Task.stores (.delete id) then pure id else throw Ingestion.storeMissing

def listFiles (storeId : String) : Task δ (List StoredFile) := do
  Ingestion.requireStore storeId
  Task.files (.listByStore storeId)

def getFile (storeId fileId : String) : Task δ StoredFile := do
  match ← Task.files (.findById storeId fileId) with
  | some file => pure file
  | none => throw Ingestion.fileMissing

/-- Deletes a file of a store, its chunks first. -/
def deleteFile (storeId fileId : String) : Task δ String := do
  Ingestion.requireStore storeId
  match ← Task.files (.findById storeId fileId) with
  | none => throw Ingestion.fileMissing
  | some file =>
    Task.chunks (.deleteByFile file.id)
    if ← Task.files (.delete storeId file.id) then
      Task.log .info "File deleted" [("fileId", .text fileId), ("vectorStoreId", .text storeId)]
      pure file.id
    else throw Ingestion.fileMissing

def search (client : Embedding.Client) (p : Search.Params) :
    Task Float (List (SearchResult Float)) := do
  Ingestion.requireStore p.storeId
  Search.serve client p

end Retrieval.Service
