import Retrieval.Schema.Check
import Retrieval.Value.Reader

/-!
# Requests

What callers may send: the identifier of a resource, a new store, a page of the list of stores, a
document to ingest, the fields beside an upload, and a search.
-/

namespace Retrieval

/-- The text is written like an identifier: five groups of hexadecimal digits. -/
def isIdentifier (s : String) : Bool :=
  let groups := s.toList.splitOn '-'
  groups.map List.length == [8, 4, 4, 4, 12] && groups.all (·.all (Number.digit? 16 · |>.isSome))

inductive Order where
  | ascending
  | descending
deriving Repr, DecidableEq

namespace Order

def name : Order → String
  | ascending => "asc"
  | descending => "desc"

def ofName (s : String) : Order := if s = "asc" then ascending else descending

end Order

structure StoreRequest where
  name : String
  metadata : Option Metadata

structure PageRequest where
  limit : Float
  offset : Float
  order : Order

structure ChunkingRequest where
  size : Option Float
  overlap : Option Float

structure DocumentRequest where
  chunking : ChunkingRequest
  text : String
  filename : Option String
  metadata : Option Metadata
  attributes : Option Metadata

structure UploadFields where
  chunking : ChunkingRequest
  metadata : Option Metadata
  attributes : Option Metadata

structure SearchRequest where
  query : String
  maxResults : Float
  filter : Option (List (String × String))
  scoreThreshold : Option Float

namespace Check

open Value (RecordKind)

def noMetadataValue (path : List String) (received : ValueType) : Outcome Value :=
  { value := none
    issues := [⟨path, .noAlternative [.text, .number, .flag, .null] received, none⟩] }

/-- A value that metadata may hold: a text, a number, a flag or null. -/
def metadataValue : Check Value := fun path v =>
  match v with
  | .text _ | .flag _ | .null => yield v
  | .number x => if Number.isNan x then noMetadataValue path .nan else yield v
  | v => noMetadataValue path (.of v)

/-- A record of such values. -/
def metadata : Check Metadata := members metadataValue

/-- Metadata written as JSON in a text. Text that is no JSON is an issue of its own, and then
nothing more is looked at. -/
def metadataText : Check Metadata := fun path v =>
  match v with
  | .text s =>
    match Value.ofJson? s with
    | some parsed => metadata path parsed
    | none => { value := some [], issues := [⟨path, .custom, some "Invalid JSON"⟩] }
  | v => refuse path .text v

def resourceId : Check String :=
  text.and [form .uuid isIdentifier (some "Invalid id")]

def store : Check StoreRequest :=
  object fun path get =>
    StoreRequest.mk
      <$> member (text.and [minLength 1 (some "Vector store name cannot be empty"), maxLength 255])
        path get "name"
      <*> member (optional metadata) path get "metadata"

def page : Check PageRequest :=
  object fun path get =>
    PageRequest.mk
      <$> member (orElse ((coerced .common).and [whole, atLeast 1, atMost 100]) 20) path get "limit"
      <*> member (orElse ((coerced .common).and [whole, atLeast 0]) 0) path get "offset"
      <*> Order.ofName <$> member (orElse (oneOf ["asc", "desc"]) "desc") path get "order"

def chunkingMembers (kind : RecordKind) (path : List String) (get : String → Value) :
    Outcome ChunkingRequest :=
  ChunkingRequest.mk
    <$> member (optional ((coerced kind).and [whole, positive])) path get "chunkSize"
    <*> member (optional ((coerced kind).and [whole, atLeast 0])) path get "overlap"

def chunking : Check ChunkingRequest := object (chunkingMembers .common)

/-- A document sent as a value, whose records are of the given kind. -/
def document (kind : RecordKind) : Check DocumentRequest :=
  object fun path get =>
    DocumentRequest.mk
      <$> chunkingMembers kind path get
      <*> member (text.and [minLength 1 (some "Text cannot be empty")]) path get "text"
      <*> member (optional (text.and [minLength 1 none])) path get "filename"
      <*> member (optional metadata) path get "metadata"
      <*> member (optional metadata) path get "attributes"

/-- The fields beside an uploaded document, whose records are of the given kind. -/
def uploadFields (kind : RecordKind) : Check UploadFields :=
  object fun path get =>
    UploadFields.mk
      <$> chunkingMembers kind path get
      <*> member (optional metadataText) path get "metadata"
      <*> member (optional metadataText) path get "attributes"

def searchMembers (path : List String) (get : String → Value) : Outcome SearchRequest :=
  SearchRequest.mk
    <$> member (text.and [minLength 1 (some "Query cannot be empty")]) path get "query"
    <*> member (orElse (number.and [whole, atLeast 1, atMost 100]) 10) path get "maxResults"
    <*> member (optional (members text)) path get "filter"
    <*> member (optional (number.and [atLeast 0, atMost 1])) path get "scoreThreshold"

def searchRequest : Check SearchRequest := object searchMembers

end Check

/-! ## Requests as values -/

def metadataMember : Option Metadata → Value
  | some m => .record m
  | none => .absent

def StoreRequest.toValue (r : StoreRequest) : Value :=
  .ofPresent [("name", .text r.name), ("metadata", metadataMember r.metadata)]

def PageRequest.toValue (r : PageRequest) : Value :=
  .record [("limit", .number r.limit), ("offset", .number r.offset), ("order", .text r.order.name)]

def ChunkingRequest.toMembers (r : ChunkingRequest) : List (String × Value) :=
  [("chunkSize", .ofNumber? r.size), ("overlap", .ofNumber? r.overlap)]

def ChunkingRequest.toValue (r : ChunkingRequest) : Value := .ofPresent r.toMembers

def DocumentRequest.toValue (r : DocumentRequest) : Value :=
  .ofPresent (r.chunking.toMembers ++
    [("text", .text r.text), ("filename", .ofText? r.filename),
      ("metadata", metadataMember r.metadata), ("attributes", metadataMember r.attributes)])

def UploadFields.toValue (r : UploadFields) : Value :=
  .ofPresent (r.chunking.toMembers ++
    [("metadata", metadataMember r.metadata), ("attributes", metadataMember r.attributes)])

def SearchRequest.toValue (r : SearchRequest) : Value :=
  .ofPresent
    [("query", .text r.query), ("maxResults", .number r.maxResults),
      ("filter", metadataMember (r.filter.map fun f => f.map fun (k, v) => (k, .text v))),
      ("scoreThreshold", .ofNumber? r.scoreThreshold)]

end Retrieval
