import Retrieval.Ingestion
import Retrieval.Text.Utf8

/-!
# Documents in requests

A document comes as a file that is uploaded, with further fields beside it, or as a text in the body
of the request.
-/

namespace Retrieval.Http

open Value (RecordKind)

/-- The name of a document that was sent without one. -/
def usualFilename : String := "untitled.txt"

structure Upload where
  filename : String
  bytes : ByteArray

/-- What a check accepts, or the fault that lists its issues. -/
def accepted {α : Type} (o : Outcome α) : Except Fault α :=
  o.toExcept.mapError (Fault.ofRejection .validation)

def resourceId (v : Value) : Except Fault String := accepted (Check.resourceId [] v)

def textOf (u : Upload) : Except Fault Text :=
  match Utf8.decodeStrict? u.bytes with
  | some s => .ok (.ofString s)
  | none =>
    .error (.service .invalidArgument ("File '" ++ u.filename ++ "' is not valid UTF-8 text")
      (some (.other "TypeError" "The encoded data was not valid" none)))

/-- An uploaded document with the fields beside it, whose records are of the given kind. A body that
is missing counts as one without fields. -/
def uploadedDocument (kind : RecordKind) (storeId : String) (body : Value) (u : Upload) :
    Except Fault Document := do
  if !isUploadable u.filename then throw (uploadRefusal u.filename)
  let body := match body with | .absent | .null => .record [] | v => v
  let fields ← accepted (Check.uploadFields kind [] body)
  let text ← textOf u
  pure ⟨storeId, u.filename, text, fields.metadata, fields.attributes, fields.chunking.size,
    fields.chunking.overlap⟩

/-- A document in the body of a request, whose records are of the given kind. -/
def writtenDocument (kind : RecordKind) (storeId : String) (body : Value) :
    Except Fault Document := do
  let d ← accepted (Check.document kind [] body)
  pure ⟨storeId, d.filename.getD usualFilename, .ofString d.text, d.metadata, d.attributes,
    d.chunking.size, d.chunking.overlap⟩

/-- The document that a request brings for a store; the records in its body are of the given kind.
-/
def documentOf (kind : RecordKind) (id body : Value) (upload : Option Upload) :
    Except Fault Document := do
  let storeId ← resourceId id
  match upload with
  | some u => uploadedDocument kind storeId body u
  | none => writtenDocument kind storeId body

end Retrieval.Http
