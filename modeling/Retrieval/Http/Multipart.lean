import Retrieval.Http.Documents
import Retrieval.Http.FormField
import Retrieval.Http.PartHead
import Retrieval.Text.Utf8

/-!
# Forms in several parts

A form is a sequence of parts with boundaries between them, each part with a head of its own. The
parts are looked at in order, and the first one that may not be sent decides. One file may be sent,
in the field for it; all other parts are texts. A boundary with two hyphens behind it says that the
form is complete.
-/

namespace Retrieval.Http.Multipart

def fileField : String := "file"

def maxFileBytes : Nat := 10 * 1024 * 1024

def maxTextBytes : Nat := 1024 * 1024

/-! ## Stretches between boundaries -/

def startsAt (bytes : ByteArray) (pattern : List UInt8) (i : Nat) : Bool :=
  match pattern with
  | [] => true
  | b :: rest => bytes[i]? == some b && startsAt bytes rest (i + 1)

def find? (bytes : ByteArray) (pattern : List UInt8) (i : Nat) : Option Nat :=
  if startsAt bytes pattern i then some i
  else if i < bytes.size then find? bytes pattern (i + 1)
  else none
termination_by bytes.size - i

/-- A stretch of bytes, and whether a boundary ends it. -/
structure Stretch where
  start : Nat
  stop : Nat
  bounded : Bool
deriving Repr, DecidableEq

/-- The stretches between boundaries from position `i` on, at most `count` bounded ones. -/
def stretchesFrom (bytes : ByteArray) (boundary : List UInt8) (i : Nat) : Nat → List Stretch
  | 0 => [⟨i, bytes.size, false⟩]
  | count + 1 =>
    match find? bytes boundary i with
    | some j => ⟨i, j, true⟩ :: stretchesFrom bytes boundary (j + boundary.length) count
    | none => [⟨i, bytes.size, false⟩]

/-! ## Parts -/

/-- What has been read of a form. -/
structure Form where
  fields : List (String × Value) := []
  file : Option Upload := none

/-- The last segment of a path; one that only points at a folder is none. -/
def baseName (path : String) : String :=
  let last := (path.toList.reverse.takeWhile fun c => c != '/' && c != '\\').reverse
  if last == ['.'] || last == ['.', '.'] then "" else String.ofList last

/-- A part whose content is being read. What a part that is left out holds does not matter. -/
inductive OpenPart where
  | skipped
  | text (field : Option String) (charset : String)
  | file (filename : String)

/-- The fault for a file in another field, or for a second one. -/
def unexpectedFile (field : String) : Fault := .upload .unexpectedFile (some field)

/-- The fault for a part without a field. -/
def missingName : Fault := .upload .missingName none

/-- Opens a part for a file. A file without a name is none. -/
def openFile (form : Form) (field : Option String) (filename : String) : Except Fault OpenPart :=
  match field with
  | none => .error missingName
  | some field =>
    if filename.isEmpty then .ok .skipped
    else if field != fileField || form.file.isSome then .error (unexpectedFile field)
    else .ok (.file filename)

/-- Opens the part with these headers. A part that does not belong to a form is left out. -/
def openPart (form : Form) (headers : List (String × String)) : Except Fault OpenPart :=
  match (PartHead.find? "content-disposition" headers).bind Header.disposition? with
  | none => .ok .skipped
  | some d =>
    if d.kind != "form-data" then .ok .skipped
    else
      let parameter (name : String) : Option String :=
        (Header.find? name d.parameters).filter (· != "")
      let field := parameter "name"
      let type := (PartHead.find? "content-type" headers).bind Header.contentType?
      match parameter "filename*" <|> parameter "filename" with
      | some filename => openFile form field (baseName filename)
      | none =>
        if type.any fun t => t.kind == "application" && t.subkind == "octet-stream" then
          openFile form field ""
        else
          let charset := (type.bind fun t => Header.find? "charset" t.parameters).getD "utf-8"
          .ok (.text field charset)

def takeText (form : Form) (field : Option String) (charset : String) (content : ByteArray) :
    Except Fault Form :=
  match field with
  | none => .error missingName
  | some field =>
    if maxTextBytes < content.size then .error (.upload .fieldValue (some field))
    else
      let text := Value.ofText? (Header.textIn? charset content)
      .ok { form with fields := FormField.add form.fields field text }

/-! ## Reading -/

/-- What has been read behind a boundary. -/
inductive Behind where
  | nothing
  | hyphen
  | carriageReturn
deriving Repr, DecidableEq

structure Reader where
  form : Form := {}
  /-- the head that is being read -/
  head : Option PartHead := none
  /-- a boundary was the last thing to be read, or it and what stands behind it -/
  behind : Option Behind := none
  part : OpenPart := .skipped
  content : ByteArray := .empty
  complete : Bool := false

namespace Reader

/-- Reads on in the head that is being read, if there is one, and opens its part at the end. Yields
where it stops. -/
def readHead (r : Reader) (bytes : ByteArray) (start stop : Nat) : Except Fault (Reader × Nat) :=
  match r.head with
  | none => .ok (r, start)
  | some head => do
    match ← PartHead.readFrom bytes stop start head with
    | .inl head => pure ({ r with head := some head }, stop)
    | .inr (headers, start) =>
      let part ← openPart r.form headers
      pure ({ r with head := none, part, content := .empty }, start)

def append (r : Reader) (more : ByteArray) : Except Fault Reader :=
  match r.part with
  | .skipped => .ok r
  | .text .. => .ok { r with content := r.content ++ more }
  | .file _ =>
    let content := r.content ++ more
    if maxFileBytes < content.size then .error (.upload .fileSize (some fileField))
    else .ok { r with content }

/-- Reads what stands behind a boundary: two hyphens, or the end of a line and then a head. Anything
else is content. Yields where it stops, unless nothing more is to be read before the next boundary,
which is then not looked at. -/
def readBehind (r : Reader) (bytes : ByteArray) (start stop : Nat) :
    Except Fault (Reader × Option Nat) := do
  let byte (i : Nat) : Nat := ((bytes[i]?).getD 0).toNat
  let read (behind : Behind) (start : Nat) : Except Fault (Reader × Option Nat) := do
    if start == stop then pure ({ r with behind := some behind }, none)
    else
      let r := { r with behind := none }
      match behind with
      | .nothing => pure (r, some start)
      | .hyphen =>
        if byte start == 45 then pure ({ r with complete := true }, none)
        else pure (← r.append ⟨#[45]⟩, some start)
      | .carriageReturn =>
        if byte start == 10 then pure ({ r with head := some {} }, some (start + 1))
        else pure (← r.append ⟨#[13]⟩, some start)
  match r.behind with
  | none => pure (r, some start)
  | some .nothing =>
    if byte start == 45 then read .hyphen (start + 1)
    else if byte start == 13 then read .carriageReturn (start + 1)
    else pure ({ r with behind := none }, some start)
  | some behind => read behind start

def close (r : Reader) : Except Fault Reader :=
  let r := { r with behind := some .nothing }
  match r.part with
  | .skipped => .ok r
  | .text field charset => do
    let form ← takeText r.form field charset r.content
    pure { r with form, part := .skipped, content := .empty }
  | .file filename =>
    .ok { r with
      form := { r.form with file := some ⟨filename, r.content⟩ }
      part := .skipped
      content := .empty }

/-- Reads a stretch, and closes its part if a boundary ends it. -/
def read (bytes : ByteArray) (r : Reader) (s : Stretch) : Except Fault Reader := do
  let (r, start) ← r.readHead bytes s.start s.stop
  let finish (r : Reader) : Except Fault Reader := if s.bounded then r.close else pure r
  if start == s.stop then finish r
  else
    match ← r.readBehind bytes start s.stop with
    | (r, none) => pure r
    | (r, some start) =>
      let (r, start) ← r.readHead bytes start s.stop
      if start == s.stop then finish r
      else
        let r ← r.append (bytes.extract start s.stop)
        finish r

end Reader

/-! ## Forms -/

def broken : Fault := .plain "Unexpected end of form"

def noBoundary : Fault := .plain "Multipart: Boundary not found"

def lineEnd : List UInt8 := [13, 10]

/-- Reads a form with that boundary, as if a line ended in front of it. -/
def readWith (boundary : String) (bytes : ByteArray) : Except Fault Form := do
  let bytes : ByteArray := ⟨lineEnd.toArray⟩ ++ bytes
  let mark := lineEnd ++ ("--" ++ boundary).toUTF8.toList
  let r ← (stretchesFrom bytes mark 0 bytes.size).foldlM (Reader.read bytes) {}
  if !r.complete then throw broken
  else if r.head.isSome then throw PartHead.malformed
  else pure r.form

def read (contentType : String) (bytes : ByteArray) : Except Fault Form :=
  match Header.contentType? contentType with
  | none => .error (.plain "Malformed content type")
  | some type =>
    if type.kind != "multipart" || type.subkind != "form-data" then
      .error (.plain ("Unsupported content type: " ++ contentType))
    else
      match Header.find? "boundary" type.parameters with
      | none => .error noBoundary
      | some boundary => readWith boundary bytes

/-! ## Writing -/

structure Part where
  headers : List (String × String)
  content : ByteArray

def Part.of (field : String) (filename : Option String) (content : ByteArray) : Part :=
  let disposition := "form-data; name=\"" ++ field ++ "\""
  match filename with
  | some filename =>
    ⟨[("Content-Disposition", disposition ++ "; filename=\"" ++ filename ++ "\""),
      ("Content-Type", "application/octet-stream")], content⟩
  | none => ⟨[("Content-Disposition", disposition)], content⟩

def Part.written (p : Part) : ByteArray :=
  (String.join (p.headers.map fun (name, value) => name ++ ": " ++ value ++ "\r\n")).toUTF8
    ++ "\r\n".toUTF8 ++ p.content ++ "\r\n".toUTF8

def written (boundary : String) (parts : List Part) : ByteArray :=
  parts.foldl (fun acc p => acc ++ ("--" ++ boundary ++ "\r\n").toUTF8 ++ p.written) .empty
    ++ ("--" ++ boundary ++ "--\r\n").toUTF8

def contentType (boundary : String) : String := "multipart/form-data; boundary=" ++ boundary

end Retrieval.Http.Multipart
