import Retrieval.Http.Content
import Retrieval.Http.EntityTag
import Retrieval.Http.Errors
import Retrieval.Http.Target
import Retrieval.Value.Printer

/-!
# Requests and responses

A request as it comes in, the value in its body, and a response as it goes out. What a response
tells about its content is worked out from the content.
-/

namespace Retrieval.Http

/-- A request. Names of headers are in small letters. -/
structure Request where
  method : String
  /-- what the request is for, as it was sent -/
  target : String
  headers : List (String × String)
  /-- the body, if one was announced -/
  body : Option ByteArray

namespace Request

/-- The value of a header; the last one of a name counts. -/
def header? (r : Request) (name : String) : Option String :=
  (r.headers.reverse.find? (·.1 == name)).map (·.2)

def contentType (r : Request) : String := (r.header? "content-type").getD ""

/-- The media type of the body, if there is a body and its type can be read. -/
def mediaType? (r : Request) : Option MediaType :=
  if r.body.isSome then MediaType.ofText? r.contentType else none

/-- The value in the body of a request. A body of any other type than JSON counts as an empty
record. -/
def value (r : Request) : Except Fault Value :=
  match r.body, r.mediaType? with
  | some bytes, some m =>
    if m.isJson then
      let packed := (r.header? "content-encoding").getD ""
      Content.readJson m (if packed == "" then "identity" else packed.toLower) bytes
    else .ok (.record [])
  | _, _ => .ok (.record [])

def verb (r : Request) : String := r.method.toUpper

def wantsNoBody (r : Request) : Bool := r.method == "HEAD"

/-- The request only reads, and is written so. -/
def isRead (r : Request) : Bool := r.method == "GET" || r.method == "HEAD"

/-- A header that holds this word among others, with commas between them. -/
def holdsWord (word header : String) : Bool :=
  (header.toList.splitOn ',').any fun part => trimBlank part == word.toList

/-- The caller has a content with this tag already and does not ask for it again. -/
def knows (r : Request) (tag : String) : Bool :=
  match (r.header? "if-none-match").getD "" with
  | "" => false
  | named =>
    (r.header? "if-modified-since").getD "" == ""
      && !holdsWord "no-cache" ((r.header? "cache-control").getD "") && EntityTag.isKnown named tag

end Request

structure Located extends Request where
  path : String
  query : String

inductive Body where
  | json (v : Value)
  | text (s : String)

namespace Body

def written : Body → String
  | json v => v.toJson
  | text s => s

end Body

structure Response where
  status : Float
  headers : List (String × String)
  body : Body
  /-- the size of the content is told -/
  sized : Bool := true
  /-- the tag of the content is told -/
  tagged : Bool := true
  /-- the content is not sent -/
  bodyless : Bool := false

namespace Response

def json (status : Float) (v : Value) : Response :=
  { status, headers := [("content-type", "application/json; charset=utf-8")], body := .json v }

def page (status : Float) (text : String) : Response :=
  { status, headers := [("content-type", "text/html; charset=utf-8")], body := .text text }

def empty (status : Float) : Response :=
  { status, headers := [], body := .text "", tagged := false }

def ofFault (fault : Fault) : Response :=
  let a := errorAnswer fault
  json a.status a.body

/-- The response with headers that count instead of those it has of the same name. -/
def withHeaders (r : Response) (headers : List (String × String)) : Response :=
  { r with headers := headers ++ r.headers }

/-- The response with headers that count unless it has some of the same name. -/
def orHeaders (r : Response) (headers : List (String × String)) : Response :=
  { r with headers := r.headers ++ headers }

def tag (r : Response) : String := EntityTag.of r.body.written

def header? (r : Response) (name : String) : Option String :=
  match r.headers.find? (·.1 == name) with
  | some h => some h.2
  | none =>
    if name == "content-length" && r.sized then some (Nat.repr r.body.written.utf8ByteSize)
    else if name == "etag" && r.tagged then some r.tag
    else none

def withoutBody (r : Response) : Response := { r with bodyless := true }

/-- The response as its status wants it: where that says that there is no content, none is sent. -/
def fitting (r : Response) : Response :=
  match Number.natural? r.status with
  | some 204 | some 304 =>
    { r with
      headers := r.headers.filter (·.1 != "content-type")
      sized := false
      bodyless := true }
  | some 205 => { r with headers := ("content-length", "0") :: r.headers, bodyless := true }
  | _ => r

/-- What is sent behind the headers. -/
def sent (r : Response) : Body := if r.bodyless then .text "" else r.body

/-- The response carries what was asked for, or says that the caller has it already. -/
def isSuccess (r : Response) : Bool :=
  (Number.atLeast r.status 200 && !Number.atLeast r.status 300) || r.status == 304

/-- The response to a request whose caller may have the content already. -/
def concluded (r : Response) (request : Request) : Response :=
  let known := request.isRead && r.isSuccess && request.knows r.tag
  fitting (if known then { r with status := 304 } else r)

end Response
end Retrieval.Http
