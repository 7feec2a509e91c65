import Retrieval.Assembly
import Retrieval.Http.Context
import Retrieval.Http.Documents
import Retrieval.Http.Exchange
import Retrieval.Http.Limiter
import Retrieval.Http.Multipart
import Retrieval.Http.Origins
import Retrieval.Http.Query
import Retrieval.Http.Route
import Retrieval.Http.Views
import Retrieval.Service

/-!
# The application

Every request gets an identifier, has its body read, and is counted. Then its path decides which
operation serves it. Whatever goes wrong on the way is answered and logged in one place. A request
that is for no path at all gets no further than that.
-/

namespace Retrieval.Http

open Value (RecordKind)

/-! ## Operations -/

structure App where
  setup : Ingestion.Setup
  corsOrigin : String
  apiKeySet : Bool

def App.of (a : Assembly) (tokenizer : Tokenizer) : App :=
  ⟨⟨tokenizer, a.client, a.defaults⟩, a.corsOrigin, a.apiKeySet⟩

def listing (items : List Value) (more : List (String × Value)) : Value :=
  .record ([("object", .text "list"), ("data", .list items)] ++ more)

def deleted (id : String) : Value := .record [("id", .text id), ("deleted", .flag true)]

/-- How the service is: the database has to answer. -/
def health (app : App) : Task Float Response := do
  let body (status : String) (database : List (String × Value)) : Value :=
    .record [("status", .text status), ("database", .record database),
      ("openaiApiKeySet", .flag app.apiKeySet)]
  match ← Task.probe with
  | .ok () => pure (.json 200 (body "ok" [("status", .text "ok")]))
  | .error fault =>
    let words ← Task.lift fault.words
    Task.log .warn "Health check could not reach the database" [("error", .text words)]
    pure (.json 503 (body "degraded"
      [("status", .text "error"), ("detail", .text "Database connection failed")]))

def pageOf (p : PageRequest) : Page :=
  ⟨(Number.natural? p.limit).getD 0, (Number.natural? p.offset).getD 0, p.order⟩

def serveSearch (app : App) (id : String) (body : Value) : Task Float Response := do
  let storeId ← Task.lift (resourceId (.text id))
  let r ← Task.lift (accepted (Check.searchRequest [] body))
  let results ← Service.search app.setup.client
    ⟨storeId, .ofString r.query, r.maxResults, r.filter, r.scoreThreshold⟩
  pure (.json 200 (listing (results.map View.ofResult) [("searchQuery", .text r.query)]))

/-- The fields of a request's body, how its records are made, and the file that comes with it. A
form has bare records; the body of any other request is the value that was read. -/
def formOf (r : Request) (body : Value) : Except Fault (RecordKind × Value × Option Upload) :=
  match r.body with
  | some bytes =>
    if r.mediaType?.any MediaType.isMultipart then
      (Multipart.read r.contentType bytes).map fun form =>
        (.bare, .ofMembers form.fields, form.file)
    else .ok (.common, body, none)
  | none => .ok (.common, body, none)

def serveIngestion (app : App) (r : Request) (id : String) (body : Value) :
    Task Float Response := do
  let (kind, body, upload) ← Task.lift (formOf r body)
  let document ← Task.lift (documentOf kind (.text id) body upload)
  let file ← Ingestion.ingest app.setup document
  pure (.json 201 (View.ofFile file))

def serve (app : App) (r : Located) (body : Value) : Operation → Task Float Response
  | .health => health app
  | .createStore => do
    let s ← Task.lift (accepted (Check.store [] body))
    let store ← Service.createStore s.name s.metadata
    pure (.json 201 (View.ofStore store))
  | .listStores => do
    let p ← Task.lift (accepted (Check.page [] (Query.parse r.query)))
    let page ← Service.listStores (pageOf p)
    pure (.json 200 (listing (page.stores.map View.ofStore) [("hasMore", .flag page.hasMore)]))
  | .getStore id => do
    let id ← Task.lift (resourceId (.text id))
    let store ← Service.getStore id
    pure (.json 200 (View.ofStore store))
  | .deleteStore id => do
    let id ← Task.lift (resourceId (.text id))
    let id ← Service.deleteStore id
    pure (.json 200 (deleted id))
  | .createFile id => serveIngestion app r.toRequest id body
  | .listFiles id => do
    let id ← Task.lift (resourceId (.text id))
    let files ← Service.listFiles id
    pure (.json 200 (listing (files.map View.ofFile) []))
  | .getFile id fileId => do
    let id ← Task.lift (resourceId (.text id))
    let fileId ← Task.lift (resourceId (.text fileId))
    let file ← Service.getFile id fileId
    pure (.json 200 (View.ofFile file))
  | .deleteFile id fileId => do
    let id ← Task.lift (resourceId (.text id))
    let fileId ← Task.lift (resourceId (.text fileId))
    let id ← Service.deleteFile id fileId
    pure (.json 200 (deleted id))
  | .search id => serveSearch app id body

/-! ## Requests -/

/-- The windows in which the requests of a client are counted. -/
structure Traffic where
  outer : Option Counting := none
  embedding : Option Counting := none

/-- The response to a request that comes too soon. -/
def tooMany (c : Counting) (now : Instant) (refusal : Response) : Response :=
  refusal.withHeaders [("retry-after", Nat.repr (Limiter.secondsLeft c now))]

def refusal : Response := .page 429 "Too many requests, please try again later."

/-- What a caller is told who sends too many requests that need the embedding provider. -/
def embeddingRefusal : Response :=
  .json 429 (.record [("status", .text "error"), ("code", .text "rate_limited"),
    ("message", .text "Too many requests, try again later")])

def nothingAt (method place : String) : Response :=
  { Response.page 404 (notFoundPage method place) with tagged := false }

def notFound (r : Located) : Response := nothingAt r.method r.path

/-- The response to a request that went wrong, which is logged. Responses go out as a whole, so
that none has begun. -/
def failed (r : Located) (requestId : String) (fault : Fault) : Task Float Response := do
  match handleFault false r.path (some requestId) fault with
  | .ok (.answered (some entry) _) => Task.ask (.log entry)
  | .ok _ | .error _ => pure ()
  pure ((Response.ofFault fault).concluded r.toRequest)

def answerOperation (app : App) (r : Located) (requestId : String) (body : Value)
    (operation : Operation) : Task Float Response := do
  match ← (serve app r body operation).outcome with
  | .ok response => pure (response.concluded r.toRequest)
  | .error fault => if isDismissal fault then pure (notFound r) else failed r requestId fault

/-- The response of an operation within the limit on embedding requests, which are counted before
anything else is looked at. -/
def answerLimited (app : App) (traffic : Traffic) (r : Located) (requestId : String) (body : Value)
    (operation : Operation) : Task Float (Response × Traffic) := do
  if operation.embeds then
    let now ← Task.now
    let c := Limiter.embedding.hit now traffic.embedding
    let response ←
      if Limiter.embedding.exceeded c then pure (tooMany c now embeddingRefusal)
      else answerOperation app r requestId body operation
    pure (response.withHeaders (Limiter.embedding.headers c now),
      { traffic with embedding := some c })
  else
    let response ← answerOperation app r requestId body operation
    pure (response, traffic)

/-- The response to a request that is let in. -/
def answerRoute (app : App) (traffic : Traffic) (r : Located) (requestId : String) (body : Value) :
    Task Float (Response × Traffic) := do
  match (routeOf? r.path).map (operationOf? r.verb) with
  | none | some (.ok none) => pure (notFound r, traffic)
  | some (.error fault) =>
    let response ← failed r requestId fault
    pure (response, traffic)
  | some (.ok (some operation)) => answerLimited app traffic r requestId body operation

/-- The response to a request for options, which is the same for every path. -/
def optionsAnswer : Response := (Response.empty 204).withHeaders [("content-length", "0")]

/-- The response to a request that was counted. It tells from where it may be used before it is
worked out. -/
def answerOrigin (app : App) (traffic : Traffic) (r : Located) (requestId : String) (body : Value) :
    Task Float (Response × Traffic) := do
  let asks := r.verb == "OPTIONS"
  let wished := (r.header? Origins.wishes.toLower).getD ""
  let (headers, fault) := Origins.settled
    (if asks then Origins.options app.corsOrigin wished else Origins.headers app.corsOrigin)
  let (response, traffic) ←
    match fault with
    | some fault =>
      let response ← failed r requestId fault
      pure (response, traffic)
    | none =>
      if asks then pure (optionsAnswer, traffic)
      else answerRoute app traffic r requestId body
  pure (response.orHeaders headers, traffic)

/-- The response to a request: its body is read, then it is counted, then it is served. -/
def answer (app : App) (traffic : Traffic) (r : Located) (requestId : String) :
    Task Float (Response × Traffic) := do
  match r.value with
  | .error fault =>
    let response ← failed r requestId fault
    pure (response, traffic)
  | .ok body =>
    let now ← Task.now
    let c := Limiter.outer.hit now traffic.outer
    let traffic := { traffic with outer := some c }
    let headers := Limiter.outer.headers c now
    if Limiter.outer.exceeded c then pure ((tooMany c now refusal).withHeaders headers, traffic)
    else
      let (response, traffic) ← answerOrigin app traffic r requestId body
      pure (response.orHeaders headers, traffic)

/-- Handles a request for a path. It gets the caller's own identifier or a new one, which is sent
back, and it is logged once it has been answered. An identifier that cannot be sent back ends it. -/
def handleLocated (app : App) (traffic : Traffic) (r : Located) :
    Task Float (Response × Traffic) := do
  let requestId ← assignId (r.header? requestIdHeader.toLower)
  if Header.isContent requestId then
    let started ← Task.now
    let (response, traffic) ← answer app traffic r requestId
    let ended ← Task.now
    Task.ask
      (.log (requestLog r.method r.target response.status (ended - started) (some requestId)))
    pure (response.withHeaders [(requestIdHeader.toLower, requestId)], traffic)
  else
    let response ← failed r requestId (unwritable requestIdHeader)
    pure (response, traffic)

def pathless : String := "null"

def targetless : String := "resource"

def handle (app : App) (traffic : Traffic) (r : Request) : Task Float (Response × Traffic) := do
  let (response, traffic) ←
    match Target.ofText? r.target with
    | none => pure (nothingAt r.method targetless, traffic)
    | some ⟨none, _⟩ => pure (nothingAt r.method pathless, traffic)
    | some ⟨some path, query⟩ => handleLocated app traffic ⟨r, path, query⟩
  pure (if r.wantsNoBody then response.withoutBody else response, traffic)

end Retrieval.Http
