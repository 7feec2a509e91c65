import Retrieval.Effect
import Retrieval.Time

/-!
# The context of a request

Every request has an identifier: the caller's own, or a new one where the caller sent none. It is
echoed with the response and stands in what is logged about the request.
-/

namespace Retrieval.Http

def requestIdHeader : String := "X-Request-ID"

def ownRequestId? (header : Option String) : Option String := header.filter (· != "")

/-- The identifier of a request with that header: the caller's own, or a new one. -/
def assignId {δ : Type} (header : Option String) : Task δ String :=
  match ownRequestId? header with
  | some id => pure id
  | none => Task.freshId

def requestLog (method url : String) (status : Float) (latency : Int)
    (requestId : Option String) : LogEntry :=
  ⟨.info, .text (method ++ " " ++ url ++ " " ++ Number.text status),
    [("method", .text method), ("path", .text url), ("statusCode", .number status),
      ("latency", .number (Float.ofInt latency)), ("requestId", .ofText? requestId)]⟩

end Retrieval.Http
