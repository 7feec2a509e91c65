import Retrieval.Fault
import Retrieval.Log

/-!
# Answers to faults

How a request is answered that could not be served, and what is logged about it. The service's own
errors are shown as they are; what is wrong with the request is listed; of anything else the caller
learns nothing.
-/

namespace Retrieval.Http

structure ErrorAnswer where
  status : Float
  body : Value

def errorAnswer : Fault → ErrorAnswer
  | .service error message _ =>
    ⟨error.status, .record
      [("status", .text "error"), ("code", .text error.code), ("message", .text message)]⟩
  | .validation issues =>
    ⟨400, .record [("status", .text "fail"), ("message", .text "Validation Error"),
      ("errors", .list (issues.map Issue.toValue))]⟩
  | .upload fault _ =>
    ⟨400, .record [("status", .text "fail"), ("code", .text fault.code),
      ("message", .text fault.message)]⟩
  | _ =>
    ⟨500, .record [("status", .text "error"), ("message", .text "Internal Server Error")]⟩

/-- The words that a raised value brings, which is no error: its member of that name. -/
def wordsOf : Value → Value
  | .record members => Value.lookup "message" members
  | _ => .absent

def wordless : Fault := .other "TypeError" "Cannot read properties of undefined" none

/-- The fault for a header whose value holds characters that no header can have. -/
def unwritable (name : String) : Fault :=
  .other "TypeError" ("Invalid character in header content [\"" ++ name ++ "\"]") none

/-- A raised value that stands for no fault: the request is handled as if nothing served it. -/
def isDismissal : Fault → Bool
  | .value (.text s) => s == "" || s == "route" || s == "router"
  | .value v => !v.isTruthy
  | _ => false

/-- What is logged about a fault. The service's own errors are no more than warnings where the
caller is to blame; what is wrong with the request is not logged. About a value that is not there
nothing can be said. -/
def errorLog (path : String) (requestId : Option String) (fault : Fault) :
    Except Fault (Option LogEntry) :=
  let place := [("path", .text path), ("requestId", .ofText? requestId)]
  match fault with
  | .service error message _ =>
    .ok (some ⟨if Number.atLeast error.status 500 then .error else .warn, .text message,
      ("code", .text error.code) :: place⟩)
  | .validation _ | .upload .. => .ok none
  | .value .absent | .value .null => .error wordless
  | .value v => .ok (some ⟨.error, wordsOf v, place⟩)
  | fault => .ok (some ⟨.error, .text fault.message, place⟩)

/-- What becomes of a fault. -/
inductive Handling where
  /-- it is left to others, and nothing is told of it -/
  | passedOn (fault : Fault)
  | answered (entry : Option LogEntry) (answer : ErrorAnswer)

/-- Handles a fault. Where an answer has begun already, there cannot be another one. -/
def handleFault (begun : Bool) (path : String) (requestId : Option String) (fault : Fault) :
    Except Fault Handling :=
  if begun then .ok (.passedOn fault)
  else (errorLog path requestId fault).map fun entry => .answered entry (errorAnswer fault)

end Retrieval.Http
