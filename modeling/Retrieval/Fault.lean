import Retrieval.Schema.Issue
import Retrieval.Value.Display

/-!
# Faults

Everything that can go wrong while a request is served. A failure of the embedding provider is of
one of a few kinds, and the kind alone decides whether the request is tried again. The service's own
errors carry the status and the code with which they are answered. Whatever else is raised is kept
as it came, as the cause of what it led to.
-/

namespace Retrieval

/-! ## Failures of the embedding provider -/

inductive FailureKind where
  | rateLimited
  | serverUnavailable
  | connection
  | timeout
  | authentication
  | invalidRequest
  | aborted
  | unexpected
  /-- a kind that is not known here, if it has a name at all -/
  | unlisted (name : Option String)
deriving Repr, DecidableEq

inductive Disposition where
  | retryable
  | fatal
  | cancelled
deriving Repr, DecidableEq

namespace Disposition

def name : Disposition → String
  | retryable => "retryable"
  | fatal => "fatal"
  | cancelled => "cancelled"

end Disposition

namespace FailureKind

def name? : FailureKind → Option String
  | rateLimited => some "rate_limited"
  | serverUnavailable => some "server_unavailable"
  | connection => some "connection"
  | timeout => some "timeout"
  | authentication => some "authentication"
  | invalidRequest => some "invalid_request"
  | aborted => some "aborted"
  | unexpected => some "unexpected"
  | unlisted name => name

def known : List FailureKind :=
  [rateLimited, serverUnavailable, connection, timeout, authentication, invalidRequest, aborted,
    unexpected]

def ofName (name : Option String) : FailureKind :=
  (known.find? (·.name? == name)).getD (unlisted name)

/-- What is done about a failure of this kind. -/
def disposition? : FailureKind → Option Disposition
  | rateLimited | serverUnavailable | connection | timeout => some .retryable
  | authentication | invalidRequest | unexpected => some .fatal
  | aborted => some .cancelled
  | unlisted _ => none

/-- What is done about a failure of this kind, under the name of the kind. -/
def named? (kind : FailureKind) : Option (String × Value) :=
  kind.name?.bind fun name => kind.disposition?.map fun d => (name, .text d.name)

def dispositions : List (String × Value) := known.filterMap named?

/-- What is found among these under the name of a kind. A name that all records have is found as
well, but it stands for none of the dispositions. -/
def classified (name : String) : Value.Found := Value.memberOf dispositions name

def ofStatus (status : Float) : FailureKind :=
  match Number.natural? status with
  | some 400 | some 404 | some 409 | some 413 | some 422 => invalidRequest
  | some 401 | some 403 => authentication
  | some 429 => rateLimited
  | some 500 | some 502 | some 503 | some 504 => serverUnavailable
  | _ => unexpected

end FailureKind

/-! ## Faults of all origins -/

/-- How many attempts an error speaks of: those that were made, or what somebody states. -/
inductive Attempts where
  | counted (n : Nat)
  | stated (x : Option Float)
deriving Repr

def Attempts.toValue : Attempts → Value
  | counted n => .ofNat n
  | stated x => .ofNumber? x

inductive ServiceError where
  | general (status : Float) (code : String)
  | invalidConfiguration
  | invalidArgument
  | notFound
  | cancelled
  | embeddingService (kind : FailureKind) (attempts : Attempts)
  | backendUnavailable
deriving Repr

namespace ServiceError

/-- The status with which an error is answered. A request that the client gave up has one of its
own. -/
def status : ServiceError → Float
  | general status _ => status
  | invalidConfiguration | invalidArgument => 400
  | notFound => 404
  | cancelled => 499
  | embeddingService .. => 502
  | backendUnavailable => 503

def code : ServiceError → String
  | general _ code => code
  | invalidConfiguration => "invalid_configuration"
  | invalidArgument => "invalid_argument"
  | notFound => "not_found"
  | cancelled => "cancelled"
  | embeddingService .. => "embedding_service_error"
  | backendUnavailable => "backend_unavailable"

def usualMessage : ServiceError → String
  | notFound => "Resource not found"
  | cancelled => "Operation cancelled"
  | backendUnavailable => "Vector store backend unavailable"
  | _ => ""

end ServiceError

inductive ApiFault where
  | answered (status : Option Float)
  | connection
  | timeout
  | userAbort
deriving Repr

inductive UploadFault where
  | partCount
  | fileSize
  | fileCount
  | fieldKey
  | fieldValue
  | fieldCount
  | unexpectedFile
  | missingName
  /-- a code that is not known here -/
  | unlisted (code : String)
deriving Repr, DecidableEq

namespace ApiFault

def usualMessage : ApiFault → String
  | answered _ => ""
  | connection => "Connection error."
  | timeout => "Request timed out."
  | userAbort => "Request was aborted."

/-- The text of an answer with an error status. Zero and what is no number count as none. -/
def answerText (status : Option Float) (message : String) : String :=
  match status.filter fun x => !(x == 0) && !Number.isNan x, message with
  | some s, "" => Number.text s ++ " status code (no body)"
  | some s, m => Number.text s ++ " " ++ m
  | none, "" => "(no status code or body)"
  | none, m => m

end ApiFault

namespace UploadFault

def code : UploadFault → String
  | partCount => "LIMIT_PART_COUNT"
  | fileSize => "LIMIT_FILE_SIZE"
  | fileCount => "LIMIT_FILE_COUNT"
  | fieldKey => "LIMIT_FIELD_KEY"
  | fieldValue => "LIMIT_FIELD_VALUE"
  | fieldCount => "LIMIT_FIELD_COUNT"
  | unexpectedFile => "LIMIT_UNEXPECTED_FILE"
  | missingName => "MISSING_FIELD_NAME"
  | unlisted code => code

def message : UploadFault → String
  | partCount => "Too many parts"
  | fileSize => "File too large"
  | fileCount => "Too many files"
  | fieldKey => "Field name too long"
  | fieldValue => "Field value too long"
  | fieldCount => "Too many fields"
  | unexpectedFile => "Unexpected file field"
  | missingName => "Field name missing"
  | unlisted code => "Unknown error: " ++ code

def known : List UploadFault :=
  [partCount, fileSize, fileCount, fieldKey, fieldValue, fieldCount, unexpectedFile, missingName]

def ofCode (code : String) : UploadFault := (known.find? (·.code == code)).getD (unlisted code)

end UploadFault

inductive Fault where
  | service (error : ServiceError) (message : String) (cause : Option Fault)
  | provider (kind : FailureKind) (message : String) (status : Option Float) (cause : Option Fault)
  | configuration (issues : List String)
  | validation (issues : List Issue)
  | upload (fault : UploadFault) (field : Option String)
  | api (fault : ApiFault) (message : String)
  | other (name : String) (message : String) (cause : Option Fault)
  /-- a value that is no error -/
  | value (v : Value)

instance : Inhabited Fault := ⟨.value .absent⟩

namespace Fault

def configurationMessage (issues : List String) : String :=
  "Invalid configuration: " ++ "; ".intercalate issues

/-- The words of a fault; a value that is no error is shown as it is. -/
def message : Fault → String
  | service _ message _ => message
  | provider _ message _ _ => message
  | configuration issues => configurationMessage issues
  | validation issues => (Value.list (issues.map Issue.toValue)).toIndentedJson
  | upload fault _ => fault.message
  | api _ message => message
  | other _ message _ => message
  | value v => v.display

def abort : Fault := other "AbortError" "This operation was aborted" none

def plain (message : String) : Fault := other "Error" message none

/-- What is raised where a value without a text is to be read. -/
def textless : Fault := other "TypeError" "Cannot convert object to primitive value" none

/-- What is told about a fault, or what is raised where there is nothing that can be told. -/
def words : Fault → Except Fault String
  | value v => (v.display? .common).elim (.error textless) .ok
  | fault => .ok fault.message

/-- The fault for a value that is not accepted, with the given report of its issues. -/
def ofRejection (report : List Issue → Fault) : Rejection → Fault
  | .issues found => report found
  | .textless => textless

def notFound (message : String) : Fault := service .notFound message none

def invalidArgument (message : String) : Fault := service .invalidArgument message none

def cancelled (message : String) (cause : Option Fault) : Fault :=
  service .cancelled message cause

/-- The service's own errors pass unchanged through layers that wrap all others. -/
def isService : Fault → Bool
  | service .. => true
  | _ => false

end Fault

end Retrieval
