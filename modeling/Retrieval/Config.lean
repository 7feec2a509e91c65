import Retrieval.Schema.Check
import Retrieval.Chunk.Window
import Retrieval.Fault
import Retrieval.Log

/-!
# Configuration

The service is configured by named values. An empty text counts as not set, and unknown names do not
matter. Either every setting is in order, or all that are not are reported by name. Which texts are
addresses is for the caller to say (`isAddress`).
-/

namespace Retrieval

structure Config where
  port : Float
  databaseUrl : Option String
  apiKey : String
  baseUrl : Option String
  model : String
  encoding : String
  chunkSize : Float
  chunkOverlap : Float
  maxBatchSize : Float
  maxAttempts : Float
  initialBackoffMs : Float
  requestTimeoutMs : Float
  corsOrigin : String
  logLevel : LogLevel

namespace Config

def encodings : List String := ["cl100k_base", "o200k_base", "p50k_base", "r50k_base"]

/-- A rule on two settings together. It is tried on every configuration whose settings have the
right types. -/
def overlapIsSmaller (c : Config) : Bool := c.chunkOverlap < c.chunkSize

def line (i : Issue) : String :=
  (if i.path.isEmpty then "env" else ".".intercalate i.path) ++ ": " ++ i.message

def isSet : Value → Bool
  | .absent | .text "" => false
  | _ => true

section

variable (isAddress : String → Bool)

open Check in
/-- Each setting under its own name, its rules and its usual value. -/
def settings : Check Config :=
  object fun path get =>
    let wholeNumber (name : String) (rules : List (Float → Option (Finding × Option String)))
        (usual : Float) : Outcome Float :=
      member (orElse ((coerced .common).and (whole :: rules)) usual) path get name
    Config.mk
      <$> wholeNumber "PORT" [positive] 6060
      <*> member (optional (text.and [minLength 1 none])) path get "DATABASE_URL"
      <*> member (orElse text "") path get "OPENAI_API_KEY"
      <*> member (optional (text.and [form .url isAddress none])) path get "OPENAI_BASE_URL"
      <*> member (orElse (text.and [minLength 1 none]) "text-embedding-3-small") path get
        "EMBEDDING_MODEL"
      <*> member (orElse (oneOf encodings) "cl100k_base") path get "TOKENIZER_ENCODING"
      <*> wholeNumber "CHUNK_SIZE" [positive] 800
      <*> wholeNumber "CHUNK_OVERLAP" [atLeast 0] 200
      <*> wholeNumber "EMBEDDING_MAX_BATCH_SIZE" [atLeast 1, atMost 2048] 2048
      <*> wholeNumber "EMBEDDING_MAX_ATTEMPTS" [atLeast 1, atMost 10] 5
      <*> wholeNumber "EMBEDDING_INITIAL_BACKOFF_MS" [atLeast 0] 1000
      <*> wholeNumber "EMBEDDING_REQUEST_TIMEOUT_MS" [atLeast 1000] 60000
      <*> member (orElse text "*") path get "CORS_ORIGIN"
      <*> LogLevel.ofName
        <$> member (orElse (oneOf (LogLevel.all.map LogLevel.name)) "info") path get "LOG_LEVEL"

/-- The outcome for an environment, with the rule on two settings last. -/
def check (environment : List (String × Value)) : Outcome Config :=
  let o := settings isAddress [] (.ofMembers (environment.filter (isSet ·.2)))
  match o.value with
  | some c =>
    if overlapIsSmaller c then o
    else
      { o with issues := o.issues ++
        [⟨["CHUNK_OVERLAP"], .custom, some "CHUNK_OVERLAP must be smaller than CHUNK_SIZE"⟩] }
  | none => o

/-- The configuration that an environment describes, or one line for each issue. -/
def load (environment : List (String × Value)) : Except Fault Config :=
  (check isAddress environment).toExcept.mapError
    (Fault.ofRejection fun found => .configuration (found.map line))

end

def databaseMissing : String := "DATABASE_URL: Required"

def window (c : Config) : Window.Defaults := ⟨c.chunkSize, c.chunkOverlap⟩

end Config
end Retrieval
