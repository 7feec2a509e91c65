import Retrieval.Config
import Retrieval.Ingestion
import Retrieval.Schema.Address

/-!
# From a configuration to a service

A configuration that names a database settles everything that the service is built from: the pool of
connections, the way to the embedding interface, and the client that decides about retries.
-/

namespace Retrieval

/-- How many connections to the database are kept, and how long, in milliseconds. -/
structure PoolSettings where
  min : Nat := 2
  max : Nat := 20
  idleMs : Nat := 30000
  connectMs : Nat := 2000

/-- How the embedding interface is reached. The client decides about retries, so there are none on
the way. -/
structure InterfaceSettings where
  /-- where the interface is found, if not in its usual place -/
  baseUrl : Option String
  timeoutMs : Float
  retries : Nat := 0

structure Assembly where
  pool : PoolSettings
  interface : InterfaceSettings
  client : Embedding.Client
  defaults : Window.Defaults
  apiKeySet : Bool
  logLevel : LogLevel
  corsOrigin : String

namespace Assembly

def policyOf (c : Config) : Embedding.Policy :=
  { Embedding.Policy.usual with
    batchSize := (Number.natural? c.maxBatchSize).getD Embedding.Policy.usual.batchSize
    maxAttempts := c.maxAttempts
    initialBackoffMs := c.initialBackoffMs }

def of (c : Config) : Except Fault Assembly :=
  match c.databaseUrl with
  | none => .error (.configuration [Config.databaseMissing])
  | some _ =>
    .ok {
      pool := {}
      interface := { baseUrl := c.baseUrl, timeoutMs := c.requestTimeoutMs }
      client := ⟨policyOf c, c.model⟩
      defaults := c.window
      apiKeySet := c.apiKey != ""
      logLevel := c.logLevel
      corsOrigin := c.corsOrigin }

def load (environment : List (String × Value)) : Except Fault Assembly :=
  (Config.load Address.isAbsolute environment).bind of

def connectionLost (message : String) : LogEntry :=
  ⟨.error, .text "Unexpected database pool error", [("error", .text message)]⟩

def connectionMade : LogEntry := ⟨.debug, .text "New database connection established", []⟩

end Assembly
end Retrieval
