import Retrieval.Effect

/-!
# Embedding texts

Texts are embedded in batches. A batch that fails in a way that may pass is tried again after a wait
that grows from attempt to attempt; any other failure ends the work at once. An answer that does not
fit its batch is refused. There are no partial results.
-/

namespace Retrieval.Embedding

/-- How texts are grouped and how often a group is tried. -/
structure Policy where
  batchSize : Nat
  maxAttempts : Float
  initialBackoffMs : Float
  backoffFactor : Float

namespace Policy

def usual : Policy := ⟨2048, 5, 1000, 2⟩

/-- How many attempts a policy allows: those that come before its bound is reached. -/
def attempts (p : Policy) : Nat :=
  match Exact.of p.maxAttempts with
  | .finite false m e =>
    let step := twoTo (-e).toNat
    (m * twoTo e.toNat + step - 1) / step
  | .infinite false => twoTo 64
  | _ => 0

end Policy

structure Client where
  policy : Policy
  defaultModel : String

/-- A failure as the provider reports it: its kind, its words, and the fault itself. -/
structure Failure where
  kind : FailureKind
  message : String
  fault : Fault

namespace Failure

def of (kind : FailureKind) (message : String) (status : Option Float) (cause : Option Fault) :
    Failure :=
  ⟨kind, message, .provider kind message status cause⟩

/-- A fault of the provider's own is a failure as it is; any other one is unexpected, if it has
words at all. -/
def ofFault : Fault → Except Fault Failure
  | .provider kind message status cause => .ok (of kind message status cause)
  | f => f.words.map fun words => of .unexpected words none (some f)

/-- What is reported when no attempt was allowed. -/
def noAttempt : Failure := of .unexpected "No attempt was made" none none

end Failure

variable {δ α : Type}

def cancelledMessage : String := "Embedding request cancelled"

def cancelled (cause : Option Fault) : Fault := .cancelled cancelledMessage cause

def serviceError (message : String) (kind : FailureKind) (attempts : Nat) (cause : Option Fault) :
    Fault :=
  .service (.embeddingService kind (.counted attempts)) message cause

def failed (failure : Failure) (attempts : Nat) : Fault :=
  serviceError
    ("Embedding service failed after " ++ Number.countText attempts ++ " attempt(s): "
      ++ failure.message)
    failure.kind attempts (some failure.fault)

def giveUp (failure : Failure) (attempts : Nat) : Task δ α := do
  Task.log .error "Embedding request failed"
    [("kind", .ofText? failure.kind.name?), ("attempts", .ofNat attempts),
      ("message", .text failure.message)]
  throw (failed failure attempts)

def logRetry (p : Policy) (last : Option Failure) (attempt : Nat) (backoff : Float) :
    Task δ Unit :=
  Task.log .warn "Embedding request failed, retrying"
    [("kind", .ofText? (last.bind (·.kind.name?))), ("attempt", .ofNat attempt),
      ("maxAttempts", .number p.maxAttempts), ("delayMs", .number backoff)]

def checkSignal : Task δ Unit := do
  match ← Task.signal with
  | some reason => throw (cancelled (some reason))
  | none => pure ()

/-- Ends the work after a fault that does not pass. After one that may, it is the latest such failure
of the batch, if its kind is known; so far that is `last`. -/
def judge (last : Option Failure) (attempts : Nat) (fault : Fault) : Task δ (Option Failure) := do
  let failure ← Task.lift (Failure.ofFault fault)
  match failure.kind.disposition? with
  | some .cancelled => throw (cancelled (some failure.fault))
  | some .fatal => giveUp failure attempts
  | some .retryable => pure (some failure)
  | none => pure last

def pause (p : Policy) (last : Option Failure) (attempts : Nat) (backoff : Float) :
    Task δ Unit := do
  logRetry p last attempts backoff
  match ← Task.wait backoff with
  | .error reason => throw (cancelled (some reason))
  | .ok () => pure ()

/-- Tries a batch, `left` times at most, after `attempt` attempts of which `last` is the latest
failure that may pass. -/
def tryBatch (p : Policy) (model : String) (batch : List Text) (attempt : Nat) (backoff : Float)
    (last : Option Failure) : Nat → Task δ (List (List δ))
  | 0 => giveUp (last.getD .noAttempt) attempt
  | left + 1 => do
    checkSignal
    match ← Task.embed batch model with
    | .ok vectors => pure vectors
    | .error fault =>
      let last ← judge last (attempt + 1) fault
      if left = 0 then giveUp (last.getD .noAttempt) (attempt + 1)
      else
        pause p last (attempt + 1) backoff
        tryBatch p model batch (attempt + 1) (backoff * p.backoffFactor) last left

/-- What is raised where a dimension is needed and there is no vector to take it from. -/
def noDimension : Fault :=
  .other "TypeError" "Cannot read properties of undefined (reading 'length')" none

/-- Why an answer does not fit its batch: the number of vectors is not that of the texts, or a
vector has not the dimension that the others have. -/
def mismatch? (batch : List Text) (vectors : List (List δ)) (dimension : Option Nat) :
    Option Fault :=
  if vectors.length ≠ batch.length then
    some (serviceError
      ("Embedding provider returned " ++ Number.countText vectors.length ++ " vectors for "
        ++ Number.countText batch.length ++ " inputs") .unexpected 1 none)
  else
    match dimension.orElse fun _ => vectors.head?.map List.length with
    | none => some noDimension
    | some expected =>
      if vectors.any (·.length ≠ expected) then
        some (serviceError
          ("Embedding provider returned vectors of mixed dimensions (expected "
            ++ Number.countText expected ++ ")") .unexpected 1 none)
      else none

/-- Embeds batches in order, with the dimension of the first vector for all of them. -/
def embedBatches (p : Policy) (model : String) (dimension : Option Nat) :
    List (List Text) → Task δ (List (List δ))
  | [] => pure []
  | batch :: rest => do
    let vectors ← tryBatch p model batch 0 p.initialBackoffMs none p.attempts
    match mismatch? batch vectors dimension with
    | some fault => throw fault
    | none =>
      let dimension := dimension.orElse fun _ => vectors.head?.map List.length
      let more ← embedBatches p model dimension rest
      pure (vectors ++ more)

namespace Policy

/-- The batches in which texts are sent. A size of zero leaves only an empty batch, on which the
work fails. -/
def batches (p : Policy) (texts : List Text) : List (List Text) :=
  if p.batchSize = 0 && !texts.isEmpty then [[]] else groupsOf p.batchSize texts

end Policy

namespace Client

def embedAll (c : Client) (texts : List Text) (model : Option String) : Task δ (List (List δ)) :=
  embedBatches c.policy (model.getD c.defaultModel) none (c.policy.batches texts)

def embedOne (c : Client) (text : Text) (model : Option String) : Task δ (List δ) := do
  let vectors ← c.embedAll [text] model
  pure (vectors.headD [])

end Client
end Retrieval.Embedding
