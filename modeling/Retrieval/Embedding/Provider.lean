import Retrieval.Fault
import Retrieval.Text.Basic

/-!
# The embedding interface

What is sent to the interface for a batch of texts, and what its answers and faults mean. The items
of an answer may come in any order; their indexes tell which text each belongs to.
-/

namespace Retrieval.Embedding

def dimensions : Nat := 1536

structure Request where
  input : List Text
  model : String
deriving Repr, DecidableEq

namespace Request

def resizableFamily : String := "text-embedding-3"

/-- The dimension that is asked for, where the model lets the caller choose it. -/
def dimensions? (r : Request) : Option Nat :=
  if resizableFamily.toList.isPrefixOf r.model.toList then some dimensions else none

def body (r : Request) : Value :=
  .ofPresent
    [("input", .list (r.input.map fun t => .text t.toString)), ("model", .text r.model),
      ("encoding_format", .text "float"),
      ("dimensions", .ofNumber? (r.dimensions?.map Float.ofNat))]

end Request

/-- One vector of an answer, and the place of its text in the batch. -/
structure Item (δ : Type) where
  index : Int
  embedding : List δ

def vectorsOf {δ : Type} (items : List (Item δ)) : List (List δ) :=
  (items.mergeSort fun a b => a.index ≤ b.index).map Item.embedding

/-- The kind of failure that a fault of the interface stands for, and the status that tells. An
answer with a status is judged by the status. -/
def kindOf : Fault → FailureKind × Option Float
  | .api .userAbort _ => (.aborted, none)
  | .api .timeout _ => (.timeout, none)
  | .api .connection _ => (.connection, none)
  | .api (.answered (some status)) _ => (.ofStatus status, some status)
  | _ => (.unexpected, none)

/-- What a fault of the interface means, or what is raised where its words are missing. -/
def failureOf : Fault → Except Fault Fault
  | .provider kind message status cause => .ok (.provider kind message status cause)
  | f => f.words.map fun words => .provider (kindOf f).1 words (kindOf f).2 (some f)

def reported (f : Fault) : Fault :=
  match failureOf f with
  | .ok failure => failure
  | .error raised => raised

/-- The vectors of a batch, or the failure that the provider reports. -/
def received {δ : Type} : Except Fault (List (Item δ)) → Except Fault (List (List δ))
  | .ok items => .ok (vectorsOf items)
  | .error fault => .error (reported fault)

end Retrieval.Embedding
