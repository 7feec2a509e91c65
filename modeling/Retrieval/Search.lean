import Retrieval.Embedding.Client
import Retrieval.Text.Blank

/-!
# Searching a store

A query is embedded, the nearest chunks of the store are looked up, and the ones that are near
enough and whose metadata match the filter are the results, nearest first. The lookup gets the same
limits as the results, so that it can leave out what would not be shown; they are checked again on
what it delivers.
-/

namespace Retrieval.Search

def minResults : Int := 1

def maxResults : Int := 100

/-- What a caller asks for. -/
structure Params where
  storeId : String
  query : Text
  maxResults : Float
  filter : Option (List (String × String))
  scoreThreshold : Option Float

inductive Refusal where
  | blankQuery
  | maxResults (got : Float)
  | scoreThreshold (got : Float)

def Refusal.message : Refusal → String
  | .blankQuery => "query cannot be empty"
  | .maxResults got =>
    "maxResults must be an integer between " ++ toString Search.minResults ++ " and "
      ++ toString Search.maxResults ++ ", got " ++ Number.text got
  | .scoreThreshold got => "scoreThreshold must be between 0 and 1, got " ++ Number.text got

/-- A search that can be served. -/
structure Plan (δ : Type) where
  storeId : String
  query : Text
  limit : Nat
  filter : Option (List (String × String))
  threshold : Option δ

def limit? (x : Float) : Option Nat :=
  match Number.whole? x with
  | some n => if minResults ≤ n && n ≤ maxResults then some n.toNat else none
  | none => none

def thresholdOk (x : Float) : Bool := Number.atLeast x 0 && Number.atMost x 1

/-- The plan for what a caller asks. A filter without entries is no filter. -/
def Params.plan (p : Params) : Except Refusal (Plan Float) :=
  if p.query.allBlank then .error .blankQuery
  else
    match limit? p.maxResults with
    | none => .error (.maxResults p.maxResults)
    | some limit =>
      let filter := p.filter.filter (!·.isEmpty)
      match p.scoreThreshold with
      | none => .ok ⟨p.storeId, p.query, limit, filter, none⟩
      | some t =>
        if thresholdOk t then .ok ⟨p.storeId, p.query, limit, filter, some t⟩
        else .error (.scoreThreshold t)

section

variable {δ : Type} [Sub δ] [OfNat δ 1] [LE δ] [DecidableLE δ]

def score (d : δ) : δ := 1 - d

/-- What is looked up for a plan once the vector of the query is known. -/
def Plan.lookup (p : Plan δ) (vector : List δ) : NeighborQuery δ :=
  ⟨p.storeId, vector, p.limit, p.filter, p.threshold.map score⟩

def meetsThreshold (threshold : Option δ) (c : Candidate δ) : Bool :=
  match threshold with
  | none => true
  | some t => t ≤ score c.distance

/-- Each entry of the filter is the text of the member of that name. Where there is nothing that
could have members, the first entry is a fault. -/
def matchesFilter (metadata : Value) : List (String × String) → Except Fault Bool
  | [] => .ok true
  | (name, text) :: rest => do
    let found ← (metadata.property name).mapError fun words => .other "TypeError" words none
    if found.filterText? == some text then matchesFilter metadata rest else pure false

def filtered (filter : List (String × String)) :
    List (Candidate δ) → Except Fault (List (Candidate δ))
  | [] => .ok []
  | c :: rest => do
    let passes ← matchesFilter c.metadata filter
    let more ← filtered filter rest
    pure (if passes then c :: more else more)

def resultOf (c : Candidate δ) : SearchResult δ :=
  ⟨c.chunkId, c.fileId, c.filename, c.chunkIndex, c.content, c.distance, score c.distance,
    c.metadata⟩

def Plan.results (p : Plan δ) (candidates : List (Candidate δ)) :
    Except Fault (List (SearchResult δ)) := do
  let passed ← filtered (p.filter.getD []) (candidates.filter (meetsThreshold p.threshold))
  pure ((passed.take p.limit).map resultOf)

/-- Looks the nearest chunks up. The service's own errors pass; any other fault means that the
tables cannot be reached. -/
def lookUp (q : NeighborQuery δ) : Task δ (List (Candidate δ)) := do
  match ← (Task.chunks (.nearestNeighbors q)).outcome with
  | .ok candidates => pure candidates
  | .error fault =>
    if fault.isService then throw fault
    else throw (.service .backendUnavailable "Nearest-neighbor lookup failed" (some fault))

def Plan.serve (p : Plan δ) (client : Embedding.Client) : Task δ (List (SearchResult δ)) := do
  let started ← Task.now
  let vector ← client.embedOne p.query none
  let candidates ← lookUp (p.lookup vector)
  match ← Task.signal with
  | some reason => throw (.cancelled "Search cancelled" (some reason))
  | none =>
    let results ← Task.lift (p.results candidates)
    let ended ← Task.now
    Task.log .info "Search completed"
      [("vectorStoreId", .text p.storeId), ("results", .ofNat results.length),
        ("candidates", .ofNat candidates.length), ("latency", Issue.ofInt (ended - started))]
    pure results

end

/-- Serves what a caller asks for, or refuses it before anything else is done. -/
def serve (client : Embedding.Client) (p : Params) : Task Float (List (SearchResult Float)) :=
  match p.plan with
  | .ok plan => plan.serve client
  | .error refusal => throw (.invalidArgument refusal.message)

end Retrieval.Search
