import Retrieval.Store.Database

/-!
# What the lookup of the nearest chunks means

The conditions of the statement, once as they are written and once as they are evaluated over the
rows, and the answers that a database may give: the rows that meet all conditions, by ascending
distance, as many as the limit allows. Which of two rows at one distance comes first is left open.
-/

namespace Retrieval

/-- A row of the table of chunks. -/
structure ChunkRow (δ : Type) where
  id : String
  fileId : String
  storeId : String
  index : Nat
  content : Text
  embedding : Option (List δ)
  metadata : Option Metadata

/-- The chunks, and the names of the files that are joined to them. -/
structure ChunkTable (δ : Type) where
  rows : List (ChunkRow δ)
  filename : String → Option String

variable {δ : Type}

namespace ChunkRow

/-- The text of a member of the metadata; nothing where there is none. -/
def memberText? (row : ChunkRow δ) (name : String) : Option String :=
  row.metadata.bind fun members => (Value.lookup name members).filterText?

def distance (metric : List δ → List δ → δ) (vector : List δ) (row : ChunkRow δ) : δ :=
  metric (row.embedding.getD []) vector

end ChunkRow

/-- The row as it is handed out; metadata that are null are an empty record. -/
def ChunkTable.candidate (table : ChunkTable δ) (metric : List δ → List δ → δ) (vector : List δ)
    (row : ChunkRow δ) : Candidate δ :=
  ⟨row.id, row.fileId, table.filename row.fileId, row.index, row.content,
    .record (row.metadata.getD []), row.distance metric vector⟩

namespace Database

inductive Condition (δ : Type) where
  | inStore (id : String)
  | embedded
  | member (name text : String)
  | within (distance : δ)

/-- The conditions of a lookup. -/
def Condition.of (q : NeighborQuery δ) : List (Condition δ) :=
  [.inStore q.storeId, .embedded] ++ (q.filter.getD []).map (fun e => .member e.1 e.2)
    ++ q.maxDistance.toList.map .within

def Condition.pieces (vector : List Float) : Condition Float → List Piece
  | .inStore id => [.text "\"file_chunks\".\"vector_store_id\" = ", .bound (.text id)]
  | .embedded => [.text "\"file_chunks\".\"embedding\" is not null"]
  | .member name text =>
    [.text "\"file_chunks\".\"metadata\" ->> ", .bound (.text name), .text " = ",
      .bound (.text text)]
  | .within d => distanceTo vector ++ [.text " <= ", .bound (.number d)]

theorem conditions_eq (q : NeighborQuery Float) :
    conditions q = (Condition.of q).map (Condition.pieces q.vector) := by
  unfold conditions Condition.of
  cases q.maxDistance <;> simp [Condition.pieces]

variable [LE δ] [DecidableLE δ] {metric : List δ → List δ → δ}

/-- A condition as it is evaluated; what is null meets none. -/
def Condition.holds (metric : List δ → List δ → δ) (vector : List δ) (row : ChunkRow δ) :
    Condition δ → Bool
  | .inStore id => row.storeId == id
  | .embedded => row.embedding.isSome
  | .member name text => row.memberText? name == some text
  | .within d => row.embedding.isSome && row.distance metric vector ≤ d

/-- The rows that meet all conditions. -/
def selected (metric : List δ → List δ → δ) (table : ChunkTable δ) (q : NeighborQuery δ) :
    List (ChunkRow δ) :=
  table.rows.filter fun row => (Condition.of q).all (Condition.holds metric q.vector row)

/-- The rows of a list, none of them farther away than the next. -/
def Ranking (metric : List δ → List δ → δ) (vector : List δ) (rows ranked : List (ChunkRow δ)) :
    Prop :=
  ranked.Perm rows ∧
    ranked.Pairwise fun a b => a.distance metric vector ≤ b.distance metric vector

/-- What a lookup may be answered. -/
def Delivers (metric : List δ → List δ → δ) (table : ChunkTable δ) (q : NeighborQuery δ)
    (answer : List (Candidate δ)) : Prop :=
  ∃ ranked, Ranking metric q.vector (selected metric table q) ranked ∧
    answer = (ranked.take q.limit).map (table.candidate metric q.vector)

theorem all_conditions (q : NeighborQuery δ) (row : ChunkRow δ) :
    (Condition.of q).all (Condition.holds metric q.vector row) =
      (row.storeId == q.storeId && row.embedding.isSome &&
        (q.filter.getD []).all (fun e => row.memberText? e.1 == some e.2) &&
        q.maxDistance.all fun d => row.distance metric q.vector ≤ d) := by
  unfold Condition.of
  cases he : row.embedding.isSome <;> cases q.maxDistance <;>
    simp [Condition.holds, he, Bool.and_assoc, Function.comp_def]

end Database
end Retrieval
