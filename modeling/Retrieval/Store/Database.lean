import Retrieval.Effect
import Retrieval.Store.Statement
import Retrieval.Value.Printer
import Retrieval.Value.Reader

/-!
# Tables in the database

Each call on a table is one or two statements. Values only ever reach a statement as bound
parameters: documents, vectors and metadata as JSON text, instants in calendar form.
-/

namespace Retrieval.Database

/-- The values of a row, in the order of its columns. -/
abbrev Row := List Value

/-- Work that sends statements and may fail. -/
abbrev Session := ExceptT Fault (Program Statement fun _ => Except Fault (List Row))

def send (s : Statement) : Session (List Row) := ExceptT.mk (Program.perform s)

def column (row : Row) (i : Nat) : Value := row.getD i .absent

def textColumn (row : Row) (i : Nat) : String := (column row i).display

/-- A column that holds text or null. -/
def textColumn? (row : Row) (i : Nat) : Option String :=
  match column row i with
  | .text s => some s
  | _ => none

/-- A column that holds a count, as a number or as the text of one. -/
def countColumn (row : Row) (i : Nat) : Float := (column row i).toNumber

/-- A column that holds a whole number, or a text that begins with one. -/
def wholeColumn (row : Row) (i : Nat) : Nat :=
  match column row i with
  | .text s =>
    let cs := s.toList.dropWhile (isBlankPoint ·.toNat)
    (Number.natOfDigits? 10 (Number.spanDigits cs).1).getD 0
  | v => (Number.natural? v.toNumber).getD 0

/-- A column that holds a document, which may come as its JSON text. A text that writes nothing else
is the document itself. -/
def documentColumn (row : Row) (i : Nat) : Value :=
  match column row i with
  | .text s => (Value.ofJson? s).getD (.text s)
  | .absent => .null
  | v => v

/-- A column that holds metadata; none are an empty record. -/
def metadataColumn (row : Row) (i : Nat) : Value :=
  match documentColumn row i with
  | .null => .record []
  | v => v

def instantColumn (row : Row) (i : Nat) : Instant :=
  match column row i with
  | .text s => (Instant.ofText? s).getD 0
  | _ => 0

/-! ## Values as parameters -/

def metadataParam : Option Metadata → Value
  | some m => .text (Value.record m).toJson
  | none => .null

def vectorParam (v : List Float) : Value := .text (Value.list (v.map .number)).toJson

/-! ## Stores -/

def storeColumns : String := "\"id\", \"name\", \"metadata\", \"created_at\", \"updated_at\""

def fileColumns : String :=
  "\"id\", \"vector_store_id\", \"filename\", \"status\", \"chunk_count\", \"attributes\", "
    ++ "\"error\", \"created_at\""

/-- A row of the table of stores, with its file counts. -/
def storeOf (counts : FileCounts) (row : Row) : VectorStore :=
  ⟨textColumn row 0, textColumn row 1, documentColumn row 2, counts, instantColumn row 3,
    instantColumn row 4⟩

/-- What goes wrong when a new row is not handed back. -/
def noRow : Fault := .other "TypeError" "The new row was not handed back" none

def insertStore (name : String) (metadata : Option Metadata) : Statement :=
  .of [.text ("insert into \"vector_stores\" (" ++ storeColumns ++ ") values (default, "),
    .bound (.text name), .text ", ", .bound (metadataParam metadata),
    .text (", default, default) returning " ++ storeColumns)]

def selectStore (id : String) : Statement :=
  .of [.text ("select " ++ storeColumns
      ++ " from \"vector_stores\" where \"vector_stores\".\"id\" = "), .bound (.text id)]

def selectStores (order : Order) (limit offset : Nat) : Statement :=
  .of ([.text ("select " ++ storeColumns
      ++ " from \"vector_stores\" order by \"vector_stores\".\"created_at\" " ++ order.name
      ++ " limit "), .bound (.ofNat limit)]
    ++ if offset = 0 then [] else [.text " offset ", .bound (.ofNat offset)])

def deleteStore (id : String) : Statement :=
  .of [.text "delete from \"vector_stores\" where \"vector_stores\".\"id\" = ", .bound (.text id),
    .text " returning \"id\""]

def countFiles (storeIds : List String) : Statement :=
  .of ([.text ("select \"vector_store_id\", \"status\", count(*)::int from \"files\" "
      ++ "where \"files\".\"vector_store_id\" in (")]
    ++ Statement.joined ", " (storeIds.map fun id => [.bound (.text id)])
    ++ [.text ") group by \"files\".\"vector_store_id\", \"files\".\"status\""])

structure StatusGroup where
  storeId : String
  status : FileStatus
  count : Float

def groupOf (row : Row) : StatusGroup :=
  ⟨textColumn row 0, .ofName (textColumn row 1), countColumn row 2⟩

def addGroup (counts : List (String × FileCounts)) (g : StatusGroup) :
    List (String × FileCounts) :=
  match counts with
  | [] => [(g.storeId, FileCounts.zero.add g.status g.count)]
  | (id, c) :: rest =>
    if id == g.storeId then (id, c.add g.status g.count) :: rest else (id, c) :: addGroup rest g

/-- The counts of each store that has files. -/
def countsOf (groups : List StatusGroup) : List (String × FileCounts) := groups.foldl addGroup []

def countsFor (counts : List (String × FileCounts)) (id : String) : FileCounts :=
  ((counts.find? (·.1 == id)).map (·.2)).getD .zero

def fileCounts (storeIds : List String) : Session (List (String × FileCounts)) := do
  if storeIds.isEmpty then pure []
  else
    let rows ← send (countFiles storeIds)
    pure (countsOf (rows.map groupOf))

/-- A call on the table of stores. A page asks for one store more than it shows, which tells whether
there are more. -/
def callStores : (call : StoreCall) → Session call.Answer
  | .create name metadata => do
    match ← send (insertStore name metadata) with
    | row :: _ => pure (storeOf .zero row)
    | [] => throw noRow
  | .findById id => do
    match ← send (selectStore id) with
    | row :: _ =>
      let counts ← fileCounts [id]
      pure (some (storeOf (countsFor counts id) row))
    | [] => pure none
  | .list page => do
    let rows ← send (selectStores page.order (page.limit + 1) page.offset)
    let shown := rows.take page.limit
    let counts ← fileCounts (shown.map (textColumn · 0))
    pure ⟨shown.map fun row => storeOf (countsFor counts (textColumn row 0)) row,
      page.limit < rows.length⟩
  | .delete id => do
    let rows ← send (deleteStore id)
    pure !rows.isEmpty

/-! ## Files -/

def fileOf (row : Row) : StoredFile :=
  ⟨textColumn row 0, textColumn row 1, textColumn row 2, .ofName (textColumn row 3),
    wholeColumn row 4, documentColumn row 5, textColumn? row 6, instantColumn row 7⟩

def fileCondition (storeId id : String) : List Piece :=
  [.text " where (\"files\".\"id\" = ", .bound (.text id),
    .text " and \"files\".\"vector_store_id\" = ", .bound (.text storeId), .text ")"]

def insertFile (file : NewFile) : Statement :=
  .of [.text ("insert into \"files\" (" ++ fileColumns ++ ") values (default, "),
    .bound (.text file.storeId), .text ", ", .bound (.text file.filename), .text ", ",
    .bound (.text FileStatus.inProgress.name), .text ", default, ",
    .bound (metadataParam file.attributes),
    .text (", default, default) returning " ++ fileColumns)]

/-- The assignments of a status update; what stays as it is is not assigned. -/
def assignments (u : StatusUpdate) : List (List Piece) :=
  [[.text "\"status\" = ", .bound (.text u.status.name)]]
    ++ (match u.chunkCount with
      | some n => [[.text "\"chunk_count\" = ", .bound (.ofNat n)]]
      | none => [])
    ++ (match u.error with
      | some (some e) => [[.text "\"error\" = ", .bound (.text e)]]
      | some none => [[.text "\"error\" = ", .bound .null]]
      | none => [])

def updateFile (id : String) (u : StatusUpdate) : Statement :=
  .of ([.text "update \"files\" set "] ++ Statement.joined ", " (assignments u)
    ++ [.text " where \"files\".\"id\" = ", .bound (.text id)])

def selectFile (storeId id : String) : Statement :=
  .of (.text ("select " ++ fileColumns ++ " from \"files\"") :: fileCondition storeId id)

def selectFiles (storeId : String) : Statement :=
  .of [.text ("select " ++ fileColumns
      ++ " from \"files\" where \"files\".\"vector_store_id\" = "), .bound (.text storeId),
    .text " order by \"files\".\"created_at\" desc"]

def deleteFile (storeId id : String) : Statement :=
  .of ([.text "delete from \"files\""] ++ fileCondition storeId id ++ [.text " returning \"id\""])

def callFiles : (call : FileCall) → Session call.Answer
  | .create file => do
    match ← send (insertFile file) with
    | row :: _ => pure (fileOf row)
    | [] => throw noRow
  | .updateStatus id update => do
    let _ ← send (updateFile id update)
    pure ()
  | .findById storeId id => do
    let rows ← send (selectFile storeId id)
    pure (rows.head?.map fileOf)
  | .listByStore storeId => do
    let rows ← send (selectFiles storeId)
    pure (rows.map fileOf)
  | .delete storeId id => do
    let rows ← send (deleteFile storeId id)
    pure !rows.isEmpty

/-! ## Chunks -/

def chunkColumns : String :=
  "\"id\", \"file_id\", \"vector_store_id\", \"chunk_index\", \"content\", \"token_count\", "
    ++ "\"embedding\", \"metadata\", \"created_at\""

def chunkValues (c : FileChunk Float) : List Value :=
  [.text c.id, .text c.fileId, .text c.storeId, .ofNat c.index, .text c.content.toString,
    .ofNat c.tokenCount, vectorParam c.embedding, metadataParam c.metadata,
    .text (Instant.text c.createdAt)]

def insertChunks (chunks : List (FileChunk Float)) : Statement :=
  let tuple (c : FileChunk Float) : List Piece :=
    .text "(" :: Statement.joined ", " ((chunkValues c).map fun v => [.bound v]) ++ [.text ")"]
  .of (.text ("insert into \"file_chunks\" (" ++ chunkColumns ++ ") values ")
    :: Statement.joined ", " (chunks.map tuple))

def distanceTo (vector : List Float) : List Piece :=
  [.text "\"file_chunks\".\"embedding\" <=> ", .bound (vectorParam vector)]

/-- The conditions on a chunk: its store, that it has a vector, one for each entry of the filter,
and the greatest distance. -/
def conditions (q : NeighborQuery Float) : List (List Piece) :=
  [[.text "\"file_chunks\".\"vector_store_id\" = ", .bound (.text q.storeId)],
    [.text "\"file_chunks\".\"embedding\" is not null"]]
    ++ ((q.filter.getD []).map fun (name, text) =>
      [.text "\"file_chunks\".\"metadata\" ->> ", .bound (.text name), .text " = ",
        .bound (.text text)])
    ++ (match q.maxDistance with
      | some d => [distanceTo q.vector ++ [.text " <= ", .bound (.number d)]]
      | none => [])

/-- Selects the nearest chunks; all conditions come before the limit. -/
def selectNearest (q : NeighborQuery Float) : Statement :=
  .of ([.text ("select \"file_chunks\".\"id\", \"file_chunks\".\"file_id\", "
      ++ "\"files\".\"filename\", \"file_chunks\".\"chunk_index\", \"file_chunks\".\"content\", "
      ++ "\"file_chunks\".\"metadata\", ")]
    ++ distanceTo q.vector
    ++ [.text (" from \"file_chunks\" left join \"files\" on \"files\".\"id\" = "
      ++ "\"file_chunks\".\"file_id\" where (")]
    ++ Statement.joined " and " (conditions q)
    ++ [.text ") order by "] ++ distanceTo q.vector ++ [.text " limit ", .bound (.ofNat q.limit)])

def deleteChunks (fileId : String) : Statement :=
  .of [.text "delete from \"file_chunks\" where \"file_chunks\".\"file_id\" = ",
    .bound (.text fileId)]

def candidateOf (row : Row) : Candidate Float :=
  ⟨textColumn row 0, textColumn row 1, textColumn? row 2, wholeColumn row 3,
    .ofString (textColumn row 4), metadataColumn row 5, (column row 6).toNumber⟩

/-- A call on the table of chunks. An empty batch sends nothing. -/
def callChunks : (call : ChunkCall Float) → Session call.Answer
  | .saveBatch chunks => do
    if chunks.isEmpty then pure ()
    else
      let _ ← send (insertChunks chunks)
      pure ()
  | .nearestNeighbors q => do
    let rows ← send (selectNearest q)
    pure (rows.map candidateOf)
  | .deleteByFile fileId => do
    let _ ← send (deleteChunks fileId)
    pure ()

def probe : String := "SELECT 1"

end Retrieval.Database
