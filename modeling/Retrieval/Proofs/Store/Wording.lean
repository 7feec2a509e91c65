import Retrieval.Proofs.Store.Lookup

/-!
# What the statements of a call say

Which texts a call on a table sends depends on the shape of its arguments alone: on how many chunks,
filter entries and counted stores there are, on the order of a page, and on which optional values
are there (`Call.sent_worded`). The values themselves are only ever bound.
-/

namespace Retrieval.Database

/-- A call on one of the tables. -/
inductive Call where
  | stores (call : StoreCall)
  | files (call : FileCall)
  | chunks (call : ChunkCall Float)

/-- How a database answers a statement behind those it has answered. -/
abbrev Backend := List Statement → Statement → Except Fault (List Row)

variable {α β : Type} (db : Backend)

/-- The statements that have been sent when a session is over, those of the past first. -/
def sentFrom (past : List Statement) (session : Session α) : List Statement :=
  (session.run.run (fun s past => (db past s, past ++ [s])) past).2

theorem sentFrom_send (past : List Statement) (s : Statement) (next : List Row → Session β) :
    sentFrom db past (send s >>= next) =
      match db past s with
      | .ok rows => sentFrom db (past ++ [s]) (next rows)
      | .error _ => past ++ [s] := by
  have first : sentFrom db past (send s >>= next) =
      (Program.run (fun s past => (db past s, past ++ [s]))
        (ExceptT.bindCont next (db past s)) (past ++ [s])).2 := rfl
  rw [first]
  cases db past s <;> rfl

theorem sentFrom_then_pure (past : List Statement) (session : Session α) (f : α → β) :
    sentFrom db past (session >>= fun a => pure (f a)) = sentFrom db past session := by
  have split := Program.run_bind (fun s past => (db past s, past ++ [s])) session.run
    (ExceptT.bindCont fun a => (pure (f a) : Session β)) past
  refine (congrArg Prod.snd split).trans ?_
  unfold sentFrom
  rcases Program.run (fun s past => (db past s, past ++ [s])) session.run past with ⟨_ | _, later⟩
    <;> rfl

theorem sentFrom_once (past : List Statement) (s : Statement) (f : List Row → β) :
    sentFrom db past (send s >>= fun rows => pure (f rows)) = past ++ [s] := by
  rw [sentFrom_send]
  cases db past s <;> rfl

namespace Call

def sent : Call → List Statement
  | stores call => sentFrom db [] (callStores call)
  | files call => sentFrom db [] (callFiles call)
  | chunks call => sentFrom db [] (callChunks call)

end Call

/-! ## The statements of each call -/

def storeStatement : StoreCall → Statement
  | .create name metadata => insertStore name metadata
  | .findById id => selectStore id
  | .list page => selectStores page.order (page.limit + 1) page.offset
  | .delete id => deleteStore id

/-- The stores whose files are counted once the first statement is answered. -/
def onPage : StoreCall → Except Fault (List Row) → List String
  | .findById id, .ok (_ :: _) => [id]
  | .list page, .ok rows => (rows.take page.limit).map (textColumn · 0)
  | _, _ => []

/-- The statement that counts the files of stores, if there are stores. -/
def counting (ids : List String) : List Statement := if ids.isEmpty then [] else [countFiles ids]

def fileStatement : FileCall → Statement
  | .create file => insertFile file
  | .updateStatus id update => updateFile id update
  | .findById storeId id => selectFile storeId id
  | .listByStore storeId => selectFiles storeId
  | .delete storeId id => deleteFile storeId id

def chunkStatements : ChunkCall Float → List Statement
  | .saveBatch chunks => if chunks.isEmpty then [] else [insertChunks chunks]
  | .nearestNeighbors q => [selectNearest q]
  | .deleteByFile fileId => [deleteChunks fileId]

theorem sentFrom_fileCounts (past : List Statement) (ids : List String) :
    sentFrom db past (fileCounts ids) = past ++ counting ids := by
  cases ids with
  | nil => exact (List.append_nil past).symm
  | cons id ids => exact sentFrom_once db past (countFiles (id :: ids)) _

theorem sent_stores (call : StoreCall) :
    (Call.stores call).sent db =
      storeStatement call :: counting (onPage call (db [] (storeStatement call))) := by
  cases call with
  | create name metadata =>
    refine (sentFrom_send db [] (insertStore name metadata) _).trans ?_
    unfold storeStatement
    cases db [] (insertStore name metadata) with
    | error e => rfl
    | ok rows => cases rows <;> rfl
  | findById id =>
    refine (sentFrom_send db [] (selectStore id) _).trans ?_
    unfold storeStatement
    cases db [] (selectStore id) with
    | error e => rfl
    | ok rows =>
      cases rows with
      | nil => rfl
      | cons row rest =>
        exact (sentFrom_then_pure db _ _ _).trans (sentFrom_fileCounts db [selectStore id] [id])
  | list page =>
    refine (sentFrom_send db [] (selectStores page.order (page.limit + 1) page.offset) _).trans ?_
    unfold storeStatement
    cases db [] (selectStores page.order (page.limit + 1) page.offset) with
    | error e => rfl
    | ok rows => exact (sentFrom_then_pure db _ _ _).trans (sentFrom_fileCounts db [_] _)
  | delete id => exact sentFrom_once db [] (deleteStore id) _

theorem sent_files (call : FileCall) : (Call.files call).sent db = [fileStatement call] := by
  cases call with
  | create file =>
    refine (sentFrom_send db [] (insertFile file) _).trans ?_
    cases db [] (insertFile file) with
    | error e => rfl
    | ok rows => cases rows <;> rfl
  | updateStatus id update => exact sentFrom_once db [] (updateFile id update) _
  | findById storeId id => exact sentFrom_once db [] (selectFile storeId id) _
  | listByStore storeId => exact sentFrom_once db [] (selectFiles storeId) _
  | delete storeId id => exact sentFrom_once db [] (deleteFile storeId id) _

theorem sent_chunks (call : ChunkCall Float) :
    (Call.chunks call).sent db = chunkStatements call := by
  cases call with
  | saveBatch chunks =>
    cases chunks with
    | nil => rfl
    | cons c chunks => exact sentFrom_once db [] (insertChunks (c :: chunks)) _
  | nearestNeighbors q => exact sentFrom_once db [] (selectNearest q) _
  | deleteByFile fileId => exact sentFrom_once db [] (deleteChunks fileId) _

/-! ## Shapes -/

/-- What the wording of a call depends on. -/
inductive Shape where
  | createStore
  | findStore (counted : Nat)
  | listStores (order : Order) (skips : Bool) (counted : Nat)
  | deleteStore
  | createFile
  | updateFile (chunkCount error : Bool)
  | findFile
  | listFiles
  | deleteFile
  | saveBatch (chunks : Nat)
  | nearest (entries : Nat) (cutoff : Bool)
  | deleteChunks
deriving Repr, DecidableEq

namespace Call

/-- The shape of a call. How many stores are counted is up to the database's first answer. -/
def shape : Call → Shape
  | stores call =>
    let counted := (onPage call (db [] (storeStatement call))).length
    match call with
    | .create .. => .createStore
    | .findById _ => .findStore counted
    | .list page => .listStores page.order (page.offset != 0) counted
    | .delete _ => .deleteStore
  | files (.create _) => .createFile
  | files (.updateStatus _ update) => .updateFile update.chunkCount.isSome update.error.isSome
  | files (.findById ..) => .findFile
  | files (.listByStore _) => .listFiles
  | files (.delete ..) => .deleteFile
  | chunks (.saveBatch batch) => .saveBatch batch.length
  | chunks (.nearestNeighbors q) => .nearest (q.filter.getD []).length q.maxDistance.isSome
  | chunks (.deleteByFile _) => .deleteChunks

end Call

namespace Shape

def chunk : FileChunk Float := ⟨"", "", "", 0, .ofString "", 0, [], none, 0⟩

/-- The statements of a call of that shape on blank data. -/
def sample : Shape → List Statement
  | createStore => [insertStore "" none]
  | findStore counted => selectStore "" :: counting (.replicate counted "")
  | listStores order skips counted =>
    selectStores order 0 skips.toNat :: counting (.replicate counted "")
  | deleteStore => [Database.deleteStore ""]
  | createFile => [insertFile ⟨"", "", none⟩]
  | updateFile chunkCount error =>
    [Database.updateFile "" ⟨.failed, if chunkCount then some 0 else none,
      if error then some none else none⟩]
  | findFile => [selectFile "" ""]
  | listFiles => [selectFiles ""]
  | deleteFile => [Database.deleteFile "" ""]
  | saveBatch chunks => chunkStatements (.saveBatch (.replicate chunks chunk))
  | nearest entries cutoff =>
    [selectNearest ⟨"", [], 0, some (.replicate entries ("", "")), if cutoff then some 0 else none⟩]
  | deleteChunks => [Database.deleteChunks ""]

end Shape

theorem countFiles_sql (ids : List String) :
    (countFiles ids).sql = (countFiles (.replicate ids.length "")).sql := by
  have length : ids.length = (List.replicate ids.length "").length := by simp
  have alike := Statement.joined_congr ", "
    (Statement.map_made (fun id => [.bound (.text id)]) (fun _ _ => rfl) length)
  apply Statement.of_sql_congr
  simp only [List.map_append, alike]

theorem counting_sql (ids : List String) :
    (counting ids).map (·.sql) = (counting (.replicate ids.length "")).map (·.sql) := by
  cases ids with
  | nil => rfl
  | cons id ids => exact congrArg (fun text => [text]) (countFiles_sql (id :: ids))

theorem selectStores_sql (order : Order) (limit offset : Nat) :
    (selectStores order limit offset).sql = (selectStores order 0 (offset != 0).toNat).sql := by
  cases offset <;> rfl

theorem updateFile_sql (id : String) (u : StatusUpdate) :
    (updateFile id u).sql = (updateFile "" ⟨.failed, if u.chunkCount.isSome then some 0 else none,
      if u.error.isSome then some none else none⟩).sql := by
  obtain ⟨status, chunkCount, error⟩ := u
  cases chunkCount with
  | none => rcases error with _ | _ | _ <;> rfl
  | some n => rcases error with _ | _ | _ <;> rfl

def chunkTuple (c : FileChunk Float) : List Piece :=
  .text "(" :: Statement.joined ", " ((chunkValues c).map fun v => [.bound v]) ++ [.text ")"]

theorem chunkValues_length (c : FileChunk Float) : (chunkValues c).length = 9 := rfl

theorem map_chunkTuple (a b : FileChunk Float) :
    (chunkTuple a).map Piece.text? = (chunkTuple b).map Piece.text? := by
  have values := Statement.joined_congr ", " (Statement.map_made (fun v => [.bound v])
    (fun _ _ => rfl) ((chunkValues_length a).trans (chunkValues_length b).symm))
  simp only [chunkTuple, List.map_append, List.map_cons, values]

theorem insertChunks_sql (chunks : List (FileChunk Float)) :
    (insertChunks chunks).sql = (insertChunks (.replicate chunks.length Shape.chunk)).sql := by
  have length : chunks.length = (List.replicate chunks.length Shape.chunk).length := by simp
  apply Statement.of_sql_congr
  rw [List.map_cons, List.map_cons]
  exact congrArg (_ :: ·) (Statement.joined_congr ", "
    (Statement.map_made chunkTuple map_chunkTuple length))

theorem selectNearest_sql (q : NeighborQuery Float) :
    (selectNearest q).sql = (selectNearest ⟨"", [], 0,
      some (.replicate (q.filter.getD []).length ("", "")),
      if q.maxDistance.isSome then some 0 else none⟩).sql := by
  have cutoff : q.maxDistance.isSome =
      (if q.maxDistance.isSome then some (0 : Float) else none).isSome := by
    cases q.maxDistance <;> rfl
  have alike := Statement.joined_congr " and " (conditions_map q ⟨"", [], 0,
    some (.replicate (q.filter.getD []).length ("", "")),
    if q.maxDistance.isSome then some 0 else none⟩ (by simp) cutoff)
  apply Statement.of_sql_congr
  simp only [List.map_append, alike]
  rfl

theorem Call.sent_sample (call : Call) :
    (call.sent db).map (·.sql) = (call.shape db).sample.map (·.sql) := by
  cases call with
  | stores call =>
    rw [sent_stores, List.map_cons, counting_sql]
    cases call with
    | create name metadata => rfl
    | findById id => rfl
    | list page =>
      exact congrArg (· :: _) (selectStores_sql page.order (page.limit + 1) page.offset)
    | delete id => rfl
  | files call =>
    rw [sent_files]
    cases call with
    | updateStatus id u => exact congrArg (fun text => [text]) (updateFile_sql id u)
    | _ => rfl
  | chunks call =>
    rw [sent_chunks]
    cases call with
    | saveBatch chunks =>
      cases chunks with
      | nil => rfl
      | cons c chunks => exact congrArg (fun text => [text]) (insertChunks_sql (c :: chunks))
    | nearestNeighbors q => exact congrArg (fun text => [text]) (selectNearest_sql q)
    | deleteByFile fileId => rfl

/-! ## Numbers -/

theorem numbered_counting (ids : List String) : ∀ s ∈ counting ids, s.Numbered := by
  intro s hs
  cases ids with
  | nil => cases hs
  | cons id ids =>
    have places : ∀ p ∈ (id :: ids).map fun id => [Piece.bound (.text id)],
        p.all Piece.plain :=
      List.forall_mem_map.mpr fun _ _ => rfl
    rw [List.mem_singleton.mp hs]
    apply Statement.numbered_of
    simp only [List.all_append, Statement.plain_joined ", " rfl places]
    rfl

theorem numbered_storeStatement (call : StoreCall) : (storeStatement call).Numbered := by
  cases call with
  | list page =>
    have start : (Piece.text ("select " ++ storeColumns
        ++ " from \"vector_stores\" order by \"vector_stores\".\"created_at\" "
        ++ page.order.name ++ " limit ")).plain := by
      cases page.order <;> decide +kernel
    apply Statement.numbered_of
    rw [List.all_append, List.all_cons, start]
    split <;> rfl
  | _ =>
    apply Statement.numbered_of
    simp only [List.all_cons, Piece.plain_bound]
    decide +kernel

theorem numbered_fileStatement (call : FileCall) : (fileStatement call).Numbered := by
  cases call with
  | updateStatus id update =>
    apply Statement.numbered_of
    obtain ⟨status, chunkCount, error⟩ := update
    cases chunkCount <;> rcases error with _ | _ | _ <;> exact rfl
  | _ =>
    apply Statement.numbered_of
    simp only [fileCondition, List.all_append, List.all_cons, Piece.plain_bound]
    decide +kernel

theorem plain_chunkTuple (c : FileChunk Float) : (chunkTuple c).all Piece.plain := by
  have values : ∀ p ∈ (chunkValues c).map fun v => [Piece.bound v], p.all Piece.plain :=
    List.forall_mem_map.mpr fun _ _ => rfl
  simp only [chunkTuple, List.all_append, List.all_cons,
    Statement.plain_joined ", " rfl values]
  rfl

theorem numbered_chunkStatements (call : ChunkCall Float) :
    ∀ s ∈ chunkStatements call, s.Numbered := by
  intro s hs
  cases call with
  | saveBatch chunks =>
    cases chunks with
    | nil => cases hs
    | cons c chunks =>
      have tuples : ∀ p ∈ (c :: chunks).map chunkTuple, p.all Piece.plain :=
        List.forall_mem_map.mpr fun c _ => plain_chunkTuple c
      have start : (Piece.text ("insert into \"file_chunks\" (" ++ chunkColumns
        ++ ") values ")).plain := by decide +kernel
      rw [List.mem_singleton.mp hs]
      apply Statement.numbered_of
      rw [List.all_cons, start]
      exact Statement.plain_joined ", " rfl tuples
  | nearestNeighbors q =>
    rw [List.mem_singleton.mp hs]
    exact numbered_selectNearest q
  | deleteByFile fileId =>
    rw [List.mem_singleton.mp hs]
    exact Statement.numbered_of rfl

theorem Call.numbered (call : Call) : ∀ s ∈ call.sent db, s.Numbered := by
  cases call with
  | stores call =>
    rw [sent_stores]
    exact List.forall_mem_cons.mpr ⟨numbered_storeStatement call, numbered_counting _⟩
  | files call =>
    rw [sent_files]
    exact List.forall_mem_singleton.mpr (numbered_fileStatement call)
  | chunks call =>
    rw [sent_chunks]
    exact numbered_chunkStatements call

/-! ## Every call -/

/-- Two calls of one shape send the same texts. In each statement the placeholders are numbered in
order of appearance, as many as there are values. A lookup of the nearest chunks names its store and
asks for a vector, and each entry of its filter adds one condition, with its name and its text
bound to the two placeholders in it. -/
theorem Call.sent_worded (call : Call) :
    (∀ (db' : Backend) (call' : Call), call.shape db = call'.shape db' →
      (call.sent db).map (·.sql) = (call'.sent db').map (·.sql)) ∧
    (∀ s ∈ call.sent db, s.Numbered) ∧
    ∀ q, call = .chunks (.nearestNeighbors q) →
      ∃ s, call.sent db = [s] ∧
        s.sql = lookupStart
          ++ " and ".intercalate (conditionTexts (q.filter.getD []).length q.maxDistance.isSome)
          ++ ") order by " ++ distanceText (s.params.length - 1)
          ++ " limit " ++ place s.params.length ∧
        s.value? 1 = some (vectorParam q.vector) ∧
        s.value? 2 = some (.text q.storeId) ∧
        (∀ i e, (q.filter.getD [])[i]? = some e →
          s.value? (2 * i + 3) = some (.text e.1) ∧ s.value? (2 * i + 4) = some (.text e.2)) ∧
        (∀ d, q.maxDistance = some d →
          s.value? (2 * (q.filter.getD []).length + 3) = some (vectorParam q.vector) ∧
          s.value? (2 * (q.filter.getD []).length + 4) = some (.number d)) ∧
        s.value? (s.params.length - 1) = some (vectorParam q.vector) ∧
        s.value? s.params.length = some (.ofNat q.limit) := by
  refine ⟨fun db' call' alike => ?_, call.numbered db, ?_⟩
  · rw [sent_sample, sent_sample, alike]
  · rintro q rfl
    have params := selectNearest_params q
    refine ⟨selectNearest q, sent_chunks db _, selectNearest_text q, ?_, ?_, fun i e he => ?_,
      fun d hd => ?_, ?_, ?_⟩
    · rw [Statement.value?, params]
      rfl
    · rw [Statement.value?, params]
      rfl
    · exact value?_member q he
    · exact value?_cutoff q hd
    · exact (value?_end q).1
    · exact (value?_end q).2

/-- A lookup in a store, with one entry in its filter and a greatest distance. -/
def filteredLookup (storeId name text : String) (cutoff : Float) : Call :=
  .chunks (.nearestNeighbors ⟨storeId, [1, 0], 5, some [(name, text)], some cutoff⟩)

theorem Call.sent_worded_filtered :
    let db : Backend := fun _ _ => .ok []
    let call := filteredLookup "a" "lang" "en" 0.5
    let quoted := filteredLookup "' or 1=1 --" "$1" "\"" 2
    (call.shape db = quoted.shape db ∧
      (call.sent db).map (·.sql) = (quoted.sent db).map (·.sql)) ∧
    ∃ s, call.sent db = [s] ∧ s.Numbered ∧
      (s.value? 3 = some (.text "lang") ∧ s.value? 4 = some (.text "en")) ∧
      s.value? 6 = some (.number 0.5) := by
  intro db call quoted
  obtain ⟨texts, numbered, lookup⟩ := Call.sent_worded db call
  have plain : call.shape db = .nearest 1 true := rfl
  have injected : quoted.shape db = .nearest 1 true := rfl
  have alike : call.shape db = quoted.shape db := plain.trans injected.symm
  obtain ⟨s, sent, -, -, -, members, cutoff, -⟩ := lookup _ rfl
  refine ⟨⟨alike, texts db quoted alike⟩, s, sent, numbered s ?_, members 0 ("lang", "en") rfl,
    (cutoff 0.5 rfl).2⟩
  rw [sent]
  exact List.mem_singleton_self s

end Retrieval.Database
