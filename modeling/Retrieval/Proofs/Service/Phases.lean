import Retrieval.Proofs.Chunk.Regions
import Retrieval.Proofs.Store.Relations
import Retrieval.Service

/-!
# The phases of a request

What each request may do to the tables, phase by phase. `Request.follows`: every request keeps to
its phases, whatever the provider, the signal and the tables answer, and ends in a phase that tells
its result. So a file whose ingestion is over is completed or failed, and a deletion is over only
once the file was asked to be deleted.
-/

namespace Retrieval

variable {δ : Type}

namespace Service

open Ingestion (Setup)

/-! ## Requests -/

/-- What a caller has done. -/
inductive Request where
  | createStore (name : String) (metadata : Option Metadata)
  | ingest (d : Document)
  | deleteFile (storeId fileId : String)
  | deleteStore (id : String)

inductive Reply where
  | store (store : VectorStore)
  | file (file : StoredFile)
  | deleted (id : String)

def Request.task (s : Setup) : Request → Task δ Reply
  | .createStore name metadata => do pure (.store (← Service.createStore name metadata))
  | .ingest d => do pure (.file (← Ingestion.ingest s d))
  | .deleteFile storeId fileId => do pure (.deleted (← Service.deleteFile storeId fileId))
  | .deleteStore id => do pure (.deleted (← Service.deleteStore id))

/-- The chunks of a document, if its window is accepted. -/
def pieces (s : Setup) (d : Document) : Option (List Chunk) :=
  match Window.resolve s.defaults d.chunkSize d.overlap with
  | .ok window => some (split s.tokenizer window d.text)
  | .error _ => none

/-! ## Phases -/

/-- How far a request has come with its file. -/
inductive Phase where
  /-- no file was made yet, or none was found, or nothing was left to delete -/
  | idle
  | made (id : String)
  | saved (id : String)
  | completed (id : String)
  | failed (id : String)
  | found
  /-- the chunks are deleted, the file not yet -/
  | doomed
  | deleted

def Phase.file? : Phase → Option String
  | .made id | .saved id | .completed id | .failed id => some id
  | _ => none

/-- The rows are those of the chunks of a file. -/
def Fills (chunks : List Chunk) (storeId id : String) (rows : List (FileChunk δ)) : Prop :=
  rows.map (fun c => (c.fileId, c.storeId, c.index, c.content)) =
    chunks.map fun c => (id, storeId, c.index, c.text)

theorem Fills.keys {chunks : List Chunk} {storeId id : String} {rows : List (FileChunk δ)}
    (h : Fills chunks storeId id rows) : ∀ c ∈ rows, c.fileId = id ∧ c.storeId = storeId := by
  intro c hc
  have hmem := List.mem_map_of_mem (f := fun c => (c.fileId, c.storeId, c.index, c.content)) hc
  rw [h] at hmem
  obtain ⟨chunk, -, heq⟩ := List.mem_map.mp hmem
  simp only [Prod.mk.injEq] at heq
  exact ⟨heq.1.symm, heq.2.1.symm⟩

/-- The numbers of the rows and their contents are those of the chunks. -/
theorem Fills.columns {chunks : List Chunk} {storeId id : String} {rows : List (FileChunk δ)}
    (h : Fills chunks storeId id rows) : rows.map FileChunk.index = chunks.map Chunk.index ∧
      rows.map FileChunk.content = chunks.map Chunk.text := by
  have hindex := congrArg (List.map fun row => row.2.2.1) h
  have hcontent := congrArg (List.map fun row => row.2.2.2) h
  simp only [List.map_map] at hindex hcontent
  exact ⟨hindex, hcontent⟩

/-- One question of a request, and the phases before and after its answer. -/
inductive Moves (s : Setup) : Request → Phase → (e : Effect δ) → e.Answer → Phase → Prop
  | aside (q : Request) (φ : Phase) (e : Effect δ) (r : e.Answer) :
      e.isAside = true → Moves s q φ e r φ
  | storeCreated (name : String) (metadata : Option Metadata) (r : Except Fault VectorStore) :
      Moves s (.createStore name metadata) .idle (.stores (.create name metadata)) r .idle
  | storeRead (q : Request) (id : String) (r : Except Fault (Option VectorStore)) :
      Moves s q .idle (.stores (.findById id)) r .idle
  | storeDeleted (id : String) (r : Except Fault Bool) :
      Moves s (.deleteStore id) .idle (.stores (.delete id)) r .idle
  | made (d : Document) (file : StoredFile) : (pieces s d).isSome →
      Moves s (.ingest d) .idle (.files (.create ⟨d.storeId, d.filename, d.attributes⟩)) (.ok file)
        (.made file.id)
  | unmade (d : Document) (fault : Fault) :
      Moves s (.ingest d) .idle (.files (.create ⟨d.storeId, d.filename, d.attributes⟩))
        (.error fault) .idle
  | saved (d : Document) (id : String) (chunks : List Chunk) (rows : List (FileChunk δ)) :
      pieces s d = some chunks → Fills chunks d.storeId id rows →
      Moves s (.ingest d) (.made id) (.chunks (.saveBatch rows)) (.ok ()) (.saved id)
  | unsaved (d : Document) (id : String) (rows : List (FileChunk δ)) (fault : Fault) :
      Moves s (.ingest d) (.made id) (.chunks (.saveBatch rows)) (.error fault) (.made id)
  | completed (d : Document) (id : String) (chunks : List Chunk) (r : Except Fault Unit) :
      pieces s d = some chunks →
      Moves s (.ingest d) (.saved id)
        (.files (.updateStatus id ⟨.completed, some chunks.length, none⟩)) r (.completed id)
  | completedEmpty (d : Document) (id : String) (r : Except Fault Unit) : pieces s d = some [] →
      Moves s (.ingest d) (.made id) (.files (.updateStatus id ⟨.completed, some 0, none⟩)) r
        (.completed id)
  | failed (d : Document) (id words : String) (r : Except Fault Unit) :
      Moves s (.ingest d) (.made id)
        (.files (.updateStatus id ⟨.failed, none, some (some words)⟩)) r (.failed id)
  | found (storeId fileId : String) (file : StoredFile) :
      Moves s (.deleteFile storeId fileId) .idle (.files (.findById storeId fileId))
        (.ok (some file)) .found
  | missing (storeId fileId : String) :
      Moves s (.deleteFile storeId fileId) .idle (.files (.findById storeId fileId)) (.ok none)
        .idle
  | doomed (storeId fileId : String) (r : Except Fault Unit) :
      Moves s (.deleteFile storeId fileId) .found (.chunks (.deleteByFile fileId)) r .doomed
  | deleted (storeId fileId : String) :
      Moves s (.deleteFile storeId fileId) .doomed (.files (.delete storeId fileId)) (.ok true)
        .deleted
  | undeleted (storeId fileId : String) :
      Moves s (.deleteFile storeId fileId) .doomed (.files (.delete storeId fileId)) (.ok false)
        .idle

def Request.protocol (s : Setup) (q : Request) : Protocol (Effect δ) Effect.Answer Phase where
  Expects _ e r := ∃ t t' : Relations δ, t.Answers e r t'
  Moves := Moves s q

def Request.Ends : Request → Phase → Except Fault Reply → Prop
  | .createStore .., φ, _ | .deleteStore _, φ, _ => φ = .idle
  | .ingest _, φ, .ok reply => ∃ file, reply = .file file ∧ φ = .completed file.id
  | .ingest _, φ, .error _ => φ = .idle ∨ ∃ id, φ = .failed id
  | .deleteFile _ fileId, φ, .ok reply => reply = .deleted fileId ∧ φ = .deleted
  | .deleteFile .., φ, .error fault => φ = .idle ∧ ∃ message, fault = .notFound message

/-! ## Questions to the tables -/

variable {s : Setup} {q : Request} {φ : Phase} {α : Type} {bad : Phase → Fault → Prop}

theorem follows_aside (e : Effect δ) (he : e.isAside = true) :
    (Task.ask e).Follows (q.protocol s) (fun ψ _ => ψ = φ) bad φ :=
  Task.follows_ask fun r _ => ⟨φ, .aside q φ e r he, rfl⟩

/-- What keeps to the exchange with the provider changes no phase. -/
theorem follows_exchange {t : Task δ α} {seen : Embedding.Answered δ}
    {ok' : Embedding.Answered δ → α → Prop} {bad' : Embedding.Answered δ → Fault → Prop}
    (ht : t.Follows Embedding.exchange ok' bad' seen) :
    t.Follows (q.protocol s) (fun ψ a => ψ = φ ∧ ∃ now, ok' now a)
      (fun ψ fault => ψ = φ ∧ ∃ now, bad' now fault) φ := by
  refine Embedding.follows_of_exchange ht fun now e r now' hmove => .aside q φ e r ?_
  cases hmove <;> rfl

theorem follows_requireStore (id : String) :
    (Ingestion.requireStore id : Task δ Unit).Follows (q.protocol s) (fun ψ _ => ψ = .idle)
      (fun ψ fault => ψ = .idle ∧ ∃ message, fault = .notFound message) .idle := by
  have hread : (Task.stores (.findById id) : Task δ _).Follows (q.protocol s)
      (fun ψ _ => ψ = .idle) (fun ψ fault => ψ = .idle ∧ ∃ message, fault = .notFound message)
      .idle := by
    refine Task.follows_stores fun r hr => ⟨.idle, .storeRead q id r, ?_⟩
    obtain ⟨t, t', found, -, rfl, -⟩ := hr
    rfl
  refine hread.bind fun ψ found hψ => ?_
  cases found with
  | none => exact Task.follows_throw ⟨hψ, _, rfl⟩
  | some store => exact Task.follows_pure hψ

/-! ## Ingesting -/

variable {d : Document} {chunks : List Chunk}

theorem follows_chunksOf :
    (Ingestion.chunksOf s d : Task δ _).Follows (q.protocol s)
      (fun ψ chunks => ψ = φ ∧ pieces s d = some chunks) (fun ψ _ => ψ = φ) φ := by
  unfold Ingestion.chunksOf
  cases hw : Window.resolve s.defaults d.chunkSize d.overlap with
  | error fault => exact Task.follows_throw rfl
  | ok window =>
    refine (follows_aside .signal rfl).bind fun ψ reason hψ => ?_
    cases reason with
    | some reason => exact Task.follows_throw hψ
    | none =>
      have hsplit : splitWatched? (if (none : Option Fault).isSome then Watch.after 0 else .never)
          s.tokenizer window d.text = some (split s.tokenizer window d.text) :=
        splitWatched?_never s.tokenizer window d.text
      dsimp only
      rw [hsplit]
      exact Task.follows_pure ⟨hψ, by rw [pieces, hw]⟩

/-- The rows carry the pairs of chunks and vectors, in order. -/
theorem follows_identify (file : StoredFile) (metadata : Option Metadata) (createdAt : Instant)
    (pairs : List (Chunk × List δ)) :
    (Ingestion.identify file metadata createdAt pairs).Follows (q.protocol s)
      (fun ψ rows => ψ = φ ∧ Fills (pairs.map Prod.fst) file.storeId file.id rows) bad φ := by
  induction pairs with
  | nil => exact Task.follows_pure ⟨rfl, rfl⟩
  | cons pair rest ih =>
    refine (follows_aside .freshId rfl).bind ?_
    rintro ψ id rfl
    refine ih.bind ?_
    rintro ψ rows ⟨rfl, hrows⟩
    refine Task.follows_pure ⟨rfl, ?_⟩
    rw [Fills, List.map_cons, List.map_cons, List.map_cons, hrows]

/-- There is one vector for each text. -/
theorem follows_vectors (texts : List Text) :
    (s.client.embedAll texts none : Task δ _).Follows (q.protocol s)
      (fun ψ vectors => ψ = φ ∧ vectors.length = texts.length)
      (fun ψ fault => ψ = φ ∧ fault.Worded) φ := by
  refine (follows_exchange (Embedding.follows_embedAll [] s.client texts none)).mono ?_ ?_
  · rintro ψ vectors ⟨rfl, _, answers, dim, -, rfl, hserved⟩
    exact ⟨rfl, by rw [hserved.length_eq, flatten_groupsOf]⟩
  · rintro ψ fault ⟨rfl, _, hworded⟩
    exact ⟨rfl, hworded⟩

theorem follows_embedAndStore {file : StoredFile} (metadata : Option Metadata)
    (hstore : file.storeId = d.storeId) (hpieces : pieces s d = some chunks) :
    (Ingestion.embedAndStore s file chunks metadata : Task δ Unit).Follows
      ((Request.ingest d).protocol s)
      (fun ψ _ => ψ = .saved file.id ∨ chunks = [] ∧ ψ = .made file.id)
      (fun ψ fault => ψ = .made file.id ∧ fault.Worded) (.made file.id) := by
  unfold Ingestion.embedAndStore
  split
  · next hempty => exact Task.follows_pure (.inr ⟨List.isEmpty_iff.mp hempty, rfl⟩)
  · refine (follows_vectors (chunks.map Chunk.text)).bind ?_
    rintro ψ vectors ⟨rfl, hlength⟩
    rw [List.length_map] at hlength
    refine (follows_aside .now rfl).bind ?_
    rintro ψ createdAt rfl
    refine (follows_identify file metadata createdAt _).bind ?_
    rintro ψ rows ⟨rfl, hrows⟩
    rw [List.map_fst_zip (Nat.le_of_eq hlength.symm), hstore] at hrows
    refine Task.follows_chunks fun r hr => ?_
    obtain ⟨t, t', hanswer⟩ := hr
    rcases hanswer.saveBatch with ⟨rfl, -, -⟩ | ⟨fault, hworded, rfl, -⟩
    · exact ⟨_, .saved d file.id chunks rows hpieces hrows, .inl rfl⟩
    · exact ⟨_, .unsaved d file.id rows fault, rfl, hworded⟩

/-- An update of a status is never refused. -/
theorem follows_updateStatus {id : String} {u : StatusUpdate} {ψ : Phase}
    (h : ∀ r, (q.protocol s : Protocol (Effect δ) Effect.Answer Phase).Moves φ
      (.files (.updateStatus id u)) r ψ) :
    (Task.files (.updateStatus id u) : Task δ Unit).Follows (q.protocol s) (fun χ _ => χ = ψ) bad
      φ := by
  refine Task.follows_files fun r hr => ⟨ψ, h r, ?_⟩
  obtain ⟨t, t', rfl, -⟩ := hr
  rfl

theorem follows_markFailed {id : String} {fault : Fault} (hworded : fault.Worded) :
    (Ingestion.markFailed id fault : Task δ Unit).Follows ((Request.ingest d).protocol s)
      (fun ψ _ => ψ = .failed id) bad (.made id) := by
  obtain ⟨words, hwords⟩ := hworded
  have hlift : (Task.lift (.ok words) : Task δ String).Follows ((Request.ingest d).protocol s)
      (fun ψ w => ψ = .made id ∧ w = words) bad (.made id) := Task.follows_lift ⟨rfl, rfl⟩
  have hupdate : (Task.files (.updateStatus id ⟨.failed, none, some (some words)⟩) :
      Task δ Unit).Follows ((Request.ingest d).protocol s) (fun ψ _ => ψ = .failed id)
      (fun _ _ => False) (.made id) := follows_updateStatus (.failed d id words)
  unfold Ingestion.markFailed
  rw [hwords]
  refine hlift.bind ?_
  rintro ψ words' ⟨rfl, rfl⟩
  refine (follows_aside _ rfl).bind ?_
  rintro ψ - rfl
  refine hupdate.outcome.bind ?_
  rintro ψ r hr
  cases r with
  | ok => exact Task.follows_pure hr
  | error second => exact hr.elim

/-- The file is made once the document was split. -/
theorem follows_create (hpieces : pieces s d = some chunks) :
    (Task.files (.create ⟨d.storeId, d.filename, d.attributes⟩) : Task δ StoredFile).Follows
      ((Request.ingest d).protocol s) (fun ψ file => ψ = .made file.id ∧ file.storeId = d.storeId)
      (fun ψ _ => ψ = .idle) .idle := by
  refine Task.follows_files fun r hr => ?_
  obtain ⟨t, t', hanswer⟩ := hr
  rcases hanswer.create with ⟨id, createdAt, -, rfl, -⟩ | ⟨fault, rfl, -⟩
  · exact ⟨_, .made d _ (by rw [hpieces]; rfl), rfl, rfl⟩
  · exact ⟨_, .unmade d fault, rfl⟩

theorem follows_stored {file : StoredFile} (hstore : file.storeId = d.storeId)
    (hpieces : pieces s d = some chunks) :
    (do Ingestion.embedAndStore s file chunks d.metadata
        Task.files (.updateStatus file.id ⟨.completed, some chunks.length, none⟩) :
      Task δ Unit).Follows ((Request.ingest d).protocol s) (fun ψ _ => ψ = .completed file.id)
      (fun ψ fault => ψ = .made file.id ∧ fault.Worded) (.made file.id) := by
  refine (follows_embedAndStore d.metadata hstore hpieces).bind fun ψ _ hψ => ?_
  rcases hψ with rfl | ⟨rfl, rfl⟩
  · exact follows_updateStatus fun r => .completed d file.id chunks r hpieces
  · exact follows_updateStatus fun r => .completedEmpty d file.id r hpieces

/-- A file that was made is completed, or it is failed and the fault is raised. -/
theorem follows_ingest :
    (Ingestion.ingest s d : Task δ _).Follows ((Request.ingest d).protocol s)
      (fun ψ file => ψ = .completed file.id)
      (fun ψ _ => ψ = .idle ∨ ∃ id, ψ = .failed id) .idle := by
  unfold Ingestion.ingest
  refine (follows_aside .now rfl).bind ?_
  rintro ψ started rfl
  refine ((follows_requireStore d.storeId).mono (fun _ _ h => h) fun ψ _ h => .inl h.1).bind ?_
  rintro ψ - rfl
  refine (follows_chunksOf.mono (fun _ _ h => h) fun ψ _ h => .inl h).bind ?_
  rintro ψ chunks ⟨rfl, hpieces⟩
  refine ((follows_create hpieces).mono (fun _ _ h => h) fun ψ _ h => .inl h).bind ?_
  rintro ψ file ⟨rfl, hstore⟩
  refine (follows_stored hstore hpieces).outcome.bind ?_
  rintro ψ r hr
  cases r with
  | error fault =>
    obtain ⟨rfl, hworded⟩ := hr
    refine (follows_markFailed hworded).bind ?_
    rintro ψ - rfl
    exact Task.follows_throw (.inr ⟨file.id, rfl⟩)
  | ok =>
    obtain rfl : ψ = .completed file.id := hr
    refine (follows_aside .now rfl).bind ?_
    rintro ψ ended rfl
    refine (follows_aside _ rfl).bind ?_
    rintro ψ - rfl
    exact Task.follows_pure rfl

/-! ## Deleting -/

theorem follows_deleteFile (storeId fileId : String) :
    (Service.deleteFile storeId fileId : Task δ _).Follows
      ((Request.deleteFile storeId fileId).protocol s) (fun ψ id => id = fileId ∧ ψ = .deleted)
      (fun ψ fault => ψ = .idle ∧ ∃ message, fault = .notFound message) .idle := by
  have hfind : (Task.files (.findById storeId fileId) : Task δ _).Follows
      ((Request.deleteFile storeId fileId).protocol s)
      (fun ψ found => found.elim (ψ = .idle) fun file => file.id = fileId ∧ ψ = .found)
      (fun ψ fault => ψ = .idle ∧ ∃ message, fault = .notFound message) .idle := by
    refine Task.follows_files fun r hr => ?_
    obtain ⟨t, t', rfl, -⟩ := hr
    cases hfile : t.file? storeId fileId with
    | none => exact ⟨_, .missing storeId fileId, rfl⟩
    | some file =>
      exact ⟨_, .found storeId fileId file, (Relations.file?_eq_some hfile).2.1, rfl⟩
  have hchunks : (Task.chunks (.deleteByFile fileId) : Task δ Unit).Follows
      ((Request.deleteFile storeId fileId).protocol s) (fun ψ _ => ψ = .doomed)
      (fun ψ fault => ψ = .idle ∧ ∃ message, fault = .notFound message) .found := by
    refine Task.follows_chunks fun r hr => ⟨_, .doomed storeId fileId r, ?_⟩
    obtain ⟨t, t', rfl, -⟩ := hr
    rfl
  have hdelete : (Task.files (.delete storeId fileId) : Task δ Bool).Follows
      ((Request.deleteFile storeId fileId).protocol s)
      (fun ψ deleted => ψ = if deleted then .deleted else .idle)
      (fun ψ fault => ψ = .idle ∧ ∃ message, fault = .notFound message) .doomed := by
    refine Task.follows_files fun r hr => ?_
    obtain ⟨t, t', rfl, -⟩ := hr
    cases (t.file? storeId fileId).isSome with
    | true => exact ⟨_, .deleted storeId fileId, rfl⟩
    | false => exact ⟨_, .undeleted storeId fileId, rfl⟩
  unfold Service.deleteFile
  refine (follows_requireStore storeId).bind ?_
  rintro ψ - rfl
  refine hfind.bind fun ψ found hψ => ?_
  cases found with
  | none => exact Task.follows_throw ⟨hψ, _, rfl⟩
  | some file =>
    obtain ⟨rfl, rfl⟩ := hψ
    refine hchunks.bind ?_
    rintro ψ - rfl
    refine hdelete.bind fun ψ deleted hψ => ?_
    cases deleted with
    | false => exact Task.follows_throw ⟨hψ, _, rfl⟩
    | true =>
      refine (follows_aside _ rfl).bind ?_
      rintro χ - rfl
      exact Task.follows_pure ⟨rfl, hψ⟩

theorem follows_createStore (name : String) (metadata : Option Metadata) :
    (Service.createStore name metadata : Task δ _).Follows
      ((Request.createStore name metadata).protocol s) (fun ψ _ => ψ = .idle) (fun ψ _ => ψ = .idle)
      .idle := by
  refine Task.follows_stores fun r hr => ⟨_, .storeCreated name metadata r, ?_⟩
  obtain ⟨t, t', store, -, -, -, rfl, -⟩ := hr
  rfl

theorem follows_deleteStore (id : String) :
    (Service.deleteStore id : Task δ _).Follows ((Request.deleteStore id).protocol s)
      (fun ψ _ => ψ = .idle) (fun ψ _ => ψ = .idle) .idle := by
  have hdelete : (Task.stores (.delete id) : Task δ Bool).Follows
      ((Request.deleteStore id).protocol s) (fun ψ _ => ψ = .idle) (fun ψ _ => ψ = .idle)
      .idle := by
    refine Task.follows_stores fun r hr => ⟨_, .storeDeleted id r, ?_⟩
    obtain ⟨t, t', hanswer⟩ := hr
    rcases hanswer.deleteStore with ⟨rfl, -⟩ | ⟨rfl, -⟩ <;> rfl
  unfold Service.deleteStore
  refine hdelete.bind fun ψ deleted hψ => ?_
  cases deleted with
  | false => exact Task.follows_throw hψ
  | true => exact Task.follows_pure hψ

/-! ## Every request -/

/-- Every request keeps to its phases and ends in one that tells its result. -/
theorem Request.follows (s : Setup) (q : Request) :
    (q.task s : Task δ Reply).run.Follows (q.protocol s) q.Ends .idle := by
  have hends : ∀ (ψ : Phase) (r : Except Fault Reply),
      Task.Ends (fun ψ reply => q.Ends ψ (.ok reply)) (fun ψ fault => q.Ends ψ (.error fault)) ψ r →
      q.Ends ψ r := fun ψ r hr => by cases r <;> exact hr
  refine Program.Follows.mono (p := (q.task s : Task δ Reply).run) ?_ hends
  change (q.task s : Task δ Reply).Follows (q.protocol s) _ _ .idle
  cases q with
  | createStore name metadata =>
    exact (follows_createStore name metadata).bind fun ψ _ hψ => Task.follows_pure hψ
  | ingest d =>
    exact follows_ingest.bind fun ψ file hψ => Task.follows_pure ⟨file, rfl, hψ⟩
  | deleteFile storeId fileId =>
    refine (follows_deleteFile storeId fileId).bind fun ψ id hψ => ?_
    exact Task.follows_pure ⟨by rw [hψ.1], hψ.2⟩
  | deleteStore id =>
    exact (follows_deleteStore id).bind fun ψ _ hψ => Task.follows_pure hψ

end Service
end Retrieval
