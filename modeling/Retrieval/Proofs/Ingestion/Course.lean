import Retrieval.Proofs.Embedding.Alignment
import Retrieval.Proofs.Service.Phases
import Retrieval.Proofs.Store.Evolution

/-!
# The courses that an ingestion can take

`play_ingest`: whatever the services around answer, an ingestion takes one of three courses. No file
was made, since its store was not found, its document was not split or its making failed; its file
was made, and then something has failed; or its file was completed. Each course says which calls
were put to the tables, in order, and what came out.
-/

namespace Retrieval

variable {δ : Type}

namespace History

/-- Nothing was asked of the tables or of the provider, and no identifier was handed out. -/
structure Silent (h : History δ) : Prop where
  calls : calls h = []
  freshIds : freshIds h = []
  requests : requests h = []

theorem Silent.nil : Silent ([] : History δ) := ⟨rfl, rfl, rfl⟩

theorem Silent.append {h k : History δ} (hh : Silent h) (hk : Silent k) : Silent (h ++ k) where
  calls := by rw [calls_append, hh.calls, hk.calls, List.append_nil]
  freshIds := by rw [freshIds_append, hh.freshIds, hk.freshIds, List.append_nil]
  requests := by rw [requests_append, hh.requests, hk.requests, List.append_nil]

/-- What is left of handing out identifiers and storing rows. -/
theorem summary_of_saving (now : Instant) (ids : List String) (rows : List (FileChunk δ))
    (r : Except Fault Unit) :
    let h : History δ := ⟨.now, now⟩ :: ((ids.map fun id => ⟨.freshId, id⟩)
      ++ [⟨.chunks (.saveBatch rows), r⟩])
    calls h = [⟨.chunks (.saveBatch rows), r⟩] ∧ freshIds h = ids ∧ answered h = [] := by
  induction ids with
  | nil => exact ⟨rfl, rfl, rfl⟩
  | cons id ids ih => exact ⟨ih.1, congrArg (id :: ·) ih.2.1, ih.2.2⟩

end History

namespace Ingestion

open History Service

variable (w : Surroundings δ) (past : History δ) (s : Setup) (d : Document)

/-! ## The steps -/

/-- What is made of the answer to the question for a store. -/
def looked : Except Fault (Option VectorStore) → Except Fault Unit
  | .ok (some _) => .ok ()
  | .ok none => .error storeMissing
  | .error fault => .error fault

theorem play_requireStore (id : String) :
    Task.play w (requireStore id) past =
      (looked (w (.stores (.findById id)) past),
        past ++ [⟨.stores (.findById id), w (.stores (.findById id)) past⟩]) := by
  unfold requireStore
  rw [Task.play_bind, Task.play_stores]
  generalize w (.stores (.findById id)) past = r
  rcases r with fault | _ | store <;> rfl

/-- Splitting asks at most for the signal, and its result is what the document is split into. -/
theorem play_chunksOf :
    ∃ r new, Task.play w (chunksOf s d) past = (r, past ++ new) ∧ Silent new ∧
      ∀ chunks, r = .ok chunks → pieces s d = some chunks := by
  unfold chunksOf pieces
  cases hw : Window.resolve s.defaults d.chunkSize d.overlap with
  | error fault =>
    refine ⟨.error (.service .invalidConfiguration fault.message none), [], ?_, .nil, nofun⟩
    rw [List.append_nil]
    rfl
  | ok window =>
    dsimp only
    rw [Task.play_bind, show (Task.signal : Task δ _) = Task.ask .signal from rfl, Task.play_ask]
    have silent : Silent [(⟨.signal, w .signal past⟩ : Event δ)] := ⟨rfl, rfl, rfl⟩
    cases hr : w .signal past with
    | some reason =>
      rw [hr] at silent
      exact ⟨.error _, _, rfl, silent, nofun⟩
    | none =>
      rw [hr] at silent
      -- no request is given up while its text is split, so the signal is read once
      have whole : splitWatched? (if (none : Option Fault).isSome then Watch.after 0 else .never)
          s.tokenizer window d.text = some (split s.tokenizer window d.text) :=
        splitWatched?_never s.tokenizer window d.text
      refine ⟨.ok (split s.tokenizer window d.text), _, ?_, silent, ?_⟩
      · dsimp only
        rw [whole]
        rfl
      · rintro chunks ⟨⟩
        rfl

/-- An exchange with the provider asks nothing of the tables and takes no identifiers. -/
theorem silent_of_leads {seen now : Embedding.Answered δ} {new : History δ}
    (h : Task.Leads Embedding.exchange seen new now) : calls new = [] ∧ freshIds new = [] := by
  induction h with
  | nil => exact ⟨rfl, rfl⟩
  | cons hmove hrest ih => cases hmove <;> exact ih

theorem play_embedAll (c : Embedding.Client) (texts : List Text) (name : Option String) :
    ∃ r new, Task.play w (c.embedAll texts name) past = (r, past ++ new) ∧
      calls new = [] ∧ freshIds new = [] ∧
      match r with
      | .ok vectors => vectors = ((answered new).map Prod.snd).flatten ∧
          ((answered new).map Prod.fst).flatten = texts ∧ vectors.length = texts.length
      | .error fault => fault.Worded := by
  obtain ⟨r, new, now, hplay, hleads, hends⟩ :=
    (Embedding.follows_embedAll [] c texts name).play (fun _ _ _ => trivial) past
  obtain ⟨hcalls, hids⟩ := silent_of_leads hleads
  refine ⟨r, new, hplay, hcalls, hids, ?_⟩
  cases r with
  | error fault => exact hends
  | ok vectors =>
    obtain ⟨answers, dim, hnow, hvectors, hserved⟩ := hends
    obtain rfl : answers = answered new := hnow.symm.trans (Embedding.answered_of_leads hleads)
    have texts_eq : ((answered new).map Prod.fst).flatten = texts := by
      rw [hserved.1, flatten_groupsOf]
    refine ⟨hvectors, texts_eq, ?_⟩
    rw [hvectors, hserved.length_eq, flatten_groupsOf]

/-! ## Storing -/

def row (file : StoredFile) (metadata : Option Metadata) (createdAt : Instant) (id : String)
    (p : Chunk × List δ) : FileChunk δ :=
  ⟨id, file.id, file.storeId, p.1.index, p.1.text, p.1.tokenCount, p.2, metadata, createdAt⟩

theorem play_identify (file : StoredFile) (metadata : Option Metadata) (createdAt : Instant)
    (pairs : List (Chunk × List δ)) :
    ∃ ids, ids.length = pairs.length ∧
      Task.play w (identify file metadata createdAt pairs) past =
        (.ok (List.zipWith (row file metadata createdAt) ids pairs),
          past ++ ids.map fun id => ⟨.freshId, id⟩) := by
  induction pairs generalizing past with
  | nil => exact ⟨[], rfl, by rw [List.map_nil, List.append_nil]; rfl⟩
  | cons pair rest ih =>
    obtain ⟨ids, hlength, hplay⟩ := ih (past ++ [⟨.freshId, w .freshId past⟩])
    refine ⟨w .freshId past :: ids, by rw [List.length_cons, hlength, List.length_cons], ?_⟩
    have first : Task.play w (identify file metadata createdAt (pair :: rest)) past =
        Task.play w (do
          let more ← identify file metadata createdAt rest
          pure (row file metadata createdAt (w .freshId past) pair :: more))
          (past ++ [⟨.freshId, w .freshId past⟩]) := rfl
    rw [first, Task.play_bind_ok w _ hplay, Task.play_pure, List.append_assoc]
    rfl

/-- The rows are those of the chunks, in order, each with the next identifier that was handed out
and with the vector that the provider has answered for its text. -/
def Filled (file : StoredFile) (metadata : Option Metadata) (chunks : List Chunk)
    (new : History δ) (rows : List (FileChunk δ)) : Prop :=
  ∃ createdAt vectors,
    rows = List.zipWith (row file metadata createdAt) (freshIds new) (chunks.zip vectors) ∧
    (freshIds new).length = chunks.length ∧ vectors.length = chunks.length ∧
    vectors = ((answered new).map Prod.snd).flatten ∧
    ((answered new).map Prod.fst).flatten = chunks.map Chunk.text

theorem Filled.append {file : StoredFile} {metadata : Option Metadata} {chunks : List Chunk}
    {new more : History δ} {rows : List (FileChunk δ)} (h : Filled file metadata chunks new rows)
    (hids : freshIds more = []) (hanswers : answered more = []) :
    Filled file metadata chunks (new ++ more) rows := by
  unfold Filled
  rw [freshIds_append, answered_append, hids, hanswers, List.append_nil, List.append_nil]
  exact h

/-- Embedding and storing fails with the embedding, or comes to one call that stores the rows. -/
theorem play_embedAndStore (file : StoredFile) {chunks : List Chunk} (hne : chunks ≠ [])
    (metadata : Option Metadata) :
    ∃ r new, Task.play w (embedAndStore s file chunks metadata) past = (r, past ++ new) ∧
      ((∃ fault, r = .error fault ∧ fault.Worded ∧ calls new = [] ∧
          (Task.play w (s.client.embedAll (chunks.map Chunk.text) none) past).1 = .error fault) ∨
        ∃ rows, Filled file metadata chunks new rows ∧
          calls new = [⟨.chunks (.saveBatch rows), r⟩]) := by
  obtain ⟨r, exchanged, hembed, hcalls, hids, hvectors⟩ :=
    play_embedAll w past s.client (chunks.map Chunk.text) none
  have hempty : ¬chunks.isEmpty = true := by simpa using hne
  unfold embedAndStore
  rw [if_neg hempty]
  cases r with
  | error fault =>
    refine ⟨.error fault, exchanged, ?_, .inl ⟨fault, rfl, hvectors, hcalls, ?_⟩⟩
    · rw [Task.play_bind_error w past hembed]
    · rw [hembed]
  | ok vectors =>
    obtain ⟨hanswers, htexts, hlength⟩ := hvectors
    rw [List.length_map] at hlength
    -- the provider is done before the first identifier is handed out
    obtain ⟨ids, hcount, hidentify⟩ := play_identify w
      (past ++ exchanged ++ [⟨.now, w .now (past ++ exchanged)⟩]) file metadata
      (w .now (past ++ exchanged)) (chunks.zip vectors)
    rw [List.length_zip, hlength, Nat.min_self] at hcount
    generalize hnow : w .now (past ++ exchanged) = createdAt at hidentify
    generalize hrows : List.zipWith (row file metadata createdAt) ids (chunks.zip vectors) = rows
      at hidentify
    generalize hr : w (.chunks (.saveBatch rows)) (past ++ exchanged ++ [⟨.now, createdAt⟩]
      ++ ids.map fun id => ⟨.freshId, id⟩) = r
    obtain ⟨tailCalls, tailIds, tailAnswers⟩ := summary_of_saving createdAt ids rows r
    refine ⟨r, exchanged ++ (⟨.now, createdAt⟩ :: ((ids.map fun id => ⟨.freshId, id⟩)
      ++ [⟨.chunks (.saveBatch rows), r⟩])), ?_, .inr ⟨rows, ⟨createdAt, vectors, ?_, ?_, hlength,
      ?_, ?_⟩, ?_⟩⟩
    · have clock : Task.play w Task.now (past ++ exchanged) =
          (.ok createdAt, past ++ exchanged ++ [⟨.now, createdAt⟩]) := by
        rw [← hnow]
        rfl
      rw [Task.play_bind_ok w past hembed, Task.play_bind_ok w _ clock,
        Task.play_bind_ok w _ hidentify, Task.play_chunks, hr]
      simp only [List.append_assoc, List.cons_append, List.nil_append]
    · rw [freshIds_append, hids, tailIds, List.nil_append, hrows]
    · rw [freshIds_append, hids, tailIds, List.nil_append, hcount]
    · rw [answered_append, tailAnswers, List.append_nil, hanswers]
    · rw [answered_append, tailAnswers, List.append_nil, htexts]
    · rw [calls_append, hcalls, tailCalls, List.nil_append]

/-! ## Marking -/

abbrev marking (id words : String) : Effect δ :=
  .files (.updateStatus id ⟨.failed, none, some (some words)⟩)

abbrev completion (id : String) (chunks : Nat) : Effect δ :=
  .files (.updateStatus id ⟨.completed, some chunks, none⟩)

/-- How the marking of a file as failed may go, for the fault that has made it necessary, and the
fault that is raised in the end. -/
inductive Marked (id : String) (cause : Fault) : History δ → Fault → Prop
  | marked (new : History δ) (words : String) (r : Except Fault Unit) : cause.words = .ok words →
      (∀ second, r = .error second → second.Worded) → calls new = [⟨marking id words, r⟩] →
      Marked id cause new cause
  /-- there is nothing that can be told about the fault -/
  | textless (new : History δ) (raised : Fault) : cause.words = .error raised → calls new = [] →
      Marked id cause new raised
  /-- there is nothing that can be told about the refusal of the mark -/
  | muted (new : History δ) (words : String) (second raised : Fault) : cause.words = .ok words →
      second.words = .error raised → calls new = [⟨marking id words, .error second⟩] →
      Marked id cause new raised

/-- The fault that is raised behind the marking: the cause, unless the marking itself has failed. -/
def raisedBehind (cause : Fault) : Except Fault Unit → Fault
  | .ok _ => cause
  | .error raised => raised

theorem play_markFailed (id : String) (cause : Fault) :
    ∃ r new, Task.play w (markFailed id cause) past = (r, past ++ new) ∧
      Marked id cause new (raisedBehind cause r) := by
  unfold markFailed
  cases hwords : cause.words with
  | error raised =>
    refine ⟨.error raised, [], ?_, .textless [] raised hwords rfl⟩
    rw [List.append_nil]
    rfl
  | ok words =>
    rw [Task.play_bind_ok w past (Task.play_lift w past (.ok words)),
      Task.play_bind_ok w past (Task.play_log w past _ _ _),
      Task.play_bind_ok w _ (Task.play_outcome w _ _), Task.play_files]
    generalize hr : w (marking id words) _ = r
    rw [List.append_assoc]
    cases r with
    | ok _ => exact ⟨.ok (), _, rfl, .marked _ words (.ok ()) hwords nofun rfl⟩
    | error second =>
      dsimp only
      cases htold : second.words with
      | error raised =>
        rw [Task.play_bind_error w _ (Task.play_lift w _ (.error raised))]
        exact ⟨.error raised, _, rfl, .muted _ words second raised hwords htold rfl⟩
      | ok told =>
        rw [Task.play_bind_ok w _ (Task.play_lift w _ (.ok told)), Task.play_log,
          List.append_assoc]
        refine ⟨.ok (), _, rfl, .marked _ words (.error second) hwords ?_ rfl⟩
        rintro second ⟨⟩
        exact ⟨told, htold⟩

/-! ## Courses -/

/-- How the work on a file that was made may go until the file is to be marked, and the outcome. -/
inductive Stored (file : StoredFile) (chunks : List Chunk) :
    History δ → Except Fault Unit → Prop
  | unembedded (new : History δ) (fault : Fault) : fault.Worded → calls new = [] →
      (Task.play w (s.client.embedAll (chunks.map Chunk.text) none) past).1 = .error fault →
      Stored file chunks new (.error fault)
  | unsaved (new : History δ) (rows : List (FileChunk δ)) (fault : Fault) :
      Filled file d.metadata chunks new rows →
      calls new = [⟨.chunks (.saveBatch rows), .error fault⟩] →
      Stored file chunks new (.error fault)
  | saved (new : History δ) (rows : List (FileChunk δ)) (r : Except Fault Unit) :
      chunks ≠ [] → Filled file d.metadata chunks new rows →
      calls new = [⟨.chunks (.saveBatch rows), .ok ()⟩, ⟨completion file.id chunks.length, r⟩] →
      Stored file chunks new r
  | empty (new : History δ) (r : Except Fault Unit) : chunks = [] → requests new = [] →
      calls new = [⟨completion file.id 0, r⟩] → Stored file chunks new r

theorem play_stored (file : StoredFile) (chunks : List Chunk) :
    ∃ r new, Task.play w (do
          embedAndStore s file chunks d.metadata
          Task.files (.updateStatus file.id ⟨.completed, some chunks.length, none⟩)) past =
        (r, past ++ new) ∧ Stored w past s d file chunks new r := by
  cases chunks with
  | nil =>
    refine ⟨w (completion file.id 0) past, [⟨completion file.id 0, _⟩], rfl, ?_⟩
    exact .empty _ _ rfl rfl rfl
  | cons chunk rest =>
    obtain ⟨r, new, hplay, hcase⟩ :=
      play_embedAndStore w past s file (List.cons_ne_nil chunk rest) d.metadata
    rcases hcase with ⟨fault, rfl, hworded, hcalls, hembed⟩ | ⟨rows, hrows, hcalls⟩
    · refine ⟨.error fault, new, ?_, .unembedded new fault hworded hcalls hembed⟩
      rw [Task.play_bind_error w past hplay]
    · cases r with
      | error fault =>
        refine ⟨.error fault, new, ?_, .unsaved new rows fault hrows hcalls⟩
        rw [Task.play_bind_error w past hplay]
      | ok _ =>
        rw [Task.play_bind_ok w past hplay, Task.play_files, List.append_assoc]
        refine ⟨_, _, rfl, .saved _ rows _ (List.cons_ne_nil chunk rest)
          (hrows.append rfl rfl) ?_⟩
        rw [calls_append, hcalls]
        rfl

def completed (file : StoredFile) (chunks : Nat) : StoredFile :=
  { file with status := .completed, chunkCount := chunks, error := none }

/-- How an ingestion may fail before its file is made. -/
inductive Unmade : History δ → Fault → Prop
  | unfound (new : History δ) (r : Except Fault (Option VectorStore)) (fault : Fault) :
      looked r = .error fault → calls new = [⟨.stores (.findById d.storeId), r⟩] →
      requests new = [] → Unmade new fault
  | unsplit (new asked : History δ) (store : VectorStore) (fault : Fault) :
      (Task.play w (chunksOf s d) (past ++ asked)).1 = .error fault →
      calls new = [⟨.stores (.findById d.storeId), .ok (some store)⟩] →
      requests new = [] → Unmade new fault
  | refused (new : History δ) (store : VectorStore) (fault : Fault) :
      calls new = [⟨.stores (.findById d.storeId), .ok (some store)⟩,
        ⟨.files (.create ⟨d.storeId, d.filename, d.attributes⟩), .error fault⟩] →
      requests new = [] → Unmade new fault

/-- How an ingestion may go, and what comes out. -/
inductive Course : History δ → Except Fault StoredFile → Prop
  | unmade (new : History δ) (fault : Fault) : Unmade w past s d new fault →
      Course new (.error fault)
  | failed (start work mark : History δ) (store : VectorStore) (chunks : List Chunk)
      (file : StoredFile) (cause raised : Fault) : pieces s d = some chunks →
      calls start = [⟨.stores (.findById d.storeId), .ok (some store)⟩,
        ⟨.files (.create ⟨d.storeId, d.filename, d.attributes⟩), .ok file⟩] →
      requests start = [] → Stored w (past ++ start) s d file chunks work (.error cause) →
      Marked file.id cause mark raised → Course (start ++ work ++ mark) (.error raised)
  | finished (start work rest : History δ) (store : VectorStore) (chunks : List Chunk)
      (file : StoredFile) : pieces s d = some chunks →
      calls start = [⟨.stores (.findById d.storeId), .ok (some store)⟩,
        ⟨.files (.create ⟨d.storeId, d.filename, d.attributes⟩), .ok file⟩] →
      requests start = [] → Stored w (past ++ start) s d file chunks work (.ok ()) →
      Silent rest → Course (start ++ work ++ rest) (.ok (completed file chunks.length))

/-- What is done about a file that was made: it is stored and completed, or marked as failed. -/
def finish (started : Instant) (file : StoredFile) (chunks : List Chunk) : Task δ StoredFile := do
  let stored : Task δ Unit := do
    embedAndStore s file chunks d.metadata
    Task.files (.updateStatus file.id ⟨.completed, some chunks.length, none⟩)
  match ← stored.outcome with
  | .error fault =>
    markFailed file.id fault
    throw fault
  | .ok () =>
    let ended ← Task.now
    Task.log .info "File ingested"
      [("fileId", .text file.id), ("vectorStoreId", .text d.storeId),
        ("chunks", .ofNat chunks.length), ("latency", Issue.ofInt (ended - started))]
    pure (completed file chunks.length)

theorem ingest_eq : (ingest s d : Task δ StoredFile) = (do
    let started ← Task.now
    requireStore d.storeId
    let chunks ← chunksOf s d
    let file ← Task.files (.create ⟨d.storeId, d.filename, d.attributes⟩)
    finish s d started file chunks) := rfl

theorem play_finish (started : Instant) (file : StoredFile) (chunks : List Chunk) :
    ∃ r work rest, Task.play w (finish s d started file chunks) past =
        (r, past ++ (work ++ rest)) ∧
      ((∃ cause raised, r = .error raised ∧ Stored w past s d file chunks work (.error cause) ∧
          Marked file.id cause rest raised) ∨
        r = .ok (completed file chunks.length) ∧ Stored w past s d file chunks work (.ok ()) ∧
          Silent rest) := by
  obtain ⟨r, work, hstore, hstored⟩ := play_stored w past s d file chunks
  unfold finish
  dsimp only
  rw [Task.play_bind_ok w past (Task.play_outcome w past _), hstore]
  cases r with
  | error cause =>
    obtain ⟨r, mark, hmark, hmarked⟩ := play_markFailed w (past ++ work) file.id cause
    refine ⟨.error (raisedBehind cause r), work, mark, ?_, .inl ⟨cause, _, rfl, hstored, hmarked⟩⟩
    rw [← List.append_assoc]
    cases r with
    | error raised => exact Task.play_bind_error w _ hmark
    | ok _ => exact Task.play_bind_ok w _ hmark
  | ok _ =>
    generalize hnow : w .now (past ++ work) = ended
    generalize hnote : (⟨.log ⟨.info, .text "File ingested", [("fileId", .text file.id),
      ("vectorStoreId", .text d.storeId), ("chunks", .ofNat chunks.length),
      ("latency", Issue.ofInt (ended - started))]⟩, ()⟩ : Event δ) = note
    refine ⟨.ok (completed file chunks.length), work, [⟨.now, ended⟩, note], ?_,
      .inr ⟨rfl, hstored, ?_⟩⟩
    · have hpast : past ++ (work ++ [⟨.now, ended⟩, note]) =
          past ++ work ++ [⟨.now, ended⟩] ++ [note] := by
        simp only [List.append_assoc, List.cons_append, List.nil_append]
      rw [hpast, ← hnote, ← hnow]
      rfl
    · rw [← hnote]
      exact ⟨rfl, rfl, rfl⟩

/-- From the making of the file on; before it, only the store was looked for. -/
theorem play_create {before : History δ} {store : VectorStore} {chunks : List Chunk}
    (started : Instant) (hpieces : pieces s d = some chunks)
    (hcalls : calls before = [⟨.stores (.findById d.storeId), .ok (some store)⟩])
    (hnone : requests before = []) :
    ∃ r new, Task.play w (do
        let file ← Task.files (.create ⟨d.storeId, d.filename, d.attributes⟩)
        finish s d started file chunks) (past ++ before) = (r, past ++ new) ∧
      Course w past s d new r := by
  generalize hr : w (.files (.create ⟨d.storeId, d.filename, d.attributes⟩)) (past ++ before) = r
  generalize hstart : before ++ [⟨.files (.create ⟨d.storeId, d.filename, d.attributes⟩), r⟩] =
    start
  have hcreate : Task.play w (Task.files (.create ⟨d.storeId, d.filename, d.attributes⟩))
      (past ++ before) = (r, past ++ start) := by
    rw [Task.play_files, hr, List.append_assoc, hstart]
  have startCalls : calls start = [⟨.stores (.findById d.storeId), .ok (some store)⟩,
      ⟨.files (.create ⟨d.storeId, d.filename, d.attributes⟩), r⟩] := by
    rw [← hstart, calls_append, hcalls]
    rfl
  have startNone : requests start = [] := by
    rw [← hstart, requests_append, hnone]
    rfl
  cases r with
  | error fault =>
    refine ⟨.error fault, start, ?_,
      .unmade _ _ (.refused start store fault startCalls startNone)⟩
    rw [Task.play_bind_error w _ hcreate]
  | ok file =>
    obtain ⟨r, work, rest, hplay, hcase⟩ := play_finish w (past ++ start) s d started file chunks
    refine ⟨r, start ++ (work ++ rest), ?_, ?_⟩
    · rw [Task.play_bind_ok w _ hcreate, ← List.append_assoc past]
      exact hplay
    · rw [← List.append_assoc start]
      rcases hcase with ⟨cause, raised, rfl, hstored, hmarked⟩ | ⟨rfl, hstored, hrest⟩
      · exact .failed start work rest store chunks file cause raised hpieces startCalls startNone
          hstored hmarked
      · exact .finished start work rest store chunks file hpieces startCalls startNone hstored hrest

/-- An ingestion takes one of the courses. -/
theorem play_ingest :
    ∃ r new, Task.play w (ingest s d) past = (r, past ++ new) ∧ Course w past s d new r := by
  rw [ingest_eq, Task.play_bind_ok w past (show Task.play w Task.now past =
    (.ok (w .now past), past ++ [⟨.now, w .now past⟩]) from rfl)]
  generalize w .now past = started
  have hlook := play_requireStore w (past ++ [⟨.now, started⟩]) d.storeId
  generalize w (.stores (.findById d.storeId)) (past ++ [⟨.now, started⟩]) = r at hlook
  generalize hasked : ([⟨.now, started⟩, ⟨.stores (.findById d.storeId), r⟩] : History δ) = asked
  have hpast :
      past ++ [⟨.now, started⟩] ++ [⟨.stores (.findById d.storeId), r⟩] = past ++ asked := by
    rw [← hasked, List.append_assoc]
    rfl
  have hcalls : calls asked = [⟨.stores (.findById d.storeId), r⟩] := by rw [← hasked]; rfl
  have hnone : requests asked = [] := by rw [← hasked]; rfl
  rw [hpast] at hlook
  rcases r with fault | _ | store
  · refine ⟨.error fault, asked, ?_, .unmade _ _ (.unfound asked _ fault rfl hcalls hnone)⟩
    rw [Task.play_bind_error w _ hlook]
  · refine ⟨.error storeMissing, asked, ?_, .unmade _ _ (.unfound asked _ _ rfl hcalls hnone)⟩
    rw [Task.play_bind_error w _ hlook]
  rw [Task.play_bind_ok w _ hlook]
  obtain ⟨r, looks, hsplit, hsilent, hpieces⟩ := play_chunksOf w (past ++ asked) s d
  have splitCalls : calls (asked ++ looks) =
      [⟨.stores (.findById d.storeId), .ok (some store)⟩] := by
    rw [calls_append, hcalls, hsilent.calls, List.append_nil]
  have splitNone : requests (asked ++ looks) = [] := by
    rw [requests_append, hnone, hsilent.requests, List.append_nil]
  rw [List.append_assoc] at hsplit
  cases r with
  | error fault =>
    refine ⟨.error fault, asked ++ looks, ?_,
      .unmade _ _ (.unsplit _ asked store fault ?_ splitCalls splitNone)⟩
    · rw [Task.play_bind_error w _ hsplit]
    · rw [hsplit]
  | ok chunks =>
    rw [Task.play_bind_ok w _ hsplit]
    exact play_create w past s d started (hpieces chunks rfl) splitCalls splitNone

/-- The tables once the file of a document is made. -/
theorem evolves_start {d : Document} {t t' : Relations δ} {store : VectorStore} {file : StoredFile}
    (h : t.Evolves [⟨.stores (.findById d.storeId), .ok (some store)⟩,
      ⟨.files (.create ⟨d.storeId, d.filename, d.attributes⟩), .ok file⟩] t') :
    ∃ id createdAt, id ∉ t.issued ∧
      file = NewFile.row ⟨d.storeId, d.filename, d.attributes⟩ id createdAt ∧
      t' = t.addFile file := by
  cases h with
  | cons hlook hrest =>
    obtain rfl := hlook.findStore
    cases hrest with
    | cons hcreate hend =>
      cases hend
      exact hcreate.createOk

end Ingestion
end Retrieval
