import Retrieval.Proofs.Ingestion.Course
import Retrieval.Proofs.Service.Consistency

/-!
# What an ingestion writes

`ingest_writes`: an ingestion that hands back a file has added that file, completed, and one row for
each chunk of its document, in order, with the vector of its text. Everything else is as it was.
-/

namespace Retrieval

variable {δ : Type}

/-- Whenever the provider answers, the vectors are those of `f`. -/
def Surroundings.Pointwise (w : Surroundings δ) (f : Text → List δ) : Prop :=
  ∀ texts model h vectors, w (.embed texts model) h = .ok vectors → vectors = texts.map f

namespace Surroundings

variable {w : Surroundings δ} {past new : History δ} {f : Text → List δ}

theorem Pointwise.answered (hf : w.Pointwise f) (h : w.Tells past new) :
    ∀ a ∈ History.answered new, a.2 = a.1.map f := by
  have each : ∀ event ∈ new, ∀ a, event.answered? = some a → a.2 = a.1.map f := by
    refine h.forall fun e h a ha => ?_
    cases e with
    | embed texts model =>
      cases hr : w (.embed texts model) h with
      | error fault => simp [Event.answered?, hr] at ha
      | ok vectors =>
        obtain rfl : (texts, vectors) = a := by simpa [Event.answered?, hr] using ha
        exact hf texts model h vectors hr
    | _ => cases ha
  intro a ha
  obtain ⟨event, hmem, hevent⟩ := List.mem_filterMap.mp ha
  exact each event hmem a hevent

end Surroundings

namespace Ingestion

open History Service

variable {w : Surroundings δ} {past : History δ} {s : Setup} {d : Document}
  {f : Text → List δ} {tables : History δ → Relations δ}

/-! ## Rows -/

/-- Answers for `f` make up the vectors of all their texts. -/
theorem flatten_of_pointwise {answers : Embedding.Answered δ}
    (h : ∀ a ∈ answers, a.2 = a.1.map f) :
    (answers.map Prod.snd).flatten = ((answers.map Prod.fst).flatten).map f := by
  induction answers with
  | nil => rfl
  | cons a rest ih =>
    have hrest := ih fun b hb => h b (List.mem_cons_of_mem a hb)
    rw [List.map_cons, List.flatten_cons, List.map_cons, List.flatten_cons, List.map_append,
      h a List.mem_cons_self, hrest]

/-- What a row says of its chunk. -/
def contents (c : FileChunk δ) :
    String × String × Nat × Text × Nat × List δ × Option Metadata :=
  (c.fileId, c.storeId, c.index, c.content, c.tokenCount, c.embedding, c.metadata)

theorem map_rows (file : StoredFile) (metadata : Option Metadata) (createdAt : Instant)
    {ids : List String} {chunks : List Chunk} (h : ids.length = chunks.length) :
    let rows := List.zipWith (row file metadata createdAt) ids
      (chunks.zip (chunks.map fun c => f c.text))
    rows.map FileChunk.id = ids ∧ rows.map contents = chunks.map fun c =>
      (file.id, file.storeId, c.index, c.text, c.tokenCount, f c.text, metadata) := by
  induction ids generalizing chunks with
  | nil =>
    cases chunks with
    | nil => exact ⟨rfl, rfl⟩
    | cons c chunks => cases h
  | cons id ids ih =>
    cases chunks with
    | nil => cases h
    | cons c chunks =>
      obtain ⟨hids, hcontents⟩ := ih (Nat.succ.inj h)
      exact ⟨congrArg (id :: ·) hids, congrArg (_ :: ·) hcontents⟩

theorem Filled.columns {file : StoredFile} {metadata : Option Metadata} {chunks : List Chunk}
    {work : History δ} {rows : List (FileChunk δ)} (h : Filled file metadata chunks work rows)
    (hf : ∀ a ∈ answered work, a.2 = a.1.map f) :
    rows.map FileChunk.id = freshIds work ∧ rows.map contents = chunks.map fun c =>
      (file.id, file.storeId, c.index, c.text, c.tokenCount, f c.text, metadata) := by
  obtain ⟨createdAt, vectors, hrows, hcount, -, hvectors, htexts⟩ := h
  have aligned : vectors = chunks.map fun c => f c.text := by
    rw [hvectors, flatten_of_pointwise hf, htexts, List.map_map]
    rfl
  rw [hrows, aligned]
  exact map_rows file metadata createdAt hcount

theorem rows_of_stored {file : StoredFile} {chunks : List Chunk} {work : History δ}
    {rows : List (FileChunk δ)}
    (h : chunks = [] ∧ requests work = [] ∧ rows = [] ∨
      chunks ≠ [] ∧ Filled file d.metadata chunks work rows)
    (hf : ∀ a ∈ answered work, a.2 = a.1.map f) (hids : (freshIds work).Nodup) :
    rows.map contents = chunks.map (fun c =>
      (file.id, file.storeId, c.index, c.text, c.tokenCount, f c.text, d.metadata)) ∧
      (rows.map FileChunk.id).Nodup := by
  rcases h with ⟨rfl, -, rfl⟩ | ⟨-, hfilled⟩
  · exact ⟨rfl, .nil⟩
  · obtain ⟨hid, hcontents⟩ := hfilled.columns hf
    rw [hid]
    exact ⟨hcontents, hids⟩

/-! ## Tables -/

/-- An update of a file that is new changes no other one. -/
theorem setStatus_addFile {t : Relations δ} {file : StoredFile} (u : StatusUpdate)
    (h : ∀ f ∈ t.files, f.id ≠ file.id) :
    ((t.addFile file).setStatus file.id u).files =
      t.files ++ [Relations.updated file.id u file] := by
  unfold Relations.addFile Relations.setStatus
  rw [List.map_append, Relations.map_updated_of_ne u h]
  rfl

theorem file?_last {t : Relations δ} {before : List StoredFile} {file : StoredFile}
    (h : t.files = before ++ [file]) (hnew : ∀ f ∈ before, f.id ≠ file.id) :
    t.file? file.storeId file.id = some file := by
  have none : before.find? (fun f => f.id == file.id && f.storeId == file.storeId) = none :=
    List.find?_eq_none.mpr fun f hf => by simp [hnew f hf]
  rw [Relations.file?, h, List.find?_append, none]
  simp

/-- The calls on a file that is stored: its rows are added, if it has any, and it is completed. -/
theorem evolves_stored {t t' : Relations δ} {file : StoredFile} {chunks : List Chunk}
    {start work : History δ} (hstored : Stored w start s d file chunks work (.ok ()))
    (h : t.Evolves work.calls t') :
    ∃ rows, t' = (t.addChunks rows).setStatus file.id ⟨.completed, some chunks.length, none⟩ ∧
      (chunks = [] ∧ requests work = [] ∧ rows = [] ∨
        chunks ≠ [] ∧ Filled file d.metadata chunks work rows) := by
  cases hstored with
  | saved rows _ hne hfilled hcalls =>
    rw [hcalls] at h
    cases h with
    | cons hsave hrest =>
      obtain rfl := hsave.saveOk
      cases hrest with
      | cons hupdate hend =>
        cases hend
        exact ⟨rows, hupdate.updateOk, .inr ⟨hne, hfilled⟩⟩
  | empty _ hempty hnone hcalls =>
    rw [hcalls] at h
    subst hempty
    cases h with
    | cons hupdate hend =>
      cases hend
      refine ⟨[], ?_, .inl ⟨rfl, hnone, rfl⟩⟩
      rw [hupdate.updateOk, Relations.addChunks, List.append_nil]
      rfl

/-- The tables after a file was made, filled and completed. -/
theorem tables_of_completed {t : Relations δ} {file : StoredFile} (rows : List (FileChunk δ))
    (n : Nat) (herror : file.error = none) (hnew : ∀ f ∈ t.files, f.id ≠ file.id) :
    let t' := ((t.addFile file).addChunks rows).setStatus file.id ⟨.completed, some n, none⟩
    t'.stores = t.stores ∧ t'.files = t.files ++ [completed file n] ∧
      t'.chunks = t.chunks ++ rows := by
  have done : Relations.updated file.id ⟨.completed, some n, none⟩ file = completed file n := by
    rw [Relations.updated_self]
    exact congrArg (fun e => { file with status := .completed, chunkCount := n, error := e }) herror
  refine ⟨rfl, ?_, rfl⟩
  rw [← done]
  exact setStatus_addFile _ hnew

theorem pieces_eq_some {chunks : List Chunk} (h : pieces s d = some chunks) :
    ∃ window, Window.resolve s.defaults d.chunkSize d.overlap = .ok window ∧
      chunks = split s.tokenizer window d.text := by
  unfold pieces at h
  split at h
  · next window hwindow => exact ⟨window, hwindow, (Option.some.inj h).symm⟩
  · cases h

/-! ## An ingestion that hands a file back -/

/-- **What a successful ingestion writes.** If an ingestion hands back a file, that file is the one
that was added: of the document's store and name, with its attributes, completed, with the number
of chunks of the document. One row was added for each chunk, in order, with the vector of its text
and an identifier of its own; the provider is not asked if there are none. All else is as it was,
and looking the file up brings it as it was handed back. -/
theorem ingest_writes (hw : w.Backed tables) (hids : w.Distinct) (hf : w.Pointwise f)
    (hregistered : (tables past).Registered) {file : StoredFile} {h : History δ}
    (hplay : Task.play w (ingest s d) past = (.ok file, h)) :
    ∃ new window, h = past ++ new ∧
      Window.resolve s.defaults d.chunkSize d.overlap = .ok window ∧
      let chunks := split s.tokenizer window d.text
      let t := tables past
      let t' := tables h
      (t'.stores = t.stores ∧ t'.files = t.files ++ [file] ∧ ∀ f ∈ t.files, f.id ≠ file.id) ∧
      (file.storeId = d.storeId ∧ file.filename = d.filename ∧
        file.attributes = Metadata.toValue d.attributes ∧ file.status = .completed ∧
        file.chunkCount = chunks.length ∧ file.error = none) ∧
      (∃ rows, t'.chunks = t.chunks ++ rows ∧
        rows.map contents = chunks.map (fun c =>
          (file.id, d.storeId, c.index, c.text, c.tokenCount, f c.text, d.metadata)) ∧
        chunks.map Chunk.index = List.range chunks.length ∧ (rows.map FileChunk.id).Nodup) ∧
      (chunks = [] → requests new = []) ∧
      t'.file? d.storeId file.id = some file ∧
      ∀ found, w (.files (.findById d.storeId file.id)) h = .ok found → found = some file := by
  obtain ⟨r, new, hplay', hcourse⟩ := play_ingest w past s d
  obtain ⟨rfl, rfl⟩ := Prod.mk.inj (hplay.symm.trans hplay')
  have htells := Task.tells_of_play hplay
  have hevolves := hw.evolves_calls hplay
  cases hcourse with
  | finished start work rest store chunks made hpieces hstart hnone hstored hsilent =>
    rw [calls_append, calls_append, hsilent.calls, List.append_nil, hstart] at hevolves
    obtain ⟨t₁, hmade, hwork⟩ := hevolves.append
    obtain ⟨id, createdAt, hid, hrow, rfl⟩ := evolves_start hmade
    obtain ⟨rows, ht', hrows⟩ := evolves_stored hstored hwork
    have hindex := map_index_of_pieces hpieces
    obtain ⟨window, hwindow, rfl⟩ := pieces_eq_some hpieces
    have hnew : ∀ f ∈ (tables past).files, f.id ≠ made.id := by
      rw [show made.id = id by rw [hrow]; rfl]
      exact hregistered.ne hid
    obtain ⟨hstores, hfiles, hchunks⟩ := tables_of_completed rows
      (split s.tokenizer window d.text).length (by rw [hrow]; rfl) hnew
    rw [← ht'] at hstores hfiles hchunks
    have hstore : made.storeId = d.storeId := by rw [hrow]; rfl
    -- the vectors and the identifiers of the rows are those that came up during the work alone
    have hcolumns : rows.map contents = (split s.tokenizer window d.text).map (fun c =>
        (made.id, d.storeId, c.index, c.text, c.tokenCount, f c.text, d.metadata)) ∧
        (rows.map FileChunk.id).Nodup := by
      have hanswers := hf.answered htells
      have hfresh := (hids.fresh htells).2
      rw [answered_append, answered_append] at hanswers
      rw [freshIds_append, freshIds_append] at hfresh
      rw [← hstore]
      exact rows_of_stored hrows
        (fun a ha => hanswers a (List.mem_append_left _ (List.mem_append_right _ ha)))
        (hfresh.of_append_left.of_append_right)
    have hfound : (tables (past ++ (start ++ work ++ rest))).file? d.storeId made.id =
        some (completed made (split s.tokenizer window d.text).length) := by
      rw [← hstore]
      exact file?_last hfiles hnew
    refine ⟨_, window, rfl, hwindow, ⟨hstores, hfiles, hnew⟩, ?_,
      ⟨rows, hchunks, hcolumns.1, hindex, hcolumns.2⟩, ?_, hfound, ?_⟩
    · rw [hrow]
      exact ⟨rfl, rfl, rfl, rfl, rfl, rfl⟩
    · intro hempty
      rcases hrows with ⟨-, hwork, -⟩ | ⟨hne, -⟩
      · rw [requests_append, requests_append, hnone, hwork, hsilent.requests]
        rfl
      · exact absurd hempty hne
    · intro found hanswer
      have hpermits := hw (.files (.findById d.storeId made.id)) (past ++ (start ++ work ++ rest))
      rw [show w (.files (.findById d.storeId made.id)) _ = .ok found from hanswer] at hpermits
      exact hpermits.findFileOk.trans hfound

/-- Windows of two code points, and a batch for each text. -/
def narrow : Setup := ⟨.codePoint, ⟨⟨1, 5, 1000, 2⟩, "m"⟩, ⟨2, 0⟩⟩

/-- A store with a file, and nothing else. -/
def oneFile : Relations Nat :=
  ⟨[⟨"s", "store", .null, .zero, 0, 0⟩], [⟨"x", "s", "a.txt", .completed, 0, .null, none, 0⟩], [],
    ["x"]⟩

/-- The length of a text and its first unit. -/
def spell (t : Text) : List Nat := [t.size, (t.getD 0 0).toNat]

/-- A world with these tables, whose provider spells, and with some refusals. -/
def spelling (refusal : Effect Nat → Option Fault) : Surroundings Nat :=
  Relations.served (fun texts => .ok (texts.map spell)) refusal oneFile

def spelled (refusal : Effect Nat → Option Fault) : History Nat → Relations Nat :=
  Relations.servedTables (fun texts => .ok (texts.map spell)) refusal oneFile

theorem spelling_backed (refusal : Effect Nat → Option Fault) :
    (spelling refusal).Backed (spelled refusal) := Relations.served_backed _ refusal oneFile

theorem spelled_registered (refusal : Effect Nat → Option Fault) :
    (spelled refusal []).Registered := by
  intro f hf
  obtain rfl := List.mem_singleton.mp hf
  exact List.mem_singleton_self _

def abc : Document := ⟨"s", "b.txt", #[97, 98, 99], none, none, none, none⟩

theorem ingest_writes_narrow :
    let w := spelling fun _ => none
    let tables := spelled fun _ => none
    (w.Backed tables ∧ w.Distinct ∧ w.Pointwise spell ∧ (tables []).Registered) ∧
    ∃ file h, Task.play w (ingest narrow abc) [] = (.ok file, h) ∧
      ((tables h).files = oneFile.files ++ [file] ∧ file.chunkCount = 2) ∧
      ∃ rows, (tables h).chunks = rows ∧ (rows.map FileChunk.id).Nodup ∧
        rows.map FileChunk.embedding = [[2, 97], [1, 99]] := by
  intro w tables
  have hbacked : w.Backed tables := spelling_backed _
  have hregistered : (tables []).Registered := spelled_registered _
  have hdistinct : w.Distinct := Relations.served_distinct _ _ oneFile
  have hpointwise : w.Pointwise spell := by
    rintro texts model h vectors hanswer
    exact (Except.ok.inj hanswer).symm
  refine ⟨⟨hbacked, hdistinct, hpointwise, hregistered⟩, ?_⟩
  have hcount : (Task.play w (ingest narrow abc) []).1.toOption.map StoredFile.chunkCount =
      some 2 := by decide +kernel
  have hvectors : (tables (Task.play w (ingest narrow abc) []).2).chunks.map
      FileChunk.embedding = [[2, 97], [1, 99]] := by decide +kernel
  generalize hplay : Task.play w (ingest narrow abc) [] = result at hcount hvectors
  obtain ⟨r, h⟩ := result
  cases r with
  | error fault => cases hcount
  | ok file =>
    obtain ⟨new, window, -, -, ⟨-, hfiles, -⟩, -, ⟨rows, hrows, -, -, hids⟩, -⟩ :=
      ingest_writes hbacked hdistinct hpointwise hregistered hplay
    refine ⟨file, h, rfl, ⟨hfiles, Option.some.inj hcount⟩, rows, hrows, hids, ?_⟩
    rw [hrows] at hvectors
    exact hvectors

end Ingestion
end Retrieval
