import Retrieval.Proofs.Ingestion.Failures
import Retrieval.Proofs.Store.Nearest

/-!
# What a failed ingestion leaves among the chunks

`ingest_leaves`: rows of a file whose ingestion has failed are there only if they were stored before
something failed, so only if the file could not be completed or the answer to storing them was lost.
Nobody takes them back: the file is marked as failed, and lookups go on to deliver its chunks.
-/

namespace Retrieval

variable {δ : Type}

/-! ## The chunks as a lookup reads them -/

def FileChunk.row (c : FileChunk δ) : ChunkRow δ :=
  ⟨c.id, c.fileId, c.storeId, c.index, c.content, some c.embedding, c.metadata⟩

namespace Relations

/-- Chunks belong to files that are there. -/
def Keyed (t : Relations δ) : Prop := ∀ c ∈ t.chunks, t.hasFile c.fileId = true

/-- The chunks with the names of their files. -/
def chunkTable (t : Relations δ) : ChunkTable δ :=
  ⟨t.chunks.map FileChunk.row, fun id => (t.files.find? (·.id == id)).map StoredFile.filename⟩

variable {t : Relations δ} {id : String} [LE δ] [DecidableLE δ] {metric : List δ → List δ → δ}
  {q : NeighborQuery δ} {answer : List (Candidate δ)}

omit [LE δ] [DecidableLE δ] in
theorem Keyed.chunksOf_eq_nil (h : t.Keyed) (hnew : ∀ f ∈ t.files, f.id ≠ id) :
    t.chunksOf id = [] := by
  refine List.filter_eq_nil_iff.mpr fun c hc hid => ?_
  obtain ⟨f, hf, hfile⟩ := List.any_eq_true.mp (h c hc)
  exact hnew f hf ((beq_iff_eq.mp hfile).trans (beq_iff_eq.mp hid))

/-- Every candidate comes from a chunk. -/
theorem delivers_from (h : Database.Delivers metric t.chunkTable q answer) {c : Candidate δ}
    (hc : c ∈ answer) : ∃ row ∈ t.chunksOf c.fileId, c.chunkId = row.id := by
  obtain ⟨ranked, hranking, rfl⟩ := h
  obtain ⟨row, hrow, rfl⟩ := List.mem_map.mp hc
  have hselected := hranking.1.mem_iff.mp (List.mem_of_mem_take hrow)
  obtain ⟨chunk, hchunk, rfl⟩ := List.mem_map.mp (List.mem_filter.mp hselected).1
  exact ⟨chunk, List.mem_filter.mpr ⟨hchunk, beq_self_eq_true _⟩, rfl⟩

/-- A lookup that asks for everything in a store delivers each of its chunks. -/
theorem delivers_all (h : Database.Delivers metric t.chunkTable q answer)
    (hfilter : q.filter = none) (hwithin : q.maxDistance = none)
    (hlimit : t.chunks.length ≤ q.limit) {row : FileChunk δ} (hrow : row ∈ t.chunks)
    (hstore : row.storeId = q.storeId) :
    ∃ c ∈ answer, c.fileId = row.fileId ∧ c.chunkId = row.id := by
  obtain ⟨ranked, ⟨hperm, -⟩, rfl⟩ := h
  have holds : (Database.Condition.of q).all
      (Database.Condition.holds metric q.vector row.row) = true := by
    rw [Database.all_conditions, hfilter, hwithin, show row.row.storeId = q.storeId from hstore]
    simp [FileChunk.row]
  have hselected : row.row ∈ Database.selected metric t.chunkTable q :=
    List.mem_filter.mpr ⟨List.mem_map_of_mem hrow, holds⟩
  have whole : ranked.take q.limit = ranked := by
    refine List.take_of_length_le ?_
    calc ranked.length = (Database.selected metric t.chunkTable q).length := hperm.length_eq
      _ ≤ (t.chunks.map FileChunk.row).length := List.length_filter_le _ _
      _ = t.chunks.length := List.length_map _
      _ ≤ q.limit := hlimit
  rw [whole]
  exact ⟨_, List.mem_map_of_mem (hperm.mem_iff.mpr hselected), rfl, rfl⟩

end Relations

namespace Ingestion

open History Service

variable {w : Surroundings δ} {past : History δ} {s : Setup} {d : Document} {file : StoredFile}
  {chunks : List Chunk} {new : History δ}

/-! ## Rows that stay -/

theorem Filled.storeId {metadata : Option Metadata} {rows : List (FileChunk δ)}
    (h : Filled file metadata chunks new rows) : ∀ c ∈ rows, c.storeId = file.storeId := by
  obtain ⟨createdAt, vectors, rfl, -⟩ := h
  intro c hc
  obtain ⟨i, hi, rfl⟩ := List.mem_iff_getElem.mp hc
  rw [List.getElem_zipWith]
  rfl

theorem Filled.length_eq {metadata : Option Metadata} {rows : List (FileChunk δ)}
    (h : Filled file metadata chunks new rows) : rows.length = chunks.length := by
  obtain ⟨createdAt, vectors, rfl, hids, hvectors, -⟩ := h
  rw [List.length_zipWith, List.length_zip, hids, hvectors, Nat.min_self, Nat.min_self]

/-- The rows that stay, by the calls between the making of a file and its marking. -/
inductive Residue (id : String) : History δ → List (FileChunk δ) → Prop
  | unembedded : Residue id [] []
  | unsaved (rows : List (FileChunk δ)) (fault : Fault) :
      Residue id [⟨.chunks (.saveBatch rows), .error fault⟩] []
  /-- the rows were stored, and the answer was lost -/
  | unheard (rows : List (FileChunk δ)) (fault : Fault) :
      Residue id [⟨.chunks (.saveBatch rows), .error fault⟩] rows
  | uncompleted (rows : List (FileChunk δ)) (n : Nat) (fault : Fault) : rows ≠ [] →
      Residue id [⟨.chunks (.saveBatch rows), .ok ()⟩, ⟨completion id n, .error fault⟩] rows
  | empty (fault : Fault) : Residue id [⟨completion id 0, .error fault⟩] []

/-- These rows are added to the chunks; they belong to the file, and there is one for each of its
chunks if there are any. -/
structure Leaves (t t' : Relations δ) (file : StoredFile) (chunks : List Chunk)
    (left : List (FileChunk δ)) : Prop where
  added : t'.chunks = t.chunks ++ left
  ofFile : ∀ c ∈ left, c.fileId = file.id
  ofStore : ∀ c ∈ left, c.storeId = file.storeId
  whole : left = [] ∨ left.length = chunks.length

theorem Leaves.nothing {t t' : Relations δ} (h : t'.chunks = t.chunks) :
    Leaves t t' file chunks [] where
  added := h.trans (List.append_nil _).symm
  ofFile := nofun
  ofStore := nofun
  whole := .inl rfl

theorem Leaves.rows {t t' : Relations δ} {metadata : Option Metadata} {rows : List (FileChunk δ)}
    (hfilled : Filled file metadata chunks new rows) (h : t'.chunks = t.chunks ++ rows) :
    Leaves t t' file chunks rows where
  added := h
  ofFile := hfilled.fileId
  ofStore := hfilled.storeId
  whole := .inr hfilled.length_eq

/-- Updates of files leave the chunks alone. -/
theorem chunks_of_update {t t' : Relations δ} {id : String} {u : StatusUpdate}
    {r : Except Fault Unit} (h : t.Permits (.files (.updateStatus id u)) r t') :
    t'.chunks = t.chunks := by
  rcases h.update with rfl | rfl <;> rfl

/-- What the work on a file leaves when it fails. -/
theorem Stored.leaves {t t' : Relations δ} {cause : Fault}
    (h : Stored w past s d file chunks new (.error cause)) (hevolves : t.Evolves (calls new) t') :
    ∃ left, Residue file.id (calls new) left ∧ Leaves t t' file chunks left := by
  cases h with
  | unembedded _ hworded hcalls hembed =>
    rw [hcalls] at hevolves ⊢
    cases hevolves
    exact ⟨[], .unembedded, .nothing rfl⟩
  | unsaved rows _ hfilled hcalls =>
    rw [hcalls] at hevolves ⊢
    cases hevolves with
    | cons hsave hend =>
      cases hend
      rcases hsave.save with rfl | rfl
      · exact ⟨[], .unsaved rows cause, .nothing rfl⟩
      · exact ⟨rows, .unheard rows cause, .rows hfilled rfl⟩
  | saved rows _ hne hfilled hcalls =>
    rw [hcalls] at hevolves ⊢
    have hrows : rows ≠ [] := by
      rintro rfl
      exact hne (List.eq_nil_of_length_eq_zero hfilled.length_eq.symm)
    cases hevolves with
    | cons hsave hrest =>
      obtain rfl := hsave.saveOk
      cases hrest with
      | cons hupdate hend =>
        cases hend
        exact ⟨rows, .uncompleted rows _ cause hrows, .rows hfilled (chunks_of_update hupdate)⟩
  | empty _ hempty hnone hcalls =>
    rw [hcalls] at hevolves ⊢
    cases hevolves with
    | cons hupdate hend =>
      cases hend
      exact ⟨[], .empty cause, .nothing (chunks_of_update hupdate)⟩

/-- A file is marked by one call or not at all, which leaves the chunks alone. -/
theorem Marked.chunks_eq {t t' : Relations δ} {id : String} {cause raised : Fault}
    (h : Marked id cause new raised) (hevolves : t.Evolves (calls new) t') :
    (calls new = [] ∨ ∃ words r, calls new = [⟨marking id words, r⟩]) ∧ t'.chunks = t.chunks := by
  have one {words : String} {r : Except Fault Unit} (hcalls : calls new = [⟨marking id words, r⟩]) :
      (calls new = [] ∨ ∃ words r, calls new = [⟨marking id words, r⟩]) ∧
        t'.chunks = t.chunks := by
    rw [hcalls] at hevolves ⊢
    cases hevolves with
    | cons hupdate hend =>
      cases hend
      exact ⟨.inr ⟨words, r, rfl⟩, chunks_of_update hupdate⟩
  cases h with
  | marked words r hwords hr hcalls => exact one hcalls
  | textless _ hwords hcalls =>
    rw [hcalls] at hevolves ⊢
    cases hevolves
    exact ⟨.inl rfl, rfl⟩
  | muted words second _ hwords hraised hcalls => exact one hcalls

/-- Before a file is made, no chunks are touched. -/
theorem Unmade.chunks_eq {t t' : Relations δ} {raised : Fault}
    (h : Unmade w past s d new raised) (hevolves : t.Evolves (calls new) t') :
    t'.chunks = t.chunks := by
  have looked {r : Except Fault (Option VectorStore)}
      (hcalls : calls new = [⟨.stores (.findById d.storeId), r⟩]) : t'.chunks = t.chunks := by
    rw [hcalls] at hevolves
    cases hevolves with
    | cons hlook hend =>
      cases hend
      rw [hlook.findStore]
  cases h with
  | unfound _ r hlook hcalls hnone => exact looked hcalls
  | unsplit _ asked store hsplit hcalls hnone => exact looked hcalls
  | refused _ store hcalls hnone =>
    rw [hcalls] at hevolves
    cases hevolves with
    | cons hlook hrest =>
      obtain rfl := hlook.findStore
      cases hrest with
      | cons hcreate hend =>
        cases hend
        rcases hcreate.create with rfl | ⟨id, createdAt, -, rfl⟩ <;> rfl

/-! ## A file that has failed -/

/-- What lookups deliver of a file: the rows that were left, and all of them when they ask for
everything in its store. -/
def Searchable (t : Relations δ) (storeId fileId : String) (left : List (FileChunk δ)) : Prop :=
  ∀ [LE δ] [DecidableLE δ] (metric : List δ → List δ → δ) (q : NeighborQuery δ)
    (answer : List (Candidate δ)), Database.Delivers metric t.chunkTable q answer →
    (∀ c ∈ answer, c.fileId = fileId → ∃ row ∈ left, c.chunkId = row.id) ∧
    (q.storeId = storeId → q.filter = none → q.maxDistance = none → t.chunks.length ≤ q.limit →
      ∀ row ∈ left, ∃ c ∈ answer, c.fileId = fileId ∧ c.chunkId = row.id)

theorem Leaves.searchable {t t' : Relations δ} {left : List (FileChunk δ)}
    (h : Leaves t t' file chunks left) (hown : t'.chunksOf file.id = left) :
    Searchable t' file.storeId file.id left := by
  intro _ _ metric q answer hdelivers
  refine ⟨fun c hc hfile => ?_, fun hstore hfilter hwithin hlimit row hrow => ?_⟩
  · rw [← hown, ← hfile]
    exact Relations.delivers_from hdelivers hc
  · have hmem : row ∈ t'.chunks := by
      rw [h.added]
      exact List.mem_append_right _ hrow
    rw [← h.ofFile row hrow]
    exact Relations.delivers_all hdelivers hfilter hwithin hlimit hmem
      ((h.ofStore row hrow).trans hstore.symm)

theorem Leaves.chunksOf_eq {t t' : Relations δ} {left : List (FileChunk δ)}
    (h : Leaves t t' file chunks left) (hnone : t.chunksOf file.id = []) :
    t'.chunksOf file.id = left := by
  have own : left.filter (·.fileId == file.id) = left :=
    List.filter_eq_self.mpr fun c hc => beq_iff_eq.mpr (h.ofFile c hc)
  show t'.chunks.filter (·.fileId == file.id) = left
  rw [h.added, List.filter_append, own, show t.chunks.filter (·.fileId == file.id) = [] from hnone,
    List.nil_append]

/-- **What a failed ingestion leaves among the chunks.** Nothing, if it has failed before its file
was made. Otherwise there are chunks of the file exactly if its rows were stored before something
failed: nothing is left where the texts were not embedded, where the rows were refused, and where
there are none; all rows are left where the file could not be completed, and where the answer to
storing them was lost. Marking the file as failed takes none of them back, and lookups deliver what
is left. -/
theorem ingest_leaves {tables : History δ → Relations δ} (hw : w.Backed tables)
    (hregistered : (tables past).Registered) (hkeyed : (tables past).Keyed) {raised : Fault}
    {h : History δ} (hplay : Task.play w (ingest s d) past = (.error raised, h)) :
    ∃ new, h = past ++ new ∧
      (Unmade w past s d new raised ∧ (tables h).chunks = (tables past).chunks ∨
        ∃ store file chunks work mark left, pieces s d = some chunks ∧
          calls new = [⟨.stores (.findById d.storeId), .ok (some store)⟩,
            ⟨.files (.create ⟨d.storeId, d.filename, d.attributes⟩), .ok file⟩] ++ work ++ mark ∧
          (mark = [] ∨ ∃ words r, mark = [⟨marking file.id words, r⟩]) ∧
          (∀ words, ⟨marking file.id words, .ok ()⟩ ∈ mark →
            ∃ f ∈ (tables h).files, f.id = file.id ∧ f.status = .failed ∧ f.error = some words) ∧
          Residue file.id work left ∧ (left = [] ∨ left.length = chunks.length) ∧
          (tables h).chunks = (tables past).chunks ++ left ∧
          (tables h).chunksOf file.id = left ∧
          Searchable (tables h) d.storeId file.id left) := by
  obtain ⟨r, new, hplay', hcourse⟩ := play_ingest w past s d
  obtain ⟨rfl, rfl⟩ := Prod.mk.inj (hplay.symm.trans hplay')
  have hevolves := hw.evolves_calls hplay
  refine ⟨new, rfl, ?_⟩
  cases hcourse with
  | unmade _ _ hunmade => exact .inl ⟨hunmade, hunmade.chunks_eq hevolves⟩
  | failed start work mark store chunks file cause _ hpieces hcalls hnone hstored hmarked =>
    rw [calls_append, calls_append, hcalls] at hevolves ⊢
    obtain ⟨t₁, hmade, hmark⟩ := hevolves.append
    obtain ⟨hnew, own, hone, hgained⟩ :=
      gained_of_made hregistered (fun event h => (hstored.concerns event h).1) hmade
    obtain ⟨own', hlength, hgained', hmarks⟩ := gained_of_marked hgained hnew hmarked hmark
    obtain ⟨t₀, hstart, hwork⟩ := hmade.append
    obtain ⟨id, createdAt, -, hrow, rfl⟩ := evolves_start hstart
    obtain ⟨left, hresidue, hleaves⟩ := hstored.leaves hwork
    obtain ⟨hone', hkept⟩ := hmarked.chunks_eq hmark
    -- neither making the file nor marking it changes the chunks
    have hleft : Leaves (tables past) (tables (past ++ (start ++ work ++ mark))) file chunks left :=
      ⟨hkept.trans hleaves.added, hleaves.ofFile, hleaves.ofStore, hleaves.whole⟩
    have hown := hleft.chunksOf_eq (hkeyed.chunksOf_eq_nil hnew)
    refine .inr ⟨store, file, chunks, calls work, calls mark, left, hpieces, rfl, hone',
      fun words hmem => ?_, hresidue, hleft.whole, hleft.added, hown, ?_⟩
    · obtain ⟨row, rfl⟩ := List.length_eq_one_iff.mp (hlength.trans hone)
      refine ⟨row, ?_, hgained'.owned row List.mem_cons_self,
        (hmarks file.id words hmem).2 row List.mem_cons_self⟩
      rw [hgained'.files]
      exact List.mem_append_right _ List.mem_cons_self
    · rw [show d.storeId = file.storeId by rw [hrow]; rfl]
      exact hleft.searchable hown

/-- The rows of a document are refused, and nothing of it is found. -/
theorem ingest_leaves_full :
    let w := spelling (refusals (.plain "disk full") none)
    let tables := spelled (refusals (.plain "disk full") none)
    (w.Backed tables ∧ (tables []).Registered ∧ (tables []).Keyed) ∧
    ∃ raised h file, Task.play w (ingest narrow abc) [] = (.error raised, h) ∧
      (⟨.files (.create ⟨"s", "b.txt", none⟩), .ok file⟩ : Event Nat) ∈ calls h ∧
      (tables h).files.map StoredFile.status = [.completed, .failed] ∧
      (tables h).chunksOf file.id = [] ∧ Searchable (tables h) "s" file.id [] := by
  intro w tables
  have hbacked : w.Backed tables := spelling_backed _
  have hregistered : (tables []).Registered := spelled_registered _
  have hkeyed : (tables []).Keyed := nofun
  refine ⟨⟨hbacked, hregistered, hkeyed⟩, ?_⟩
  have hfails : (Task.play w (ingest narrow abc) []).1.isOk = false := by decide +kernel
  have hfour : (calls (Task.play w (ingest narrow abc) []).2).length = 4 := by decide +kernel
  have hstatus : (tables (Task.play w (ingest narrow abc) []).2).files.map StoredFile.status =
      [.completed, .failed] := by decide +kernel
  have hempty : (tables (Task.play w (ingest narrow abc) []).2).chunks.length = 0 := by
    decide +kernel
  generalize hplay : Task.play w (ingest narrow abc) [] = result at hfails hfour hstatus hempty
  obtain ⟨r, h⟩ := result
  cases r with
  | ok file => cases hfails
  | error raised =>
    obtain ⟨new, hnew, hcase⟩ := ingest_leaves hbacked hregistered hkeyed hplay
    obtain rfl : h = new := hnew.trans (List.nil_append new)
    rcases hcase with ⟨hunmade, -⟩ |
      ⟨store, file, chunks, work, mark, left, -, hcalls, -, -, -, -, hadded, hown, hfound⟩
    · have fewer : 4 ≤ 2 := Nat.le_trans (Nat.le_of_eq hfour.symm) hunmade.length_le
      exact absurd fewer (by decide)
    · have hleft : left = [] := by
        rw [hadded] at hempty
        exact (List.append_eq_nil_iff.mp (List.eq_nil_of_length_eq_zero hempty)).2
      subst hleft
      refine ⟨raised, h, file, rfl, ?_, hstatus, hown, hfound⟩
      rw [hcalls, List.append_assoc]
      exact List.mem_append_left _ (List.mem_cons_of_mem _ List.mem_cons_self)

def uncompleting (reason : Fault) : Effect Nat → Option Fault
  | .files (.updateStatus _ ⟨.completed, _, _⟩) => some reason
  | _ => none

/-- Where a file cannot be completed, it is marked as failed with its chunks in place, and a lookup
delivers them. -/
theorem ingest_leaves_behind :
    let w := spelling (uncompleting (.plain "boom"))
    let tables := spelled (uncompleting (.plain "boom"))
    let h := (Task.play w (ingest narrow abc) []).2
    (Task.play w (ingest narrow abc) []).1.isOk = false ∧
    (tables h).files.map (fun f => (f.id, f.status, f.error)) =
      [("x", .completed, none), ("xx", .failed, some "boom")] ∧
    ((tables h).chunksOf "xx").length = 2 ∧
    ∃ answer, Database.Delivers (fun _ _ => 0) (tables h).chunkTable
        ⟨"s", [], 10, none, none⟩ answer ∧
      answer.map Candidate.fileId = ["xx", "xx"] := by
  intro w tables h
  refine ⟨by decide +kernel, by decide +kernel, by decide +kernel, _, ⟨_, ⟨.refl _, ?_⟩, rfl⟩, ?_⟩
  · exact List.pairwise_of_forall fun _ _ => Nat.le_refl 0
  · decide +kernel

end Ingestion
end Retrieval
