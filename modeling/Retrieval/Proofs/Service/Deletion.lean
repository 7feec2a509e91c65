import Retrieval.Proofs.Ingestion.Course

/-!
# What a deletion leaves

`deleteFile_leaves`: a file that was deleted is gone with its chunks, and nothing else is. A deletion
that fails changes nothing, unless it fails at one of its last two calls: the chunks are deleted
before the file, and nothing brings them back when the file cannot be deleted.
-/

namespace Retrieval

variable {δ : Type}

namespace Relations

def dropFile (t : Relations δ) (storeId id : String) : Relations δ :=
  (t.dropChunks id).dropFiles fun f => f.id == id && f.storeId == storeId

variable (t : Relations δ) (storeId id : String)

/-- The file is still there when its chunks are gone. -/
theorem file?_dropChunks : (t.dropChunks id).file? storeId id = t.file? storeId id := rfl

theorem stores_dropFile : (t.dropFile storeId id).stores = t.stores := rfl

theorem files_dropFile : (t.dropFile storeId id).files =
    t.files.filter fun f => !(f.id == id && f.storeId == storeId) := rfl

/-- No other chunks go with the file. -/
theorem chunks_dropFile :
    (t.dropFile storeId id).chunks = t.chunks.filter fun c => !(c.fileId == id) := by
  show (t.chunks.filter _).filter _ = _
  rw [List.filter_filter]
  refine List.filter_congr fun c _ => ?_
  cases hc : c.fileId == id with
  | true => rw [Bool.not_true, Bool.and_false]
  | false =>
    rw [Bool.not_false, Bool.and_true, Bool.not_eq_true', List.any_eq_false]
    intro f _ hgone
    simp only [Bool.and_eq_true, beq_iff_eq] at hgone
    rw [← hgone.2, hgone.1.1, beq_self_eq_true] at hc
    cases hc

end Relations

namespace Service

open History

/-! ## The course of a deletion -/

/-- The courses that a deletion can take, by its calls on the tables. -/
inductive Deletes (storeId id : String) : History δ → Except Fault String → Prop
  | storeless (r : Except Fault (Option VectorStore)) (raised : Fault) :
      Ingestion.looked r = .error raised →
      Deletes storeId id [⟨.stores (.findById storeId), r⟩] (.error raised)
  | fileless (store : VectorStore) (r : Except Fault (Option StoredFile)) (raised : Fault) :
      r = .ok none ∧ raised = Ingestion.fileMissing ∨ r = .error raised →
      Deletes storeId id [⟨.stores (.findById storeId), .ok (some store)⟩,
        ⟨.files (.findById storeId id), r⟩] (.error raised)
  | chunksKept (store : VectorStore) (file : StoredFile) (fault : Fault) :
      Deletes storeId id [⟨.stores (.findById storeId), .ok (some store)⟩,
        ⟨.files (.findById storeId id), .ok (some file)⟩,
        ⟨.chunks (.deleteByFile file.id), .error fault⟩] (.error fault)
  | fileKept (store : VectorStore) (file : StoredFile) (r : Except Fault Bool) (raised : Fault) :
      r = .ok false ∧ raised = Ingestion.fileMissing ∨ r = .error raised →
      Deletes storeId id [⟨.stores (.findById storeId), .ok (some store)⟩,
        ⟨.files (.findById storeId id), .ok (some file)⟩,
        ⟨.chunks (.deleteByFile file.id), .ok ()⟩,
        ⟨.files (.delete storeId file.id), r⟩] (.error raised)
  | deleted (store : VectorStore) (file : StoredFile) :
      Deletes storeId id [⟨.stores (.findById storeId), .ok (some store)⟩,
        ⟨.files (.findById storeId id), .ok (some file)⟩,
        ⟨.chunks (.deleteByFile file.id), .ok ()⟩,
        ⟨.files (.delete storeId file.id), .ok true⟩] (.ok file.id)

theorem play_deleteFile (w : Surroundings δ) (past : History δ) (storeId id : String) :
    ∃ r new, Task.play w (deleteFile storeId id) past = (r, past ++ new) ∧
      Deletes storeId id (calls new) r := by
  unfold deleteFile
  rw [Task.play_bind, Ingestion.play_requireStore]
  generalize w (.stores (.findById storeId)) past = r
  rcases r with fault | _ | store
  · exact ⟨_, _, rfl, .storeless _ _ rfl⟩
  · exact ⟨_, _, rfl, .storeless _ _ rfl⟩
  dsimp only [Ingestion.looked]
  rw [Task.play_bind, Task.play_files, List.append_assoc past]
  generalize w (.files (.findById storeId id)) _ = r
  rcases r with fault | _ | file
  · exact ⟨_, _, rfl, .fileless _ _ _ (.inr rfl)⟩
  · exact ⟨_, _, rfl, .fileless _ _ _ (.inl ⟨rfl, rfl⟩)⟩
  dsimp only
  rw [Task.play_bind, Task.play_chunks, List.append_assoc past]
  generalize w (.chunks (.deleteByFile file.id)) _ = r
  rcases r with fault | -
  · exact ⟨_, _, rfl, .chunksKept _ _ _⟩
  dsimp only
  rw [Task.play_bind, Task.play_files, List.append_assoc past]
  generalize w (.files (.delete storeId file.id)) _ = r
  rcases r with fault | _ | _
  · exact ⟨_, _, rfl, .fileKept _ _ _ _ (.inr rfl)⟩
  · exact ⟨_, _, rfl, .fileKept _ _ _ _ (.inl ⟨rfl, rfl⟩)⟩
  · exact ⟨_, _, congrArg (Prod.mk _) (List.append_assoc ..), .deleted store file⟩

/-! ## What it leaves -/

/-- The deletion was broken off at a call that has failed. -/
inductive Interrupted (t : Relations δ) (storeId id : String) (raised : Fault) :
    Event δ → Relations δ → Prop
  /-- the chunks were deleted and the file was not -/
  | fileKept : Interrupted t storeId id raised ⟨.files (.delete storeId id), .error raised⟩
      (t.dropChunks id)
  /-- both were, and the answer was lost -/
  | fileUnheard : Interrupted t storeId id raised ⟨.files (.delete storeId id), .error raised⟩
      (t.dropFile storeId id)
  /-- the chunks were, and the answer was lost -/
  | chunksUnheard : Interrupted t storeId id raised ⟨.chunks (.deleteByFile id), .error raised⟩
      (t.dropChunks id)

/-- What a deletion with these calls leaves. -/
inductive Aftermath (t : Relations δ) (storeId id : String) (asked : History δ) :
    Except Fault String → Relations δ → Prop
  | deleted : (t.file? storeId id).isSome = true →
      Aftermath t storeId id asked (.ok id) (t.dropFile storeId id)
  | untouched (raised : Fault) : Aftermath t storeId id asked (.error raised) t
  | interrupted (before : History δ) (last : Event δ) (raised : Fault) (t' : Relations δ) :
      asked = before ++ [last] → Interrupted t storeId id raised last t' →
      Aftermath t storeId id asked (.error raised) t'

variable {t t' : Relations δ} {storeId id : String} {asked : History δ}
  {r : Except Fault String}

/-- Both lookups find what is in the tables, and change nothing. -/
theorem evolves_found {store : VectorStore} {file : StoredFile} {rest : History δ}
    (h : t.Evolves (⟨.stores (.findById storeId), .ok (some store)⟩ ::
      ⟨.files (.findById storeId id), .ok (some file)⟩ :: rest) t') :
    t.hasStore storeId = true ∧ t.file? storeId id = some file ∧ file.id = id ∧
      t.Evolves rest t' := by
  cases h with
  | cons hlook hrest =>
    have hstore := hlook.findStoreOk.symm
    obtain rfl := hlook.findStore
    cases hrest with
    | cons hfind hrest =>
      have hfile := hfind.findFileOk.symm
      obtain rfl := hfind.findFile
      exact ⟨hstore, hfile, (Relations.file?_eq_some hfile).2.1, hrest⟩

/-- Behind them the chunks of the file are deleted. -/
theorem evolves_dropped {store : VectorStore} {file : StoredFile} {rest : History δ}
    (h : t.Evolves (⟨.stores (.findById storeId), .ok (some store)⟩ ::
      ⟨.files (.findById storeId id), .ok (some file)⟩ ::
      ⟨.chunks (.deleteByFile file.id), .ok ()⟩ :: rest) t') :
    t.file? storeId id = some file ∧ file.id = id ∧ (t.dropChunks id).Evolves rest t' := by
  obtain ⟨-, hfile, rfl, hrest⟩ := evolves_found h
  cases hrest with
  | cons hchunks hrest =>
    obtain rfl := hchunks.deleteChunksOk
    exact ⟨hfile, rfl, hrest⟩

/-- A file that was found is there to be deleted. -/
theorem permits_delete {file : StoredFile} {there : Bool} (hfile : t.file? storeId id = some file)
    (h : (t.dropChunks id).Permits (.files (.delete storeId id)) (.ok there) t') : there = true := by
  have hthere := h.deleteFileOk.1
  rwa [Relations.file?_dropChunks, hfile] at hthere

/-- The tables after a deletion, by the course it has taken. -/
theorem Deletes.aftermath (h : Deletes storeId id asked r) (hevolves : t.Evolves asked t') :
    Aftermath t storeId id asked r t' := by
  cases h with
  | storeless r raised hr =>
    obtain rfl := hevolves.single.findStore
    exact .untouched raised
  | fileless store r raised hr =>
    cases hevolves with
    | cons hlook hrest =>
      obtain rfl := hlook.findStore
      obtain rfl := hrest.single.findFile
      exact .untouched raised
  | chunksKept store file raised =>
    obtain ⟨-, -, rfl, hrest⟩ := evolves_found hevolves
    rcases hrest.single.deleteChunks with rfl | rfl
    · exact .untouched raised
    · exact .interrupted [_, _] _ raised _ rfl .chunksUnheard
  | fileKept store file r raised hr =>
    obtain ⟨hfile, rfl, hrest⟩ := evolves_dropped hevolves
    rcases hr with ⟨rfl, rfl⟩ | rfl
    · cases permits_delete hfile hrest.single
    · rcases hrest.single.deleteFile with rfl | rfl
      · exact .interrupted [_, _, _] _ raised _ rfl .fileKept
      · exact .interrupted [_, _, _] _ raised _ rfl .fileUnheard
  | deleted store file =>
    obtain ⟨hfile, rfl, hrest⟩ := evolves_dropped hevolves
    obtain ⟨-, rfl⟩ := hrest.single.deleteFileOk
    exact .deleted (by rw [hfile]; rfl)

/-- Where no call fails, a file that is there is deleted. -/
theorem Deletes.eq_ok_iff (h : Deletes storeId id asked r) (hevolves : t.Evolves asked t')
    (hanswered : ∀ event ∈ asked, ¬ event.1.Refused event.2) :
    r = .ok id ↔ t.hasStore storeId = true ∧ (t.file? storeId id).isSome = true := by
  cases h with
  | storeless r raised hr =>
    refine iff_of_false nofun fun ⟨hstore, _⟩ => ?_
    rcases r with fault | _ | store
    · exact hanswered _ List.mem_cons_self ⟨fault, rfl⟩
    · rw [← hevolves.single.findStoreOk] at hstore
      cases hstore
    · cases hr
  | fileless store r raised hr =>
    refine iff_of_false nofun fun ⟨_, hfile⟩ => ?_
    rcases hr with ⟨rfl, -⟩ | rfl
    · cases hevolves with
      | cons hlook hrest =>
        obtain rfl := hlook.findStore
        rw [← hrest.single.findFileOk] at hfile
        cases hfile
    · exact hanswered _ (List.mem_cons_of_mem _ List.mem_cons_self) ⟨raised, rfl⟩
  | chunksKept store file raised =>
    exact absurd ⟨raised, rfl⟩ (hanswered _ (List.mem_of_mem_getLast? rfl))
  | fileKept store file r raised hr =>
    rcases hr with ⟨rfl, rfl⟩ | rfl
    · obtain ⟨hfile, rfl, hrest⟩ := evolves_dropped hevolves
      cases permits_delete hfile hrest.single
    · exact absurd ⟨raised, rfl⟩ (hanswered _ (List.mem_of_mem_getLast? rfl))
  | deleted store file =>
    obtain ⟨hstore, hfile, rfl, -⟩ := evolves_found hevolves
    exact iff_of_true rfl ⟨hstore, by rw [hfile]; rfl⟩

/-- **What a deletion leaves.** If it has a result, exactly the file and the chunks with its
identifier are gone. If it fails, the tables are as they were, unless the call that has failed is the
deletion of the file, which comes after that of the chunks, or a deletion that was carried out and
whose answer was lost. Where no call fails, it has a result if the store and the file are there. -/
theorem deleteFile_leaves {w : Surroundings δ} {tables : History δ → Relations δ}
    (hw : w.Backed tables) (past : History δ) (storeId id : String) :
    ∃ r new, Task.play w (deleteFile storeId id) past = (r, past ++ new) ∧
      (∀ reply, r = .ok reply → reply = id ∧ ((tables past).file? storeId id).isSome = true ∧
        (tables (past ++ new)).stores = (tables past).stores ∧
        (tables (past ++ new)).files =
          ((tables past).files.filter fun f => !(f.id == id && f.storeId == storeId)) ∧
        (tables (past ++ new)).chunks = (tables past).chunks.filter fun c => !(c.fileId == id)) ∧
      (∀ raised, r = .error raised → tables (past ++ new) = tables past ∨
        ∃ before last, calls new = before ++ [last] ∧
          Interrupted (tables past) storeId id raised last (tables (past ++ new))) ∧
      ((∀ event ∈ calls new, ¬ event.1.Refused event.2) →
        (r = .ok id ↔
          (tables past).hasStore storeId = true ∧ ((tables past).file? storeId id).isSome = true)) := by
  obtain ⟨r, new, hplay, hcourse⟩ := play_deleteFile w past storeId id
  have hevolves := hw.evolves_calls hplay
  refine ⟨r, new, hplay, ?_, ?_, hcourse.eq_ok_iff hevolves⟩
  · rintro reply rfl
    generalize tables (past ++ new) = t' at hevolves ⊢
    cases hcourse.aftermath hevolves with
    | deleted hthere =>
      exact ⟨rfl, hthere, Relations.stores_dropFile _ _ _, Relations.files_dropFile _ _ _,
        Relations.chunks_dropFile _ _ _⟩
  · rintro raised rfl
    generalize tables (past ++ new) = t' at hevolves ⊢
    cases hcourse.aftermath hevolves with
    | untouched => exact .inl rfl
    | interrupted before last _ _ hlast hinterrupted => exact .inr ⟨before, last, hlast, hinterrupted⟩

/-! ## A store with two files -/

/-- Two files in a store, with one chunk each. -/
def paired : Relations Nat where
  stores := [⟨"s", "docs", .null, .zero, 0, 0⟩]
  files := [⟨"a", "s", "a.txt", .completed, 1, .null, none, 0⟩,
    ⟨"b", "s", "b.txt", .completed, 1, .null, none, 0⟩]
  chunks := [⟨"x", "a", "s", 0, #[97], 1, [1], none, 0⟩, ⟨"y", "b", "s", 0, #[98], 1, [2], none, 0⟩]
  issued := ["a", "b"]

/-- The world with these tables, in which some calls fail. -/
def pairing (refusal : Effect Nat → Option Fault) : Surroundings Nat :=
  Relations.served (fun _ => .ok []) refusal paired

def pairedTables (refusal : Effect Nat → Option Fault) : History Nat → Relations Nat :=
  Relations.servedTables (fun _ => .ok []) refusal paired

/-- The other file stays, and so does its chunk. -/
theorem deleteFile_leaves_paired :
    let w := pairing fun _ => none
    let tables := pairedTables fun _ => none
    w.Backed tables ∧ ∃ h, Task.play w (deleteFile "s" "a") [] = (.ok "a", h) ∧
      (tables h).files.map StoredFile.id = ["b"] ∧ (tables h).chunks.map FileChunk.id = ["y"] := by
  intro w tables
  have hbacked : w.Backed tables := Relations.served_backed _ _ paired
  obtain ⟨r, new, hplay, hdeleted, -, -⟩ := deleteFile_leaves hbacked [] "s" "a"
  have hrun : (Task.play w (deleteFile "s" "a") []).1 = .ok "a" := by rfl
  obtain rfl : r = .ok "a" := by rw [← hrun, hplay]
  obtain ⟨-, -, -, hfiles, hchunks⟩ := hdeleted "a" rfl
  refine ⟨hbacked, new, hplay, ?_, ?_⟩
  · rw [show tables new = tables ([] ++ new) from rfl, hfiles]
    rfl
  · rw [show tables new = tables ([] ++ new) from rfl, hchunks]
    rfl

def keeping (reason : Fault) : Effect Nat → Option Fault
  | .files (.delete ..) => some reason
  | _ => none

/-- The one call that fails is the deletion of the file. The file stays, and its chunk is gone. -/
theorem deleteFile_halfway :
    let w := pairing (keeping (.plain "boom"))
    let tables := pairedTables (keeping (.plain "boom"))
    w.Backed tables ∧ ∃ h, Task.play w (deleteFile "s" "a") [] = (.error (.plain "boom"), h) ∧
      (tables []).chunks.map FileChunk.id = ["x", "y"] ∧
      (tables h).files.map StoredFile.id = ["a", "b"] ∧
      (tables h).chunks.map FileChunk.id = ["y"] :=
  ⟨Relations.served_backed _ _ paired, _, rfl, rfl, rfl, rfl⟩

end Service
end Retrieval
