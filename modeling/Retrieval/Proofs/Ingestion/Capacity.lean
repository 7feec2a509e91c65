import Retrieval.Proofs.Ingestion.Residue
import Retrieval.Proofs.Store.Wording

/-!
# How many chunks can be stored

`ingest_capacity`: the chunks of a document are stored by one statement, which binds nine values for
each of them. So the statement fits the wire exactly if there are at most 7281 chunks. Up to that
number an ingestion does not notice that there is a limit, and beyond it no ingestion comes through.
-/

namespace Retrieval

variable {δ : Type}

namespace Database

/-! ## Values of a statement -/

/-- A statement can bind so many values: their number is sent in 16 bits. -/
def maxParams : Nat := 65535

def maxChunks : Nat := 7281

theorem valuesOf_chunkTuple (c : FileChunk Float) :
    Statement.valuesOf (chunkTuple c) = chunkValues c := rfl

/-- Nine for each chunk. -/
theorem length_params_insertChunks (chunks : List (FileChunk Float)) :
    (insertChunks chunks).params.length = 9 * chunks.length := by
  have tuples : (insertChunks chunks).params =
      (chunks.map chunkTuple).flatMap Statement.valuesOf := Statement.valuesOf_joined ", " _
  rw [tuples]
  clear tuples
  induction chunks with
  | nil => rfl
  | cons c rest ih =>
    rw [List.map_cons, List.flatMap_cons, List.length_append, ih, valuesOf_chunkTuple,
      chunkValues_length, List.length_cons]
    omega

theorem length_params_saveBatch (chunks : List (FileChunk Float)) :
    (chunkStatements (.saveBatch chunks)).map (fun s => s.params.length) =
      if chunks.isEmpty then [] else [9 * chunks.length] := by
  show (if chunks.isEmpty then [] else [insertChunks chunks]).map _ = _
  split
  · rfl
  · rw [List.map_singleton, length_params_insertChunks]

/-- The statements of a call can be sent. -/
def Fits (call : ChunkCall Float) : Prop :=
  ∀ s ∈ chunkStatements call, s.params.length ≤ maxParams

instance (call : ChunkCall Float) : Decidable (Fits call) := List.decidableBAll _ _

theorem fits_saveBatch {chunks : List (FileChunk Float)} :
    Fits (.saveBatch chunks) ↔ chunks.length ≤ maxChunks := by
  have hlength := length_params_insertChunks chunks
  unfold Fits chunkStatements maxParams maxChunks
  cases chunks with
  | nil => simp
  | cons c rest =>
    simp only [List.isEmpty_cons, Bool.false_eq_true, if_false, List.forall_mem_singleton, hlength]
    omega

end Database

/-- The world behind a wire that refuses statements with too many values. -/
def Surroundings.narrowed (w : Surroundings Float) (refusal : Fault) : Surroundings Float
  | .chunks call, h => if Database.Fits call then w (.chunks call) h else .error refusal
  | e, h => w e h

/-! ## Calls for chunks -/

def Effect.chunkCall? : Effect δ → Option (ChunkCall δ)
  | .chunks call => some call
  | _ => none

namespace History

def chunkCalls (h : History δ) : List (ChunkCall δ) := h.filterMap (·.1.chunkCall?)

theorem chunkCalls_append (h k : History δ) : chunkCalls (h ++ k) = chunkCalls h ++ chunkCalls k :=
  List.filterMap_append

theorem chunkCalls_calls (h : History δ) : chunkCalls (calls h) = chunkCalls h := by
  unfold chunkCalls calls
  rw [List.filterMap_filter]
  congr 1
  funext event
  obtain ⟨e, r⟩ := event
  cases e <;> rfl

end History

namespace Surroundings

variable {w : Surroundings Float} {refusal : Fault} {past new : History Float}

/-- Behind the wire a world answers as before, as long as no call is refused. -/
theorem narrowed_eq {e : Effect Float} (he : ∀ call, e.chunkCall? = some call → Database.Fits call)
    (h : History Float) : w.narrowed refusal e h = w e h := by
  cases e with
  | chunks call => exact if_pos (he call rfl)
  | _ => rfl

/-- A call that was answered was not refused. -/
theorem fits_of_narrowed {call : ChunkCall Float} {a : call.Answer} {h : History Float}
    (ha : w.narrowed refusal (.chunks call) h = .ok a) : Database.Fits call := by
  by_contra hfits
  rw [show w.narrowed refusal (.chunks call) h = .error refusal from if_neg hfits] at ha
  cases ha

theorem Tells.of_narrowed (h : (w.narrowed refusal).Tells past new)
    (hfits : ∀ call ∈ new.chunkCalls, Database.Fits call) : w.Tells past new := by
  refine h.congr fun event hmem k => (narrowed_eq (fun call hcall => hfits call ?_) k).symm
  exact List.mem_filterMap.mpr ⟨event, hmem, hcall⟩

end Surroundings

namespace Ingestion

open History Service

/-! ## What an ingestion stores -/

variable {w : Surroundings δ} {past new : History δ} {s : Setup} {d : Document}
  {file : StoredFile} {chunks : List Chunk}

/-- Rows are stored by one call or by none, and there is one for each chunk. -/
def Saves (chunks : List Chunk) (new : History δ) : Prop :=
  chunkCalls new = [] ∨ ∃ rows, chunkCalls new = [.saveBatch rows] ∧ rows.length = chunks.length

theorem Stored.saves {r : Except Fault Unit} (h : Stored w past s d file chunks new r) :
    Saves chunks new := by
  unfold Saves
  rw [← chunkCalls_calls new]
  cases h with
  | unembedded fault hworded hcalls hembed =>
    rw [hcalls]
    exact .inl rfl
  | unsaved rows fault hfilled hcalls =>
    rw [hcalls]
    exact .inr ⟨rows, rfl, hfilled.length_eq⟩
  | saved rows r hne hfilled hcalls =>
    rw [hcalls]
    exact .inr ⟨rows, rfl, hfilled.length_eq⟩
  | empty r hempty hnone hcalls =>
    rw [hcalls]
    exact .inl rfl

theorem Marked.chunkCalls_eq {id : String} {cause raised : Fault} (h : Marked id cause new raised) :
    chunkCalls new = [] := by
  rw [← chunkCalls_calls]
  cases h with
  | marked words r hwords hr hcalls => rw [hcalls]; rfl
  | textless _ hwords hcalls => rw [hcalls]; rfl
  | muted words second _ hwords hraised hcalls => rw [hcalls]; rfl

theorem Unmade.chunkCalls_eq {raised : Fault} (h : Unmade w past s d new raised) :
    chunkCalls new = [] := by
  rw [← chunkCalls_calls]
  cases h with
  | unfound _ r hlook hcalls hnone => rw [hcalls]; rfl
  | unsplit _ asked store hsplit hcalls hnone => rw [hcalls]; rfl
  | refused _ store hcalls hnone => rw [hcalls]; rfl

/-- Before the work on a file and after it, no chunks are called for. -/
theorem Saves.around {start work rest : History δ} (h : Saves chunks work)
    (hstart : chunkCalls start = []) (hrest : chunkCalls rest = []) :
    Saves chunks (start ++ work ++ rest) := by
  unfold Saves
  rw [chunkCalls_append, chunkCalls_append, hstart, hrest, List.nil_append, List.append_nil]
  exact h

theorem Course.saves {r : Except Fault StoredFile} (h : Course w past s d new r) :
    chunkCalls new = [] ∨ ∃ chunks, pieces s d = some chunks ∧ Saves chunks new := by
  cases h with
  | unmade _ _ hunmade => exact .inl hunmade.chunkCalls_eq
  | failed start work mark store chunks file cause _ hpieces hcalls hnone hstored hmarked =>
    refine .inr ⟨chunks, hpieces, hstored.saves.around ?_ hmarked.chunkCalls_eq⟩
    rw [← chunkCalls_calls, hcalls]
    rfl
  | finished start work rest store chunks file hpieces hcalls hnone hstored hsilent =>
    refine .inr ⟨chunks, hpieces, hstored.saves.around ?_ ?_⟩
    · rw [← chunkCalls_calls, hcalls]
      rfl
    · rw [← chunkCalls_calls, hsilent.calls]
      rfl

/-- The rows of an ingestion that comes through were stored. -/
theorem Course.saved {made : StoredFile} (h : Course w past s d new (.ok made)) :
    ∃ chunks, pieces s d = some chunks ∧ (chunks = [] ∨
      ∃ rows, rows.length = chunks.length ∧ (⟨.chunks (.saveBatch rows), .ok ()⟩ : Event δ) ∈ new) := by
  cases h with
  | finished start work rest store chunks file hpieces hcalls hnone hstored hsilent =>
    refine ⟨chunks, hpieces, ?_⟩
    cases hstored with
    | empty _ hempty => exact .inl hempty
    | saved rows _ hne hfilled hwork =>
      refine .inr ⟨rows, hfilled.length_eq, ?_⟩
      have hmem : (⟨.chunks (.saveBatch rows), .ok ()⟩ : Event δ) ∈ calls work := by
        rw [hwork]
        exact List.mem_cons_self
      exact List.mem_append_left _ (List.mem_append_right _ (List.mem_filter.mp hmem).1)

/-! ## Behind the wire -/

section

variable {w : Surroundings Float} {refusal : Fault} {past : History Float}

/-- A document of few chunks is ingested as if there were no limit. -/
theorem play_ingest_narrowed
    (hfew : ∀ chunks, pieces s d = some chunks → chunks.length ≤ Database.maxChunks) :
    Task.play (w.narrowed refusal) (ingest s d) past = Task.play w (ingest s d) past := by
  obtain ⟨r, new, hplay, hcourse⟩ := play_ingest (w.narrowed refusal) past s d
  have hfits : ∀ call ∈ chunkCalls new, Database.Fits call := by
    intro call hcall
    rcases hcourse.saves with hnone | ⟨chunks, hpieces, hnone | ⟨rows, hrows, hlength⟩⟩
    · rw [hnone] at hcall
      cases hcall
    · rw [hnone] at hcall
      cases hcall
    · rw [hrows] at hcall
      obtain rfl := List.mem_singleton.mp hcall
      rw [Database.fits_saveBatch, hlength]
      exact hfew chunks hpieces
  rw [hplay, Task.play_of_tells hplay ((Task.tells_of_play hplay).of_narrowed hfits)]

/-- Only a document of few chunks comes through. -/
theorem pieces_of_narrowed {made : StoredFile} {h : History Float}
    (hplay : Task.play (w.narrowed refusal) (ingest s d) past = (.ok made, h)) :
    ∃ chunks, pieces s d = some chunks ∧ chunks.length ≤ Database.maxChunks := by
  obtain ⟨r, new, hrun, hcourse⟩ := play_ingest (w.narrowed refusal) past s d
  obtain ⟨rfl, -⟩ := Prod.mk.inj (hplay.symm.trans hrun)
  obtain ⟨chunks, hpieces, rfl | ⟨rows, hlength, hmem⟩⟩ := hcourse.saved
  · exact ⟨[], hpieces, Nat.zero_le _⟩
  · -- the answer to storing the rows is the world's, so that they were not refused
    have answered := (Task.tells_of_play hrun).forall (P := fun event =>
      event = ⟨.chunks (.saveBatch rows), .ok ()⟩ → Database.Fits (.saveBatch rows))
      (fun e k hevent => by
        obtain ⟨rfl, hanswer⟩ := Sigma.mk.inj hevent
        exact Surroundings.fits_of_narrowed (eq_of_heq hanswer)) _ hmem rfl
    rw [Database.fits_saveBatch, hlength] at answered
    exact ⟨chunks, hpieces, answered⟩

end

/-- **How many chunks can be stored.** Storing chunks sends nothing if there are none, and else one
statement that binds nine values for each of them; it fits the wire if there are at most 7281. A
document of at most so many chunks is ingested as if there were no limit, and no other document
comes through. -/
theorem ingest_capacity :
    (∀ (db : Database.Backend) (chunks : List (FileChunk Float)),
      ((Database.Call.chunks (.saveBatch chunks)).sent db).map (fun s => s.params.length) =
        (if chunks.isEmpty then [] else [9 * chunks.length]) ∧
      ((∀ s ∈ (Database.Call.chunks (.saveBatch chunks)).sent db, s.params.length ≤ 65535) ↔
        chunks.length ≤ 7281)) ∧
    ∀ (w : Surroundings Float) (refusal : Fault) (past : History Float) (s : Setup) (d : Document),
      ((∀ chunks, pieces s d = some chunks → chunks.length ≤ 7281) →
        Task.play (w.narrowed refusal) (ingest s d) past = Task.play w (ingest s d) past) ∧
      ∀ made h, Task.play (w.narrowed refusal) (ingest s d) past = (.ok made, h) →
        ∃ chunks, pieces s d = some chunks ∧ chunks.length ≤ 7281 := by
  refine ⟨fun db chunks => ⟨?_, ?_⟩, fun w refusal past s d => ⟨play_ingest_narrowed, ?_⟩⟩
  · rw [Database.sent_chunks]
    exact Database.length_params_saveBatch chunks
  · rw [Database.sent_chunks]
    exact Database.fits_saveBatch
  · intro made h hplay
    exact pieces_of_narrowed hplay

/-- A world of doubles with an empty store, in which nothing fails. -/
def shelving : Surroundings Float :=
  Relations.served (fun texts => .ok (texts.map fun _ => [1])) (fun _ => none)
    ⟨[⟨"s", "store", .null, .zero, 0, 0⟩], [], [], []⟩

/-- Two chunks pass through the wire. -/
theorem ingest_capacity_narrow :
    (∀ chunks, pieces narrow abc = some chunks → chunks.length ≤ 7281) ∧
      ∃ made h, Task.play (shelving.narrowed (.plain "too long")) (ingest narrow abc) [] =
          (.ok made, h) ∧ made.chunkCount = 2 ∧
        ∃ chunks, pieces narrow abc = some chunks ∧ chunks.length ≤ 7281 := by
  have hlength : (pieces narrow abc).map List.length = some 2 := by decide +kernel
  have hfew : ∀ chunks, pieces narrow abc = some chunks → chunks.length ≤ 7281 := by
    intro chunks hchunks
    rw [hchunks] at hlength
    rw [show chunks.length = 2 from Option.some.inj hlength]
    decide
  have hcount : (Task.play shelving (ingest narrow abc) []).1.toOption.map StoredFile.chunkCount =
      some 2 := by decide +kernel
  obtain ⟨hsame, hthrough⟩ := ingest_capacity.2 shelving (.plain "too long") [] narrow abc
  rw [← hsame hfew] at hcount
  refine ⟨hfew, ?_⟩
  generalize hplay : Task.play (shelving.narrowed (.plain "too long")) (ingest narrow abc) [] =
    result at hcount
  obtain ⟨r, h⟩ := result
  cases r with
  | error fault => cases hcount
  | ok made => exact ⟨made, h, rfl, Option.some.inj hcount, hthrough made h hplay⟩

/-- One chunk more, and the statement is too long. -/
theorem saveBatch_overflow :
    ∃ (db : Database.Backend) (chunks : List (FileChunk Float)), chunks.length = 7282 ∧
      ∃ s ∈ (Database.Call.chunks (.saveBatch chunks)).sent db,
        s.params.length = 65538 ∧ Database.maxParams < s.params.length := by
  refine ⟨fun _ _ => .ok [], .replicate 7282 Database.Shape.chunk, List.length_replicate,
    Database.insertChunks (.replicate 7282 Database.Shape.chunk), ?_, ?_⟩
  · rw [Database.sent_chunks]
    exact List.mem_singleton_self _
  · rw [Database.length_params_insertChunks, List.length_replicate]
    decide

end Ingestion
end Retrieval
