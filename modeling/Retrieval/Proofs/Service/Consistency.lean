import Retrieval.Proofs.Service.Executions

/-!
# The tables when nothing is under way

`Reachable.consistent`: however requests to make and delete stores and to ingest and delete files
were interleaved, and whatever failed in between, once none of them is under way every file is
either completed with all its chunks or failed with none, every chunk belongs to a file of its
store, no file was deleted twice, and no file is missing that nobody has asked to be deleted.
-/

namespace Retrieval.Service

open Ingestion (Setup)

variable {δ : Type} {s : Setup} {σ : State δ}

/-- How the ingestion of a file has ended, and what it has left. -/
inductive Settled (s : Setup) (σ : State δ) (f : StoredFile) : Prop
  | completed (i : Nat) (d : Document) (reply : StoredFile) (chunks : List Chunk) :
      σ.executions[i]? = some ⟨.ingest d, .done (.ok (.file reply))⟩ → reply.id = f.id →
      f.storeId = d.storeId → f.status = .completed → pieces s d = some chunks →
      f.chunkCount = chunks.length → (σ.tables.chunksOf f.id).length = f.chunkCount →
      (σ.tables.chunksOf f.id).map FileChunk.index = List.range f.chunkCount →
      (σ.tables.chunksOf f.id).map FileChunk.content = chunks.map Chunk.text → Settled s σ f
  | failed (i : Nat) (d : Document) (fault : Fault) (words : String) :
      σ.executions[i]? = some ⟨.ingest d, .done (.error fault)⟩ → f.storeId = d.storeId →
      f.status = .failed → f.error = some words → σ.tables.chunksOf f.id = [] → Settled s σ f

structure Consistent (s : Setup) (σ : State δ) : Prop where
  unique : (σ.tables.files.map StoredFile.id).Nodup
  settled : ∀ f ∈ σ.tables.files, Settled s σ f
  /-- each chunk belongs to a file, of the same store -/
  owned : ∀ c ∈ σ.tables.chunks, ∃ f ∈ σ.tables.files, f.id = c.fileId ∧ f.storeId = c.storeId
  /-- what was ingested is there, unless it was asked to be deleted -/
  present : ∀ (i : Nat) (d : Document) (reply : StoredFile),
    σ.executions[i]? = some ⟨.ingest d, .done (.ok (.file reply))⟩ →
    (∃ f ∈ σ.tables.files, f.id = reply.id) ∨
      Unwanted (σ.executions.map Execution.request) d.storeId reply.id
  /-- a deletion brings the identifier or finds nothing -/
  deletion : ∀ (i : Nat) (store id : String) (r : Except Fault Reply),
    σ.executions[i]? = some ⟨.deleteFile store id, .done r⟩ →
    r = .ok (.deleted id) ∨ ∃ message, r = .error (.notFound message)
  gone : ∀ (i : Nat) (store id : String) (reply : Reply),
    σ.executions[i]? = some ⟨.deleteFile store id, .done (.ok reply)⟩ →
    ∀ f ∈ σ.tables.files, f.id ≠ id
  once : ∀ (i j : Nat) (store store' id : String) (reply reply' : Reply),
    σ.executions[i]? = some ⟨.deleteFile store id, .done (.ok reply)⟩ →
    σ.executions[j]? = some ⟨.deleteFile store' id, .done (.ok reply')⟩ → i = j

/-- Chunks are numbered from zero. -/
theorem map_index_of_pieces {d : Document} {chunks : List Chunk}
    (h : pieces s d = some chunks) : chunks.map Chunk.index = List.range chunks.length := by
  unfold pieces at h
  split at h
  · next window _ =>
    obtain rfl := Option.some.inj h
    have hrow := split_inRow s.tokenizer window d.text
    refine List.ext_getElem (by simp) fun k hk hk' => ?_
    rw [List.getElem_map, List.getElem_range, hrow.index_eq (List.getElem?_eq_getElem _),
      Nat.zero_add]
  · cases h

/-! ## Requests that are over -/

section
variable {phase : Nat → Phase} {i : Nat}

/-- Every request has a result that goes with its phase. -/
theorem exists_result (hquiet : σ.Quiet)
    (hfollows : ∀ (i : Nat) (x : Execution δ), σ.executions[i]? = some x →
      x.rest.Follows (x.request.protocol s) x.request.Ends (phase i)) {q : Request}
    (hi : (σ.executions.map Execution.request)[i]? = some q) :
    ∃ r, σ.executions[i]? = some ⟨q, .done r⟩ ∧ q.Ends (phase i) r := by
  rw [List.getElem?_map, Option.map_eq_some_iff] at hi
  obtain ⟨⟨q, rest⟩, hx, rfl⟩ := hi
  obtain ⟨r, rfl⟩ := hquiet _ (List.mem_of_getElem? hx)
  exact ⟨r, hx, hfollows i _ hx⟩

/-- A deletion that has deleted its file has come to the end, and others have not. -/
theorem ends_deleteFile {store id : String} {r : Except Fault Reply}
    (h : (Request.deleteFile store id).Ends (phase i) r) :
    r = .ok (.deleted id) ∧ phase i = .deleted ∨
      (∃ message, r = .error (.notFound message)) ∧ phase i = .idle := by
  cases r with
  | ok reply =>
    obtain ⟨rfl, hφ⟩ := h
    exact .inl ⟨rfl, hφ⟩
  | error fault =>
    obtain ⟨hφ, message, rfl⟩ := h
    exact .inr ⟨⟨message, rfl⟩, hφ⟩

/-- A file in the care of an ingestion that is over is settled. -/
theorem Kept.settled {d : Document} {f : StoredFile} {doomed : Prop} {r : Except Fault Reply}
    (h : Kept s d (σ.tables.chunksOf f.id) f doomed (phase i)) (hsafe : ¬ doomed)
    (hi : σ.executions[i]? = some ⟨.ingest d, .done r⟩) (hstore : f.storeId = d.storeId)
    (hends : (Request.ingest d).Ends (phase i) r) : Settled s σ f := by
  generalize phase i = φ at h hends
  cases h with
  | made => cases r <;> simp [Request.Ends] at hends
  | saved => cases r <;> simp [Request.Ends] at hends
  | completed chunks hpieces hstatus hcount hrows =>
    have hfills := hrows.resolve_left hsafe
    obtain ⟨hindex, hcontent⟩ := hfills.columns
    have hlength : (σ.tables.chunksOf f.id).length = f.chunkCount := by
      rw [hcount, ← List.length_map FileChunk.index, hindex, List.length_map]
    cases r with
    | error fault => simp [Request.Ends] at hends
    | ok reply =>
      obtain ⟨file, rfl, hfile⟩ := hends
      have hid : file.id = f.id := (Phase.completed.inj hfile).symm
      refine .completed i d file chunks hi hid hstore hstatus hpieces hcount hlength ?_ hcontent
      rw [hindex, map_index_of_pieces hpieces, hcount]
  | failed words hstatus herror hrows =>
    cases r with
    | ok reply => simp [Request.Ends] at hends
    | error fault => exact .failed i d fault words hi hstore hstatus herror hrows

end

/-- **The tables are consistent whenever nothing is under way.** -/
theorem Reachable.consistent (h : Reachable s σ) (hquiet : σ.Quiet) : Consistent s σ := by
  obtain ⟨phase, hcoherent, hfollows⟩ := h.sound
  have hrequest : ∀ {i : Nat} {q r}, σ.executions[i]? = some ⟨q, .done r⟩ →
      (σ.executions.map Execution.request)[i]? = some q := by
    intro i q r hi
    rw [List.getElem?_map, hi]
    rfl
  constructor
  case unique => exact hcoherent.nodup
  case owned => exact hcoherent.filed
  case settled =>
    intro f hf
    obtain ⟨i, d, hi, hstore, hkept⟩ := hcoherent.kept f hf
    obtain ⟨r, hdone, hends⟩ := exists_result hquiet hfollows hi
    refine hkept.settled ?_ hdone hstore hends
    -- a deletion that is over has deleted its file, or has none to delete
    rintro ⟨j, store, hj, hφ⟩
    obtain ⟨r', -, hends'⟩ := exists_result hquiet hfollows hj
    rcases ends_deleteFile hends' with ⟨-, hφ'⟩ | ⟨-, hφ'⟩ <;> rw [hφ] at hφ' <;> cases hφ'
  case deletion =>
    intro i store id r hi
    exact (ends_deleteFile (hfollows i _ hi)).imp And.left And.left
  case present =>
    intro i d reply hi
    obtain ⟨file, hfile, hφ⟩ := hfollows i _ hi
    obtain rfl := Reply.file.inj hfile
    exact hcoherent.present i d reply.id (hrequest hi) (by rw [hφ]; rfl)
  case gone =>
    intro i store id reply hi
    exact (hcoherent.searched.gone i store id (hrequest hi) (hfollows i _ hi).2).2
  case once =>
    intro i j store store' id reply reply' hi hj
    exact hcoherent.searched.once i j store store' id (hrequest hi) (hrequest hj)
      (hfollows i _ hi).2 (hfollows j _ hj).2

namespace Schedule

def setup : Setup := ⟨.codePoint, ⟨.usual, "m"⟩, ⟨800, 400⟩⟩

/-- A provider that refuses long texts. -/
def provider (texts : List Text) : Except Fault (List (List Nat)) :=
  if texts.any (3 < ·.size) then .error (.provider .unexpected "too long" none none)
  else .ok (texts.map fun t => [t.size])

def document (text : Text) : Document := ⟨"x", "a.txt", text, none, none, none, none⟩

def answers (count i : Nat) : List Turn := List.replicate count (.answer i)

/-- Three documents are ingested, of which one is refused by the provider and one is deleted before
its chunks are stored, by one of two deletions that have both found it. -/
def turns : List Turn := List.flatten
  [[.begin (.createStore "s" none), .answer 0], [.begin (.ingest (document #[97, 98]))],
    [.begin (.ingest (document #[97, 98, 99, 100]))], [.begin (.ingest (document #[99]))],
    answers 4 1, answers 4 2, answers 6 3, [.begin (.deleteFile "x" "xxxx")],
    [.begin (.deleteFile "x" "xxxx")], answers 2 4, answers 2 5, answers 8 1, answers 6 2,
    answers 4 4, answers 4 5, answers 8 3]

def last : State Nat := turns.foldl (State.turn setup (Relations.serve provider)) .initial

end Schedule

theorem consistent_last :
    Reachable Schedule.setup Schedule.last ∧ Schedule.last.Quiet ∧
      Consistent Schedule.setup Schedule.last ∧
      Schedule.last.tables.files.map (fun f => (f.id, f.status, f.chunkCount)) =
        [("x", .completed, 1), ("xx", .failed, 0)] ∧
      Schedule.last.executions.map (fun x => x.result?.map Except.isOk) =
        [some true, some true, some false, some false, some true, some false] := by
  have hreach : Reachable Schedule.setup Schedule.last := by
    unfold Schedule.last
    exact Reachable.initial.turns (Relations.serve_answers Schedule.provider) Schedule.turns
  obtain ⟨hquiet, hfiles, hresults⟩ : Schedule.last.Quiet ∧
      Schedule.last.tables.files.map (fun f => (f.id, f.status, f.chunkCount)) =
        [("x", .completed, 1), ("xx", .failed, 0)] ∧
      Schedule.last.executions.map (fun x => x.result?.map Except.isOk) =
        [some true, some true, some false, some false, some true, some false] := by
    decide +kernel
  exact ⟨hreach, hquiet, hreach.consistent hquiet, hfiles, hresults⟩

end Retrieval.Service
