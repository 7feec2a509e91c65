import Mathlib.Data.List.Nodup
import Mathlib.Logic.Function.Basic
import Retrieval.Proofs.Service.Phases

/-!
# What holds between any two answers

`Coherent`: how the rows go with the phases of the requests that are under way. A file is always in
the care of the one request that made it, and its row and its chunks are what the phase of that
request says, unless its chunks were deleted by a request that has yet to delete the file.
`Coherent.step`: every answer to a request keeps this.
-/

namespace Retrieval.Service

open Ingestion (Setup)

variable {δ : Type}

/-- The chunks of the file were deleted, and the file is about to be. -/
def Doomed (requests : List Request) (phase : Nat → Phase) (id : String) : Prop :=
  ∃ i store, requests[i]? = some (.deleteFile store id) ∧ phase i = .doomed

/-- Somebody has asked for the file or for its store to be deleted. -/
def Unwanted (requests : List Request) (storeId id : String) : Prop :=
  .deleteStore storeId ∈ requests ∨ ∃ store, .deleteFile store id ∈ requests

/-- What the row of a file and its chunks are in each phase of its ingestion. -/
inductive Kept (s : Setup) (d : Document) (rows : List (FileChunk δ)) (f : StoredFile)
    (doomed : Prop) : Phase → Prop
  | made : rows = [] → Kept s d rows f doomed (.made f.id)
  | saved (chunks : List Chunk) : pieces s d = some chunks →
      doomed ∨ Fills chunks f.storeId f.id rows → Kept s d rows f doomed (.saved f.id)
  | completed (chunks : List Chunk) : pieces s d = some chunks → f.status = .completed →
      f.chunkCount = chunks.length → doomed ∨ Fills chunks f.storeId f.id rows →
      Kept s d rows f doomed (.completed f.id)
  | failed (words : String) : f.status = .failed → f.error = some words → rows = [] →
      Kept s d rows f doomed (.failed f.id)

section
variable {s : Setup} {d : Document} {rows : List (FileChunk δ)} {f : StoredFile}
  {doomed doomed' : Prop} {φ : Phase} {id : String} {chunks : List Chunk}

theorem Kept.file? (h : Kept s d rows f doomed φ) : φ.file? = some f.id := by
  cases h <;> rfl

theorem Kept.mono (h : Kept s d rows f doomed φ) (hd : doomed → doomed') :
    Kept s d rows f doomed' φ := by
  cases h with
  | made hrows => exact .made hrows
  | saved chunks hpieces hrows => exact .saved chunks hpieces (hrows.imp_left hd)
  | completed chunks hpieces hstatus hcount hrows =>
    exact .completed chunks hpieces hstatus hcount (hrows.imp_left hd)
  | failed words hstatus herror hrows => exact .failed words hstatus herror hrows

/-- A file that is about to be deleted may lose its chunks. -/
theorem Kept.clear (h : Kept s d rows f doomed φ) (hd : doomed) :
    Kept s d ([] : List (FileChunk δ)) f doomed φ := by
  cases h with
  | made => exact .made rfl
  | saved chunks hpieces => exact .saved chunks hpieces (.inl hd)
  | completed chunks hpieces hstatus hcount =>
    exact .completed chunks hpieces hstatus hcount (.inl hd)
  | failed words hstatus herror => exact .failed words hstatus herror rfl

theorem Kept.complete (h : Kept s d rows f doomed (.saved id))
    (hpieces : pieces s d = some chunks) :
    Kept s d rows (Relations.updated id ⟨.completed, some chunks.length, none⟩ f) doomed
      (.completed id) := by
  cases h with
  | saved chunks' hpieces' hrows =>
    obtain rfl : chunks' = chunks := Option.some.inj (hpieces'.symm.trans hpieces)
    rw [Relations.updated_self]
    exact .completed chunks' hpieces rfl rfl hrows

theorem Kept.completeEmpty (h : Kept s d rows f doomed (.made id))
    (hpieces : pieces s d = some []) :
    Kept s d rows (Relations.updated id ⟨.completed, some 0, none⟩ f) doomed (.completed id) := by
  cases h with
  | made hrows =>
    subst hrows
    rw [Relations.updated_self]
    exact .completed [] hpieces rfl rfl (.inr rfl)

theorem Kept.fail (h : Kept s d rows f doomed (.made id)) (words : String) :
    Kept s d rows (Relations.updated id ⟨.failed, none, some (some words)⟩ f) doomed
      (.failed id) := by
  cases h with
  | made hrows =>
    rw [Relations.updated_self]
    exact .failed words rfl rfl hrows

end

/-- What each deletion knows of its file. -/
structure Searched (requests : List Request) (phase : Nat → Phase) (t : Relations δ) : Prop where
  /-- a file that was found is of that store, as long as it is there -/
  sought : ∀ i store id, requests[i]? = some (.deleteFile store id) →
    phase i = .found ∨ phase i = .doomed →
    id ∈ t.issued ∧ ∀ f ∈ t.files, f.id = id → f.storeId = store
  gone : ∀ i store id, requests[i]? = some (.deleteFile store id) → phase i = .deleted →
    id ∈ t.issued ∧ ∀ f ∈ t.files, f.id ≠ id
  once : ∀ i j store store' id, requests[i]? = some (.deleteFile store id) →
    requests[j]? = some (.deleteFile store' id) → phase i = .deleted → phase j = .deleted → i = j

/-- The rows go with the phases. -/
structure Coherent (s : Setup) (requests : List Request) (phase : Nat → Phase) (t : Relations δ) :
    Prop where
  outside : ∀ i, requests[i]? = none → phase i = .idle
  issued : ∀ f ∈ t.files, f.id ∈ t.issued
  nodup : (t.files.map StoredFile.id).Nodup
  filed : ∀ c ∈ t.chunks, ∃ f ∈ t.files, f.id = c.fileId ∧ f.storeId = c.storeId
  ownIssued : ∀ i id, (phase i).file? = some id → id ∈ t.issued
  ownUnique : ∀ i j id, (phase i).file? = some id → (phase j).file? = some id → i = j
  /-- each file is in the care of the request that made it -/
  kept : ∀ f ∈ t.files, ∃ i d, requests[i]? = some (.ingest d) ∧ f.storeId = d.storeId ∧
    Kept s d (t.chunksOf f.id) f (Doomed requests phase f.id) (phase i)
  /-- a file that was made does not go unasked -/
  present : ∀ i d id, requests[i]? = some (.ingest d) → (phase i).file? = some id →
    (∃ f ∈ t.files, f.id = id) ∨ Unwanted requests d.storeId id
  searched : Searched requests phase t

variable {s : Setup} {requests : List Request} {phase : Nat → Phase} {t t' : Relations δ} {i : Nat}
  {ψ : Phase}

theorem Coherent.eq_of_id (h : Coherent s requests phase t) {f g : StoredFile} (hf : f ∈ t.files)
    (hg : g ∈ t.files) (hid : f.id = g.id) : f = g :=
  List.inj_on_of_nodup_map h.nodup hf hg hid

/-- The ingestion that made the file with an identifier has the care of it. -/
theorem Coherent.owner (h : Coherent s requests phase t) {d : Document} {id : String}
    (hi : requests[i]? = some (.ingest d)) (hφ : (phase i).file? = some id) {f : StoredFile}
    (hf : f ∈ t.files) (hid : f.id = id) : f.storeId = d.storeId ∧
      Kept s d (t.chunksOf id) f (Doomed requests phase id) (phase i) := by
  subst hid
  obtain ⟨j, d', hj, hstore, hkept⟩ := h.kept f hf
  obtain rfl : j = i := h.ownUnique j i f.id hkept.file? hφ
  obtain rfl : d' = d := by simpa using hj.symm.trans hi
  exact ⟨hstore, hkept⟩

theorem Coherent.chunksOf_new (h : Coherent s requests phase t) {id : String}
    (hnew : id ∉ t.issued) : t.chunksOf id = [] := by
  refine List.filter_eq_nil_iff.mpr fun c hc hid => ?_
  obtain ⟨f, hf, hfid, -⟩ := h.filed c hc
  rw [← beq_iff_eq.mp hid, ← hfid] at hnew
  exact hnew (h.issued f hf)

/-- Two deletions in one place are one. -/
theorem deleteFile_inj {store store' id id' : String}
    (hi : requests[i]? = some (.deleteFile store id))
    (hi' : requests[i]? = some (.deleteFile store' id')) : store' = store ∧ id' = id := by
  simpa using hi'.symm.trans hi

/-- Two requests of different kinds have different places. -/
theorem update_of_request {q q' : Request} {j : Nat} (hi : requests[i]? = some q)
    (hj : requests[j]? = some q') (hne : q' ≠ q) : Function.update phase i ψ j = phase j := by
  refine Function.update_of_ne ?_ ψ phase
  rintro rfl
  exact hne (Option.some.inj (hj.symm.trans hi))

theorem file?_update (hψ : ψ.file? = (phase i).file?) (j : Nat) :
    (Function.update phase i ψ j).file? = (phase j).file? := by
  by_cases hj : j = i
  · subst hj
    rw [Function.update_self, hψ]
  · rw [Function.update_of_ne hj]

theorem outside_update (h : Coherent s requests phase t) {q : Request} (hi : requests[i]? = some q)
    (j : Nat) (hj : requests[j]? = none) : Function.update phase i ψ j = .idle := by
  rw [Function.update_of_ne, h.outside j hj]
  rintro rfl
  rw [hi] at hj
  cases hj

/-- Chunks that are missing because of a deletion are still so when another kind of request goes
on. -/
theorem Doomed.update {d : Document} {id : String} (h : Doomed requests phase id)
    (hi : requests[i]? = some (.ingest d)) : Doomed requests (Function.update phase i ψ) id := by
  obtain ⟨j, store, hj, hφ⟩ := h
  exact ⟨j, store, hj, by rw [update_of_request hi hj nofun, hφ]⟩

/-- Deletions that stay where they are know what they knew, if what was issued stays so and is given
to no other file. -/
theorem Searched.carry {phase' : Nat → Phase} (h : Searched requests phase t)
    (hphase : ∀ j store id, requests[j]? = some (.deleteFile store id) → phase' j = phase j)
    (hissued : t.issued ⊆ t'.issued)
    (hfiles : ∀ f' ∈ t'.files, f'.id ∈ t.issued →
      ∃ f ∈ t.files, f.id = f'.id ∧ f.storeId = f'.storeId) : Searched requests phase' t' where
  sought j store id hj hφ := by
    rw [hphase j store id hj] at hφ
    obtain ⟨hmem, hstore⟩ := h.sought j store id hj hφ
    refine ⟨hissued hmem, fun f' hf' hid => ?_⟩
    obtain ⟨f, hf, hfid, hfstore⟩ := hfiles f' hf' (hid ▸ hmem)
    rw [← hfstore]
    exact hstore f hf (hfid.trans hid)
  gone j store id hj hφ := by
    rw [hphase j store id hj] at hφ
    obtain ⟨hmem, hnone⟩ := h.gone j store id hj hφ
    refine ⟨hissued hmem, fun f' hf' hid => ?_⟩
    obtain ⟨f, hf, hfid, -⟩ := hfiles f' hf' (hid ▸ hmem)
    exact hnone f hf (hfid.trans hid)
  once j j' store store' id hj hj' hφ hφ' := by
    rw [hphase j store id hj] at hφ
    rw [hphase j' store' id hj'] at hφ'
    exact h.once j j' store store' id hj hj' hφ hφ'

/-! ## Rows that go -/

/-- Files may go on request, if their chunks go with them and no others do. -/
theorem Coherent.remove (h : Coherent s requests phase t) (hfiles : t'.files.Sublist t.files)
    (hlost : ∀ f ∈ t.files, f ∈ t'.files ∨ Unwanted requests f.storeId f.id)
    (hissued : t'.issued = t.issued)
    (hchunks : ∀ f ∈ t'.files, t'.chunksOf f.id = t.chunksOf f.id)
    (hfiled : ∀ c ∈ t'.chunks, ∃ f ∈ t'.files, f.id = c.fileId ∧ f.storeId = c.storeId) :
    Coherent s requests phase t' where
  outside := h.outside
  issued f hf := hissued ▸ h.issued f (hfiles.subset hf)
  nodup := (hfiles.map _).nodup h.nodup
  filed := hfiled
  ownIssued i id hi := hissued ▸ h.ownIssued i id hi
  ownUnique := h.ownUnique
  kept f hf := by
    rw [hchunks f hf]
    exact h.kept f (hfiles.subset hf)
  present i d id hi hφ := by
    rcases h.present i d id hi hφ with ⟨f, hf, hid⟩ | hasked
    · rcases hlost f hf with hf' | hasked
      · exact .inl ⟨f, hf', hid⟩
      · rw [(h.owner hi hφ hf hid).1, hid] at hasked
        exact .inr hasked
    · exact .inr hasked
  searched := h.searched.carry (fun _ _ _ _ => rfl) (hissued ▸ List.Subset.refl _)
    fun f hf _ => ⟨f, hfiles.subset hf, rfl, rfl⟩

theorem filed_dropFiles (h : Coherent s requests phase t) (gone : StoredFile → Bool) :
    ∀ c ∈ (t.dropFiles gone).chunks,
      ∃ f ∈ (t.dropFiles gone).files, f.id = c.fileId ∧ f.storeId = c.storeId := by
  intro c hc
  obtain ⟨hmem, hkeep⟩ := List.mem_filter.mp hc
  obtain ⟨f, hf, hid, hstore⟩ := h.filed c hmem
  refine ⟨f, List.mem_filter.mpr ⟨hf, ?_⟩, hid, hstore⟩
  simp only [Bool.not_eq_true', List.any_eq_false, Bool.and_eq_true, beq_iff_eq, not_and] at hkeep ⊢
  cases hgone : gone f with
  | false => rfl
  | true => exact absurd hid (hkeep f hf hgone)

theorem chunksOf_kept (h : Coherent s requests phase t) (gone : StoredFile → Bool) :
    ∀ f ∈ (t.dropFiles gone).files, (t.dropFiles gone).chunksOf f.id = t.chunksOf f.id := by
  intro f hf
  obtain ⟨hmem, hkeep⟩ := List.mem_filter.mp hf
  refine Relations.chunksOf_dropFiles fun g hg hid => ?_
  obtain rfl := h.eq_of_id hg hmem hid
  simpa using hkeep

theorem Coherent.dropFiles (h : Coherent s requests phase t) {gone : StoredFile → Bool}
    (hgone : ∀ f, gone f = true → Unwanted requests f.storeId f.id) :
    Coherent s requests phase (t.dropFiles gone) := by
  refine h.remove List.filter_sublist (fun f hf => ?_) rfl (chunksOf_kept h gone)
    (filed_dropFiles h gone)
  cases hf' : gone f with
  | true => exact .inr (hgone f hf')
  | false => exact .inl (List.mem_filter.mpr ⟨hf, by rw [hf']; rfl⟩)

theorem Coherent.dropStore (h : Coherent s requests phase t) {id : String}
    (hid : .deleteStore id ∈ requests) : Coherent s requests phase (t.dropStore id) := by
  have hrest : Coherent s requests phase (t.dropFiles fun f => f.storeId == id) :=
    h.dropFiles fun f hf => .inl (beq_iff_eq.mp hf ▸ hid)
  -- a chunk that is left belongs to a file that is left, so it is of another store
  have hkeep : ∀ c ∈ (t.dropFiles fun f => f.storeId == id).chunks, (c.storeId == id) = false := by
    intro c hc
    obtain ⟨f, hf, -, hstore⟩ := hrest.filed c hc
    rw [← hstore]
    simpa using (List.mem_filter.mp hf).2
  have hsame : (t.dropStore id).chunks = (t.dropFiles fun f => f.storeId == id).chunks :=
    List.filter_eq_self.mpr fun c hc => by rw [hkeep c hc]; rfl
  refine hrest.remove (List.Sublist.refl _) (fun f => .inl) rfl (fun f _ => ?_) ?_
  · unfold Relations.chunksOf
    rw [hsame]
  · rw [hsame]
    exact hrest.filed

/-- The chunks of a file may go if the file is about to be deleted. -/
theorem Coherent.dropChunks (h : Coherent s requests phase t) {id : String}
    (hd : Doomed requests phase id) : Coherent s requests phase (t.dropChunks id) where
  outside := h.outside
  issued := h.issued
  nodup := h.nodup
  filed c hc := h.filed c (List.mem_filter.mp hc).1
  ownIssued := h.ownIssued
  ownUnique := h.ownUnique
  kept f hf := by
    obtain ⟨i, d, hi, hstore, hkept⟩ := h.kept f hf
    refine ⟨i, d, hi, hstore, ?_⟩
    rw [Relations.chunksOf_dropChunks]
    split
    · next hid =>
      subst hid
      exact hkept.clear hd
    · exact hkept
  present := h.present
  searched := h.searched.carry (fun _ _ _ _ => rfl) (List.Subset.refl _)
    fun f hf _ => ⟨f, hf, rfl, rfl⟩

/-! ## Requests that go on -/

theorem Searched.turn (h : Searched requests phase t) {store id : String}
    (hi : requests[i]? = some (.deleteFile store id))
    (hsought : ψ = .found ∨ ψ = .doomed →
      id ∈ t.issued ∧ ∀ f ∈ t.files, f.id = id → f.storeId = store)
    (hgone : ψ = .deleted → id ∈ t.issued ∧ ∀ f ∈ t.files, f.id ≠ id)
    (honce : ψ = .deleted → ∀ j store', requests[j]? = some (.deleteFile store' id) →
      phase j = .deleted → j = i) : Searched requests (Function.update phase i ψ) t where
  sought j store' k hj hφj := by
    by_cases hji : j = i
    · subst hji
      rw [Function.update_self] at hφj
      obtain ⟨rfl, rfl⟩ := deleteFile_inj hi hj
      exact hsought hφj
    · rw [Function.update_of_ne hji] at hφj
      exact h.sought j store' k hj hφj
  gone j store' k hj hφj := by
    by_cases hji : j = i
    · subst hji
      rw [Function.update_self] at hφj
      obtain ⟨rfl, rfl⟩ := deleteFile_inj hi hj
      exact hgone hφj
    · rw [Function.update_of_ne hji] at hφj
      exact h.gone j store' k hj hφj
  once j j' store₁ store₂ k hj hj' hφj hφj' := by
    by_cases hji : j = i <;> by_cases hji' : j' = i
    · rw [hji, hji']
    · subst hji
      rw [Function.update_self] at hφj
      rw [Function.update_of_ne hji'] at hφj'
      obtain ⟨rfl, rfl⟩ := deleteFile_inj hi hj
      exact (honce hφj j' store₂ hj' hφj').symm
    · subst hji'
      rw [Function.update_self] at hφj'
      rw [Function.update_of_ne hji] at hφj
      obtain ⟨rfl, rfl⟩ := deleteFile_inj hi hj'
      exact honce hφj' j store₁ hj hφj
    · rw [Function.update_of_ne hji] at hφj
      rw [Function.update_of_ne hji'] at hφj'
      exact h.once j j' store₁ store₂ k hj hj' hφj hφj'

/-- A request for the deletion of a file may go on with its search, as long as it does not forget a
file whose chunks it has deleted. -/
theorem Coherent.turn (h : Coherent s requests phase t) {store id : String}
    (hi : requests[i]? = some (.deleteFile store id)) (hφ : (phase i).file? = none)
    (hψ : ψ.file? = none) (hdoomed : phase i = .doomed → ψ = .doomed ∨ ∀ f ∈ t.files, f.id ≠ id)
    (hsought : ψ = .found ∨ ψ = .doomed →
      id ∈ t.issued ∧ ∀ f ∈ t.files, f.id = id → f.storeId = store)
    (hgone : ψ = .deleted → id ∈ t.issued ∧ ∀ f ∈ t.files, f.id ≠ id)
    (honce : ψ = .deleted → ∀ j store', requests[j]? = some (.deleteFile store' id) →
      phase j = .deleted → j = i) :
    Coherent s requests (Function.update phase i ψ) t where
  outside := outside_update h hi
  issued := h.issued
  nodup := h.nodup
  filed := h.filed
  ownIssued j k hj := h.ownIssued j k (file?_update (hψ.trans hφ.symm) j ▸ hj)
  ownUnique j j' k hj hj' := by
    rw [file?_update (hψ.trans hφ.symm)] at hj hj'
    exact h.ownUnique j j' k hj hj'
  kept f hf := by
    obtain ⟨j, d, hj, hstore, hkept⟩ := h.kept f hf
    refine ⟨j, d, hj, hstore, ?_⟩
    rw [update_of_request hi hj nofun]
    refine hkept.mono ?_
    rintro ⟨k, store', hk, hφk⟩
    refine ⟨k, store', hk, ?_⟩
    by_cases hki : k = i
    · subst hki
      obtain ⟨rfl, rfl⟩ := deleteFile_inj hi hk
      rw [Function.update_self]
      exact (hdoomed hφk).resolve_right fun hnone => hnone f hf rfl
    · rw [Function.update_of_ne hki, hφk]
  present j d k hj hφj := by
    rw [update_of_request hi hj nofun] at hφj
    exact h.present j d k hj hφj
  searched := h.searched.turn hi hsought hgone honce

/-- A change of what concerns one file: of its row by `change`, and of its chunks. -/
structure Edit (id : String) (change : StoredFile → StoredFile) (t t' : Relations δ) : Prop where
  files : t'.files = t.files.map change
  issued : t'.issued = t.issued
  same_id : ∀ f, (change f).id = f.id
  same_store : ∀ f, (change f).storeId = f.storeId
  others : ∀ f, f.id ≠ id → change f = f
  chunks : ∀ k, k ≠ id → t'.chunksOf k = t.chunksOf k
  filed : ∀ c ∈ t'.chunks, ∃ f ∈ t.files, f.id = c.fileId ∧ f.storeId = c.storeId

/-- An ingestion may go on with its file. -/
theorem Coherent.edit (h : Coherent s requests phase t) {d : Document} {id : String}
    {change : StoredFile → StoredFile} (hi : requests[i]? = some (.ingest d))
    (hφ : (phase i).file? = some id) (hψ : ψ.file? = some id) (he : Edit id change t t')
    (hkept : ∀ f ∈ t.files, ∀ doomed, f.id = id → f.storeId = d.storeId →
      Kept s d (t.chunksOf id) f doomed (phase i) →
      Kept s d (t'.chunksOf id) (change f) doomed ψ) :
    Coherent s requests (Function.update phase i ψ) t' where
  outside := outside_update h hi
  issued f' hf' := by
    rw [he.files] at hf'
    obtain ⟨f, hf, rfl⟩ := List.mem_map.mp hf'
    rw [he.same_id, he.issued]
    exact h.issued f hf
  nodup := by
    have hids : t.files.map (StoredFile.id ∘ change) = t.files.map StoredFile.id :=
      List.map_congr_left fun f _ => he.same_id f
    rw [he.files, List.map_map, hids]
    exact h.nodup
  filed c hc := by
    obtain ⟨f, hf, hid, hstore⟩ := he.filed c hc
    refine ⟨change f, he.files ▸ List.mem_map_of_mem hf, ?_, ?_⟩
    · rw [he.same_id, hid]
    · rw [he.same_store, hstore]
  ownIssued j k hj := he.issued ▸ h.ownIssued j k (file?_update (hψ.trans hφ.symm) j ▸ hj)
  ownUnique j j' k hj hj' := by
    rw [file?_update (hψ.trans hφ.symm)] at hj hj'
    exact h.ownUnique j j' k hj hj'
  kept f' hf' := by
    rw [he.files] at hf'
    obtain ⟨f, hf, rfl⟩ := List.mem_map.mp hf'
    by_cases hid : f.id = id
    · obtain ⟨hstore, hk⟩ := h.owner hi hφ hf hid
      refine ⟨i, d, hi, (he.same_store f).trans hstore, ?_⟩
      rw [he.same_id, Function.update_self, hid]
      exact hkept f hf _ hid hstore (hk.mono fun hd => hd.update hi)
    · obtain ⟨j, d', hj, hstore, hk⟩ := h.kept f hf
      have hji : j ≠ i := by
        rintro rfl
        exact hid (Option.some.inj (hk.file?.symm.trans hφ))
      refine ⟨j, d', hj, (he.same_store f).trans hstore, ?_⟩
      rw [he.same_id, Function.update_of_ne hji, he.others f hid, he.chunks f.id hid]
      exact hk.mono fun hd => hd.update hi
  present j d' k hj hφj := by
    rw [file?_update (hψ.trans hφ.symm)] at hφj
    refine (h.present j d' k hj hφj).imp_left ?_
    rintro ⟨f, hf, hid⟩
    exact ⟨change f, he.files ▸ List.mem_map_of_mem hf, (he.same_id f).trans hid⟩
  searched := by
    refine h.searched.carry (fun j _ _ hj => update_of_request hi hj nofun)
      (he.issued ▸ List.Subset.refl _) fun f' hf' _ => ?_
    rw [he.files] at hf'
    obtain ⟨f, hf, rfl⟩ := List.mem_map.mp hf'
    exact ⟨f, hf, (he.same_id f).symm, (he.same_store f).symm⟩

/-- A new file is in the care of the ingestion that made it. -/
theorem Coherent.make (h : Coherent s requests phase t) {d : Document} {file : StoredFile}
    (hi : requests[i]? = some (.ingest d)) (hφ : phase i = .idle) (hnew : file.id ∉ t.issued)
    (hstore : file.storeId = d.storeId) :
    Coherent s requests (Function.update phase i (.made file.id)) (t.addFile file) := by
  have hfile : ∀ j id, (Function.update phase i (.made file.id) j).file? = some id →
      j = i ∧ id = file.id ∨ (phase j).file? = some id ∧ id ∈ t.issued := by
    intro j id hj
    by_cases hji : j = i
    · subst hji
      rw [Function.update_self] at hj
      exact .inl ⟨rfl, (Option.some.inj hj).symm⟩
    · rw [Function.update_of_ne hji] at hj
      exact .inr ⟨hj, h.ownIssued j id hj⟩
  have hrows : ∀ f ∈ (t.addFile file).files, f ∈ t.files ∨ f = file := by
    intro f hf
    simpa [Relations.addFile] using hf
  refine ⟨outside_update h hi, ?issued, ?nodup, ?filed, ?ownIssued, ?ownUnique, ?kept, ?present,
    ?searched⟩
  case issued =>
    intro f hf
    rcases hrows f hf with hf | rfl
    · exact List.mem_append_left _ (h.issued f hf)
    · exact List.mem_append_right _ (List.mem_singleton_self _)
  case nodup =>
    simp only [Relations.addFile, List.map_append, List.map_cons, List.map_nil]
    refine List.nodup_append.mpr ⟨h.nodup, List.nodup_singleton _, ?_⟩
    rintro _ hmem _ hself rfl
    obtain ⟨f, hf, hid⟩ := List.mem_map.mp hmem
    rw [← List.mem_singleton.mp hself, ← hid] at hnew
    exact hnew (h.issued f hf)
  case filed =>
    intro c hc
    obtain ⟨f, hf, hkeys⟩ := h.filed c hc
    exact ⟨f, List.mem_append_left _ hf, hkeys⟩
  case ownIssued =>
    intro j id hj
    rcases hfile j id hj with ⟨-, rfl⟩ | ⟨-, hid⟩
    · exact List.mem_append_right _ (List.mem_singleton_self _)
    · exact List.mem_append_left _ hid
  case ownUnique =>
    intro j j' id hj hj'
    rcases hfile j id hj with ⟨rfl, rfl⟩ | ⟨hj, hid⟩ <;>
      rcases hfile j' _ hj' with ⟨rfl, hid'⟩ | ⟨hj', hid'⟩
    · rfl
    · exact absurd hid' hnew
    · exact absurd (hid' ▸ hid) hnew
    · exact h.ownUnique j j' id hj hj'
  case kept =>
    intro f hf
    rcases hrows f hf with hf | rfl
    · obtain ⟨j, d', hj, hstore', hkept⟩ := h.kept f hf
      have hji : j ≠ i := by
        rintro rfl
        rw [hφ] at hkept
        cases hkept.file?
      refine ⟨j, d', hj, hstore', ?_⟩
      rw [Function.update_of_ne hji]
      exact hkept.mono fun hd => hd.update hi
    · refine ⟨i, d, hi, hstore, ?_⟩
      rw [Function.update_self]
      exact .made (h.chunksOf_new hnew)
  case present =>
    intro j d' id hj hφj
    rcases hfile j id hφj with ⟨-, rfl⟩ | ⟨hφj, -⟩
    · exact .inl ⟨file, List.mem_append_right _ (List.mem_singleton_self _), rfl⟩
    · refine (h.present j d' id hj hφj).imp_left ?_
      rintro ⟨f, hf, hid⟩
      exact ⟨f, List.mem_append_left _ hf, hid⟩
  case searched =>
    refine h.searched.carry (fun j _ _ hj => update_of_request hi hj nofun)
      (List.subset_append_left _ _) fun f hf hid => ?_
    rcases hrows f hf with hf | rfl
    · exact ⟨f, hf, rfl, rfl⟩
    · exact absurd hid hnew

theorem Coherent.setStatus (h : Coherent s requests phase t) {d : Document} {id : String}
    {u : StatusUpdate} (hi : requests[i]? = some (.ingest d)) (hφ : (phase i).file? = some id)
    (hψ : ψ.file? = some id)
    (hkept : ∀ f ∈ t.files, ∀ doomed, f.id = id → f.storeId = d.storeId →
      Kept s d (t.chunksOf id) f doomed (phase i) →
      Kept s d (t.chunksOf id) (Relations.updated id u f) doomed ψ) :
    Coherent s requests (Function.update phase i ψ) (t.setStatus id u) := by
  refine h.edit hi hφ hψ ⟨rfl, rfl, Relations.updated_id id u, Relations.updated_storeId id u,
    fun f hf => if_neg hf, fun _ _ => rfl, h.filed⟩ hkept

theorem Coherent.saveBatch (h : Coherent s requests phase t) {d : Document} {id : String}
    {chunks : List Chunk} {rows : List (FileChunk δ)} (hi : requests[i]? = some (.ingest d))
    (hφ : phase i = .made id) (hpieces : pieces s d = some chunks)
    (hrows : Fills chunks d.storeId id rows) (hfiles : ∀ c ∈ rows, t.hasFile c.fileId = true) :
    Coherent s requests (Function.update phase i (.saved id)) (t.addChunks rows) := by
  have hkeys := hrows.keys
  have hown : rows.filter (·.fileId == id) = rows :=
    List.filter_eq_self.mpr fun c hc => beq_iff_eq.mpr (hkeys c hc).1
  have hfile : (phase i).file? = some id := by rw [hφ]; rfl
  have hedit : Edit id (fun f => f) t (t.addChunks rows) := by
    refine ⟨(List.map_id _).symm, rfl, fun _ => rfl, fun _ => rfl, fun _ _ => rfl, ?_, ?_⟩
    · intro k hk
      rw [Relations.chunksOf_addChunks, List.filter_eq_nil_iff.mpr, List.append_nil]
      intro c hc hid
      exact hk ((beq_iff_eq.mp hid).symm.trans (hkeys c hc).1)
    · intro c hc
      rcases List.mem_append.mp hc with hc | hc
      · exact h.filed c hc
      · obtain ⟨f, hf, hid⟩ := List.any_eq_true.mp (hfiles c hc)
        obtain ⟨hcid, hcstore⟩ := hkeys c hc
        have hfid : f.id = c.fileId := beq_iff_eq.mp hid
        exact ⟨f, hf, hfid, (h.owner hi hfile hf (hfid.trans hcid)).1.trans hcstore.symm⟩
  refine h.edit hi hfile rfl hedit fun f hf doomed hid hfstore hkept => ?_
  subst hid
  rw [hφ] at hkept
  rw [Relations.chunksOf_addChunks, hown]
  cases hkept with
  | made hempty =>
    rw [hempty, List.nil_append]
    exact .saved chunks hpieces (.inr (hfstore ▸ hrows))

/-- A file that is about to be deleted is gone when it was asked to be deleted. -/
theorem Coherent.rid (h : Coherent s requests phase t) {store id : String}
    (hi : requests[i]? = some (.deleteFile store id)) (hφ : phase i = .doomed) :
    let rest := t.dropFiles fun f => f.id == id && f.storeId == store
    Coherent s requests phase rest ∧ id ∈ t.issued ∧ ∀ f ∈ rest.files, f.id ≠ id := by
  obtain ⟨hissued, hstore⟩ := h.searched.sought i store id hi (.inr hφ)
  refine ⟨h.dropFiles fun f hf => ?_, hissued, fun f hf hid => ?_⟩
  · simp only [Bool.and_eq_true, beq_iff_eq] at hf
    exact .inr ⟨store, hf.1 ▸ List.mem_of_getElem? hi⟩
  · obtain ⟨hmem, hkeep⟩ := List.mem_filter.mp hf
    simp [hid, hstore f hmem hid] at hkeep

/-- What the tables answer to a request keeps the rows and the phases together. -/
theorem Coherent.step (h : Coherent s requests phase t) {q : Request} {e : Effect δ}
    {r : e.Answer} (hi : requests[i]? = some q) (hmove : Moves s q (phase i) e r ψ)
    (ha : t.Answers e r t') : Coherent s requests (Function.update phase i ψ) t' := by
  have hstay : ∀ φ, phase i = φ → Function.update phase i φ = phase := by
    rintro φ rfl
    exact Function.update_eq_self i phase
  generalize hφ : phase i = φ at hmove
  cases hmove with
  | aside _ _ _ _ he =>
    rw [hstay _ hφ, ha.aside he]
    exact h
  | storeCreated name metadata =>
    obtain ⟨store, -, -, -, -, rfl⟩ := ha
    rw [hstay _ hφ]
    exact h.remove (List.Sublist.refl _) (fun f => .inl) rfl (fun _ _ => rfl) h.filed
  | storeRead _ id =>
    obtain ⟨_, -, -, rfl⟩ := ha
    rw [hstay _ hφ]
    exact h
  | storeDeleted id =>
    rw [hstay _ hφ]
    rcases ha.deleteStore with ⟨-, rfl⟩ | ⟨-, rfl⟩
    · exact h.dropStore (List.mem_of_getElem? hi)
    · exact h
  | made d file =>
    rcases ha.create with ⟨id, createdAt, hnew, hr, rfl⟩ | ⟨fault, hr, -⟩
    · cases hr
      exact h.make hi hφ hnew rfl
    · cases hr
  | unmade d fault =>
    rw [hstay _ hφ]
    rcases ha.create with ⟨id, createdAt, -, hr, -⟩ | ⟨fault, -, rfl⟩
    · cases hr
    · exact h
  | saved d id chunks rows hpieces hrows =>
    rcases ha.saveBatch with ⟨-, rfl, hfiles⟩ | ⟨fault, -, hr, -⟩
    · exact h.saveBatch hi hφ hpieces hrows hfiles
    · cases hr
  | unsaved d id rows fault =>
    rw [hstay _ hφ]
    rcases ha.saveBatch with ⟨hr, -, -⟩ | ⟨fault, -, -, rfl⟩
    · cases hr
    · exact h
  | completed d id chunks _ hpieces =>
    obtain ⟨-, rfl⟩ := ha
    refine h.setStatus hi (by rw [hφ]; rfl) rfl fun f hf doomed hid hstore hkept => ?_
    rw [hφ] at hkept
    exact hkept.complete hpieces
  | completedEmpty d id _ hpieces =>
    obtain ⟨-, rfl⟩ := ha
    refine h.setStatus hi (by rw [hφ]; rfl) rfl fun f hf doomed hid hstore hkept => ?_
    rw [hφ] at hkept
    exact hkept.completeEmpty hpieces
  | failed d id words =>
    obtain ⟨-, rfl⟩ := ha
    refine h.setStatus hi (by rw [hφ]; rfl) rfl fun f hf doomed hid hstore hkept => ?_
    rw [hφ] at hkept
    exact hkept.fail words
  | found storeId fileId file =>
    obtain ⟨hr, rfl⟩ := ha
    obtain ⟨hf, hid, hstore⟩ := Relations.file?_eq_some (Except.ok.inj hr).symm
    refine h.turn hi (by rw [hφ]; rfl) rfl (fun hd => ?_) (fun _ => ⟨?_, ?_⟩) nofun nofun
    · rw [hφ] at hd
      cases hd
    · exact hid ▸ h.issued file hf
    · intro f hf' hid'
      rw [h.eq_of_id hf' hf (hid'.trans hid.symm), hstore]
  | missing storeId fileId =>
    obtain ⟨-, rfl⟩ := ha
    rw [hstay _ hφ]
    exact h
  | doomed storeId fileId =>
    obtain ⟨-, rfl⟩ := ha
    have hturn : Coherent s requests (Function.update phase i .doomed) t :=
      h.turn hi (by rw [hφ]; rfl) rfl (fun _ => .inl rfl)
        (fun _ => h.searched.sought i storeId fileId hi (.inl hφ)) nofun nofun
    exact hturn.dropChunks ⟨i, storeId, hi, Function.update_self i _ phase⟩
  | deleted storeId fileId =>
    obtain ⟨hr, rfl⟩ := ha
    obtain ⟨hrest, hissued, hnone⟩ := h.rid hi hφ
    obtain ⟨f, hf⟩ := Option.isSome_iff_exists.mp (Except.ok.inj hr).symm
    obtain ⟨hmem, hid, -⟩ := Relations.file?_eq_some hf
    refine hrest.turn hi (by rw [hφ]; rfl) rfl (fun _ => .inr hnone) nofun
      (fun _ => ⟨hissued, hnone⟩) fun _ j store' hj hφj => ?_
    exact absurd hid ((h.searched.gone j store' fileId hj hφj).2 f hmem)
  | undeleted storeId fileId =>
    obtain ⟨-, rfl⟩ := ha
    obtain ⟨hrest, -, hnone⟩ := h.rid hi hφ
    exact hrest.turn hi (by rw [hφ]; rfl) rfl (fun _ => .inr hnone) nofun nofun nofun

end Retrieval.Service
