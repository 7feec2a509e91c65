import Retrieval.Effect
import Retrieval.Proofs.Embedding.Exchange

/-!
# The tables with their references

What the tables hold and what they answer, one call at a time. Files belong to stores, and chunks to
files and to stores: a row that is to belong to nothing is refused, and what belongs to a row that
is deleted is deleted with it. Nothing else is ever refused.
-/

namespace Retrieval

variable {δ : Type}

/-- The rows of the tables, and the identifiers that files were ever given. -/
structure Relations (δ : Type) where
  stores : List VectorStore
  files : List StoredFile
  chunks : List (FileChunk δ)
  issued : List String

namespace Relations

def empty : Relations δ := ⟨[], [], [], []⟩

def hasStore (t : Relations δ) (id : String) : Bool := t.stores.any (·.id == id)

def hasFile (t : Relations δ) (id : String) : Bool := t.files.any (·.id == id)

/-- The file with that identifier, if it belongs to the store. -/
def file? (t : Relations δ) (storeId id : String) : Option StoredFile :=
  t.files.find? fun f => f.id == id && f.storeId == storeId

def chunksOf (t : Relations δ) (fileId : String) : List (FileChunk δ) :=
  t.chunks.filter (·.fileId == fileId)

/-- The rows belong to files and to stores that are there. -/
def accepts (t : Relations δ) (rows : List (FileChunk δ)) : Bool :=
  rows.all fun c => t.hasFile c.fileId && t.hasStore c.storeId

/-! ## Changes -/

def addStore (t : Relations δ) (store : VectorStore) : Relations δ :=
  { t with stores := t.stores ++ [store] }

def addFile (t : Relations δ) (file : StoredFile) : Relations δ :=
  { t with files := t.files ++ [file], issued := t.issued ++ [file.id] }

def addChunks (t : Relations δ) (rows : List (FileChunk δ)) : Relations δ :=
  { t with chunks := t.chunks ++ rows }

/-- The file with a new status; what the update does not name stays as it is. -/
def updated (id : String) (u : StatusUpdate) (f : StoredFile) : StoredFile :=
  if f.id = id then
    { f with
      status := u.status
      chunkCount := u.chunkCount.getD f.chunkCount
      error := u.error.getD f.error }
  else f

@[simp] theorem updated_id (id : String) (u : StatusUpdate) (f : StoredFile) :
    (updated id u f).id = f.id := by
  unfold updated
  split <;> rfl

@[simp] theorem updated_storeId (id : String) (u : StatusUpdate) (f : StoredFile) :
    (updated id u f).storeId = f.storeId := by
  unfold updated
  split <;> rfl

/-- What an update makes of the file it is about. -/
theorem updated_self (u : StatusUpdate) (f : StoredFile) :
    updated f.id u f = { f with
      status := u.status
      chunkCount := u.chunkCount.getD f.chunkCount
      error := u.error.getD f.error } := if_pos rfl

def setStatus (t : Relations δ) (id : String) (u : StatusUpdate) : Relations δ :=
  { t with files := t.files.map (updated id u) }

/-- Without some files and the chunks that belong to them. -/
def dropFiles (t : Relations δ) (gone : StoredFile → Bool) : Relations δ :=
  { t with
    files := t.files.filter fun f => !gone f
    chunks := t.chunks.filter fun c => !t.files.any fun f => gone f && f.id == c.fileId }

/-- Without a store, its files, and the chunks that belong to any of them. -/
def dropStore (t : Relations δ) (id : String) : Relations δ :=
  let rest := t.dropFiles fun f => f.storeId == id
  { rest with
    stores := t.stores.filter fun s => !(s.id == id)
    chunks := rest.chunks.filter fun c => !(c.storeId == id) }

def dropChunks (t : Relations δ) (fileId : String) : Relations δ :=
  { t with chunks := t.chunks.filter fun c => !(c.fileId == fileId) }

end Relations

/-! ## Answers -/

/-- The question is put to none of the tables. -/
def Effect.isAside : Effect δ → Bool
  | .stores _ | .files _ | .chunks _ => false
  | _ => true

def NewFile.row (new : NewFile) (id : String) (createdAt : Instant) : StoredFile :=
  ⟨id, new.storeId, new.filename, .inProgress, 0, Metadata.toValue new.attributes, none, createdAt⟩

/-- The tables answer a call, and this is what they hold from then on. The identifier of a new file
was never given to another one. A fault is told in words. What is asked of the world beside the
tables, and reads of lists, leave the tables as they are. -/
def Relations.Answers (t : Relations δ) : (e : Effect δ) → e.Answer → Relations δ → Prop
  | .stores (.create name metadata), r, t' =>
    ∃ store : VectorStore, t.hasStore store.id = false ∧ store.name = name ∧
      store.metadata = Metadata.toValue metadata ∧ r = .ok store ∧ t' = t.addStore store
  | .stores (.findById id), r, t' =>
    ∃ found, found.isSome = t.hasStore id ∧ r = .ok found ∧ t' = t
  | .stores (.delete id), r, t' =>
    if t.hasStore id then r = .ok true ∧ t' = t.dropStore id else r = .ok false ∧ t' = t
  | .files (.create new), r, t' =>
    if t.hasStore new.storeId then
      ∃ id createdAt, id ∉ t.issued ∧ r = .ok (new.row id createdAt) ∧
        t' = t.addFile (new.row id createdAt)
    else ∃ fault, fault.Worded ∧ r = .error fault ∧ t' = t
  | .files (.updateStatus id u), r, t' => r = .ok () ∧ t' = t.setStatus id u
  | .files (.findById storeId id), r, t' => r = .ok (t.file? storeId id) ∧ t' = t
  | .files (.delete storeId id), r, t' =>
    r = .ok (t.file? storeId id).isSome ∧
      t' = t.dropFiles fun f => f.id == id && f.storeId == storeId
  | .chunks (.saveBatch rows), r, t' =>
    if t.accepts rows then r = .ok () ∧ t' = t.addChunks rows
    else ∃ fault, fault.Worded ∧ r = .error fault ∧ t' = t
  | .chunks (.deleteByFile id), r, t' => r = .ok () ∧ t' = t.dropChunks id
  | _, _, t' => t' = t

namespace Relations

variable {t t' : Relations δ}

/-! ## What an answer tells -/

theorem Answers.aside {e : Effect δ} {r : e.Answer} (he : e.isAside = true)
    (h : t.Answers e r t') : t' = t := by
  cases e with
  | stores call => cases he
  | files call => cases he
  | chunks call => cases he
  | _ => exact h

theorem Answers.deleteStore {id : String} {r : Except Fault Bool}
    (h : t.Answers (.stores (.delete id)) r t') :
    r = .ok true ∧ t' = t.dropStore id ∨ r = .ok false ∧ t' = t := by
  by_cases hstore : t.hasStore id
  · exact .inl (by simpa [Answers, hstore] using h)
  · exact .inr (by simpa [Answers, hstore] using h)

theorem Answers.create {new : NewFile} {r : Except Fault StoredFile}
    (h : t.Answers (.files (.create new)) r t') :
    (∃ id createdAt, id ∉ t.issued ∧ r = .ok (new.row id createdAt) ∧
      t' = t.addFile (new.row id createdAt)) ∨ ∃ fault, r = .error fault ∧ t' = t := by
  by_cases hstore : t.hasStore new.storeId
  · exact .inl (by simpa [Answers, hstore] using h)
  · have hrefused : ∃ fault : Fault, fault.Worded ∧ r = .error fault ∧ t' = t := by
      simpa [Answers, hstore] using h
    obtain ⟨fault, -, hr, ht⟩ := hrefused
    exact .inr ⟨fault, hr, ht⟩

theorem Answers.saveBatch {rows : List (FileChunk δ)} {r : Except Fault Unit}
    (h : t.Answers (.chunks (.saveBatch rows)) r t') :
    r = .ok () ∧ t' = t.addChunks rows ∧ (∀ c ∈ rows, t.hasFile c.fileId = true) ∨
      ∃ fault : Fault, fault.Worded ∧ r = .error fault ∧ t' = t := by
  by_cases hrows : t.accepts rows
  · have hsaved : r = .ok () ∧ t' = t.addChunks rows := by simpa [Answers, hrows] using h
    refine .inl ⟨hsaved.1, hsaved.2, fun c hc => ?_⟩
    have hfile := List.all_eq_true.mp hrows c hc
    simp only [Bool.and_eq_true] at hfile
    exact hfile.1
  · exact .inr (by simpa [Answers, hrows] using h)

/-! ## The chunks of a file after a change -/

theorem chunksOf_addChunks (rows : List (FileChunk δ)) (id : String) :
    (t.addChunks rows).chunksOf id = t.chunksOf id ++ rows.filter (·.fileId == id) :=
  List.filter_append _ _

theorem chunksOf_dropChunks (fileId id : String) :
    (t.dropChunks fileId).chunksOf id = if id = fileId then [] else t.chunksOf id := by
  unfold chunksOf dropChunks
  rw [List.filter_filter]
  split
  · next h =>
    subst h
    simp
  · next h =>
    refine List.filter_congr fun c _ => ?_
    cases hc : c.fileId == id with
    | false => rfl
    | true =>
      simp only [beq_iff_eq] at hc
      simp [hc, h]

theorem chunksOf_dropFiles {gone : StoredFile → Bool} {id : String}
    (h : ∀ f ∈ t.files, f.id = id → gone f = false) :
    (t.dropFiles gone).chunksOf id = t.chunksOf id := by
  unfold chunksOf dropFiles
  rw [List.filter_filter]
  refine List.filter_congr fun c _ => ?_
  cases hc : c.fileId == id with
  | false => rfl
  | true =>
    simp only [beq_iff_eq] at hc
    simp only [Bool.true_and, Bool.not_eq_true', List.any_eq_false, Bool.and_eq_true, beq_iff_eq,
      not_and, hc]
    intro f hf hgone hid
    simp [h f hf hid] at hgone

theorem file?_eq_some {storeId id : String} {f : StoredFile} (h : t.file? storeId id = some f) :
    f ∈ t.files ∧ f.id = id ∧ f.storeId = storeId := by
  have hf := List.find?_some h
  simp only [Bool.and_eq_true, beq_iff_eq] at hf
  exact ⟨List.mem_of_find?_eq_some h, hf.1, hf.2⟩

/-! ## Tables that answer -/

/-- An identifier that none of these is: it is longer than each of them. -/
def fresh : List String → String
  | [] => "x"
  | id :: rest => id ++ fresh rest

theorem length_fresh_pos (ids : List String) : 0 < (fresh ids).length := by
  induction ids with
  | nil => decide
  | cons id rest ih =>
    simp only [fresh, String.length_append]
    omega

theorem length_lt_fresh {ids : List String} {id : String} (h : id ∈ ids) :
    id.length < (fresh ids).length := by
  induction ids with
  | nil => cases h
  | cons first rest ih =>
    have hpos := length_fresh_pos rest
    simp only [fresh, String.length_append]
    rcases List.mem_cons.mp h with rfl | h
    · omega
    · have := ih h
      omega

theorem fresh_notMem (ids : List String) : fresh ids ∉ ids := fun h =>
  Nat.lt_irrefl _ (length_lt_fresh h)

/-- An answer to each question, with texts embedded by `provider`. -/
def serve (provider : List Text → Except Fault (List (List δ))) :
    (e : Effect δ) → Relations δ → e.Answer × Relations δ
  | .embed texts _, t => (provider texts, t)
  | .wait _, t => (.ok (), t)
  | .signal, t => (none, t)
  | .now, t => ((0 : Int), t)
  | .freshId, t => (fresh (t.chunks.map FileChunk.id), t)
  | .log _, t => ((), t)
  | .probe, t => (.ok (), t)
  | .stores (.create name metadata), t =>
    let store : VectorStore :=
      ⟨fresh (t.stores.map VectorStore.id), name, Metadata.toValue metadata, .zero, 0, 0⟩
    (.ok store, t.addStore store)
  | .stores (.findById id), t => (.ok (t.stores.find? (·.id == id)), t)
  | .stores (.list _), t => (.ok ⟨t.stores, false⟩, t)
  | .stores (.delete id), t =>
    if t.hasStore id then (.ok true, t.dropStore id) else (.ok false, t)
  | .files (.create new), t =>
    if t.hasStore new.storeId then
      (.ok (new.row (fresh t.issued) 0), t.addFile (new.row (fresh t.issued) 0))
    else (.error (.other "Error" "no such store" none), t)
  | .files (.updateStatus id u), t => (.ok (), t.setStatus id u)
  | .files (.findById storeId id), t => (.ok (t.file? storeId id), t)
  | .files (.listByStore storeId), t => (.ok (t.files.filter (·.storeId == storeId)), t)
  | .files (.delete storeId id), t =>
    (.ok (t.file? storeId id).isSome, t.dropFiles fun f => f.id == id && f.storeId == storeId)
  | .chunks (.saveBatch rows), t =>
    if t.accepts rows then (.ok (), t.addChunks rows)
    else (.error (.other "Error" "no such file or store" none), t)
  | .chunks (.nearestNeighbors _), t => (.ok [], t)
  | .chunks (.deleteByFile id), t => (.ok (), t.dropChunks id)

/-- There always is an answer. -/
theorem serve_answers (provider : List Text → Except Fault (List (List δ))) (e : Effect δ)
    (t : Relations δ) : t.Answers e (serve provider e t).1 (serve provider e t).2 := by
  cases e with
  | stores call =>
    cases call with
    | create name metadata =>
      refine ⟨_, ?_, rfl, rfl, rfl, rfl⟩
      refine List.any_eq_false.mpr fun store hstore hid => ?_
      have hmem := List.mem_map_of_mem (f := VectorStore.id) hstore
      rw [beq_iff_eq.mp hid] at hmem
      exact fresh_notMem _ hmem
    | findById id =>
      refine ⟨_, ?_, rfl, rfl⟩
      rw [List.isSome_find?]
      rfl
    | list page => rfl
    | delete id => cases h : t.hasStore id <;> simp [Answers, serve, h]
  | files call =>
    cases call with
    | create new =>
      cases h : t.hasStore new.storeId with
      | false =>
        simp only [Answers, serve, h, Bool.false_eq_true, if_false]
        exact ⟨_, Fault.worded_other _ _ _, rfl, trivial⟩
      | true =>
        simp only [Answers, serve, h, if_true]
        exact ⟨_, _, fresh_notMem t.issued, rfl, rfl⟩
    | updateStatus id u => exact ⟨rfl, rfl⟩
    | findById storeId id => exact ⟨rfl, rfl⟩
    | listByStore storeId => rfl
    | delete storeId id => exact ⟨rfl, rfl⟩
  | chunks call =>
    cases call with
    | saveBatch rows =>
      cases h : t.accepts rows with
      | false =>
        simp only [Answers, serve, h, Bool.false_eq_true, if_false]
        exact ⟨_, Fault.worded_other _ _ _, rfl, trivial⟩
      | true => simp [Answers, serve, h]
    | nearestNeighbors query => rfl
    | deleteByFile id => exact ⟨rfl, rfl⟩
  | _ => rfl

end Relations
end Retrieval
