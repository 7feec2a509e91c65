import Retrieval.Proofs.Ingestion.Written

/-!
# What an ingestion leaves when it fails

`ingest_failures`: an ingestion that fails before its file is made has done nothing else. One that
fails later marks its file as failed, by its last call, and raises what has gone wrong, unless there
is nothing that can be told about a fault. Rows of other files are never touched.
-/

namespace Retrieval

variable {δ : Type}

/-- A call that is about one file alone: its status is set, or rows of its own are stored. -/
def Effect.Concerns (id : String) : Effect δ → Prop
  | .files (.updateStatus other _) => other = id
  | .chunks (.saveBatch rows) => ∀ c ∈ rows, c.fileId = id
  | _ => False

namespace Relations

/-- The tables have gained some files with that identifier, and chunks of it. -/
structure Gained (t t' : Relations δ) (id : String) (own : List StoredFile) : Prop where
  stores : t'.stores = t.stores
  files : t'.files = t.files ++ own
  owned : ∀ f ∈ own, f.id = id
  chunks : ∃ rows, t'.chunks = t.chunks ++ rows ∧ ∀ c ∈ rows, c.fileId = id

variable {t t₁ t' : Relations δ} {id : String} {own : List StoredFile}

theorem Gained.refl (t : Relations δ) (id : String) : Gained t t id [] where
  stores := rfl
  files := (List.append_nil _).symm
  owned := nofun
  chunks := ⟨[], (List.append_nil _).symm, nofun⟩

theorem Gained.addFile (t : Relations δ) (file : StoredFile) :
    Gained t (t.addFile file) file.id [file] where
  stores := rfl
  files := rfl
  owned := fun f hf => by rw [List.mem_singleton.mp hf]
  chunks := ⟨[], (List.append_nil _).symm, nofun⟩

theorem Gained.setStatus (h : Gained t t₁ id own) (hnew : ∀ f ∈ t.files, f.id ≠ id)
    (u : StatusUpdate) : Gained t (t₁.setStatus id u) id (own.map (updated id u)) where
  stores := h.stores
  files := by
    show t₁.files.map (updated id u) = _
    rw [h.files, List.map_append, map_updated_of_ne u hnew]
  owned := by
    intro f hf
    obtain ⟨g, hg, rfl⟩ := List.mem_map.mp hf
    rw [updated_id, h.owned g hg]
  chunks := h.chunks

theorem Gained.addChunks (h : Gained t t₁ id own) {rows : List (FileChunk δ)}
    (hrows : ∀ c ∈ rows, c.fileId = id) : Gained t (t₁.addChunks rows) id own where
  stores := h.stores
  files := h.files
  owned := h.owned
  chunks := by
    obtain ⟨before, hbefore, howned⟩ := h.chunks
    refine ⟨before ++ rows, ?_, fun c hc => ?_⟩
    · show t₁.chunks ++ rows = _
      rw [hbefore, List.append_assoc]
    · rcases List.mem_append.mp hc with hc | hc
      · exact howned c hc
      · exact hrows c hc

/-- A call about the file keeps to the file, whether it is answered or refused. -/
theorem Gained.step (h : Gained t t₁ id own) (hnew : ∀ f ∈ t.files, f.id ≠ id) {e : Effect δ}
    {r : e.Answer} (he : e.Concerns id) (hstep : t₁.Permits e r t') :
    ∃ own', own'.length = own.length ∧ Gained t t' id own' := by
  cases e with
  | files call =>
    cases call with
    | updateStatus other u =>
      obtain rfl : other = id := he
      rcases hstep.update with rfl | rfl
      · exact ⟨own, rfl, h⟩
      · exact ⟨_, List.length_map _, h.setStatus hnew u⟩
    | _ => exact he.elim
  | chunks call =>
    cases call with
    | saveBatch rows =>
      rcases hstep.save with rfl | rfl
      · exact ⟨own, rfl, h⟩
      · exact ⟨own, rfl, h.addChunks he⟩
    | _ => exact he.elim
  | _ => exact he.elim

theorem Gained.evolve (h : Gained t t₁ id own) (hnew : ∀ f ∈ t.files, f.id ≠ id)
    {events : History δ} (he : ∀ event ∈ events, event.1.Concerns id)
    (hevolves : t₁.Evolves events t') :
    ∃ own', own'.length = own.length ∧ Gained t t' id own' := by
  -- along the calls: the row may change with each of them, but stays the only one
  induction events generalizing t₁ own with
  | nil =>
    cases hevolves
    exact ⟨own, rfl, h⟩
  | cons event rest ih =>
    cases hevolves with
    | cons hstep hrest =>
      obtain ⟨own₁, hlength, hgained⟩ := h.step hnew (he _ List.mem_cons_self) hstep
      obtain ⟨own₂, hlength', hgained'⟩ :=
        ih hgained (fun e h => he e (List.mem_cons_of_mem _ h)) hrest
      exact ⟨own₂, hlength'.trans hlength, hgained'⟩

/-- An identifier that no file has. -/
theorem exists_ne_id (t : Relations δ) : ∃ id, ∀ f ∈ t.files, f.id ≠ id := by
  refine ⟨fresh (t.files.map StoredFile.id), fun f hf heq => ?_⟩
  have hmem : f.id ∈ t.files.map StoredFile.id := List.mem_map_of_mem hf
  rw [heq] at hmem
  exact fresh_notMem _ hmem

end Relations

namespace Ingestion

open History Service

variable {w : Surroundings δ} {past : History δ} {s : Setup} {d : Document} {file : StoredFile}
  {chunks : List Chunk} {new : History δ}

/-! ## Calls about the file -/

theorem Filled.fileId {metadata : Option Metadata} {rows : List (FileChunk δ)}
    (h : Filled file metadata chunks new rows) : ∀ c ∈ rows, c.fileId = file.id := by
  obtain ⟨createdAt, vectors, rfl, -⟩ := h
  intro c hc
  obtain ⟨i, hi, rfl⟩ := List.mem_iff_getElem.mp hc
  rw [List.getElem_zipWith]
  rfl

theorem completion_ne_marking (id : String) (n : Nat) :
    ∀ other words, (completion id n : Effect δ) ≠ marking other words := by
  intro other words h
  injection h with h
  injection h with _ h
  injection h with h
  cases h

/-- The calls between the making of a file and its marking are about the file, and none of them
marks it as failed. -/
theorem Stored.concerns {r : Except Fault Unit} (h : Stored w past s d file chunks new r) :
    ∀ event ∈ calls new, event.1.Concerns file.id ∧ ∀ id words, event.1 ≠ marking id words := by
  cases h with
  | unembedded fault hworded hcalls hembed =>
    rw [hcalls]
    exact nofun
  | unsaved rows fault hfilled hcalls =>
    rw [hcalls]
    intro event hmem
    obtain rfl := List.mem_singleton.mp hmem
    exact ⟨hfilled.fileId, nofun⟩
  | saved rows r hne hfilled hcalls =>
    rw [hcalls]
    intro event hmem
    rcases List.mem_cons.mp hmem with rfl | hmem
    · exact ⟨hfilled.fileId, nofun⟩
    · obtain rfl := List.mem_singleton.mp hmem
      exact ⟨rfl, completion_ne_marking _ _⟩
  | empty r hempty hnone hcalls =>
    rw [hcalls]
    intro event hmem
    obtain rfl := List.mem_singleton.mp hmem
    exact ⟨rfl, completion_ne_marking _ _⟩

theorem Marked.concerns {id : String} {cause raised : Fault} (h : Marked id cause new raised) :
    ∀ event ∈ calls new, event.1.Concerns id := by
  cases h with
  | marked words r hwords hr hcalls =>
    rw [hcalls]
    intro event hmem
    obtain rfl := List.mem_singleton.mp hmem
    rfl
  | textless _ hwords hcalls =>
    rw [hcalls]
    exact nofun
  | muted words second _ hwords hraised hcalls =>
    rw [hcalls]
    intro event hmem
    obtain rfl := List.mem_singleton.mp hmem
    rfl

/-- What is called to mark a file, and what is raised, by what can be told about the cause. -/
theorem Marked.cases_words {id : String} {cause raised : Fault}
    (h : Marked id cause new raised) :
    (∀ words, cause.words = .ok words → ∃ r, calls new = [⟨marking id words, r⟩] ∧
      ((∀ second, r = .error second → second.Worded) → raised = cause) ∧
      ∀ second again, r = .error second → second.words = .error again → raised = again) ∧
    ∀ again, cause.words = .error again → calls new = [] ∧ raised = again := by
  cases h with
  | marked words r hwords hr hcalls =>
    refine ⟨fun words' hwords' => ?_, fun again hagain => ?_⟩
    · obtain rfl := Except.ok.inj (hwords.symm.trans hwords')
      refine ⟨r, hcalls, fun _ => rfl, fun second again hsecond hagain => ?_⟩
      obtain ⟨told, htold⟩ := hr second hsecond
      rw [htold] at hagain
      cases hagain
    · rw [hwords] at hagain
      cases hagain
  | textless _ hwords hcalls =>
    refine ⟨fun words hwords' => ?_, fun again hagain => ⟨hcalls, ?_⟩⟩
    · rw [hwords] at hwords'
      cases hwords'
    · exact Except.error.inj (hwords.symm.trans hagain)
  | muted words second _ hwords hraised hcalls =>
    refine ⟨fun words' hwords' => ?_, fun again hagain => ?_⟩
    · obtain rfl := Except.ok.inj (hwords.symm.trans hwords')
      refine ⟨.error second, hcalls, fun hworded => ?_, fun second' again hsecond hagain => ?_⟩
      · obtain ⟨told, htold⟩ := hworded second rfl
        rw [htold] at hraised
        cases hraised
      · obtain rfl := Except.error.inj hsecond
        exact Except.error.inj (hraised.symm.trans hagain)
    · rw [hwords] at hagain
      cases hagain

/-! ## All outcomes -/

/-- The file was made; then something has failed, and the file was marked, unless there was nothing
to be told about what has failed. -/
def Failed (w : Surroundings δ) (past : History δ) (s : Setup) (d : Document) (new : History δ)
    (raised : Fault) : Prop :=
  ∃ start work mark store chunks file cause, new = start ++ work ++ mark ∧
    pieces s d = some chunks ∧
    calls start = [⟨.stores (.findById d.storeId), .ok (some store)⟩,
      ⟨.files (.create ⟨d.storeId, d.filename, d.attributes⟩), .ok file⟩] ∧
    Stored w (past ++ start) s d file chunks work (.error cause) ∧
    (∀ event ∈ calls work, ∀ id words, event.1 ≠ marking id words) ∧
    (∀ words, cause.words = .ok words → ∃ r, calls mark = [⟨marking file.id words, r⟩] ∧
      ((∀ second, r = .error second → second.Worded) → raised = cause) ∧
      ∀ second again, r = .error second → second.words = .error again → raised = again) ∧
    ∀ again, cause.words = .error again → calls mark = [] ∧ raised = again

theorem Unmade.length_le {raised : Fault} (h : Unmade w past s d new raised) :
    (calls new).length ≤ 2 := by
  cases h with
  | unfound _ r hlook hcalls hnone => rw [hcalls]; exact Nat.le_succ 1
  | unsplit _ asked store hsplit hcalls hnone => rw [hcalls]; exact Nat.le_succ 1
  | refused _ store hcalls hnone => rw [hcalls]; exact Nat.le_refl 2

theorem failed_of_course {raised : Fault} (h : Course w past s d new (.error raised)) :
    Unmade w past s d new raised ∨ Failed w past s d new raised := by
  cases h with
  | unmade _ _ h => exact .inl h
  | failed start work mark store chunks file cause raised hpieces hcalls hnone hstored hmarked =>
    exact .inr ⟨start, work, mark, store, chunks, file, cause, rfl, hpieces, hcalls, hstored,
      fun event hmem => (hstored.concerns event hmem).2, hmarked.cases_words⟩

/-! ## The tables -/

/-- The tables have gained one file at most, and chunks of it, and nothing else has changed. A mark
that was answered is on that file. -/
def Contained (t t' : Relations δ) (events : History δ) : Prop :=
  ∃ id own, (∀ f ∈ t.files, f.id ≠ id) ∧ own.length ≤ 1 ∧ t.Gained t' id own ∧
    ∀ other words, ⟨marking other words, .ok ()⟩ ∈ events →
      other = id ∧ ∃ file, own = [file] ∧ file.status = .failed ∧ file.error = some words

/-- Every call behind the making of a file is about that file. -/
theorem gained_of_made {t t' : Relations δ} {events : History δ} {store : VectorStore}
    (hregistered : t.Registered) (he : ∀ event ∈ events, event.1.Concerns file.id)
    (h : t.Evolves ([⟨.stores (.findById d.storeId), .ok (some store)⟩,
      ⟨.files (.create ⟨d.storeId, d.filename, d.attributes⟩), .ok file⟩] ++ events) t') :
    (∀ f ∈ t.files, f.id ≠ file.id) ∧ ∃ own, own.length = 1 ∧ t.Gained t' file.id own := by
  obtain ⟨t₁, hstart, hrest⟩ := h.append
  obtain ⟨id, createdAt, hid, hrow, rfl⟩ := evolves_start hstart
  have hnew : ∀ f ∈ t.files, f.id ≠ file.id := by
    rw [show file.id = id by rw [hrow]; rfl]
    exact hregistered.ne hid
  exact ⟨hnew, (Relations.Gained.addFile t file).evolve hnew he hrest⟩

/-- The file is as the mark says, once the mark was answered. -/
theorem gained_of_marked {t t₁ t' : Relations δ} {id : String} {own : List StoredFile}
    {cause raised : Fault} (hgained : t.Gained t₁ id own) (hnew : ∀ f ∈ t.files, f.id ≠ id)
    (h : Marked id cause new raised) (hevolves : t₁.Evolves (calls new) t') :
    ∃ own', own'.length = own.length ∧ t.Gained t' id own' ∧
      ∀ other words, ⟨marking other words, .ok ()⟩ ∈ calls new →
        other = id ∧ ∀ f ∈ own', f.status = .failed ∧ f.error = some words := by
  obtain ⟨own', hlength, hgained'⟩ := hgained.evolve hnew h.concerns hevolves
  cases h with
  | marked words r hwords hr hcalls =>
    rw [hcalls] at hevolves ⊢
    cases r with
    | error second =>
      refine ⟨own', hlength, hgained', fun other told hmem => ?_⟩
      cases List.mem_singleton.mp hmem
    | ok _ =>
      cases hevolves with
      | cons hstep hend =>
        cases hend
        obtain rfl := hstep.updateOk
        refine ⟨_, List.length_map _, hgained.setStatus hnew _, fun other told hmem => ?_⟩
        cases List.mem_singleton.mp hmem
        refine ⟨rfl, fun f hf => ?_⟩
        obtain ⟨g, hg, rfl⟩ := List.mem_map.mp hf
        rw [← hgained.owned g hg, Relations.updated_self]
        exact ⟨rfl, rfl⟩
  | textless _ hwords hcalls =>
    rw [hcalls]
    exact ⟨own', hlength, hgained', fun other told => nofun⟩
  | muted words second _ hwords hraised hcalls =>
    rw [hcalls]
    refine ⟨own', hlength, hgained', fun other told hmem => ?_⟩
    cases List.mem_singleton.mp hmem

theorem marking_notMem_start {id words : String} {r : Except Fault (Option VectorStore)}
    {made : Except Fault StoredFile} : (⟨marking id words, .ok ()⟩ : Event δ) ∉
      [⟨.stores (.findById d.storeId), r⟩,
        ⟨.files (.create ⟨d.storeId, d.filename, d.attributes⟩), made⟩] := by
  intro hmem
  rcases List.mem_cons.mp hmem with hmem | hmem
  · cases hmem
  · cases List.mem_singleton.mp hmem

theorem contained_of_unmade {t t' : Relations δ} {raised : Fault} (hregistered : t.Registered)
    (h : Unmade w past s d new raised) (hevolves : t.Evolves (calls new) t') :
    Contained t t' (calls new) := by
  obtain ⟨free, hfree⟩ := t.exists_ne_id
  have looked {r : Except Fault (Option VectorStore)}
      (hcalls : calls new = [⟨.stores (.findById d.storeId), r⟩]) : Contained t t' (calls new) := by
    rw [hcalls] at hevolves ⊢
    cases hevolves with
    | cons hstep hend =>
      cases hend
      obtain rfl := hstep.findStore
      exact ⟨free, [], hfree, Nat.zero_le 1, .refl t' free,
        fun other words hmem => nomatch List.mem_singleton.mp hmem⟩
  cases h with
  | unfound _ r hlook hcalls hnone => exact looked hcalls
  | unsplit _ asked store hsplit hcalls hnone => exact looked hcalls
  | refused _ store hcalls hnone =>
    rw [hcalls] at hevolves ⊢
    cases hevolves with
    | cons hlook hrest =>
      obtain rfl := hlook.findStore
      cases hrest with
      | cons hcreate hend =>
        cases hend
        rcases hcreate.create with rfl | ⟨id, createdAt, hid, rfl⟩
        · exact ⟨free, [], hfree, Nat.zero_le 1, .refl _ free,
            fun other words hmem => absurd hmem marking_notMem_start⟩
        · exact ⟨id, [_], hregistered.ne hid, Nat.le_refl 1, .addFile _ _,
            fun other words hmem => absurd hmem marking_notMem_start⟩

theorem contained_of_course {t t' : Relations δ} {r : Except Fault StoredFile}
    (hregistered : t.Registered) (h : Course w past s d new r)
    (hevolves : t.Evolves (calls new) t') : Contained t t' (calls new) := by
  cases h with
  | unmade _ raised h => exact contained_of_unmade hregistered h hevolves
  | failed start work mark store chunks file cause raised hpieces hcalls hnone hstored hmarked =>
    rw [calls_append, calls_append, hcalls] at hevolves ⊢
    obtain ⟨t₁, hmade, hmark⟩ := hevolves.append
    obtain ⟨hnew, own, hone, hgained⟩ :=
      gained_of_made hregistered (fun event h => (hstored.concerns event h).1) hmade
    obtain ⟨own', hlength, hgained', hmarks⟩ := gained_of_marked hgained hnew hmarked hmark
    obtain ⟨row, rfl⟩ := List.length_eq_one_iff.mp (hlength.trans hone)
    refine ⟨file.id, [row], hnew, Nat.le_refl 1, hgained', fun other words hmem => ?_⟩
    -- no mark is among the calls before the last one
    rcases List.mem_append.mp hmem with hmem | hmem
    · rcases List.mem_append.mp hmem with hmem | hmem
      · exact absurd hmem marking_notMem_start
      · exact absurd rfl ((hstored.concerns _ hmem).2 other words)
    · obtain ⟨rfl, hrow⟩ := hmarks other words hmem
      exact ⟨rfl, row, rfl, hrow row List.mem_cons_self⟩
  | finished start work rest store chunks file hpieces hcalls hnone hstored hrest =>
    rw [calls_append, calls_append, hcalls, hrest.calls, List.append_nil] at hevolves ⊢
    obtain ⟨hnew, own, hone, hgained⟩ :=
      gained_of_made hregistered (fun event h => (hstored.concerns event h).1) hevolves
    refine ⟨file.id, own, hnew, Nat.le_of_eq hone, hgained, fun other words hmem => ?_⟩
    rcases List.mem_append.mp hmem with hmem | hmem
    · exact absurd hmem marking_notMem_start
    · exact absurd rfl ((hstored.concerns _ hmem).2 other words)

/-! ## An ingestion that fails -/

/-- **What a failed ingestion does**, whatever the services around answer. It has failed before its
file was made, and nothing else was asked; or it has marked its file as failed, by its last call and
with what is told about the fault, and raises that fault. Only where there is nothing that can be
told, about the fault or about the refusal of the mark, another one is raised, and in the first case
the file is not marked. Rows of other files are as they were. -/
theorem ingest_failures (w : Surroundings δ) (past : History δ) (s : Setup) (d : Document) :
    ∃ r new, Task.play w (ingest s d) past = (r, past ++ new) ∧
      (∀ raised, r = .error raised → Unmade w past s d new raised ∨ Failed w past s d new raised) ∧
      ∀ tables, w.Backed tables → (tables past).Registered →
        Contained (tables past) (tables (past ++ new)) (calls new) := by
  obtain ⟨r, new, hplay, hcourse⟩ := play_ingest w past s d
  refine ⟨r, new, hplay, ?_, fun tables hw hregistered => ?_⟩
  · rintro raised rfl
    exact failed_of_course hcourse
  · exact contained_of_course hregistered hcourse (hw.evolves_calls hplay)

/-- Rows are not stored, and files are not marked as failed, for these reasons. -/
def refusals (saving : Fault) (failing : Option Fault) : Effect Nat → Option Fault
  | .chunks (.saveBatch _) => some saving
  | .files (.updateStatus _ ⟨.failed, _, _⟩) => failing
  | _ => none

theorem ingest_failures_full :
    let w := spelling (refusals (.plain "disk full") none)
    let tables := spelled (refusals (.plain "disk full") none)
    (w.Backed tables ∧ (tables []).Registered) ∧
    ∃ raised h, Task.play w (ingest narrow abc) [] = (.error raised, h) ∧
      raised.message = "disk full" ∧ Failed w [] narrow abc h raised ∧
      Contained oneFile (tables h) (calls h) ∧
      (tables h).files.map (fun f => (f.status, f.error)) =
        [(.completed, none), (.failed, some "disk full")] := by
  intro w tables
  have hbacked : w.Backed tables := spelling_backed _
  have hregistered : (tables []).Registered := spelled_registered _
  refine ⟨⟨hbacked, hregistered⟩, ?_⟩
  have hmessage : (match (Task.play w (ingest narrow abc) []).1 with
      | .ok _ => none
      | .error raised => some raised.message) = some "disk full" := by decide +kernel
  have hfour : (calls (Task.play w (ingest narrow abc) []).2).length = 4 := by decide +kernel
  have hrows : (tables (Task.play w (ingest narrow abc) []).2).files.map
      (fun f => (f.status, f.error)) = [(.completed, none), (.failed, some "disk full")] := by
    decide +kernel
  obtain ⟨r, new, hplay, hfails, hcontained⟩ := ingest_failures w [] narrow abc
  rw [List.nil_append] at hplay
  rw [hplay] at hmessage hfour hrows
  cases r with
  | ok file => cases hmessage
  | error raised =>
    refine ⟨raised, new, hplay, Option.some.inj hmessage, ?_,
      hcontained tables hbacked hregistered, hrows⟩
    rcases hfails raised rfl with hunmade | hfailed
    · have fewer : 4 ≤ 2 := Nat.le_trans (Nat.le_of_eq hfour.symm) hunmade.length_le
      exact absurd fewer (by decide)
    · exact hfailed

theorem eq_textless_of {α β : Type} {p : Except Fault α × β}
    (h : (match p.1 with
      | .error (.other name message none) =>
        name == "TypeError" && message == "Cannot convert object to primitive value"
      | _ => false) = true) : p = (.error .textless, p.2) := by
  obtain ⟨r, b⟩ := p
  dsimp only at h
  split at h
  · next name message =>
    obtain ⟨hname, hmessage⟩ := Bool.and_eq_true_iff.mp h
    rw [eq_of_beq hname, eq_of_beq hmessage]
    rfl
  · cases h

/-- A call that sets the status of a file. -/
def updates : Effect δ → Bool
  | .files (.updateStatus _ _) => true
  | _ => false

/-- With a value that has no text, another fault is raised than the one that has occurred. As the
refusal of the mark it replaces the cause; as the cause it keeps the file from being marked, which
stays in progress. -/
theorem ingest_textless :
    let value := Fault.value (.record [("toString", .number 1)])
    (∃ h, Task.play (spelling (refusals (.plain "boom") (some value))) (ingest narrow abc) [] =
      (.error .textless, h)) ∧
    ∃ h, Task.play (spelling (refusals value none)) (ingest narrow abc) [] = (.error .textless, h) ∧
      (∀ event ∈ h, updates event.1 = false) ∧
      (spelled (refusals value none) h).files.map StoredFile.status = [.completed, .inProgress] := by
  intro value
  have unmarked : (Task.play (spelling (refusals value none)) (ingest narrow abc) []).2.all
      (fun event => !updates event.1) = true := by decide +kernel
  refine ⟨⟨_, eq_textless_of (by decide +kernel)⟩, _, eq_textless_of (by decide +kernel),
    fun event hmem => ?_, by decide +kernel⟩
  simpa using List.all_eq_true.mp unmarked event hmem

end Ingestion
end Retrieval
