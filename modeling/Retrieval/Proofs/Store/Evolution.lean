import Retrieval.Proofs.Store.Relations

/-!
# What calls make of the tables

A world has tables behind it: each call is answered from them or refused, and a refused call may
have changed them all the same (`Surroundings.Backed`). So what they hold after a task follows from
the calls that the task has made, in order (`evolves_calls`).
-/

namespace Retrieval

variable {δ : Type}

def Event.freshId? : Event δ → Option String
  | ⟨.freshId, id⟩ => some id
  | _ => none

namespace History

def calls (h : History δ) : History δ := h.filter fun event => !event.1.isAside

def freshIds (h : History δ) : List String := h.filterMap Event.freshId?

@[simp] theorem calls_append (h k : History δ) : calls (h ++ k) = calls h ++ calls k :=
  List.filter_append h k

@[simp] theorem freshIds_append (h k : History δ) :
    freshIds (h ++ k) = freshIds h ++ freshIds k :=
  List.filterMap_append

end History

/-- A call on the tables that has failed. -/
def Effect.Refused : (e : Effect δ) → e.Answer → Prop
  | .stores _, r | .files _, r | .chunks _, r => ∃ fault, r = .error fault
  | _, _ => False

namespace Relations

/-- What the tables may hold once a call was answered in that way. -/
inductive Permits (t : Relations δ) (e : Effect δ) (r : e.Answer) (t' : Relations δ) : Prop
  | answered : t.Answers e r t' → Permits t e r t'
  | refused : e.Refused r → t' = t → Permits t e r t'
  /-- the call was carried out, and its answer was lost -/
  | lost (unheard : e.Answer) : e.Refused r → t.Answers e unheard t' → Permits t e r t'

/-- What the tables may hold after events. -/
inductive Evolves : Relations δ → History δ → Relations δ → Prop
  | nil (t : Relations δ) : Evolves t [] t
  | cons {t t₁ t' : Relations δ} {e : Effect δ} {r : e.Answer} {rest : History δ} :
      t.Permits e r t₁ → Evolves t₁ rest t' → Evolves t (⟨e, r⟩ :: rest) t'

variable {t t' : Relations δ}

theorem Permits.aside {e : Effect δ} {r : e.Answer} (he : e.isAside = true)
    (h : t.Permits e r t') : t' = t := by
  cases h with
  | answered h => exact h.aside he
  | refused _ h => exact h
  | lost unheard _ h => exact h.aside he

/-- Only calls on the tables change them. -/
theorem Evolves.single {e : Effect δ} {r : e.Answer} (h : Evolves t [⟨e, r⟩] t') :
    t.Permits e r t' := by
  cases h with
  | cons hpermits hrest =>
    cases hrest
    exact hpermits

theorem Evolves.calls {h : History δ} (hevolves : Evolves t h t') : Evolves t h.calls t' := by
  induction hevolves with
  | nil t => exact .nil t
  | @cons t t₁ t' e r rest hstep _ ih =>
    cases he : e.isAside with
    | true =>
      obtain rfl := hstep.aside he
      simpa [History.calls, he] using ih
    | false =>
      have kept : History.calls (⟨e, r⟩ :: rest) = ⟨e, r⟩ :: History.calls rest := by
        simp [History.calls, he]
      rw [kept]
      exact .cons hstep ih

theorem Evolves.append {h k : History δ} (hevolves : Evolves t (h ++ k) t') :
    ∃ between, Evolves t h between ∧ Evolves between k t' := by
  induction h generalizing t with
  | nil => exact ⟨t, .nil t, hevolves⟩
  | cons event rest ih =>
    cases hevolves with
    | cons hstep hrest =>
      obtain ⟨between, hfirst, hsecond⟩ := ih hrest
      exact ⟨between, .cons hstep hfirst, hsecond⟩

/-- An update changes no file with another identifier. -/
theorem map_updated_of_ne {files : List StoredFile} {id : String} (u : StatusUpdate)
    (h : ∀ f ∈ files, f.id ≠ id) : files.map (updated id u) = files :=
  (List.map_congr_left fun f hf => if_neg (h f hf)).trans (List.map_id files)

/-! ## Single calls -/

theorem Permits.findStore {id : String} {r : Except Fault (Option VectorStore)}
    (h : t.Permits (.stores (.findById id)) r t') : t' = t := by
  cases h with
  | answered h =>
    obtain ⟨_, -, -, rfl⟩ := h
    rfl
  | refused _ h => exact h
  | lost _ _ h =>
    obtain ⟨_, -, -, rfl⟩ := h
    rfl

theorem Permits.findStoreOk {id : String} {found : Option VectorStore}
    (h : t.Permits (.stores (.findById id)) (.ok found) t') : found.isSome = t.hasStore id := by
  cases h with
  | answered h =>
    obtain ⟨_, hfound, hr, -⟩ := h
    cases hr
    exact hfound
  | refused h _ => obtain ⟨_, h⟩ := h; cases h
  | lost _ h _ => obtain ⟨_, h⟩ := h; cases h

theorem Permits.createOk {new : NewFile} {file : StoredFile}
    (h : t.Permits (.files (.create new)) (.ok file) t') :
    ∃ id createdAt, id ∉ t.issued ∧ file = new.row id createdAt ∧ t' = t.addFile file := by
  cases h with
  | answered h =>
    rcases h.create with ⟨id, createdAt, hid, hfile, ht⟩ | ⟨fault, hfault, -⟩
    · cases hfile
      exact ⟨id, createdAt, hid, rfl, ht⟩
    · cases hfault
  | refused h _ => obtain ⟨_, h⟩ := h; cases h
  | lost _ h _ => obtain ⟨_, h⟩ := h; cases h

theorem Permits.create {new : NewFile} {r : Except Fault StoredFile}
    (h : t.Permits (.files (.create new)) r t') :
    t' = t ∨ ∃ id createdAt, id ∉ t.issued ∧ t' = t.addFile (new.row id createdAt) := by
  have carried {r : Except Fault StoredFile} (h : t.Answers (.files (.create new)) r t') :
      t' = t ∨ ∃ id createdAt, id ∉ t.issued ∧ t' = t.addFile (new.row id createdAt) := by
    rcases h.create with ⟨id, createdAt, hid, -, ht⟩ | ⟨fault, -, ht⟩
    · exact .inr ⟨id, createdAt, hid, ht⟩
    · exact .inl ht
  cases h with
  | answered h => exact carried h
  | refused _ h => exact .inl h
  | lost _ _ h => exact carried h

theorem Permits.updateOk {id : String} {u : StatusUpdate}
    (h : t.Permits (.files (.updateStatus id u)) (.ok ()) t') : t' = t.setStatus id u := by
  cases h with
  | answered h => exact h.2
  | refused h _ => obtain ⟨_, h⟩ := h; cases h
  | lost _ h _ => obtain ⟨_, h⟩ := h; cases h

theorem Permits.update {id : String} {u : StatusUpdate} {r : Except Fault Unit}
    (h : t.Permits (.files (.updateStatus id u)) r t') : t' = t ∨ t' = t.setStatus id u := by
  cases h with
  | answered h => exact .inr h.2
  | refused _ h => exact .inl h
  | lost _ _ h => exact .inr h.2

theorem Permits.findFileOk {storeId id : String} {found : Option StoredFile}
    (h : t.Permits (.files (.findById storeId id)) (.ok found) t') :
    found = t.file? storeId id := by
  cases h with
  | answered h => exact Except.ok.inj h.1
  | refused h _ => obtain ⟨_, h⟩ := h; cases h
  | lost _ h _ => obtain ⟨_, h⟩ := h; cases h

theorem Permits.findFile {storeId id : String} {r : Except Fault (Option StoredFile)}
    (h : t.Permits (.files (.findById storeId id)) r t') : t' = t := by
  cases h with
  | answered h => exact h.2
  | refused _ h => exact h
  | lost _ _ h => exact h.2

theorem Permits.deleteFileOk {storeId id : String} {there : Bool}
    (h : t.Permits (.files (.delete storeId id)) (.ok there) t') :
    there = (t.file? storeId id).isSome ∧
      t' = t.dropFiles fun f => f.id == id && f.storeId == storeId := by
  cases h with
  | answered h => exact ⟨Except.ok.inj h.1, h.2⟩
  | refused h _ => obtain ⟨_, h⟩ := h; cases h
  | lost _ h _ => obtain ⟨_, h⟩ := h; cases h

theorem Permits.deleteFile {storeId id : String} {r : Except Fault Bool}
    (h : t.Permits (.files (.delete storeId id)) r t') :
    t' = t ∨ t' = t.dropFiles fun f => f.id == id && f.storeId == storeId := by
  cases h with
  | answered h => exact .inr h.2
  | refused _ h => exact .inl h
  | lost _ _ h => exact .inr h.2

theorem Permits.deleteChunksOk {id : String}
    (h : t.Permits (.chunks (.deleteByFile id)) (.ok ()) t') : t' = t.dropChunks id := by
  cases h with
  | answered h => exact h.2
  | refused h _ => obtain ⟨_, h⟩ := h; cases h
  | lost _ h _ => obtain ⟨_, h⟩ := h; cases h

theorem Permits.deleteChunks {id : String} {r : Except Fault Unit}
    (h : t.Permits (.chunks (.deleteByFile id)) r t') : t' = t ∨ t' = t.dropChunks id := by
  cases h with
  | answered h => exact .inr h.2
  | refused _ h => exact .inl h
  | lost _ _ h => exact .inr h.2

theorem Permits.saveOk {rows : List (FileChunk δ)}
    (h : t.Permits (.chunks (.saveBatch rows)) (.ok ()) t') : t' = t.addChunks rows := by
  cases h with
  | answered h =>
    rcases h.saveBatch with ⟨-, ht, -⟩ | ⟨_, _, h, _⟩
    · exact ht
    · cases h
  | refused h _ => obtain ⟨_, h⟩ := h; cases h
  | lost _ h _ => obtain ⟨_, h⟩ := h; cases h

theorem Permits.save {rows : List (FileChunk δ)} {r : Except Fault Unit}
    (h : t.Permits (.chunks (.saveBatch rows)) r t') : t' = t ∨ t' = t.addChunks rows := by
  have carried {r : Except Fault Unit} (h : t.Answers (.chunks (.saveBatch rows)) r t') :
      t' = t ∨ t' = t.addChunks rows := by
    rcases h.saveBatch with ⟨-, ht, -⟩ | ⟨_, _, _, ht⟩
    · exact .inr ht
    · exact .inl ht
  cases h with
  | answered h => exact carried h
  | refused _ h => exact .inl h
  | lost _ _ h => exact carried h

end Relations

/-- The world answers from tables: these are what they hold after each history. -/
def Surroundings.Backed (w : Surroundings δ) (tables : History δ → Relations δ) : Prop :=
  ∀ e h, (tables h).Permits e (w e h) (tables (h ++ [⟨e, w e h⟩]))

namespace Surroundings

variable {w : Surroundings δ} {tables : History δ → Relations δ} {past new : History δ}

theorem Backed.evolves (hw : w.Backed tables) (h : w.Tells past new) :
    (tables past).Evolves new (tables (past ++ new)) := by
  induction new generalizing past with
  | nil =>
    rw [List.append_nil]
    exact .nil _
  | cons event rest ih =>
    obtain ⟨e, r⟩ := event
    obtain ⟨hr, hrest⟩ := h
    obtain rfl : r = w e past := hr
    have later := ih hrest
    rw [List.append_assoc] at later
    exact .cons (hw e past) later

/-- What a task leaves in the tables follows from the calls that it has made. -/
theorem Backed.evolves_calls {α : Type} {t : Task δ α} {r : Except Fault α}
    (hw : w.Backed tables) (h : Task.play w t past = (r, past ++ new)) :
    (tables past).Evolves new.calls (tables (past ++ new)) :=
  (hw.evolves (Task.tells_of_play h)).calls

end Surroundings

/-- Files have identifiers that are known to have been given away. -/
def Relations.Registered (t : Relations δ) : Prop := ∀ f ∈ t.files, f.id ∈ t.issued

theorem Relations.Registered.ne {t : Relations δ} (ht : t.Registered) {id : String}
    (h : id ∉ t.issued) : ∀ f ∈ t.files, f.id ≠ id := by
  intro f hf heq
  exact h (heq ▸ ht f hf)

/-! ## Identifiers -/

/-- No identifier is handed out twice. -/
def Surroundings.Distinct (w : Surroundings δ) : Prop :=
  ∀ h, w .freshId h ∉ History.freshIds h

theorem Surroundings.Distinct.fresh {w : Surroundings δ} {past new : History δ}
    (hw : w.Distinct) (h : w.Tells past new) :
    (∀ id ∈ History.freshIds new, id ∉ History.freshIds past) ∧ (History.freshIds new).Nodup := by
  induction new generalizing past with
  | nil => exact ⟨nofun, .nil⟩
  | cons event rest ih =>
    obtain ⟨hr, hrest⟩ := h
    obtain ⟨later, hnodup⟩ := ih hrest
    rw [History.freshIds_append] at later
    have old : ∀ id ∈ History.freshIds rest, id ∉ History.freshIds past :=
      fun id hid hmem => later id hid (List.mem_append_left _ hmem)
    obtain ⟨e, r⟩ := event
    cases e with
    | freshId =>
      obtain rfl : r = w .freshId past := hr
      have own : w .freshId past ∉ History.freshIds rest :=
        fun hid => later _ hid (List.mem_append_right _ List.mem_cons_self)
      refine ⟨fun id hid => ?_, List.nodup_cons.mpr ⟨own, hnodup⟩⟩
      rcases List.mem_cons.mp hid with rfl | hid
      · exact hw past
      · exact old id hid
    | _ => exact ⟨old, hnodup⟩

/-! ## A world with tables -/

namespace Relations

variable (provider : List Text → Except Fault (List (List δ))) (refusal : Effect δ → Option Fault)
  (first : Relations δ)

/-- An answer to each question; calls on files and on chunks may be refused. -/
def respond : (e : Effect δ) → Relations δ → e.Answer × Relations δ
  | .files call, t =>
    match refusal (.files call) with
    | some fault => (.error fault, t)
    | none => serve provider (.files call) t
  | .chunks call, t =>
    match refusal (.chunks call) with
    | some fault => (.error fault, t)
    | none => serve provider (.chunks call) t
  | e, t => serve provider e t

theorem respond_permits (e : Effect δ) (t : Relations δ) :
    t.Permits e (respond provider refusal e t).1 (respond provider refusal e t).2 := by
  have served (e : Effect δ) : t.Permits e (serve provider e t).1 (serve provider e t).2 :=
    .answered (serve_answers provider e t)
  cases e with
  | files call =>
    simp only [respond]
    split
    · exact .refused ⟨_, rfl⟩ rfl
    · exact served _
  | chunks call =>
    simp only [respond]
    split
    · exact .refused ⟨_, rfl⟩ rfl
    · exact served _
  | _ => exact served _

def servedTables (h : History δ) : Relations δ :=
  h.foldl (fun t event => (respond provider refusal event.1 t).2) first

/-- The world that answers from these tables, with a new identifier each time. -/
def served : Surroundings δ
  | .freshId, h => fresh (History.freshIds h)
  | e, h => (respond provider refusal e (servedTables provider refusal first h)).1

theorem served_backed :
    (served provider refusal first).Backed (servedTables provider refusal first) := by
  intro e h
  have step : servedTables provider refusal first (h ++ [⟨e, served provider refusal first e h⟩]) =
      (respond provider refusal e (servedTables provider refusal first h)).2 := by
    rw [servedTables, List.foldl_append]
    rfl
  rw [step]
  cases e with
  | freshId => exact .answered rfl
  | _ => exact respond_permits provider refusal _ _

theorem served_distinct : (served provider refusal first).Distinct :=
  fun _ => fresh_notMem _

end Relations
end Retrieval
