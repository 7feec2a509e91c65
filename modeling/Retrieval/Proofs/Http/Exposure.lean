import Retrieval.Proofs.Embedding.Exchange
import Retrieval.Proofs.Http.Layers
import Retrieval.Proofs.Http.Reaching

/-!
# What failures of the database leave open

`follows_handle`: once a call on the database has failed with an error that nothing expects, it is
settled what is sent in the end, and settled by the call alone. Where a file is to be marked as
failed, it is settled by what made the mark necessary.
-/

namespace Retrieval

variable {δ : Type}

/-- The error is none of the service's own, is not about the request, and is an error at all. -/
def Fault.isUnexpected : Fault → Bool
  | .provider .. | .configuration _ | .api .. | .other .. => true
  | .service .. | .validation _ | .upload .. | .value _ => false

theorem Fault.worded_of_unexpected {fault : Fault} (h : fault.isUnexpected = true) :
    fault.Worded := by
  cases fault with
  | value v => cases h
  | _ => exact ⟨_, rfl⟩

theorem Fault.not_worded {fault raised : Fault} (h : fault.words = .error raised) :
    ¬ fault.Worded := by
  rintro ⟨words, hwords⟩
  cases h.symm.trans hwords

namespace Effect

/-- The database is asked: whether it answers, or for something in its tables. -/
def isDatabase : Effect δ → Bool
  | .probe | .stores _ | .files _ | .chunks _ => true
  | _ => false

/-- A file is to be marked as failed. -/
def isMarking : Effect δ → Bool
  | .files (.updateStatus _ ⟨.failed, _, _⟩) => true
  | _ => false

/-- The database has failed with an error that nothing expects. -/
def Broken : (e : Effect δ) → e.Answer → Prop
  | .probe, r | .stores _, r | .files _, r | .chunks _, r =>
    ∃ fault : Fault, fault.isUnexpected = true ∧ r = .error fault
  | _, _ => False

/-- The mark was set, or it can be told why not. -/
def Told : (e : Effect δ) → e.Answer → Prop
  | .files _, r => ∀ fault, r = .error fault → fault.Worded
  | _, _ => True

variable {e : Effect δ} {r : e.Answer}

theorem Broken.isDatabase (h : e.Broken r) : e.isDatabase = true := by
  cases e with
  | probe | stores call | files call | chunks call => rfl
  | _ => exact h.elim

theorem isDatabase_of_isMarking (h : e.isMarking = true) : e.isDatabase = true := by
  cases e with
  | files call => rfl
  | _ => cases h

theorem Broken.told (h : e.Broken r) : e.Told r := by
  cases e with
  | files call =>
    obtain ⟨fault, hfault, rfl⟩ := h
    rintro _ ⟨⟩
    exact Fault.worded_of_unexpected hfault
  | _ => trivial

end Effect

namespace Http

/-! ## What is shown -/

/-- What is shown of an error that nothing expects. -/
def internal : Shown where
  status := 500
  body := .json (.record [("status", .text "error"), ("message", .text "Internal Server Error")])

/-- What is shown where the nearest chunks cannot be looked up. -/
def unavailable : Shown where
  status := 503
  body := .json (.record [("status", .text "error"), ("code", .text "backend_unavailable"),
    ("message", .text "Nearest-neighbor lookup failed")])

/-- What is shown of the service where the database does not answer. -/
def degraded (app : App) : Shown where
  status := 503
  body := .json (.record [("status", .text "degraded"),
    ("database", .record
      [("status", .text "error"), ("detail", .text "Database connection failed")]),
    ("openaiApiKeySet", .flag app.apiKeySet)])

/-- What is shown where a call on the database fails. -/
def failure (app : App) : Effect Float → Shown
  | .probe => degraded app
  | .chunks (.nearestNeighbors _) => unavailable
  | _ => internal

def reply (r : Located) (fault : Fault) : Response :=
  if isDismissal fault then notFound r else (Response.ofFault fault).concluded r.toRequest

theorem reply_of_unexpected (r : Located) {fault : Fault} (h : fault.isUnexpected = true) :
    (reply r fault).shown = internal := by
  have hfault : Response.ofFault fault = Response.ofFault .textless ∧
      isDismissal fault = false := by
    cases fault with
    | service | validation | upload | value => cases h
    | _ => exact ⟨rfl, rfl⟩
  unfold reply
  rw [hfault.2, if_neg Bool.false_ne_true, hfault.1,
    concluded_of_failure (n := 500) _ (by decide +kernel) (by decide +kernel) (by decide)]
  rfl

theorem concluded_unready (request : Request) (v : Value) :
    (Response.json 503 v).concluded request = Response.json 503 v := by
  have hsuccess : (Response.json 503 .null).isSuccess = false := by decide +kernel
  have hstatus : Number.natural? 503 = some 503 := by decide +kernel
  exact concluded_of_failure request hsuccess hstatus (by decide)

theorem reply_unavailable (r : Located) (cause : Option Fault) :
    (reply r (.service .backendUnavailable "Nearest-neighbor lookup failed" cause)).shown =
      unavailable := by
  unfold reply
  rw [show isDismissal _ = false from rfl, if_neg Bool.false_ne_true]
  exact congrArg Response.shown (concluded_unready r.toRequest _)

/-! ## Stages -/

/-- How much is settled of what is shown in the end. -/
inductive Stage where
  | free
  /-- a file is to be marked as failed, and this is shown unless the mark fails without words -/
  | due (v : Shown)
  | settled (v : Shown)

def Stage.shown? : Stage → Option Shown
  | .free => none
  | .due v | .settled v => some v

/-- One question of a request, and the stages before and after its answer. -/
inductive Exposed (app : App) : Stage → (e : Effect Float) → e.Answer → Stage → Prop
  | aside (φ : Stage) (e : Effect Float) (r : e.Answer) : e.isDatabase = false →
      Exposed app φ e r φ
  | announced (entry : LogEntry) (v : Shown) : Exposed app .free (.log entry) () (.due v)
  | answered (e : Effect Float) (r : e.Answer) : e.isMarking = false → ¬ e.Broken r →
      Exposed app .free e r .free
  | broken (e : Effect Float) (r : e.Answer) : e.isMarking = false → e.Broken r →
      Exposed app .free e r (.settled (failure app e))
  | marked (e : Effect Float) (r : e.Answer) (v : Shown) : e.isMarking = true → e.Told r →
      Exposed app (.due v) e r (.settled v)
  | muted (e : Effect Float) (r : e.Answer) (v : Shown) : e.isMarking = true → ¬ e.Told r →
      Exposed app (.due v) e r (.settled internal)
  | ignored (e : Effect Float) (r : e.Answer) (v : Shown) : e.isMarking = true →
      Exposed app (.settled v) e r (.settled v)

/-- The protocol of a request, against every world. -/
def exposure (app : App) : Protocol (Effect Float) Effect.Answer Stage where
  Expects := fun _ _ _ => True
  Moves := Exposed app

variable {app : App} {φ ψ : Stage} {e : Effect Float} {a : e.Answer}

/-- A call that breaks settles what is shown. -/
theorem Exposed.of_broken (h : Exposed app φ e a ψ) (hmark : e.isMarking = false)
    (hbroken : e.Broken a) : ψ = .settled (failure app e) := by
  cases h with
  | aside _ _ _ hdatabase => cases hdatabase.symm.trans hbroken.isDatabase
  | announced => exact hbroken.elim
  | answered _ _ _ hsound => exact absurd hbroken hsound
  | broken => rfl
  | marked _ _ _ h => cases hmark.symm.trans h
  | muted _ _ _ h => cases hmark.symm.trans h
  | ignored _ _ _ h => cases hmark.symm.trans h

/-- A mark settles what was to be shown already, whether it was set or not. -/
theorem Exposed.of_marking (h : Exposed app φ e a ψ) (hmark : e.isMarking = true)
    (htold : e.Told a) : ∃ v, φ.shown? = some v ∧ ψ = .settled v := by
  cases h with
  | aside _ _ _ hdatabase =>
    cases hdatabase.symm.trans (Effect.isDatabase_of_isMarking hmark)
  | announced => cases hmark
  | answered _ _ h => cases h.symm.trans hmark
  | broken _ _ h => cases h.symm.trans hmark
  | marked _ _ v => exact ⟨v, rfl, rfl⟩
  | muted _ _ _ _ hmute => exact absurd htold hmute
  | ignored _ _ v => exact ⟨v, rfl, rfl⟩

theorem final_settled (v : Shown) : Task.Final (exposure app) (.settled v) := by
  intro e r ψ hmove
  cases hmove <;> rfl

theorem settled_of_final (h : Task.Final (exposure app) φ) : ∃ v, φ = .settled v := by
  cases φ with
  | free =>
    have hmove : Exposed app .free .probe (.error .textless) (.settled (degraded app)) :=
      .broken .probe _ rfl ⟨_, rfl, rfl⟩
    cases h _ _ _ hmove
  | due v =>
    have htold : (Effect.files (.updateStatus "" ⟨.failed, none, none⟩) : Effect Float).Told
        (.ok ()) := fun _ h => by cases h
    have hmove : Exposed app (.due v) (.files (.updateStatus "" ⟨.failed, none, none⟩)) (.ok ())
        (.settled v) := .marked _ _ v rfl htold
    cases h _ _ _ hmove
  | settled v => exact ⟨v, rfl⟩

/-- After a call that breaks, it is settled what is shown. -/
theorem settled_of_leads {new : History Float} (h : Task.Leads (exposure app) φ new ψ)
    {event : Event Float} (hmem : event ∈ new) (hmark : event.1.isMarking = false)
    (hbroken : event.1.Broken event.2) : ψ = .settled (failure app event.1) := by
  induction h with
  | nil φ => cases hmem
  | cons hmove hrest ih =>
    rcases List.mem_cons.mp hmem with rfl | hmem
    · obtain rfl := Exposed.of_broken hmove hmark hbroken
      exact hrest.final (final_settled _)
    · exact ih hmem

/-! ## Calls -/

/-- Work has failed in a stage in which it is open what is shown, or as this is shown already. -/
def Struck (v : Shown) (φ : Stage) (fault : Fault) : Prop :=
  φ = .free ∨ fault.isUnexpected = true ∧ φ = .settled v

/-- It is open what is shown, or it is the response to the fault. -/
def Raised (r : Located) (φ : Stage) (fault : Fault) : Prop :=
  φ = .free ∨ φ = .settled (reply r fault).shown

/-- Where the task has a result, it is as open as before what is shown. -/
abbrev Opens {α : Type} (app : App) (bad : Stage → Fault → Prop) (t : Task Float α) : Prop :=
  t.Follows (exposure app) (fun ψ _ => ψ = .free) bad .free

variable {α β : Type} {r : Located} {fault : Fault} {v : Shown} {t : Task Float α}
  {bad : Stage → Fault → Prop}

theorem Struck.raised (h : Struck internal φ fault) : Raised r φ fault := by
  rcases h with rfl | ⟨hfault, rfl⟩
  · exact .inl rfl
  · rw [← reply_of_unexpected r hfault]
    exact .inr rfl

theorem Opens.raised (h : Opens app (Struck internal) t) : Opens app (Raised r) t :=
  h.mono (fun _ _ h => h) fun _ _ h => h.raised

theorem Opens.bind {ok : Stage → β → Prop} {f : α → Task Float β} (ht : Opens app bad t)
    (hf : ∀ a, (f a).Follows (exposure app) ok bad .free) :
    (t >>= f).Follows (exposure app) ok bad .free := by
  refine Task.Follows.bind ht ?_
  rintro ψ a rfl
  exact hf a

theorem opens_pure (a : α) : Opens app bad (pure a) := Task.follows_pure rfl

theorem follows_aside (h : e.isDatabase = false) :
    (Task.ask e).Follows (exposure app) (fun ψ _ => ψ = φ) bad φ :=
  Task.follows_ask fun a _ => ⟨φ, .aside φ e a h, rfl⟩

/-- A call is answered, or it breaks and settles what is shown. -/
theorem exists_exposed (hmark : e.isMarking = false) (a : e.Answer) :
    ∃ ψ, Exposed app .free e a ψ ∧
      (¬ e.Broken a ∧ ψ = .free ∨ e.Broken a ∧ ψ = .settled (failure app e)) := by
  by_cases hbroken : e.Broken a
  · exact ⟨_, .broken e a hmark hbroken, .inr ⟨hbroken, rfl⟩⟩
  · exact ⟨_, .answered e a hmark hbroken, .inl ⟨hbroken, rfl⟩⟩

/-- What is known after a call that may have broken. -/
theorem ends_call {x : Except Fault α}
    (h : ψ = .free ∨ (∃ fault : Fault, fault.isUnexpected = true ∧ x = .error fault) ∧
      ψ = .settled v) : Task.Ends (fun ψ _ => ψ = .free) (Struck v) ψ x := by
  rcases h with rfl | ⟨⟨fault, hfault, rfl⟩, rfl⟩
  · cases x with
    | ok a => rfl
    | error fault => exact .inl rfl
  · exact .inr ⟨hfault, rfl⟩

theorem opens_stores (call : StoreCall) : Opens app (Struck internal) (Task.stores call) := by
  refine Task.follows_stores fun x _ => ?_
  obtain ⟨ψ, hmove, hψ⟩ := exists_exposed (e := .stores call) rfl x
  exact ⟨ψ, hmove, ends_call (hψ.imp And.right id)⟩

theorem opens_files {call : FileCall}
    (hmark : (Effect.files call : Effect Float).isMarking = false) :
    Opens app (Struck internal) (Task.files call) := by
  refine Task.follows_files fun x _ => ?_
  obtain ⟨ψ, hmove, hψ⟩ := exists_exposed (e := .files call) hmark x
  exact ⟨ψ, hmove, ends_call (hψ.imp And.right id)⟩

theorem opens_chunks (call : ChunkCall Float) :
    Opens app (Struck (failure app (.chunks call))) (Task.chunks call) := by
  refine Task.follows_chunks fun x _ => ?_
  obtain ⟨ψ, hmove, hψ⟩ := exists_exposed (e := .chunks call) rfl x
  exact ⟨ψ, hmove, ends_call (hψ.imp And.right id)⟩

/-- Embedding never asks the database. -/
theorem opens_embedAll (c : Embedding.Client) (texts : List Text) :
    Opens app (Struck internal) (c.embedAll texts none) := by
  have aside : ∀ (now : Embedding.Answered Float) (e : Effect Float) (a : e.Answer)
      (now' : Embedding.Answered Float), Embedding.Exchanged now e a now' →
      (exposure app).Moves .free e a .free := by
    intro now e a now' hmove
    refine Exposed.aside .free e a ?_
    cases hmove <;> rfl
  exact (Embedding.follows_of_exchange (Embedding.follows_embedAll [] c texts none) aside).mono
    (fun _ _ h => h.1) fun _ _ h => .inl h.1

/-! ## Ingesting -/

theorem opens_requireStore (id : String) :
    Opens app (Struck internal) (Ingestion.requireStore id) := by
  refine (opens_stores _).bind fun found => ?_
  cases found with
  | none => exact Task.follows_throw (.inl rfl)
  | some store => exact opens_pure _

theorem opens_chunksOf (s : Ingestion.Setup) (d : Document) :
    Opens app (Struck internal) (Ingestion.chunksOf s d) := by
  unfold Ingestion.chunksOf
  split
  · exact Task.follows_throw (.inl rfl)
  · refine Opens.bind (follows_aside rfl) fun reason => ?_
    dsimp only
    split
    · exact opens_pure _
    · exact Task.follows_throw (.inl rfl)

theorem opens_identify (file : StoredFile) (metadata : Option Metadata) (createdAt : Instant)
    (pairs : List (Chunk × List Float)) :
    Opens app (Struck internal) (Ingestion.identify file metadata createdAt pairs) := by
  induction pairs with
  | nil => exact opens_pure _
  | cons pair rest ih =>
    exact Opens.bind (follows_aside rfl) fun id => ih.bind fun more => opens_pure _

/-- The chunks are embedded and stored, and the file is completed. -/
theorem opens_stored (s : Ingestion.Setup) (file : StoredFile) (chunks : List Chunk)
    (metadata : Option Metadata) :
    Opens app (Struck internal) (do
      Ingestion.embedAndStore s file chunks metadata
      Task.files (.updateStatus file.id ⟨.completed, some chunks.length, none⟩)) := by
  have hrows : Opens app (Struck internal)
      (Ingestion.embedAndStore s file chunks metadata : Task Float Unit) := by
    unfold Ingestion.embedAndStore
    split
    · exact opens_pure _
    · refine (opens_embedAll s.client _).bind fun vectors => ?_
      refine Opens.bind (follows_aside rfl) fun createdAt => ?_
      exact (opens_identify file metadata createdAt _).bind fun rows => opens_chunks _
  exact hrows.bind fun _ => opens_files rfl

/-- Setting the mark settles what was to be shown, unless it fails without words. -/
theorem follows_mark (fileId words : String)
    (h : φ = .due v ∨ v = internal ∧ φ = .settled v) :
    (Task.files (.updateStatus fileId ⟨.failed, none, some (some words)⟩)).Follows (exposure app)
      (fun ψ _ => ψ = .settled v)
      (fun ψ second => second.Worded ∧ ψ = .settled v ∨
        ¬ second.Worded ∧ ψ = .settled internal) φ := by
  refine Task.follows_files fun x _ => ?_
  rcases h with rfl | ⟨rfl, rfl⟩
  · cases x with
    | ok => exact ⟨_, Exposed.marked _ _ v rfl (fun _ h => by cases h), rfl⟩
    | error second =>
      by_cases hworded : second.Worded
      · refine ⟨_, .marked _ _ v rfl ?_, .inl ⟨hworded, rfl⟩⟩
        rintro _ ⟨⟩
        exact hworded
      · exact ⟨_, .muted _ _ v rfl fun htold => hworded (htold second rfl), .inr ⟨hworded, rfl⟩⟩
  · refine ⟨_, .ignored _ x internal rfl, ?_⟩
    cases x with
    | ok => rfl
    | error second => exact (Classical.em second.Worded).imp (fun h => ⟨h, rfl⟩) fun h => ⟨h, rfl⟩

/-- Once a file is marked as failed, what is shown is the response to the cause; the cause is told,
or has shown already. -/
theorem follows_markFailed {cause : Fault} (fileId : String) (h : Struck internal φ cause) :
    (Ingestion.markFailed fileId cause).Follows (exposure app)
      (fun ψ _ => ψ = .settled (reply r cause).shown) (Raised r) φ := by
  have hlog (words : String) : (Task.log .error "File ingestion failed"
      [("fileId", .text fileId), ("error", .text words)]).Follows (exposure app)
      (fun ψ _ => ψ = .due (reply r cause).shown ∨
        (reply r cause).shown = internal ∧ ψ = .settled (reply r cause).shown) (Raised r) φ := by
    refine Task.follows_ask fun _ _ => ?_
    rcases h with rfl | ⟨hcause, rfl⟩
    · exact ⟨_, .announced _ _, .inl rfl⟩
    · have hshown := reply_of_unexpected r hcause
      exact ⟨_, .aside _ _ _ rfl, .inr ⟨hshown, by rw [hshown]⟩⟩
  unfold Ingestion.markFailed
  refine Task.follows_lift_bind (fun words _ => ?_) fun raised hwords => ?_
  · refine (hlog words).bind fun ψ _ hψ => ?_
    refine (follows_mark fileId words hψ).outcome.bind fun ψ result hresult => ?_
    cases result with
    | ok => exact Task.follows_pure hresult
    | error second =>
      refine Task.follows_lift_bind (fun words hsecond => ?_) fun raised hsecond => ?_
      · obtain ⟨-, rfl⟩ | ⟨hmute, -⟩ := hresult
        · exact follows_aside rfl
        · exact absurd ⟨words, hsecond⟩ hmute
      · obtain rfl := Fault.eq_textless_of_words hsecond
        obtain ⟨hworded, -⟩ | ⟨-, rfl⟩ := hresult
        · exact absurd hworded (Fault.not_worded hsecond)
        · rw [← reply_of_unexpected r (show Fault.textless.isUnexpected = true from rfl)]
          exact .inr rfl
  · have hcause : ¬ cause.isUnexpected = true := fun h =>
      Fault.not_worded hwords (Fault.worded_of_unexpected h)
    exact .inl (h.resolve_right fun h => hcause h.1)

/-- Where the document fails once its file is made, the file is marked, and what is shown is settled
by the fault. -/
theorem opens_ingest (s : Ingestion.Setup) (d : Document) :
    Opens app (Raised r) (Ingestion.ingest s d) := by
  unfold Ingestion.ingest
  refine Opens.bind (follows_aside rfl) fun started => ?_
  refine (opens_requireStore d.storeId).raised.bind fun _ => ?_
  refine (opens_chunksOf s d).raised.bind fun chunks => ?_
  refine (opens_files rfl).raised.bind fun file => ?_
  refine (opens_stored s file chunks d.metadata).outcome.bind fun ψ result hresult => ?_
  cases result with
  | error cause =>
    refine (follows_markFailed file.id hresult).bind ?_
    rintro ψ - rfl
    exact Task.follows_throw (.inr rfl)
  | ok =>
    obtain rfl : ψ = .free := hresult
    refine Opens.bind (follows_aside rfl) fun ended => ?_
    exact Opens.bind (follows_aside rfl) fun _ => opens_pure _

/-! ## Other operations -/

theorem opens_deleteFile (storeId fileId : String) :
    Opens app (Struck internal) (Service.deleteFile storeId fileId) := by
  unfold Service.deleteFile
  refine (opens_requireStore storeId).bind fun _ => ?_
  refine (opens_files rfl).bind fun found => ?_
  cases found with
  | none => exact Task.follows_throw (.inl rfl)
  | some file =>
    refine (opens_chunks _).bind fun _ => ?_
    refine (opens_files rfl).bind fun deleted => ?_
    cases deleted with
    | false => exact Task.follows_throw (.inl rfl)
    | true => exact Opens.bind (follows_aside rfl) fun _ => opens_pure _

/-- A lookup that breaks has a response of its own. -/
theorem opens_lookUp (q : NeighborQuery Float) : Opens app (Raised r) (Search.lookUp q) := by
  unfold Search.lookUp
  refine (opens_chunks _).outcome.bind fun ψ result hresult => ?_
  cases result with
  | ok candidates => exact Task.follows_pure hresult
  | error fault =>
    obtain rfl | ⟨hfault, rfl⟩ := hresult
    · dsimp only
      split <;> exact Task.follows_throw (.inl rfl)
    · have hservice : fault.isService = false := by
        cases fault with
        | service => cases hfault
        | _ => rfl
      dsimp only
      rw [hservice, if_neg Bool.false_ne_true]
      refine Task.follows_throw (.inr ?_)
      rw [reply_unavailable]
      rfl

theorem opens_search (c : Embedding.Client) (p : Search.Params) :
    Opens app (Raised r) (Service.search c p) := by
  unfold Service.search
  refine (opens_requireStore p.storeId).raised.bind fun _ => ?_
  unfold Search.serve
  split
  · next plan _ =>
    have hvector : Opens app (Struck internal) (c.embedOne plan.query none) :=
      (opens_embedAll c _).bind fun vectors => opens_pure _
    unfold Search.Plan.serve
    refine Opens.bind (follows_aside rfl) fun started => ?_
    refine hvector.raised.bind fun vector => (opens_lookUp _).bind fun candidates => ?_
    refine Opens.bind (follows_aside rfl) fun reason => ?_
    cases reason with
    | some reason => exact Task.follows_throw (.inl rfl)
    | none =>
      refine Task.follows_lift_bind (fun results _ => ?_) fun _ _ => .inl rfl
      refine Opens.bind (follows_aside rfl) fun ended => ?_
      exact Opens.bind (follows_aside rfl) fun _ => opens_pure _
  · exact Task.follows_throw (.inl rfl)

/-- What is shown is open, or it is the response that is sent in the end. -/
def Serves (r : Request) (φ : Stage) (response : Response) : Prop :=
  φ = .free ∨ φ = .settled (response.concluded r).shown

theorem follows_health :
    (health app).Follows (exposure app) (Serves r.toRequest) (Raised r) .free := by
  unfold health
  have hprobe : (Task.probe : Task Float _).Follows (exposure app)
      (Task.Ends (fun ψ _ => ψ = .free) (Struck (degraded app))) (Raised r) .free := by
    refine Task.follows_ask fun x _ => ?_
    obtain ⟨ψ, hmove, hψ⟩ := exists_exposed (e := .probe) rfl x
    exact ⟨ψ, hmove, ends_call (hψ.imp And.right id)⟩
  refine hprobe.bind fun ψ result hresult => ?_
  cases result with
  | ok => exact Task.follows_pure (.inl hresult)
  | error fault =>
    refine Task.follows_lift_bind (fun words _ => ?_) fun raised hwords => ?_
    · refine (follows_aside rfl).bind ?_
      rintro χ - rfl
      obtain rfl | ⟨-, rfl⟩ := hresult
      · exact Task.follows_pure (.inl rfl)
      · refine Task.follows_pure (.inr ?_)
        rw [concluded_unready]
        rfl
    · refine .inl (hresult.resolve_right fun h => ?_)
      exact Fault.not_worded hwords (Fault.worded_of_unexpected h.1)

theorem opens_serveIngestion (id : String) (body : Value) :
    Opens app (Raised r) (serveIngestion app r.toRequest id body) := by
  unfold serveIngestion
  refine Task.follows_lift_bind (fun form _ => ?_) fun _ _ => .inl rfl
  obtain ⟨kind, body, upload⟩ := form
  refine Task.follows_lift_bind (fun document _ => ?_) fun _ _ => .inl rfl
  exact (opens_ingest app.setup document).bind fun file => opens_pure _

/-- What an operation settles is its response, or the response to its fault. -/
theorem follows_serve (body : Value) (operation : Operation) :
    (serve app r body operation).Follows (exposure app) (Serves r.toRequest) (Raised r) .free := by
  have checked {α : Type} {x : Except Fault α} {f : α → Task Float Response}
      (hf : ∀ a, (f a).Follows (exposure app) (Serves r.toRequest) (Raised r) .free) :
      (Task.lift x >>= f).Follows (exposure app) (Serves r.toRequest) (Raised r) .free :=
    Task.follows_lift_bind (fun a _ => hf a) fun _ _ => .inl rfl
  -- a call, and a response from what it gives
  have answers {α : Type} {t : Task Float α} (f : α → Response)
      (ht : Opens app (Struck internal) t) :
      (t >>= fun a => pure (f a)).Follows (exposure app) (Serves r.toRequest) (Raised r) .free :=
    ht.raised.bind fun a => Task.follows_pure (.inl rfl)
  have serves {t : Task Float Response} (ht : Opens app (Raised r) t) :
      t.Follows (exposure app) (Serves r.toRequest) (Raised r) .free :=
    ht.mono (fun _ _ h => .inl h) fun _ _ h => h
  cases operation with
  | health => exact follows_health
  | createStore => exact checked fun _ => answers _ (opens_stores _)
  | listStores => exact checked fun _ => answers _ (opens_stores _)
  | getStore _ =>
    refine checked fun id => answers _ ((opens_stores _).bind fun found => ?_)
    cases found with
    | none => exact Task.follows_throw (.inl rfl)
    | some store => exact opens_pure _
  | deleteStore _ =>
    refine checked fun id => answers _ ((opens_stores _).bind fun deleted => ?_)
    cases deleted with
    | false => exact Task.follows_throw (.inl rfl)
    | true => exact opens_pure _
  | createFile id => exact serves (opens_serveIngestion id body)
  | listFiles _ =>
    exact checked fun id => answers _ ((opens_requireStore id).bind fun _ => opens_files rfl)
  | getFile _ _ =>
    refine checked fun id => checked fun fileId => answers _ ?_
    refine (opens_files rfl).bind fun found => ?_
    cases found with
    | none => exact Task.follows_throw (.inl rfl)
    | some file => exact opens_pure _
  | deleteFile _ _ =>
    exact checked fun id => checked fun fileId => answers _ (opens_deleteFile id fileId)
  | search _ =>
    exact checked fun id => checked fun p =>
      serves ((opens_search _ _).bind fun results => opens_pure _)

/-! ## Requests -/

/-- What is shown is open, or it is what the response shows. -/
def Settles (φ : Stage) (response : Response) : Prop := φ = .free ∨ φ = .settled response.shown

theorem indifferent_exposure : Indifferent (exposure app) .free Settles where
  ignores := fun φ e a h => by
    refine .aside φ e a ?_
    cases e with
    | now | freshId | log entry => rfl
    | _ => cases h
  start := fun _ => .inl rfl
  shown := fun ψ response response' h hψ => by
    unfold Settles
    rwa [← h]

variable {traffic : Traffic} {requestId : String} {body : Value} {operation : Operation}

theorem follows_answerOperation :
    (answerOperation app r requestId body operation).Follows (exposure app) Settles
      (fun _ _ => False) .free := by
  unfold answerOperation
  refine (follows_serve body operation).outcome.bind fun ψ result hresult => ?_
  cases result with
  | ok response => exact Task.follows_pure hresult
  | error fault =>
    have hraised : Raised r ψ fault := hresult
    unfold Raised reply at hraised
    dsimp only
    split
    · next hdismissal =>
      rw [if_pos hdismissal] at hraised
      exact Task.follows_pure hraised
    · next hfault =>
      rw [if_neg hfault] at hraised
      refine indifferent_exposure.ignores.failed.mono ?_ fun _ _ h => h
      rintro ψ response ⟨rfl, rfl⟩
      exact hraised

/-- The body as it is sent to a caller, who may want none. -/
def Shown.sent (v : Shown) (r : Request) : Body :=
  if r.wantsNoBody || v.bodyless then .text "" else v.body

/-- What is sent of a response is what is shown. -/
def Sends (r : Request) (v : Shown) (response : Response) : Prop :=
  response.status = v.status ∧ response.sent = v.sent r

theorem follows_handle (app : App) (traffic : Traffic) (r : Request) :
    (handle app traffic r).Follows (exposure app)
      (fun ψ p => ∀ v, ψ = .settled v → Sends r v p.1) (fun _ _ => False) .free := by
  have sends (ψ : Stage) (response : Response) (h : Settles ψ response) (v : Shown)
      (hψ : ψ = .settled v) :
      Sends r v (if r.wantsNoBody then response.withoutBody else response) := by
    subst hψ
    obtain h | h := h
    · cases h
    · cases h
      unfold Sends Response.sent Shown.sent Response.shown
      cases r.wantsNoBody <;> exact ⟨rfl, rfl⟩
  unfold handle
  dsimp only
  split
  · exact Task.follows_pure (sends .free _ (.inl rfl))
  · exact Task.follows_pure (sends .free _ (.inl rfl))
  · exact Task.Follows.bind (indifferent_exposure.located fun _ _ _ _ => follows_answerOperation)
      fun ψ p hp => Task.follows_pure (sends ψ p.1 hp)

end Http
end Retrieval
