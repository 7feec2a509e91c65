import Mathlib.Logic.Function.Basic
import Retrieval.Proofs.Http.Exposure
import Retrieval.Proofs.Http.Uploads

/-!
# What a response tells of failures of the database

`handle_discreet`: if a call on the database fails with an error that nothing expects, the response
to the request is one of three that are fixed, whatever the error. A failure to mark a file as
failed does not show at all. So what is sent is the same whichever error it was.
-/

namespace Retrieval.Http

variable {app : App} {e : Effect Float}

/-- Two worlds answer every question alike, but for failures of the database that nothing expects,
and for whether files can be marked as failed. -/
def Interchangeable (w₁ w₂ : Surroundings Float) : Prop :=
  ∀ e h, w₁ e h = w₂ e h ∨ e.Broken (w₁ e h) ∧ e.Broken (w₂ e h) ∨
    e.isMarking = true ∧ e.Told (w₁ e h) ∧ e.Told (w₂ e h)

/-- So do two worlds in which one call fails, with an error of its own in each, and everything else is
equal. -/
theorem interchangeable_update [DecidableEq (Effect Float)] [DecidableEq (History Float)]
    (w : Surroundings Float) (past : History Float) {a₁ a₂ : e.Answer} (h₁ : e.Broken a₁)
    (h₂ : e.Broken a₂) :
    Interchangeable (Function.update w e (Function.update (w e) past a₁))
      (Function.update w e (Function.update (w e) past a₂)) := by
  intro e' past'
  by_cases he : e' = e
  · subst he
    rw [Function.update_self, Function.update_self]
    by_cases hpast : past' = past
    · subst hpast
      rw [Function.update_self, Function.update_self]
      exact .inr (.inl ⟨h₁, h₂⟩)
    · rw [Function.update_of_ne hpast, Function.update_of_ne hpast]
      exact .inl rfl
  · rw [Function.update_of_ne he, Function.update_of_ne he]
    exact .inl rfl

theorem Interchangeable.partsFinally {w₁ w₂ : Surroundings Float} (h : Interchangeable w₁ w₂) :
    Task.PartsFinally (exposure app) w₁ w₂ := by
  intro φ e past ψ₁ ψ₂ hmove₁ hmove₂
  have marks (hmark : e.isMarking = true) (htold₁ : e.Told (w₁ e past))
      (htold₂ : e.Told (w₂ e past)) : ψ₁ = ψ₂ ∧ Task.Final (exposure app) ψ₁ := by
    obtain ⟨v, hv, rfl⟩ := Exposed.of_marking hmove₁ hmark htold₁
    obtain ⟨v', hv', rfl⟩ := Exposed.of_marking hmove₂ hmark htold₂
    cases hv.symm.trans hv'
    exact ⟨rfl, final_settled v⟩
  rcases h e past with hsame | ⟨hbroken₁, hbroken₂⟩ | ⟨hmark, htold₁, htold₂⟩
  · exact .inl hsame
  · refine .inr ?_
    cases hmark : e.isMarking with
    | true => exact marks hmark hbroken₁.told hbroken₂.told
    | false =>
      obtain rfl := Exposed.of_broken hmove₁ hmark hbroken₁
      obtain rfl := Exposed.of_broken hmove₂ hmark hbroken₂
      exact ⟨rfl, final_settled _⟩
  · exact .inr (marks hmark htold₁ htold₂)

/-- **The database's own errors never show.** Wherever a call on the database fails with an error
that nothing expects, the response has status 500 and a fixed body, or 503 with a fixed body where
that is the lookup of the nearest chunks or the check of the service itself; the only exception is a
call that was to mark a file as failed, whose failure does not change the response. So in two worlds
that are alike but for such errors, the same status and the same body are sent. -/
theorem handle_discreet (app : App) (traffic : Traffic) (r : Request) (past : History Float) :
    (∀ w₁ w₂, Interchangeable w₁ w₂ → ∃ response₁ traffic₁ response₂ traffic₂,
      (Task.play w₁ (handle app traffic r) past).1 = .ok (response₁, traffic₁) ∧
      (Task.play w₂ (handle app traffic r) past).1 = .ok (response₂, traffic₂) ∧
      response₁.status = response₂.status ∧ response₁.sent = response₂.sent) ∧
    ∀ w, ∃ response traffic' new,
      Task.play w (handle app traffic r) past = (.ok (response, traffic'), past ++ new) ∧
      ∀ event ∈ new, event.1.isMarking = false → event.1.Broken event.2 →
        Sends r (failure app event.1) response := by
  have hfollows := follows_handle app traffic r
  have plays (w : Surroundings Float) : ∃ response traffic' new,
      Task.play w (handle app traffic r) past = (.ok (response, traffic'), past ++ new) ∧
      ∀ event ∈ new, event.1.isMarking = false → event.1.Broken event.2 →
        Sends r (failure app event.1) response := by
    obtain ⟨result, new, ψ, hplay, hleads, hends⟩ :=
      hfollows.play (w := w) (fun _ _ _ => trivial) past
    cases result with
    | error fault => exact hends.elim
    | ok p =>
      obtain ⟨response, traffic'⟩ := p
      refine ⟨response, traffic', new, hplay, fun event hmem hmark hbroken => ?_⟩
      exact hends _ (settled_of_leads hleads hmem hmark hbroken)
  refine ⟨fun w₁ w₂ halike => ?_, plays⟩
  obtain ⟨response₁, traffic₁, _, hplay₁, -⟩ := plays w₁
  obtain ⟨response₂, traffic₂, _, hplay₂, -⟩ := plays w₂
  have hboth := hfollows.play_both (fun _ _ _ => trivial) (fun _ _ _ => trivial)
    halike.partsFinally past
  rw [hplay₁, hplay₂] at hboth ⊢
  refine ⟨response₁, traffic₁, response₂, traffic₂, rfl, rfl, ?_⟩
  rcases hboth with hsame | ⟨ψ, hfinal, hends₁, hends₂⟩
  · cases (Prod.mk.inj hsame).1
    exact ⟨rfl, rfl⟩
  · obtain ⟨v, rfl⟩ := settled_of_final hfinal
    obtain ⟨hstatus₁, hsent₁⟩ : Sends r v response₁ := hends₁ v rfl
    obtain ⟨hstatus₂, hsent₂⟩ : Sends r v response₂ := hends₂ v rfl
    exact ⟨hstatus₁.trans hstatus₂.symm, hsent₁.trans hsent₂.symm⟩

/-- A world whose database fails at every call. -/
def downed (reason : Fault) : Surroundings Float
  | .probe, _ | .stores _, _ | .files _, _ | .chunks _, _ => .error reason
  | e, h => emptyWorld e h

theorem downed_broken {reason : Fault} (hreason : reason.isUnexpected = true)
    (h : e.isDatabase = true) (past : History Float) : e.Broken (downed reason e past) := by
  cases e with
  | probe | stores call | files call | chunks call => exact ⟨reason, hreason, rfl⟩
  | _ => cases h

theorem downed_interchangeable {reason₁ reason₂ : Fault} (h₁ : reason₁.isUnexpected = true)
    (h₂ : reason₂.isUnexpected = true) : Interchangeable (downed reason₁) (downed reason₂) := by
  intro e past
  cases h : e.isDatabase with
  | true => exact .inr (.inl ⟨downed_broken h₁ h past, downed_broken h₂ h past⟩)
  | false =>
    cases e with
    | probe | stores call | files call | chunks call => cases h
    | _ => exact .inl rfl

def healthAsked : Request := ⟨"GET", "/health", [], none⟩

theorem handle_discreet_downed :
    let w₁ := downed (.plain "connection refused")
    let w₂ := downed (.plain "no such password")
    Interchangeable w₁ w₂ ∧ ∃ response₁ traffic₁ response₂ traffic₂ new,
      Task.play w₁ (handle openApp {} healthAsked) [] = (.ok (response₁, traffic₁), [] ++ new) ∧
      (Task.play w₂ (handle openApp {} healthAsked) []).1 = .ok (response₂, traffic₂) ∧
      response₁.status = response₂.status ∧ response₁.sent = response₂.sent ∧
      ∃ event ∈ new, event.1.isMarking = false ∧ event.1.Broken event.2 ∧
        Sends healthAsked (failure openApp event.1) response₁ := by
  intro w₁ w₂
  have halike : Interchangeable w₁ w₂ := downed_interchangeable rfl rfl
  have hcalled : (Task.play w₁ (handle openApp {} healthAsked) []).2.any
      (fun event => event.1.isDatabase && !event.1.isMarking) = true := by decide +kernel
  obtain ⟨hsame, hshown⟩ := handle_discreet openApp {} healthAsked []
  obtain ⟨response₁, traffic₁, response₂, traffic₂, hplay₁, hplay₂, hstatus, hsent⟩ :=
    hsame w₁ w₂ halike
  obtain ⟨_, _, new, hplay, hshown⟩ := hshown w₁
  rw [hplay] at hplay₁ hcalled
  cases hplay₁
  obtain ⟨event, hmem, hevent⟩ := List.any_eq_true.mp hcalled
  obtain ⟨hdatabase, hmark⟩ := Bool.and_eq_true_iff.mp hevent
  have hmark : event.1.isMarking = false := by simpa using hmark
  have hbroken := (Task.tells_of_play hplay).forall
    (P := fun event => event.1.isDatabase = true → event.1.Broken event.2)
    (fun e past he => downed_broken rfl he past) event hmem hdatabase
  exact ⟨halike, response₁, traffic₁, response₂, traffic₂, new, hplay, hplay₂, hstatus, hsent,
    event, hmem, hmark, hbroken, hshown event hmem hmark hbroken⟩

/-! ## Marks that fail -/

/-- A store and no file. -/
def docs : Relations Float :=
  { Relations.empty with stores := [⟨someId, "docs", .null, .zero, 0, 0⟩] }

def note : Request where
  method := "POST"
  target := "/v1/vector_stores/" ++ someId ++ "/files"
  headers := [("content-type", "application/json")]
  body := some "\x7b\"text\":\"a\",\"filename\":\"a.txt\"\x7d".toUTF8

/-- Statuses cannot be updated. -/
def unmarking : Effect Float → Option Fault
  | .files (.updateStatus ..) => some (.plain "boom")
  | _ => none

/-- A world in which nothing can be embedded, and no file be marked. -/
def unmarkable : Surroundings Float :=
  Relations.served (fun _ => .error (.provider .authentication "denied" (some 401) none))
    unmarking docs

theorem unmarkable_broken (h : e.isMarking = true) (past : History Float) :
    e.Broken (unmarkable e past) := by
  cases e with
  | files call =>
    cases call with
    | updateStatus id u => exact ⟨.plain "boom", rfl, rfl⟩
    | _ => cases h
  | _ => cases h

theorem formOf_note (v : Value) : formOf note v = .ok (.common, v, none) := by
  have hform : note.mediaType?.any MediaType.isMultipart = false := by decide +kernel
  show (if note.mediaType?.any MediaType.isMultipart then _ else _) = _
  rw [hform]
  rfl

def noteValue : Value := .record [("text", .text "a"), ("filename", .text "a.txt")]

theorem reaches_note :
    Reaches openApp {} unmarkable [] ⟨note, note.target, ""⟩ (.createFile someId) noteValue := by
  have hroute : routeOf? note.target = some (.files someId.toList) := by decide +kernel
  have hread : parameter someId.toList = .ok someId := by
    have hunescaped : unescape? someId.toList = some someId := by decide +kernel
    unfold parameter
    rw [hunescaped]
  have hserved : operationOf? note.verb (.files someId.toList) =
      .ok (some (.createFile someId)) := by
    have hverb : note.verb = "POST" := by decide +kernel
    unfold operationOf?
    dsimp only
    rw [hverb, hread]
    rfl
  have hvalue : note.value = .ok noteValue := by with_unfolding_all rfl
  refine ⟨by decide +kernel, hvalue, by decide +kernel, by rfl, ?_, fun _ => by decide +kernel, ?_⟩
  · rw [hroute, Option.map_some, hserved]
  · unfold formRead
    dsimp only
    rw [formOf_note]
    rfl

theorem documentOf_note :
    documentOf .common (.text someId) noteValue none =
      .ok ⟨someId, "a.txt", #[97], none, none, none, none⟩ := by
  have hsame : SameDocument letter [] [("text", .text "a"), ("filename", .text "a.txt")] "a" :=
    ⟨by decide, bytes_letter, by decide, unmarked_letter, rfl, rfl, rfl, rfl, .missing, .missing⟩
  have hfields : accepted (Check.uploadFields .common [] (.record [])) =
      .ok ⟨⟨none, none⟩, none, none⟩ := by rfl
  have htext : Text.ofString "a" = #[97] := by
    rw [Text.ofString_eq]
    decide
  unfold noteValue
  rw [documentOf_written (show resourceId (.text someId) = .ok someId from rfl) hsame, hfields,
    htext]
  rfl

theorem serve_note :
    serve openApp ⟨note, note.target, ""⟩ noteValue (.createFile someId) = (do
      let file ← Ingestion.ingest openApp.setup ⟨someId, "a.txt", #[97], none, none, none, none⟩
      pure (.json 201 (View.ofFile file))) := by
  unfold serve serveIngestion
  rw [formOf_note]
  show (do
    let document ← Task.lift (documentOf .common (.text someId) noteValue none)
    let file ← Ingestion.ingest openApp.setup document
    pure (Response.json 201 (View.ofFile file))) = _
  rw [documentOf_note]
  rfl

theorem failure_status (app : App) (e : Effect Float) :
    (failure app e).status = 500 ∨ (failure app e).status = 503 := by
  unfold failure
  split
  · exact .inr rfl
  · exact .inr rfl
  · exact .inl rfl

/-- Where a file cannot be marked as failed, the response is none of those to a database that fails:
it tells why the file was to be marked. -/
theorem handle_unmarkable :
    ∃ response traffic new, Task.play unmarkable (handle openApp {} note) [] =
        (.ok (response, traffic), new) ∧
      (∃ event ∈ new, event.1.Broken event.2) ∧ ∀ e, ¬ Sends note (failure openApp e) response := by
  have hstatus : (Task.play unmarkable (answerOperation openApp ⟨note, note.target, ""⟩
      (arrival unmarkable [] ⟨note, note.target, ""⟩).1 noteValue (.createFile someId))
      (reached unmarkable [] ⟨note, note.target, ""⟩ (.createFile someId))).1.toOption.map
      (fun response => Number.natural? response.status) = some (some 502) := by
    unfold answerOperation
    rw [serve_note]
    decide +kernel
  have hmark : (Task.play unmarkable (answerOperation openApp ⟨note, note.target, ""⟩
      (arrival unmarkable [] ⟨note, note.target, ""⟩).1 noteValue (.createFile someId))
      (reached unmarkable [] ⟨note, note.target, ""⟩ (.createFile someId))).2.any
      (·.1.isMarking) = true := by
    unfold answerOperation
    rw [serve_note]
    decide +kernel
  generalize hplay : Task.play unmarkable
    (answerOperation openApp ⟨note, note.target, ""⟩ _ _ _) _ = x at hstatus hmark
  obtain ⟨result, h⟩ := x
  cases result with
  | error fault => cases hstatus
  | ok response =>
    have htarget : Target.ofText? note.target = some ⟨some note.target, ""⟩ := by
      with_unfolding_all rfl
    obtain ⟨sent, traffic, more, hsent, hsame, -⟩ := carries_handle htarget reaches_note hplay
    obtain ⟨event, hmem, hevent⟩ := List.any_eq_true.mp hmark
    have htells : unmarkable.Tells [] (h ++ more) := Task.tells_of_play hsent
    have hbroken := htells.forall (P := fun event => event.1.isMarking = true →
      event.1.Broken event.2) fun e past he => unmarkable_broken he past
    refine ⟨sent, traffic, h ++ more, hsent,
      ⟨event, List.mem_append_left _ hmem, hbroken event (List.mem_append_left _ hmem) hevent⟩,
      fun e hsends => ?_⟩
    have hnatural : Number.natural? (failure openApp e).status = some 502 := by
      rw [← hsends.1, hsame]
      exact Option.some.inj hstatus
    obtain h | h := failure_status openApp e
    · rw [h] at hnatural
      exact absurd hnatural (by decide +kernel)
    · rw [h] at hnatural
      exact absurd hnatural (by decide +kernel)

end Retrieval.Http
