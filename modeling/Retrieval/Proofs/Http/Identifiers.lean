import Retrieval.Proofs.Http.Layers
import Retrieval.Proofs.Http.Reaching
import Retrieval.Proofs.Schema.Checks

/-!
# Requests with malformed identifiers

`handle_malformed`: where an identifier in the path of a request is no UUID, nothing is asked of the
tables, of the database or of the provider, whatever else the request brings. An operation that is
reached ends in the issue of that identifier, before its body or its upload is looked at, and the
request is answered with status 400.
-/

namespace Retrieval

/-! ## The form of an identifier -/

/-- A hexadecimal digit, in small letters or in capitals. -/
def IsHexDigit (c : Char) : Prop :=
  '0' ≤ c ∧ c ≤ '9' ∨ 'a' ≤ c ∧ c ≤ 'f' ∨ 'A' ≤ c ∧ c ≤ 'F'

/-- Groups of 8, 4, 4, 4 and 12 hexadecimal digits with dashes between them. -/
def IsUuid (s : String) : Prop :=
  ∃ groups : List (List Char), s.toList = ['-'].intercalate groups ∧
    groups.map List.length = [8, 4, 4, 4, 12] ∧ ∀ g ∈ groups, ∀ c ∈ g, IsHexDigit c

theorem digit?_isSome_iff (c : Char) : (Number.digit? 16 c).isSome = true ↔ IsHexDigit c := by
  have le_iff (a b : Char) : a ≤ b ↔ a.toNat ≤ b.toNat := Iff.rfl
  simp only [IsHexDigit, le_iff, Number.digit?, Char.reduceToNat, Bool.and_eq_true,
    decide_eq_true_eq, Option.isSome_ite]
  generalize c.toNat = n
  split
  · omega
  · split
    · omega
    · split <;> omega

theorem isIdentifier_iff (s : String) : isIdentifier s = true ↔ IsUuid s := by
  unfold isIdentifier
  simp only [Bool.and_eq_true, beq_iff_eq, List.all_eq_true, digit?_isSome_iff]
  constructor
  · rintro ⟨hlengths, hdigits⟩
    exact ⟨s.toList.splitOn '-', (List.intercalate_splitOn '-').symm, hlengths, hdigits⟩
  · rintro ⟨groups, hs, hlengths, hdigits⟩
    have hdash : ¬ IsHexDigit '-' := by
      unfold IsHexDigit
      decide
    have hsplit : s.toList.splitOn '-' = groups := by
      rw [hs]
      refine List.splitOn_intercalate '-' (fun g hg hmem => hdash (hdigits g hg '-' hmem)) ?_
      rintro rfl
      cases hlengths
    rw [hsplit]
    exact ⟨hlengths, hdigits⟩

namespace Http

/-- What is wrong with a request whose path has a malformed identifier. -/
def invalidId : Fault := .validation [⟨[], .badForm .uuid, some "Invalid id"⟩]

theorem resourceId_text (s : String) :
    resourceId (.text s) = if isIdentifier s then .ok s else .error invalidId := by
  unfold resourceId accepted Check.resourceId
  rw [Check.and_eq]
  cases h : isIdentifier s with
  | true =>
    simp [Check.text, Check.yield, Check.found, Check.form, h]
    rfl
  | false =>
    simp [Check.text, Check.yield, Check.found, Check.form, h]
    rfl

theorem resourceId_malformed {s : String} (h : ¬ IsUuid s) :
    resourceId (.text s) = .error invalidId := by
  rw [resourceId_text, if_neg fun hs => h ((isIdentifier_iff s).mp hs)]

/-! ## Identifiers in paths -/

/-- The identifiers of a path as they stand there. -/
def Route.ids : Route → List (List Char)
  | .health | .stores => []
  | .store id | .files id | .search id => [id]
  | .file id fileId => [id, fileId]

def Operation.ids : Operation → List String
  | .health | .createStore | .listStores => []
  | .getStore id | .deleteStore id | .createFile id | .listFiles id | .search id => [id]
  | .getFile id fileId | .deleteFile id fileId => [id, fileId]

/-- The part of a path writes no UUID; it may not even be readable. -/
def Malformed (part : List Char) : Prop := ∀ s, parameter part = .ok s → ¬ IsUuid s

theorem eq_of_offered {a b : Bool} {x y operation : Operation}
    (h : (if a then some x else if b then some y else none) = some operation) :
    operation = x ∨ operation = y := by
  cases a <;> cases b <;> simp_all

/-- An operation is about the identifiers in its path. -/
theorem ids_of_operationOf? {verb : String} {route : Route} {operation : Operation}
    (h : operationOf? verb route = .ok (some operation)) :
    route.ids.map parameter = operation.ids.map .ok := by
  unfold operationOf? at h
  cases route with
  | health =>
    dsimp only at h
    split at h <;> cases h
    rfl
  | stores =>
    rcases eq_of_offered (Except.ok.inj h) with rfl | rfl <;> rfl
  | store part =>
    obtain ⟨id, hid, hserved⟩ := exists_of_bind h
    rcases eq_of_offered (Except.ok.inj hserved) with rfl | rfl <;> exact congrArg (· :: []) hid
  | files part =>
    obtain ⟨id, hid, hserved⟩ := exists_of_bind h
    rcases eq_of_offered (Except.ok.inj hserved) with rfl | rfl <;> exact congrArg (· :: []) hid
  | file part filePart =>
    obtain ⟨id, hid, hrest⟩ := exists_of_bind h
    obtain ⟨fileId, hfile, hserved⟩ := exists_of_bind hrest
    rcases eq_of_offered (Except.ok.inj hserved) with rfl | rfl <;>
      exact congrArg₂ (fun a b => [a, b]) hid hfile
  | search part =>
    obtain ⟨id, hid, hserved⟩ := exists_of_bind h
    split at hserved <;> cases hserved
    exact congrArg (· :: []) hid

/-- So an identifier is malformed in the path exactly if it is for the operation. -/
theorem exists_malformed {verb : String} {route : Route} {operation : Operation}
    (h : operationOf? verb route = .ok (some operation))
    (hid : ∃ part ∈ route.ids, Malformed part) :
    ∃ id ∈ operation.ids, ¬ IsUuid id := by
  obtain ⟨part, hpart, hmalformed⟩ := hid
  have hmem : parameter part ∈ operation.ids.map .ok := by
    rw [← ids_of_operationOf? h]
    exact List.mem_map_of_mem hpart
  obtain ⟨id, hmem, hread⟩ := List.mem_map.mp hmem
  exact ⟨id, hmem, hmalformed id hread.symm⟩

/-! ## Operations -/

theorem documentOf_malformed {id : String} (h : ¬ IsUuid id) (kind : Value.RecordKind)
    (body : Value) (upload : Option Upload) :
    documentOf kind (.text id) body upload = .error invalidId := by
  unfold documentOf
  rw [resourceId_malformed h]
  rfl

/-- Two identifiers are checked in order; what is wrong is the same with each of them. -/
theorem checkBoth_malformed {α : Type} {id fileId : String}
    (h : ∃ s ∈ [id, fileId], ¬ IsUuid s) (f : String → String → Task Float α) :
    (do
      let id ← Task.lift (resourceId (.text id))
      let fileId ← Task.lift (resourceId (.text fileId))
      f id fileId) = (Task.lift (.error invalidId) : Task Float α) := by
  by_cases hid : IsUuid id
  · obtain ⟨s, hmem, hs⟩ := h
    have hfile : ¬ IsUuid fileId := by
      rcases List.mem_cons.mp hmem with rfl | hmem
      · exact absurd hid hs
      · rwa [← List.mem_singleton.mp hmem]
    rw [resourceId_text, if_pos ((isIdentifier_iff id).mpr hid), resourceId_malformed hfile]
    rfl
  · rw [resourceId_malformed hid]
    rfl

/-- With a malformed identifier an operation is over at once, and none of its work is begun. -/
theorem serve_malformed (app : App) (r : Located) (body : Value) {operation : Operation}
    (h : ∃ id ∈ operation.ids, ¬ IsUuid id) :
    serve app r body operation =
      Task.lift (do formRead r.toRequest body operation; .error invalidId) := by
  obtain ⟨id, hmem, hid⟩ := h
  have check {α : Type} (f : String → Task Float α) :
      (do
        let id ← Task.lift (resourceId (.text id))
        f id) = (Task.lift (.error invalidId) : Task Float α) := by
    rw [resourceId_malformed hid]
    rfl
  cases operation with
  | health => cases hmem
  | createStore => cases hmem
  | listStores => cases hmem
  | getStore _ =>
    obtain rfl := List.mem_singleton.mp hmem
    exact check _
  | deleteStore _ =>
    obtain rfl := List.mem_singleton.mp hmem
    exact check _
  | createFile _ =>
    obtain rfl := List.mem_singleton.mp hmem
    unfold serve serveIngestion formRead
    cases formOf r.toRequest body with
    | error fault => rfl
    | ok form =>
      obtain ⟨kind, body, upload⟩ := form
      show (do
        let document ← Task.lift (documentOf kind (.text id) body upload)
        let file ← Ingestion.ingest app.setup document
        pure (Response.json 201 (View.ofFile file))) = _
      rw [documentOf_malformed hid]
      rfl
  | listFiles _ =>
    obtain rfl := List.mem_singleton.mp hmem
    exact check _
  | getFile storeId fileId =>
    exact checkBoth_malformed ⟨id, hmem, hid⟩ _
  | deleteFile storeId fileId =>
    exact checkBoth_malformed ⟨id, hmem, hid⟩ _
  | search _ =>
    obtain rfl := List.mem_singleton.mp hmem
    exact check _

/-! ## What is asked on the way -/

/-- Nothing is asked of the tables, of the database, of the provider or of the signal. -/
def housekeeping : Protocol (Effect Float) Effect.Answer Unit where
  Expects := fun _ _ _ => True
  Moves := fun _ e _ _ => e.isHousekeeping = true

theorem indifferent_housekeeping : Indifferent housekeeping () fun _ _ => True :=
  ⟨fun _ _ _ h => h, fun _ => trivial, fun _ _ _ _ _ => trivial⟩

theorem housekeeping_of_leads {φ ψ : Unit} {new : History Float}
    (h : Task.Leads housekeeping φ new ψ) : ∀ event ∈ new, event.1.isHousekeeping = true := by
  induction h with
  | nil => exact nofun
  | cons hmove _ ih => exact List.forall_mem_cons.mpr ⟨hmove, ih⟩

variable {app : App} {traffic : Traffic} {r : Located} {requestId : String} {body : Value}
  {operation : Operation}

theorem quiet_answerOperation (h : ∃ id ∈ operation.ids, ¬ IsUuid id) :
    (answerOperation app r requestId body operation).Follows housekeeping (fun _ _ => True)
      (fun _ _ => False) () := by
  unfold answerOperation
  rw [serve_malformed app r body h]
  refine Task.Follows.bind (Task.follows_pure trivial) fun _ result (_ : True) => ?_
  split
  · exact Task.follows_pure trivial
  · split
    · exact Task.follows_pure trivial
    · exact indifferent_housekeeping.ignores.failed.mono (fun _ _ _ => trivial) fun _ _ h => h

/-- The path of the request has a malformed identifier. -/
def HasMalformed (r : Located) : Prop :=
  ∃ route, routeOf? r.path = some route ∧ ∃ part ∈ route.ids, Malformed part

/-- An operation that serves it is about a malformed identifier. -/
theorem HasMalformed.served (h : HasMalformed r)
    (hserved : (routeOf? r.path).map (operationOf? r.verb) = some (.ok (some operation))) :
    ∃ id ∈ operation.ids, ¬ IsUuid id := by
  obtain ⟨route, hroute, hid⟩ := h
  rw [hroute] at hserved
  exact exists_malformed (Option.some.inj hserved) hid

/-- Whatever it is answered, the work for the request keeps to housekeeping, and it does not
fail. -/
theorem quiet_handle (app : App) (traffic : Traffic) {r : Request} {path query : String}
    (htarget : Target.ofText? r.target = some ⟨some path, query⟩)
    (h : HasMalformed ⟨r, path, query⟩) :
    Keeps housekeeping (fun _ _ => True) (handle app traffic r) () := by
  unfold handle
  rw [htarget]
  exact Task.Follows.bind (indifferent_housekeeping.located fun _ _ _ hserved =>
    quiet_answerOperation (h.served hserved)) fun _ _ _ => Task.follows_pure trivial

/-! ## The answer of an operation that is reached -/

theorem concluded_invalidId (request : Request) :
    (Response.ofFault invalidId).concluded request = Response.ofFault invalidId :=
  concluded_of_failure (n := 400) request (by decide +kernel) (by decide +kernel) (Nat.le_refl 400)

theorem play_answerOperation {w : Surroundings Float} {h : History Float}
    (hid : ∃ id ∈ operation.ids, ¬ IsUuid id)
    (hform : formRead r.toRequest body operation = .ok ()) :
    Task.play w (answerOperation app r requestId body operation) h =
      (.ok (Response.ofFault invalidId), h) := by
  unfold answerOperation
  rw [serve_malformed app r body hid, hform,
    Task.play_bind_ok w h (Task.play_outcome w h _)]
  show Task.play w (failed r requestId invalidId) h = _
  show (Except.ok ((Response.ofFault invalidId).concluded r.toRequest), h) = _
  rw [concluded_invalidId]

/-! ## Requests -/

/-- **Malformed identifiers never get through.** If the path of a request has an identifier that is
no UUID, then the operation that serves it, if any does, is over with the issue of that identifier
before its body or its upload is looked at, and none of its work is begun. On the way from the
request to the response nothing is asked of the tables, of the database or of the provider. And if
the operation is reached, the request is answered with status 400 and the list of that one issue. -/
theorem handle_malformed (app : App) (traffic : Traffic) (r : Request) {path query : String}
    (htarget : Target.ofText? r.target = some ⟨some path, query⟩)
    (hid : HasMalformed ⟨r, path, query⟩) :
    (∀ operation body,
      (routeOf? path).map (operationOf? r.verb) = some (.ok (some operation)) →
      serve app ⟨r, path, query⟩ body operation =
        Task.lift (do formRead r body operation; .error invalidId)) ∧
    ∀ (w : Surroundings Float) (past : History Float), ∃ response traffic' new,
      Task.play w (handle app traffic r) past = (.ok (response, traffic'), past ++ new) ∧
      (∀ event ∈ new, event.1.isHousekeeping = true) ∧
      ∀ operation body, Reaches app traffic w past ⟨r, path, query⟩ operation body →
        response.status = 400 ∧ response.body = .json (errorAnswer invalidId).body := by
  refine ⟨fun operation body hrouted => serve_malformed app _ body (hid.served hrouted),
    fun w past => ?_⟩
  obtain ⟨result, new, _, hplay, hleads, hends⟩ :=
    (quiet_handle app traffic htarget hid).play (w := w) (fun _ _ _ => trivial) past
  cases result with
  | error fault => exact hends.elim
  | ok p =>
    obtain ⟨response, traffic'⟩ := p
    refine ⟨response, traffic', new, hplay, housekeeping_of_leads hleads,
      fun operation body hreaches => ?_⟩
    obtain ⟨sent, _, _, hsent, hstatus, hbody⟩ := carries_handle htarget hreaches
      (play_answerOperation (hid.served hreaches.routed) hreaches.formed)
    cases (Prod.mk.inj (hplay.symm.trans hsent)).1
    exact ⟨hstatus, hbody⟩

/-- A document without a text, for a store that cannot be. -/
def strayDocument : Request := ⟨"POST", "/v1/vector_stores/abc/files", [], none⟩

theorem handle_malformed_document :
    let located : Located := ⟨strayDocument, "/v1/vector_stores/abc/files", ""⟩
    Target.ofText? strayDocument.target = some ⟨some located.path, located.query⟩ ∧
    HasMalformed located ∧
    Reaches openApp {} emptyWorld [] located (.createFile "abc") (.record []) ∧
    ∃ response traffic new, Task.play emptyWorld (handle openApp {} strayDocument) [] =
      (.ok (response, traffic), [] ++ new) ∧
      (∀ event ∈ new, event.1.isHousekeeping = true) ∧ response.status = 400 ∧
      response.body = .json (errorAnswer invalidId).body := by
  intro located
  have htarget : Target.ofText? strayDocument.target =
      some ⟨some located.path, located.query⟩ := by rfl
  have hroute : routeOf? located.path = some (.files ['a', 'b', 'c']) := by decide +kernel
  have hread : parameter ['a', 'b', 'c'] = .ok "abc" := by
    have hunescaped : unescape? ['a', 'b', 'c'] = some "abc" := by decide +kernel
    unfold parameter
    rw [hunescaped]
  have hserved : operationOf? located.verb (.files ['a', 'b', 'c']) =
      .ok (some (.createFile "abc")) := by
    have hverb : located.verb = "POST" := by decide +kernel
    unfold operationOf?
    dsimp only
    rw [hverb, hread]
    rfl
  have hid : HasMalformed located := by
    refine ⟨_, hroute, _, List.mem_singleton_self _, fun s hs => ?_⟩
    obtain rfl := Except.ok.inj (hread.symm.trans hs)
    rw [← isIdentifier_iff]
    decide +kernel
  have hreaches : Reaches openApp {} emptyWorld [] located (.createFile "abc") (.record []) := by
    refine ⟨by decide +kernel, rfl, by decide +kernel, by rfl, ?_, fun _ => by decide +kernel, rfl⟩
    rw [hroute, Option.map_some, hserved]
  obtain ⟨-, hplays⟩ := handle_malformed openApp {} strayDocument htarget hid
  obtain ⟨response, traffic, new, hplay, hquiet, hanswer⟩ := hplays emptyWorld []
  exact ⟨htarget, hid, hreaches, response, traffic, new, hplay, hquiet, hanswer _ _ hreaches⟩

end Http
end Retrieval
