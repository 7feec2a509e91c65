import Retrieval.Http.App
import Retrieval.Proofs.Store.Evolution

/-!
# The way to an operation and back

`carries_handle`: once a request reaches the handler of an operation, the response of the operation
is the one that is sent, but for its headers. What the operation has asked stands in the history.
-/

namespace Retrieval.Http

theorem exists_of_bind {α β : Type} {x : Except Fault α} {f : α → Except Fault β} {b : β}
    (h : x >>= f = .ok b) : ∃ a, x = .ok a ∧ f a = .ok b := by
  cases x with
  | error fault => cases h
  | ok a => exact ⟨a, rfl, h⟩

/-! ## Responses that are sent as they are -/

/-- A response that has failed is sent as it is. -/
theorem concluded_of_failure {response : Response} {n : Nat} (request : Request)
    (hsuccess : response.isSuccess = false) (hstatus : Number.natural? response.status = some n)
    (hn : 400 ≤ n) : response.concluded request = response := by
  unfold Response.concluded
  rw [hsuccess, Bool.and_false, Bool.false_and]
  unfold Response.fitting
  dsimp only
  rw [if_neg Bool.false_ne_true, hstatus]
  split
  · next h => exact absurd (Option.some.inj h ▸ hn) (by decide)
  · next h => exact absurd (Option.some.inj h ▸ hn) (by decide)
  · next h => exact absurd (Option.some.inj h ▸ hn) (by decide)
  · rfl

/-! ## The way to an operation -/

/-- The form of a document is read before anything else is made of the request. -/
def formRead (r : Request) (body : Value) : Operation → Except Fault Unit
  | .createFile _ => (formOf r body).map fun _ => ()
  | _ => .ok ()

/-- The history once the time was asked for. -/
def timed (w : Surroundings Float) (h : History Float) : History Float := h ++ [⟨.now, w .now h⟩]

/-- The identifier of a request, and the history once it has it. -/
def arrival (w : Surroundings Float) (past : History Float) (r : Located) :
    String × History Float :=
  match ownRequestId? (r.header? requestIdHeader.toLower) with
  | some id => (id, past)
  | none => (w .freshId past, past ++ [⟨.freshId, w .freshId past⟩])

/-- The request reaches the handler of an operation: nothing before it answers. -/
structure Reaches (app : App) (traffic : Traffic) (w : Surroundings Float) (past : History Float)
    (r : Located) (operation : Operation) (body : Value) : Prop where
  identified : Header.isContent (arrival w past r).1 = true
  read : r.value = .ok body
  admitted : Limiter.outer.exceeded
    (Limiter.outer.hit (w .now (timed w (arrival w past r).2)) traffic.outer) = false
  shared : (Origins.settled (Origins.headers app.corsOrigin)).2 = none
  routed : (routeOf? r.path).map (operationOf? r.verb) = some (.ok (some operation))
  paced : operation.embeds = true → Limiter.embedding.exceeded
    (Limiter.embedding.hit (w .now (timed w (timed w (arrival w past r).2))) traffic.embedding) =
      false
  formed : formRead r.toRequest body operation = .ok ()

def reached (w : Surroundings Float) (past : History Float) (r : Located) (operation : Operation) :
    History Float :=
  let h := timed w (timed w (arrival w past r).2)
  if operation.embeds then timed w h else h

/-- No operation asks what may be done. -/
theorem verb_ne_options {verb : String} {route : Route} {operation : Operation}
    (h : operationOf? verb route = .ok (some operation)) : (verb == "OPTIONS") = false := by
  refine beq_eq_false_iff_ne.mpr ?_
  rintro rfl
  unfold operationOf? at h
  cases route with
  | health => cases h
  | stores => cases h
  | store part =>
    obtain ⟨id, -, hserved⟩ := exists_of_bind h
    cases hserved
  | files part =>
    obtain ⟨id, -, hserved⟩ := exists_of_bind h
    cases hserved
  | file part filePart =>
    obtain ⟨id, -, hrest⟩ := exists_of_bind h
    obtain ⟨fileId, -, hserved⟩ := exists_of_bind hrest
    cases hserved
  | search part =>
    obtain ⟨id, -, hserved⟩ := exists_of_bind h
    cases hserved

/-! ## The way back -/

/-- The request is answered with the status and the body of a response, after some history. -/
def Carries (response : Response) (h : History Float)
    (x : Except Fault (Response × Traffic) × History Float) : Prop :=
  ∃ sent traffic more, x = (.ok (sent, traffic), h ++ more) ∧
    sent.status = response.status ∧ sent.body = response.body

variable {app : App} {traffic : Traffic} {r : Located} {requestId : String} {body : Value}
  {operation : Operation} {w : Surroundings Float} {past h h' : History Float} {response : Response}

theorem carries_of_play {t : Task Float (Response × Traffic)} {sent : Response} {traffic : Traffic}
    (h : Task.play w t past = (.ok (sent, traffic), h')) (hstatus : sent.status = response.status)
    (hbody : sent.body = response.body) : Carries response h' (Task.play w t past) :=
  ⟨sent, traffic, [], by rw [h, List.append_nil], hstatus, hbody⟩

/-- Work that changes neither the status nor the body may come behind. -/
theorem Carries.bind {t : Task Float (Response × Traffic)}
    {f : Response × Traffic → Task Float (Response × Traffic)}
    (ht : Carries response h' (Task.play w t h))
    (hf : ∀ p past, ∃ q : Response × Traffic, (Task.play w (f p) past).1 = .ok q ∧
      q.1.status = p.1.status ∧ q.1.body = p.1.body) :
    Carries response h' (Task.play w (t >>= f) h) := by
  obtain ⟨sent, traffic, more, hplay, hstatus, hbody⟩ := ht
  obtain ⟨q, hq, hstatus', hbody'⟩ := hf (sent, traffic) (h' ++ more)
  obtain ⟨rest, hrest, -⟩ := Task.play_tells w (f (sent, traffic)) (h' ++ more)
  rw [Task.play_bind_ok w h hplay]
  exact ⟨q.1, q.2, more ++ rest, Prod.ext hq (hrest.trans (List.append_assoc h' more rest)),
    hstatus'.trans hstatus, hbody'.trans hbody⟩

theorem play_now (w : Surroundings Float) (h : History Float) :
    Task.play w Task.now h = (.ok (w .now h), timed w h) := rfl

theorem carries_answerLimited
    (hpaced : operation.embeds = true → Limiter.embedding.exceeded
      (Limiter.embedding.hit (w .now h) traffic.embedding) = false)
    (hop : Task.play w (answerOperation app r requestId body operation)
      (if operation.embeds then timed w h else h) = (.ok response, h')) :
    Carries response h'
      (Task.play w (answerLimited app traffic r requestId body operation) h) := by
  unfold answerLimited
  split
  · next hembeds =>
    rw [if_pos hembeds] at hop
    rw [Task.play_bind_ok w h (play_now w h)]
    dsimp only
    rw [if_neg (by rw [hpaced hembeds]; exact Bool.false_ne_true)]
    exact carries_of_play (Task.play_bind_ok w _ hop) rfl rfl
  · next hembeds =>
    rw [if_neg hembeds] at hop
    exact carries_of_play (Task.play_bind_ok w _ hop) rfl rfl

theorem carries_answerOrigin
    (hrouted : (routeOf? r.path).map (operationOf? r.verb) = some (.ok (some operation)))
    (hshared : (Origins.settled (Origins.headers app.corsOrigin)).2 = none)
    (hpaced : operation.embeds = true → Limiter.embedding.exceeded
      (Limiter.embedding.hit (w .now h) traffic.embedding) = false)
    (hop : Task.play w (answerOperation app r requestId body operation)
      (if operation.embeds then timed w h else h) = (.ok response, h')) :
    Carries response h' (Task.play w (answerOrigin app traffic r requestId body) h) := by
  have hverb : (r.verb == "OPTIONS") = false := by
    obtain ⟨route, -, hserved⟩ := Option.map_eq_some_iff.mp hrouted
    exact verb_ne_options hserved
  unfold answerOrigin
  dsimp only
  rw [hverb, if_neg Bool.false_ne_true, hshared]
  dsimp only
  rw [if_neg Bool.false_ne_true]
  refine Carries.bind ?_ fun _ _ => ⟨_, rfl, rfl, rfl⟩
  unfold answerRoute
  rw [hrouted]
  exact carries_answerLimited hpaced hop

theorem carries_answer (hreaches : Reaches app traffic w past r operation body)
    (hop : Task.play w (answerOperation app r requestId body operation)
      (reached w past r operation) = (.ok response, h')) :
    Carries response h'
      (Task.play w (answer app traffic r requestId) (timed w (arrival w past r).2)) := by
  unfold answer
  rw [hreaches.read]
  dsimp only
  rw [Task.play_bind_ok w _ (play_now w _),
    if_neg (by rw [hreaches.admitted]; exact Bool.false_ne_true)]
  refine Carries.bind ?_ fun _ _ => ⟨_, rfl, rfl, rfl⟩
  exact carries_answerOrigin hreaches.routed hreaches.shared hreaches.paced hop

theorem play_assignId (past : History Float) :
    Task.play w (assignId (r.header? requestIdHeader.toLower)) past =
      (.ok (arrival w past r).1, (arrival w past r).2) := by
  unfold assignId arrival
  cases ownRequestId? (r.header? requestIdHeader.toLower) <;> rfl

theorem carries_handleLocated (hreaches : Reaches app traffic w past r operation body)
    (hop : Task.play w (answerOperation app r (arrival w past r).1 body operation)
      (reached w past r operation) = (.ok response, h')) :
    Carries response h' (Task.play w (handleLocated app traffic r) past) := by
  unfold handleLocated
  rw [Task.play_bind_ok w past (play_assignId past), if_pos hreaches.identified,
    Task.play_bind_ok w _ (play_now w _)]
  exact Carries.bind (carries_answer hreaches hop) fun _ _ => ⟨_, rfl, rfl, rfl⟩

/-- What the operation answers is what is sent. -/
theorem carries_handle {r : Request} {path query : String}
    (htarget : Target.ofText? r.target = some ⟨some path, query⟩)
    (hreaches : Reaches app traffic w past ⟨r, path, query⟩ operation body)
    (hop : Task.play w (answerOperation app ⟨r, path, query⟩
      (arrival w past ⟨r, path, query⟩).1 body operation)
      (reached w past ⟨r, path, query⟩ operation) = (.ok response, h')) :
    Carries response h' (Task.play w (handle app traffic r) past) := by
  unfold handle
  rw [htarget]
  refine Carries.bind (carries_handleLocated hreaches hop) fun p _ => ⟨_, rfl, ?_⟩
  split <;> exact ⟨rfl, rfl⟩

/-! ## An application and a world -/

def openApp : App := ⟨⟨.codePoint, ⟨.usual, "m"⟩, ⟨800, 400⟩⟩, "*", true⟩

/-- A world with empty tables, whose clock stands still. -/
def emptyWorld : Surroundings Float :=
  Relations.served (fun texts => .ok (texts.map fun _ => [])) (fun _ => none) Relations.empty

end Retrieval.Http
