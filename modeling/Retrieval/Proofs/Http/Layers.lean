import Retrieval.Http.App
import Retrieval.Proofs.Task.Protocol

/-!
# The layers around an operation

On its way to an operation and back, a request is only kept house of: the time is asked for, an
identifier is given to it, and it is logged. So what is known of the responses of operations is known
of all responses (`Indifferent.located`), if it does not depend on their headers.
-/

namespace Retrieval

/-- The question is about the time, a new identifier or the log. -/
def Effect.isHousekeeping {δ : Type} : Effect δ → Bool
  | .now | .freshId | .log _ => true
  | _ => false

namespace Http

/-- What is sent of a response but for its headers. -/
structure Shown where
  status : Float
  body : Body
  /-- the body is left out -/
  bodyless : Bool := false

def Response.shown (r : Response) : Shown := ⟨r.status, r.body, r.bodyless⟩

variable {Φ : Type} {P : Protocol (Effect Float) Effect.Answer Φ} {φ : Φ}
  {keeps : Φ → Response → Prop} {app : App} {traffic : Traffic} {r : Located} {requestId : String}
  {body : Value} {operation : Operation} {fault : Fault}

/-- Housekeeping is a move in every phase, and changes none. -/
def Ignores (P : Protocol (Effect Float) Effect.Answer Φ) : Prop :=
  ∀ φ e a, e.isHousekeeping = true → P.Moves φ e a φ

theorem Ignores.ask {bad : Φ → Fault → Prop} {e : Effect Float} (h : Ignores P)
    (he : e.isHousekeeping = true) : (Task.ask e).Follows P (fun ψ _ => ψ = φ) bad φ :=
  Task.follows_ask fun a _ => ⟨φ, h φ e a he, rfl⟩

theorem Ignores.failed {bad : Φ → Fault → Prop} (h : Ignores P) :
    (failed r requestId fault).Follows P
      (fun ψ response => ψ = φ ∧ response = (Response.ofFault fault).concluded r.toRequest) bad
      φ := by
  unfold Http.failed
  split
  · refine (h.ask rfl).bind ?_
    rintro ψ - rfl
    exact Task.follows_pure ⟨rfl, rfl⟩
  · exact Task.follows_pure ⟨rfl, rfl⟩
  · exact Task.follows_pure ⟨rfl, rfl⟩

/-- What is kept of responses does not depend on headers, and nothing is asked of those to requests
that reach no operation. -/
structure Indifferent (P : Protocol (Effect Float) Effect.Answer Φ) (φ : Φ)
    (keeps : Φ → Response → Prop) : Prop where
  ignores : Ignores P
  start : ∀ response, keeps φ response
  shown : ∀ ψ (response response' : Response), response.shown = response'.shown →
    keeps ψ response → keeps ψ response'

/-- The task ends in a response of which this is kept. -/
def Keeps (P : Protocol (Effect Float) Effect.Answer Φ) (keeps : Φ → Response → Prop)
    (t : Task Float (Response × Traffic)) (φ : Φ) : Prop :=
  t.Follows P (fun ψ p => keeps ψ p.1) (fun _ _ => False) φ

namespace Indifferent

variable (h : Indifferent P φ keeps)
include h

theorem pure (response : Response) (traffic : Traffic) :
    Keeps P keeps (Pure.pure (response, traffic)) φ := Task.follows_pure (h.start response)

theorem bind {t : Task Float (Response × Traffic)} {f : Response × Traffic → Response × Traffic}
    {ψ : Φ} (ht : Keeps P keeps t ψ) (hf : ∀ p, p.1.shown = (f p).1.shown) :
    Keeps P keeps (t >>= fun p => Pure.pure (f p)) ψ :=
  Task.Follows.bind ht fun ψ p hp => Task.follows_pure (h.shown ψ p.1 (f p).1 (hf p) hp)

theorem ask {e : Effect Float} {f : e.Answer → Task Float (Response × Traffic)}
    (he : e.isHousekeeping = true) (hf : ∀ a, Keeps P keeps (f a) φ) :
    Keeps P keeps (Task.ask e >>= f) φ := by
  refine Task.Follows.bind (h.ignores.ask he) ?_
  rintro ψ a rfl
  exact hf a

theorem failed {f : Response → Response × Traffic} :
    Keeps P keeps (Http.failed r requestId fault >>= fun response => Pure.pure (f response)) φ := by
  refine Task.Follows.bind h.ignores.failed ?_
  rintro ψ response ⟨rfl, -⟩
  exact Task.follows_pure (h.start _)

theorem limited (hop : (answerOperation app r requestId body operation).Follows P keeps
      (fun _ _ => False) φ) :
    Keeps P keeps (answerLimited app traffic r requestId body operation) φ := by
  unfold answerLimited
  split
  · refine h.ask rfl fun now => ?_
    dsimp only
    split
    · exact h.pure _ _
    · exact Task.Follows.bind hop fun ψ response hψ =>
        Task.follows_pure (h.shown ψ response _ rfl hψ)
  · exact Task.Follows.bind hop fun ψ response hψ => Task.follows_pure hψ

theorem route (hop : ∀ operation,
      (routeOf? r.path).map (operationOf? r.verb) = some (.ok (some operation)) →
      (answerOperation app r requestId body operation).Follows P keeps (fun _ _ => False) φ) :
    Keeps P keeps (answerRoute app traffic r requestId body) φ := by
  unfold answerRoute
  split
  · exact h.pure _ _
  · exact h.pure _ _
  · exact h.failed
  · next operation hserved => exact h.limited (hop operation hserved)

theorem origin (hop : ∀ operation,
      (routeOf? r.path).map (operationOf? r.verb) = some (.ok (some operation)) →
      (answerOperation app r requestId body operation).Follows P keeps (fun _ _ => False) φ) :
    Keeps P keeps (answerOrigin app traffic r requestId body) φ := by
  unfold answerOrigin
  dsimp only
  split
  · exact h.failed
  · split
    · exact h.pure _ _
    · exact h.bind (h.route hop) fun _ => rfl

theorem answer (hop : ∀ body operation,
      (routeOf? r.path).map (operationOf? r.verb) = some (.ok (some operation)) →
      (answerOperation app r requestId body operation).Follows P keeps (fun _ _ => False) φ) :
    Keeps P keeps (Http.answer app traffic r requestId) φ := by
  unfold Http.answer
  split
  · exact h.failed
  · next body _ =>
    refine h.ask rfl fun now => ?_
    dsimp only
    split
    · exact h.pure _ _
    · exact h.bind (h.origin (hop body)) fun _ => rfl

/-- Whatever is kept of the responses of operations is kept of every response. -/
theorem located (hop : ∀ requestId body operation,
      (routeOf? r.path).map (operationOf? r.verb) = some (.ok (some operation)) →
      (answerOperation app r requestId body operation).Follows P keeps (fun _ _ => False) φ) :
    Keeps P keeps (handleLocated app traffic r) φ := by
  have hid : (assignId (r.header? requestIdHeader.toLower)).Follows P (fun ψ _ => ψ = φ)
      (fun _ _ => False) φ := by
    unfold assignId
    split
    · exact Task.follows_pure rfl
    · exact h.ignores.ask rfl
  unfold handleLocated
  refine Task.Follows.bind hid ?_
  rintro ψ requestId rfl
  dsimp only
  split
  · refine h.ask rfl fun started => Task.Follows.bind (h.answer (hop requestId)) fun ψ p hp => ?_
    refine Task.Follows.bind (h.ignores.ask rfl) ?_
    rintro ψ ended rfl
    refine Task.Follows.bind (h.ignores.ask rfl) ?_
    rintro ψ - rfl
    exact Task.follows_pure (h.shown ψ p.1 _ rfl hp)
  · exact h.failed

end Indifferent
end Http
end Retrieval
