import Retrieval.Proofs.Service.Coherence

/-!
# Requests side by side

Any number of requests, each somewhere in its work, over the same tables. A step begins a new
request or answers one question of one of them, whichever it is, so that the requests are
interleaved in every way. `Reachable.sound`: whatever the steps were, the rows go with the phases of
the requests, and every request will keep to its phases from where it is.
-/

namespace Retrieval.Service

open Ingestion (Setup)

variable {δ : Type}

structure Execution (δ : Type) where
  request : Request
  rest : Program (Effect δ) Effect.Answer (Except Fault Reply)

/-- The tables, and the requests in the order in which they began. -/
structure State (δ : Type) where
  tables : Relations δ
  executions : List (Execution δ)

namespace State

def initial : State δ := ⟨.empty, []⟩

/-- No request is under way. -/
def Quiet (σ : State δ) : Prop := ∀ x ∈ σ.executions, ∃ r, x.rest = .done r

end State

def Execution.result? (x : Execution δ) : Option (Except Fault Reply) :=
  match x.rest with
  | .done r => some r
  | .ask .. => none

theorem Execution.result?_eq_some {x : Execution δ} {r : Except Fault Reply} :
    x.result? = some r ↔ x.rest = .done r := by
  unfold result?
  cases x.rest with
  | done r' => simp
  | ask e next => simp

instance (σ : State δ) : Decidable σ.Quiet :=
  decidable_of_iff (∀ x ∈ σ.executions, x.result?.isSome = true) <| by
    simp only [State.Quiet, Option.isSome_iff_exists, Execution.result?_eq_some]

inductive Step (s : Setup) : State δ → State δ → Prop
  | begin (σ : State δ) (q : Request) :
      Step s σ ⟨σ.tables, σ.executions ++ [⟨q, (q.task s).run⟩]⟩
  | answer (σ : State δ) (i : Nat) (q : Request) (e : Effect δ)
      (next : e.Answer → Program (Effect δ) Effect.Answer (Except Fault Reply)) (r : e.Answer)
      (tables : Relations δ) : σ.executions[i]? = some ⟨q, .ask e next⟩ →
      σ.tables.Answers e r tables → Step s σ ⟨tables, σ.executions.set i ⟨q, next r⟩⟩

/-- The states to which steps lead from no rows and no requests. -/
inductive Reachable (s : Setup) : State δ → Prop
  | initial : Reachable s .initial
  | step {σ τ : State δ} : Reachable s σ → Step s σ τ → Reachable s τ

/-! ## Scheduled steps -/

inductive Turn where
  | begin (q : Request)
  | answer (i : Nat)

/-- The state after a step, where the tables answer by `answer`. -/
def State.turn (s : Setup) (answer : (e : Effect δ) → Relations δ → e.Answer × Relations δ)
    (σ : State δ) : Turn → State δ
  | .begin q => ⟨σ.tables, σ.executions ++ [⟨q, (q.task s).run⟩]⟩
  | .answer i =>
    match σ.executions[i]? with
    | some ⟨q, .ask e next⟩ =>
      ⟨(answer e σ.tables).2, σ.executions.set i ⟨q, next (answer e σ.tables).1⟩⟩
    | _ => σ

variable {s : Setup} {σ τ : State δ}

/-- A schedule leads to a state that is reachable. -/
theorem Reachable.turns {answer : (e : Effect δ) → Relations δ → e.Answer × Relations δ}
    (hanswer : ∀ e (t : Relations δ), t.Answers e (answer e t).1 (answer e t).2)
    (schedule : List Turn) (h : Reachable s σ) :
    Reachable s (schedule.foldl (State.turn s answer) σ) := by
  induction schedule generalizing σ with
  | nil => exact h
  | cons turn rest ih =>
    rw [List.foldl_cons]
    apply ih
    cases turn with
    | begin q => exact h.step (.begin σ q)
    | answer i =>
      unfold State.turn
      dsimp only
      split
      · next q e next hi =>
        exact h.step (.answer σ i q e next _ _ hi (hanswer e σ.tables))
      · exact h

/-! ## What every step keeps -/

/-- The rows go with phases of the requests, and each request will keep to its phases from there. -/
def State.Sound (s : Setup) (σ : State δ) : Prop :=
  ∃ phase, Coherent s (σ.executions.map Execution.request) phase σ.tables ∧
    ∀ (i : Nat) (x : Execution δ), σ.executions[i]? = some x →
      x.rest.Follows (x.request.protocol s) x.request.Ends (phase i)

theorem State.sound_initial : (State.initial : State δ).Sound s := by
  refine ⟨fun _ => .idle, ?_, nofun⟩
  constructor
  case searched => constructor <;> simp [State.initial]
  all_goals simp [State.initial, Relations.empty, Phase.file?]

/-- A request that has not done anything yet changes nothing. -/
theorem Coherent.begin {requests : List Request} {phase : Nat → Phase} {t : Relations δ}
    (h : Coherent s requests phase t) (q : Request) : Coherent s (requests ++ [q]) phase t := by
  have hknown : ∀ {i : Nat} {q'}, requests[i]? = some q' → (requests ++ [q])[i]? = some q' := by
    intro i q' hi
    rw [List.getElem?_append_left (List.getElem?_eq_some_iff.mp hi).1, hi]
  have hstarted : ∀ {i : Nat} {q'}, (requests ++ [q])[i]? = some q' → phase i ≠ .idle →
      requests[i]? = some q' := by
    intro i q' hi hφ
    cases hold : requests[i]? with
    | none => exact absurd (h.outside i hold) hφ
    | some old => rw [← hknown hold, hi]
  refine ⟨?outside, h.issued, h.nodup, h.filed, h.ownIssued, h.ownUnique, ?kept, ?present,
    ?searched⟩
  case outside =>
    intro i hi
    refine h.outside i (List.getElem?_eq_none_iff.mpr ?_)
    have := List.getElem?_eq_none_iff.mp hi
    simp only [List.length_append] at this
    omega
  case kept =>
    intro f hf
    obtain ⟨i, d, hi, hstore, hkept⟩ := h.kept f hf
    refine ⟨i, d, hknown hi, hstore, hkept.mono ?_⟩
    rintro ⟨j, store, hj, hφ⟩
    exact ⟨j, store, hknown hj, hφ⟩
  case present =>
    intro i d id hi hφ
    have hne : phase i ≠ .idle := fun hidle => by
      rw [hidle] at hφ
      cases hφ
    refine (h.present i d id (hstarted hi hne) hφ).imp_right fun hasked => ?_
    refine hasked.imp (List.mem_append_left _) ?_
    rintro ⟨store, hmem⟩
    exact ⟨store, List.mem_append_left _ hmem⟩
  case searched =>
    obtain ⟨hsought, hgone, honce⟩ := h.searched
    refine ⟨?_, ?_, ?_⟩
    · intro i store id hi hφ
      refine hsought i store id (hstarted hi ?_) hφ
      rcases hφ with hφ | hφ <;> simp [hφ]
    · intro i store id hi hφ
      exact hgone i store id (hstarted hi (by simp [hφ])) hφ
    · intro i j store store' id hi hj hφ hφ'
      exact honce i j store store' id (hstarted hi (by simp [hφ])) (hstarted hj (by simp [hφ']))
        hφ hφ'

theorem State.Sound.begin (h : σ.Sound s) (q : Request) :
    State.Sound s ⟨σ.tables, σ.executions ++ [⟨q, (q.task s).run⟩]⟩ := by
  obtain ⟨phase, hcoherent, hfollows⟩ := h
  refine ⟨phase, ?_, ?_⟩
  · simp only [List.map_append, List.map_cons, List.map_nil]
    exact hcoherent.begin q
  · intro i x hx
    by_cases hi : i < σ.executions.length
    · rw [List.getElem?_append_left hi] at hx
      exact hfollows i x hx
    · have hidle : phase i = .idle := by
        refine hcoherent.outside i (List.getElem?_eq_none_iff.mpr ?_)
        rw [List.length_map]
        omega
      rw [List.getElem?_append_right (by omega)] at hx
      obtain rfl := List.mem_singleton.mp (List.mem_of_getElem? hx)
      rw [hidle]
      exact q.follows s

theorem State.Sound.answer (h : σ.Sound s) {i : Nat} {q : Request} {e : Effect δ}
    {next : e.Answer → Program (Effect δ) Effect.Answer (Except Fault Reply)} {r : e.Answer}
    {tables : Relations δ} (hi : σ.executions[i]? = some ⟨q, .ask e next⟩)
    (ha : σ.tables.Answers e r tables) :
    State.Sound s ⟨tables, σ.executions.set i ⟨q, next r⟩⟩ := by
  obtain ⟨phase, hcoherent, hfollows⟩ := h
  have hq : (σ.executions.map Execution.request)[i]? = some q := by
    rw [List.getElem?_map, hi]
    rfl
  have hsame : (σ.executions.set i ⟨q, next r⟩).map Execution.request =
      σ.executions.map Execution.request := by
    obtain ⟨hlt, hget⟩ := List.getElem?_eq_some_iff.mp hq
    rw [List.map_set, show Execution.request ⟨q, next r⟩ = _ from hget.symm, List.set_getElem_self]
  obtain ⟨ψ, hmove, hnext⟩ := hfollows i _ hi r ⟨σ.tables, tables, ha⟩
  refine ⟨Function.update phase i ψ, ?_, ?_⟩
  · rw [hsame]
    exact hcoherent.step hq hmove ha
  · intro j x hx
    by_cases hij : j = i
    · subst hij
      rw [List.getElem?_set_self (List.getElem?_eq_some_iff.mp hi).1] at hx
      obtain rfl := Option.some.inj hx
      rw [Function.update_self]
      exact hnext
    · rw [List.getElem?_set_ne (Ne.symm hij)] at hx
      rw [Function.update_of_ne hij]
      exact hfollows j x hx

theorem State.Sound.step (h : σ.Sound s) (hstep : Step s σ τ) : τ.Sound s := by
  cases hstep with
  | begin q => exact h.begin q
  | answer i q e next r tables hi ha => exact h.answer hi ha

theorem Reachable.sound (h : Reachable s σ) : σ.Sound s := by
  induction h with
  | initial => exact State.sound_initial
  | step _ hstep ih => exact ih.step hstep

end Retrieval.Service
