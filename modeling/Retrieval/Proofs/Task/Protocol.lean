import Retrieval.Proofs.Task.History

/-!
# Protocols

A protocol says, phase by phase, what may be asked and which phase each answer leads to. A program
follows a protocol if all its questions are moves of it, whatever is answered to them within what
the protocol expects. Programs in a row follow a protocol one after the other, so that what is asked
by a large program is known from its parts.
-/

namespace Retrieval

/-- How work may go on: in each phase, the answers that are expected, and the phases that follow a
question with its answer. -/
structure Protocol (E : Type) (R : E → Type) (Φ : Type) where
  Expects : Φ → (e : E) → R e → Prop
  Moves : Φ → (e : E) → R e → Φ → Prop

variable {E : Type} {R : E → Type} {Φ Ψ α β δ : Type}

/-! ## Programs -/

namespace Program

/-- From a phase on, all questions are moves, and what is known at the end is `post`. -/
def Follows (P : Protocol E R Φ) (post : Φ → α → Prop) : Program E R α → Φ → Prop
  | done a, φ => post φ a
  | ask e next, φ => ∀ r, P.Expects φ e r → ∃ ψ, P.Moves φ e r ψ ∧ Follows P post (next r) ψ

variable {P : Protocol E R Φ} {post : Φ → α → Prop} {p : Program E R α} {φ : Φ}

theorem Follows.bind {post' : Φ → β → Prop} {f : α → Program E R β} (hp : p.Follows P post φ)
    (hf : ∀ ψ a, post ψ a → (f a).Follows P post' ψ) : (p >>= f).Follows P post' φ := by
  induction p generalizing φ with
  | done a => exact hf φ a hp
  | ask e next ih =>
    intro r hr
    obtain ⟨ψ, hmove, hnext⟩ := hp r hr
    exact ⟨ψ, hmove, ih r hnext⟩

theorem Follows.mono {post' : Φ → α → Prop} (hp : p.Follows P post φ)
    (h : ∀ ψ a, post ψ a → post' ψ a) : p.Follows P post' φ := by
  induction p generalizing φ with
  | done a => exact h φ a hp
  | ask e next ih =>
    intro r hr
    obtain ⟨ψ, hmove, hnext⟩ := hp r hr
    exact ⟨ψ, hmove, ih r hnext⟩

/-- Where another protocol can go along with every move, the program follows that one as well. -/
theorem Follows.transfer {Q : Protocol E R Ψ} {ψ : Ψ} (rel : Φ → Ψ → Prop)
    (hp : p.Follows P post φ) (hrel : rel φ ψ)
    (hexpects : ∀ φ ψ e r, rel φ ψ → Q.Expects ψ e r → P.Expects φ e r)
    (hmoves : ∀ φ φ' ψ e r, rel φ ψ → P.Moves φ e r φ' → ∃ ψ', Q.Moves ψ e r ψ' ∧ rel φ' ψ') :
    p.Follows Q (fun ψ a => ∃ φ, rel φ ψ ∧ post φ a) ψ := by
  induction p generalizing φ ψ with
  | done a => exact ⟨φ, hrel, hp⟩
  | ask e next ih =>
    intro r hr
    obtain ⟨φ', hmove, hnext⟩ := hp r (hexpects φ ψ e r hrel hr)
    obtain ⟨ψ', hmove', hrel'⟩ := hmoves φ φ' ψ e r hrel hmove
    exact ⟨ψ', hmove', ih r hnext hrel'⟩

end Program

/-! ## Tasks -/

namespace Task

variable {P : Protocol (Effect δ) Effect.Answer Φ} {ok ok' : Φ → α → Prop}
  {bad bad' : Φ → Fault → Prop} {t : Task δ α} {φ : Φ}

/-- What is known of an outcome, by what is known of results and of faults. -/
def Ends (ok : Φ → α → Prop) (bad : Φ → Fault → Prop) (φ : Φ) : Except Fault α → Prop
  | .ok a => ok φ a
  | .error fault => bad φ fault

/-- From a phase on, all questions of the task are moves; `ok` is known of its result, `bad` of the
fault with which it fails. -/
def Follows (P : Protocol (Effect δ) Effect.Answer Φ) (ok : Φ → α → Prop) (bad : Φ → Fault → Prop)
    (t : Task δ α) (φ : Φ) : Prop :=
  t.run.Follows P (Ends ok bad) φ

theorem Follows.mono (h : t.Follows P ok bad φ) (hok : ∀ ψ a, ok ψ a → ok' ψ a)
    (hbad : ∀ ψ fault, bad ψ fault → bad' ψ fault) : t.Follows P ok' bad' φ :=
  Program.Follows.mono h fun ψ r hr => match r, hr with
    | .ok a, hr => hok ψ a hr
    | .error fault, hr => hbad ψ fault hr

theorem Follows.bind {okB : Φ → β → Prop} {f : α → Task δ β} (ht : t.Follows P ok bad φ)
    (hf : ∀ ψ a, ok ψ a → (f a).Follows P okB bad ψ) : (t >>= f).Follows P okB bad φ :=
  Program.Follows.bind ht fun ψ r hr => match r, hr with
    | .ok a, hr => hf ψ a hr
    | .error _, hr => hr

theorem follows_pure {a : α} (h : ok φ a) : (pure a : Task δ α).Follows P ok bad φ := h

theorem follows_throw {fault : Fault} (h : bad φ fault) :
    (throw fault : Task δ α).Follows P ok bad φ := h

theorem follows_lift {r : Except Fault α} (h : Ends ok bad φ r) : (lift r).Follows P ok bad φ := h

/-- Work that goes on with a result, or fails with the fault in its place. -/
theorem follows_lift_bind {x : Except Fault β} {f : β → Task δ α}
    (hf : ∀ b, x = .ok b → (f b).Follows P ok bad φ)
    (hbad : ∀ fault, x = .error fault → bad φ fault) : (lift x >>= f).Follows P ok bad φ := by
  cases x with
  | ok b => exact hf b rfl
  | error fault => exact hbad fault rfl

theorem follows_ask {e : Effect δ} {ok : Φ → e.Answer → Prop}
    (h : ∀ r, P.Expects φ e r → ∃ ψ, P.Moves φ e r ψ ∧ ok ψ r) : (ask e).Follows P ok bad φ := h

theorem follows_stores {call : StoreCall} {ok : Φ → call.Answer → Prop}
    (h : ∀ r, P.Expects φ (.stores call) r → ∃ ψ, P.Moves φ (.stores call) r ψ ∧ Ends ok bad ψ r) :
    (stores call).Follows P ok bad φ := h

theorem follows_files {call : FileCall} {ok : Φ → call.Answer → Prop}
    (h : ∀ r, P.Expects φ (.files call) r → ∃ ψ, P.Moves φ (.files call) r ψ ∧ Ends ok bad ψ r) :
    (files call).Follows P ok bad φ := h

theorem follows_chunks {call : ChunkCall δ} {ok : Φ → call.Answer → Prop}
    (h : ∀ r, P.Expects φ (.chunks call) r → ∃ ψ, P.Moves φ (.chunks call) r ψ ∧ Ends ok bad ψ r) :
    (chunks call).Follows P ok bad φ := h

/-- Once the outcome is a value, there is no fault any more. -/
theorem Follows.outcome (ht : t.Follows P ok bad φ) : t.outcome.Follows P (Ends ok bad) bad' φ :=
  Program.Follows.bind ht fun _ _ hr => hr

/-! ## Runs -/

/-- Events that lead from one phase to another. -/
inductive Leads (P : Protocol (Effect δ) Effect.Answer Φ) : Φ → History δ → Φ → Prop
  | nil (φ : Φ) : Leads P φ [] φ
  | cons {φ χ ψ : Φ} {e : Effect δ} {r : e.Answer} {rest : History δ} :
      P.Moves φ e r χ → Leads P χ rest ψ → Leads P φ (⟨e, r⟩ :: rest) ψ

/-- Played in surroundings that answer as expected, a task moves by the protocol. -/
theorem Follows.play {w : Surroundings δ} (ht : t.Follows P ok bad φ)
    (hw : ∀ φ e h, P.Expects φ e (w e h)) (past : History δ) :
    ∃ r new ψ, Task.play w t past = (r, past ++ new) ∧ Leads P φ new ψ ∧ Ends ok bad ψ r := by
  unfold Follows at ht
  unfold Task.play
  generalize t.run = p at ht ⊢
  induction p generalizing φ past with
  | done r => exact ⟨r, [], φ, by simp [Program.run], .nil φ, ht⟩
  | ask e next ih =>
    obtain ⟨χ, hmove, hnext⟩ := ht (w e past) (hw φ e past)
    obtain ⟨r, new, ψ, hplay, hleads, hends⟩ :=
      ih (w e past) (past ++ [⟨e, w e past⟩]) hnext
    refine ⟨r, ⟨e, w e past⟩ :: new, ψ, ?_, .cons hmove hleads, hends⟩
    rw [List.append_assoc] at hplay
    exact hplay

/-! ## Two runs -/

/-- No move leads out of the phase. -/
def Final (P : Protocol (Effect δ) Effect.Answer Φ) (φ : Φ) : Prop :=
  ∀ e r ψ, P.Moves φ e r ψ → ψ = φ

theorem Leads.final {ψ : Φ} {new : History δ} (h : Leads P φ new ψ) (hφ : Final P φ) : ψ = φ := by
  induction h with
  | nil φ => rfl
  | cons hmove _ ih =>
    obtain rfl := hφ _ _ _ hmove
    exact ih hφ

/-- Wherever two worlds answer differently, both moves lead to one final phase. -/
def PartsFinally (P : Protocol (Effect δ) Effect.Answer Φ) (w₁ w₂ : Surroundings δ) : Prop :=
  ∀ φ e h ψ₁ ψ₂, P.Moves φ e (w₁ e h) ψ₁ → P.Moves φ e (w₂ e h) ψ₂ →
    w₁ e h = w₂ e h ∨ ψ₁ = ψ₂ ∧ Final P ψ₁

/-- Two runs of one task are the same, or they end in one final phase, so that the same is known of
both outcomes. -/
theorem Follows.play_both {w₁ w₂ : Surroundings δ} (ht : t.Follows P ok bad φ)
    (hw₁ : ∀ φ e h, P.Expects φ e (w₁ e h)) (hw₂ : ∀ φ e h, P.Expects φ e (w₂ e h))
    (hparts : PartsFinally P w₁ w₂) (past : History δ) :
    Task.play w₁ t past = Task.play w₂ t past ∨
      ∃ ψ, Final P ψ ∧ Ends ok bad ψ (Task.play w₁ t past).1 ∧
        Ends ok bad ψ (Task.play w₂ t past).1 := by
  unfold Follows at ht
  unfold Task.play
  generalize t.run = p at ht ⊢
  induction p generalizing φ past with
  | done r => exact .inl rfl
  | ask e next ih =>
    obtain ⟨ψ₁, hmove₁, hnext₁⟩ := ht (w₁ e past) (hw₁ φ e past)
    obtain ⟨ψ₂, hmove₂, hnext₂⟩ := ht (w₂ e past) (hw₂ φ e past)
    rcases hparts φ e past ψ₁ ψ₂ hmove₁ hmove₂ with hsame | ⟨rfl, hfinal⟩
    · have hrest := ih (w₁ e past) (past ++ [⟨e, w₁ e past⟩]) hnext₁
      simp only [Program.run]
      rw [← hsame]
      exact hrest
    · -- from here on each run keeps to the phase, whatever it meets
      have kept (w : Surroundings δ) (hw : ∀ φ e h, P.Expects φ e (w e h))
          (hnext : (next (w e past)).Follows P (Ends ok bad) ψ₁) :
          Ends ok bad ψ₁ (Task.play w (ExceptT.mk (next (w e past)))
            (past ++ [⟨e, w e past⟩])).1 := by
        obtain ⟨r, new, ψ, hplay, hleads, hends⟩ :=
          Follows.play (t := ExceptT.mk (next (w e past))) hnext hw (past ++ [⟨e, w e past⟩])
        obtain rfl := hleads.final hfinal
        rw [hplay]
        exact hends
      exact .inr ⟨ψ₁, hfinal, kept w₁ hw₁ hnext₁, kept w₂ hw₂ hnext₂⟩

end Task
end Retrieval
