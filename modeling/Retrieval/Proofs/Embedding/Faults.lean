import Retrieval.Proofs.Embedding.Cancellation
import Retrieval.Proofs.Ingestion.Course

/-!
# With which faults embedding ends

`play_embedOne`: whatever the provider does and whenever the caller gives up, embedding calls no
table, and where it fails the fault is an error of the embedding service or a request that was given
up. There are two exceptions: a provider that raises what has no text makes embedding fail with the
fault of looking for one, and a policy of empty batches with the fault of looking into an empty
answer.
-/

namespace Retrieval.Embedding

variable {δ α : Type} {h now : History δ} {p : Policy} {model : String} {batch : List Text}
variable {n : Nat} {fault raised : Fault}

/-- The faults with which embedding ends, after what was asked and answered. -/
inductive Raised (now : History δ) : Fault → Prop
  | reported (message : String) (kind : FailureKind) (attempts : Nat) (cause : Option Fault) :
      Raised now (serviceError message kind attempts cause)
  | cancelled (cause : Option Fault) : Raised now (cancelled cause)
  /-- the provider has raised what has no text -/
  | textless (batch : List Text) (model : String) (given fault : Fault) :
      ⟨.embed batch model, .error given⟩ ∈ now → given.words = .error fault → Raised now fault

theorem raised_failed (failure : Failure) (n : Nat) : Raised now (failed failure n) :=
  .reported _ _ _ _

/-- What settles a batch by itself is raised as one of these. -/
theorem raised_of_settled (hmem : ⟨.embed batch model, .error fault⟩ ∈ now)
    (hs : Settled n (.error fault : Except Fault (List (List δ))) (.error raised)) :
    Raised now raised := by
  cases hs with
  | aborted => exact .cancelled _
  | fatal => exact raised_failed _ _
  | unexpected => exact raised_failed _ _
  | textless _ _ hwords => exact .textless batch model fault raised hmem hwords

/-- Trying a batch ends with one of these faults, however many attempts are left. -/
theorem raises_tryBatch (attempt : Nat) (backoff : Float) (last : Option Failure) (left : Nat) :
    (tryBatch p model batch attempt backoff last left : Task δ _).Follows guarded
      (fun _ _ => True) Raised h := by
  have hgiveUp (failure : Failure) (n : Nat) (h : History δ) :
      (giveUp failure n : Task δ (List (List δ))).Follows guarded (fun _ _ => True) Raised h := by
    refine (guarded_giveUp failure n).mono (fun _ _ ok => ok) ?_
    rintro now raised ⟨rfl, -⟩
    exact raised_failed failure n
  have hcancelled (now : History δ) (raised : Fault) (h : ∃ cause, raised = cancelled cause) :
      Raised now raised := by
    obtain ⟨cause, rfl⟩ := h
    exact .cancelled cause
  induction left generalizing h attempt backoff last with
  | zero => exact hgiveUp _ _ h
  | succ left ih =>
    refine (guarded_checkSignal.mono (fun _ _ ok => ok) hcancelled).bind ?_
    rintro now - rfl
    refine (guarded_embed h rfl).bind ?_
    rintro now o rfl
    cases o with
    | ok vectors => exact Task.follows_pure trivial
    | error fault =>
      have hsettled : ∀ (now : History δ) (raised : Fault),
          (Settled (attempt + 1) (.error fault : Except Fault (List (List δ))) (.error raised) ∧
            ∃ logs, now = h ++ [⟨.signal, none⟩] ++ [⟨.embed batch model, .error fault⟩] ++ logs ∧
              Notes logs) → Raised now raised := by
        rintro now raised ⟨hs, logs, rfl, -⟩
        have hmem : (⟨.embed batch model, .error fault⟩ : Event δ) ∈
            h ++ [⟨.signal, none⟩] ++ [⟨.embed batch model, .error fault⟩] ++ logs := by simp
        exact raised_of_settled hmem hs
      refine ((guarded_judge last (attempt + 1) fault).mono (fun _ _ ok => ok) hsettled).bind ?_
      rintro now latest -
      split
      · exact hgiveUp _ _ now
      · refine ((guarded_pause latest (attempt + 1) backoff).mono (fun _ _ ok => ok)
          hcancelled).bind ?_
        rintro now - -
        exact ih _ _ _

/-- An answer that does not fit its batch is reported, unless there is nothing in both. -/
theorem raised_of_mismatch? {vectors : List (List δ)} {dimension : Option Nat}
    (hm : mismatch? batch vectors dimension = some fault) :
    Raised now fault ∨ batch = [] ∧ fault = noDimension := by
  unfold mismatch? at hm
  split at hm
  · cases hm
    exact .inl (.reported _ _ _ _)
  · next hlength =>
    split at hm
    · next hnone =>
      cases hm
      cases vectors with
      | nil => exact .inr ⟨List.length_eq_zero_iff.mp (Decidable.not_not.mp hlength).symm, rfl⟩
      | cons v rest => cases dimension <;> cases hnone
    · split at hm
      · cases hm
        exact .inl (.reported _ _ _ _)
      · cases hm

theorem raises_embedBatches (dimension : Option Nat) (batches : List (List Text)) :
    (embedBatches p model dimension batches : Task δ _).Follows guarded (fun _ _ => True)
      (fun now fault => Raised now fault ∨ [] ∈ batches ∧ fault = noDimension) h := by
  induction batches generalizing h dimension with
  | nil => exact Task.follows_pure trivial
  | cons batch rest ih =>
    refine ((raises_tryBatch 0 p.initialBackoffMs none p.attempts).mono (fun _ _ ok => ok)
      fun _ _ bad => .inl bad).bind ?_
    rintro now vectors -
    cases hm : mismatch? batch vectors dimension with
    | some fault =>
      refine Task.follows_throw ((raised_of_mismatch? hm).imp_right ?_)
      rintro ⟨rfl, rfl⟩
      exact ⟨List.mem_cons_self .., rfl⟩
    | none =>
      refine ((ih _).mono (fun _ _ ok => ok) fun _ _ bad => ?_).bind fun _ _ _ =>
        Task.follows_pure trivial
      exact bad.imp_right fun hempty => ⟨List.mem_cons_of_mem _ hempty.1, hempty.2⟩

/-- Only a size of zero makes an empty batch. -/
theorem batchSize_eq_zero {texts : List Text} (h : [] ∈ p.batches texts) : p.batchSize = 0 := by
  unfold Policy.batches at h
  split at h
  · next hzero =>
    simp only [Bool.and_eq_true, decide_eq_true_eq] at hzero
    exact hzero.1
  · exact absurd rfl (ne_nil_of_mem_groupsOf h)

/-- **Embedding a text** calls no table, and ends with its vector or with one of these faults. -/
theorem play_embedOne (c : Client) (text : Text) (name : Option String) (w : Surroundings δ)
    (past : History δ) :
    ∃ r new, Task.play w (c.embedOne text name) past = (r, past ++ new) ∧ new.calls = [] ∧
      ∀ fault, r = .error fault →
        Raised new fault ∨ c.policy.batchSize = 0 ∧ fault = noDimension := by
  obtain ⟨r, new, hplay, hcalls, -, -⟩ := Ingestion.play_embedAll w past c [text] name
  have hraises : (c.embedAll [text] name : Task δ _).Follows guarded (fun _ _ => True)
      (fun now fault => Raised now fault ∨ c.policy.batchSize = 0 ∧ fault = noDimension) [] :=
    (raises_embedBatches none _).mono (fun _ _ ok => ok) fun _ _ bad =>
      bad.imp_right fun hempty => ⟨batchSize_eq_zero hempty.1, hempty.2⟩
  obtain ⟨r', new', now, hplay', hleads, hends⟩ := hraises.play (w := w) (fun _ _ _ => trivial) past
  obtain ⟨rfl, hnew⟩ := Prod.mk.inj (hplay.symm.trans hplay')
  obtain rfl := List.append_cancel_left hnew
  obtain rfl : now = new := eq_append_of_leads hleads
  rw [Client.embedOne]
  cases r with
  | ok vectors =>
    rw [Task.play_bind_ok _ _ hplay, Task.play_pure]
    exact ⟨_, now, rfl, hcalls, nofun⟩
  | error fault =>
    rw [Task.play_bind_error _ _ hplay]
    refine ⟨_, now, rfl, hcalls, fun raised hr => ?_⟩
    obtain rfl := Except.error.inj hr
    exact hends

end Retrieval.Embedding
