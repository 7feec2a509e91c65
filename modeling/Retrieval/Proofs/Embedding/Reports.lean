import Retrieval.Proofs.Embedding.Cancellation

/-!
# What an error says of attempts

`embedAll_reports`: an error of the embedding service counts the calls for the batch on which the
work has failed, as long as no call for it was answered. Where the batch was answered and the answer
does not fit it, one attempt is reported, however many calls came before the answer.
-/

namespace Retrieval

variable {δ : Type}

/-- The attempts of which an error of the embedding service speaks. -/
def Fault.attempts? : Fault → Option Attempts
  | .service (.embeddingService _ attempts) _ _ => some attempts
  | _ => none

theorem Fault.attempts?_of_words {f raised : Fault} (h : f.words = .error raised) :
    raised.attempts? = none := by
  rw [Fault.eq_textless_of_words h]
  rfl

namespace Embedding

open History

variable {p : Policy} {model : String} {batch : List Text} {batches : List (List Text)}
  {h own more : History δ}
  {n m attempt : Nat} {fault raised : Fault} {attempts : Attempts}

/-! ## Calls for one batch -/

/-- On record are `n` calls for a batch, and no answer. -/
structure Tried (batch : List Text) (model : String) (n : Nat) (own : History δ) : Prop where
  requests_eq : requests own = List.replicate n (batch, model)
  answered_eq : answered own = []

theorem Tried.quiet (hown : requests own = []) : Tried batch model 0 own :=
  ⟨hown, answered_of_requests hown⟩

theorem Notes.tried {logs : History δ} (hlogs : Notes logs) : Tried batch model 0 logs :=
  .quiet (List.filterMap_eq_nil_iff.mpr fun event hmem => (hlogs.quiet event hmem).1)

theorem Tried.append (hown : Tried batch model n own) (hmore : Tried batch model m more) :
    Tried batch model (n + m) (own ++ more) where
  requests_eq := by
    rw [requests_append, hown.requests_eq, hmore.requests_eq, List.replicate_append_replicate]
  answered_eq := by rw [answered_append, hown.answered_eq, hmore.answered_eq, List.nil_append]

/-- A look at the signal, and a call that fails. -/
theorem tried_refused (fault : Fault) :
    Tried batch model 1 (attempted batch model (.error fault) : History δ) :=
  ⟨rfl, rfl⟩

/-- The calls for a batch up to its answer. -/
theorem Tried.requests_answered {vectors : List (List δ)} (hown : Tried batch model n own) :
    requests (own ++ attempted batch model (.ok vectors)) =
      List.replicate (n + 1) (batch, model) := by
  rw [requests_append, hown.requests_eq, List.replicate_succ']
  rfl

theorem Tried.answered_answered {vectors : List (List δ)} (hown : Tried batch model n own) :
    answered (own ++ attempted batch model (.ok vectors)) = [(batch, vectors)] := by
  rw [answered_append, hown.answered_eq]
  rfl

/-! ## What is reported -/

/-- What a failure settles by itself is reported with its number. -/
theorem attempts?_of_settled
    (hs : Settled n (.error fault : Except Fault (List (List δ))) (.error raised))
    (ha : raised.attempts? = some attempts) : attempts = .counted n := by
  cases hs with
  | aborted => cases ha
  | fatal => exact (Option.some.inj ha).symm
  | unexpected => exact (Option.some.inj ha).symm
  | textless _ _ hwords =>
    rw [Fault.attempts?_of_words hwords] at ha
    cases ha

/-- An answer that does not fit is reported as one attempt. -/
theorem attempts?_of_mismatch? {vectors : List (List δ)} {dimension : Option Nat}
    (hm : mismatch? batch vectors dimension = some fault)
    (ha : fault.attempts? = some attempts) : attempts = .counted 1 := by
  unfold mismatch? at hm
  split at hm
  · cases hm
    exact (Option.some.inj ha).symm
  · split at hm
    · cases hm
      cases ha
    · split at hm
      · cases hm
        exact (Option.some.inj ha).symm
      · cases hm

/-- Where a fault speaks of attempts, the batch has had no answer since `h`, and the attempts are those
made before and the calls since. -/
def Unanswered (batch : List Text) (model : String) (attempt : Nat) (h now : History δ)
    (fault : Fault) : Prop :=
  ∀ attempts, fault.attempts? = some attempts →
    ∃ own n, now = h ++ own ∧ Tried batch model n own ∧ attempts = .counted (attempt + n)

theorem Unanswered.silent {now : History δ} (hfault : fault.attempts? = none) :
    Unanswered batch model attempt h now fault := by
  intro attempts ha
  rw [hfault] at ha
  cases ha

theorem Unanswered.of_cancelled {now : History δ} (hfault : ∃ cause, fault = cancelled cause) :
    Unanswered batch model attempt h now fault := by
  obtain ⟨cause, rfl⟩ := hfault
  exact .silent rfl

/-- Notes in the log are no calls. -/
theorem Unanswered.of_notes {logs : History δ} (hlogs : Notes logs)
    (hcount : ∀ attempts, fault.attempts? = some attempts → attempts = .counted attempt) :
    Unanswered batch model attempt h (h ++ logs) fault :=
  fun attempts ha => ⟨logs, 0, rfl, hlogs.tried, hcount attempts ha⟩

/-- What came before counts as well. -/
theorem Unanswered.after {now : History δ} (hown : Tried batch model n own)
    (hrest : Unanswered batch model (attempt + n) (h ++ own) now fault) :
    Unanswered batch model attempt h now fault := by
  intro attempts ha
  obtain ⟨more, m, rfl, hmore, rfl⟩ := hrest attempts ha
  exact ⟨own ++ more, n + m, List.append_assoc .., hown.append hmore, by rw [Nat.add_assoc]⟩

/-! ## One batch -/

/-- Giving up counts the attempts made before. -/
theorem counted_giveUp {α : Type} {ok : History δ → α → Prop} (failure : Failure) :
    (giveUp failure attempt : Task δ α).Follows guarded ok (Unanswered batch model attempt h) h := by
  refine (guarded_giveUp failure attempt).mono (fun _ _ hok => hok) ?_
  rintro now fault ⟨rfl, logs, rfl, hlogs⟩
  exact .of_notes hlogs fun attempts ha => (Option.some.inj ha).symm

/-- So does a failure that settles the outcome by itself. -/
theorem counted_judge (last : Option Failure) (fault : Fault) :
    (judge last attempt fault : Task δ _).Follows guarded (fun now _ => now = h)
      (Unanswered batch model attempt h) h := by
  refine (guarded_judge last attempt fault).mono (fun _ _ hok => hok.1) ?_
  rintro now raised ⟨hsettled, logs, rfl, hlogs⟩
  exact .of_notes hlogs fun attempts ha => attempts?_of_settled hsettled ha

/-- Trying a batch ends with its answer, or counts its calls: by induction on the attempts that are
left, with those made before counted along. -/
theorem counted_tryBatch (attempt : Nat) (backoff : Float) (last : Option Failure) (left : Nat) :
    (tryBatch p model batch attempt backoff last left : Task δ _).Follows guarded
      (fun now vectors => ∃ own n, now = h ++ (own ++ attempted batch model (.ok vectors)) ∧
        Tried batch model n own)
      (Unanswered batch model attempt h) h := by
  induction left generalizing h attempt backoff last with
  | zero => exact counted_giveUp _
  | succ left ih =>
    refine (guarded_checkSignal.mono (fun _ _ hok => hok) fun _ _ => .of_cancelled).bind ?_
    rintro now - rfl
    refine (guarded_embed h rfl).bind ?_
    rintro now o rfl
    rw [List.append_assoc]
    cases o with
    | ok vectors => exact Task.follows_pure ⟨[], 0, rfl, .quiet rfl⟩
    | error fault =>
      have hcall : Tried batch model 1 (attempted batch model (.error fault) : History δ) :=
        tried_refused fault
      refine ((counted_judge last fault).mono (fun _ _ hok => hok) fun _ _ => .after hcall).bind ?_
      rintro now latest rfl
      split
      · exact (counted_giveUp _).mono (fun _ _ hok => hok) fun _ _ => .after hcall
      · refine ((guarded_pause latest (attempt + 1) backoff).mono (fun _ _ hok => hok)
          fun _ _ => .of_cancelled).bind ?_
        rintro now - ⟨more, rfl, hmore⟩
        -- the call that has failed, and the wait after it
        have hwait : Tried batch model 0 more := .quiet hmore
        have hbefore := hcall.append hwait
        rw [List.append_assoc]
        refine (ih (attempt + 1) _ latest).mono ?_ fun _ _ => .after hbefore
        rintro now vectors ⟨own, n, rfl, hown⟩
        refine ⟨_, _, ?_, hbefore.append hown⟩
        simp only [attempted, List.append_assoc, List.cons_append, List.nil_append]

/-! ## All batches -/

/-- A run that ends with `fault`, which speaks of `attempts`. It is split where the batch before the
one it failed on was answered, so that all calls for this one, `n` of them, are in `own`. -/
structure Reported (batches : List (List Text)) (model : String) (fault : Fault)
    (attempts : Attempts) (before own : History δ) (batch : List Text) (n : Nat) : Prop where
  /-- the batches before it were answered -/
  preceding : ∃ rest, (answered before).map Prod.fst ++ batch :: rest = batches
  /-- the last of them at the end of `before` -/
  boundary : before = [] ∨ ∃ early last vectors, before = early ++ [⟨.embed last model, .ok vectors⟩]
  /-- the calls for it -/
  calls : requests own = List.replicate n (batch, model)
  /-- without an answer to it, its calls are counted; an answer that does not fit it is reported as
  one attempt -/
  outcome : (answered own = [] ∧ attempts = .counted n) ∨
    ∃ vectors, answered own = [(batch, vectors)] ∧
      mismatch? batch vectors (dimension? (answered before)) = some fault ∧ attempts = .counted 1

/-- The calls that are counted are all calls, unless the answer to a repeated call does not fit. -/
theorem Reported.counted_iff {before : History δ}
    (hr : Reported batches model fault attempts before own batch n) :
    attempts = .counted n ↔ answered own = [] ∨ n = 1 := by
  rcases hr.outcome with ⟨hnone, rfl⟩ | ⟨vectors, hone, -, rfl⟩
  · exact iff_of_true rfl (.inl hnone)
  · rw [hone]
    constructor
    · intro hn
      exact .inr (Attempts.counted.inj hn).symm
    · rintro (hnil | rfl)
      · cases hnil
      · rfl

/-- Batch by batch: the failure of a batch is reported with the calls since the answer to the batch
before it. -/
theorem counted_embedBatches (batches rest : List (List Text))
    (hrest : (answered h).map Prod.fst ++ rest = batches)
    (hboundary : h = [] ∨ ∃ early last vectors, h = early ++ [⟨.embed last model, .ok vectors⟩]) :
    (embedBatches p model (dimension? (answered h)) rest : Task δ _).Follows guarded
      (fun _ _ => True)
      (fun now fault => ∀ attempts, fault.attempts? = some attempts →
        ∃ before own batch n, now = before ++ own ∧
          Reported batches model fault attempts before own batch n) h := by
  induction rest generalizing h with
  | nil => exact Task.follows_pure trivial
  | cons batch rest ih =>
    refine ((counted_tryBatch 0 p.initialBackoffMs none p.attempts).mono (fun _ _ hok => hok)
      ?_).bind ?_
    · intro now fault hfault attempts ha
      obtain ⟨own, n, rfl, hown, rfl⟩ := hfault attempts ha
      refine ⟨h, own, batch, n, rfl, ⟨rest, hrest⟩, hboundary, hown.requests_eq, .inl ?_⟩
      exact ⟨hown.answered_eq, by rw [Nat.zero_add]⟩
    · rintro now vectors ⟨own, n, rfl, hown⟩
      cases hm : mismatch? batch vectors (dimension? (answered h)) with
      | some fault =>
        refine Task.follows_throw fun attempts ha => ?_
        refine ⟨h, _, batch, n + 1, rfl, ⟨rest, hrest⟩, hboundary, hown.requests_answered, .inr ?_⟩
        exact ⟨vectors, hown.answered_answered, hm, attempts?_of_mismatch? hm ha⟩
      | none =>
        have hnow : answered (h ++ (own ++ attempted batch model (.ok vectors))) =
            answered h ++ [(batch, vectors)] := by
          rw [answered_append, hown.answered_answered]
        have hmore := ih (h := h ++ (own ++ attempted batch model (.ok vectors)))
          (by rw [hnow, List.map_append, List.append_assoc]; exact hrest)
          (.inr ⟨h ++ (own ++ [⟨.signal, none⟩]), batch, vectors, by simp [attempted]⟩)
        rw [hnow, dimension?_append] at hmore
        exact hmore.bind fun _ _ _ => Task.follows_pure trivial

/-- **An error of the embedding service counts the calls for the batch that has failed**, unless that
batch was answered: then it reports one attempt, and that is right where the first call was
answered. -/
theorem embedAll_reports (c : Client) (texts : List Text) (name : Option String)
    (w : Surroundings δ) (past : History δ) {kind : FailureKind} {attempts : Attempts}
    {message : String} {cause : Option Fault} {history : History δ}
    (hplay : Task.play w (c.embedAll texts name) past =
      (.error (.service (.embeddingService kind attempts) message cause), history)) :
    ∃ before own batch n, history = past ++ (before ++ own) ∧
      Reported (c.policy.batches texts) (name.getD c.defaultModel)
        (.service (.embeddingService kind attempts) message cause) attempts before own batch n ∧
      (attempts = .counted n ↔ answered own = [] ∨ n = 1) := by
  obtain ⟨r, new, now, hrun, hleads, hends⟩ :=
    (counted_embedBatches (p := c.policy) (h := []) (c.policy.batches texts) _ rfl
      (.inl rfl)).play (w := w) (fun _ _ _ => trivial) past
  obtain ⟨rfl, rfl⟩ := Prod.mk.inj (hplay.symm.trans hrun)
  obtain rfl : now = new := eq_append_of_leads hleads
  obtain ⟨before, own, batch, n, rfl, hreported⟩ := hends attempts rfl
  exact ⟨before, own, batch, n, rfl, hreported, hreported.counted_iff⟩

/-- The first text is embedded. The second one meets a limit of the rate, and then a key that is not
accepted. -/
def faltering : Surroundings Nat := serving fun texts h =>
  match texts, (requests h).length with
  | [#[97]], _ => .ok [[1]]
  | _, 1 => .error (.provider .rateLimited "slow down" (some 429) none)
  | _, _ => .error (.provider .authentication "no key" (some 401) none)

/-- The two calls for the second batch are counted, and not the one for the first. -/
theorem embedAll_reports_faltering :
    ∃ cause new, Task.play faltering
        (Client.embedAll ⟨{ Policy.usual with batchSize := 1 }, "m"⟩ [#[97], #[98]] none) [] =
          (.error (serviceError "Embedding service failed after 2 attempt(s): no key"
            .authentication 2 cause), new) ∧
      ∃ before own, new = before ++ own ∧ answered before = [([#[97]], [[1]])] ∧
        requests own = List.replicate 2 ([#[98]], "m") := by
  have hattempts : Policy.attempts { Policy.usual with batchSize := 1 } = 5 := by decide +kernel
  have hbatches : Policy.batches { Policy.usual with batchSize := 1 } [#[97], #[98]] =
      [[#[97]], [#[98]]] := by decide +kernel
  have hrun : ∃ cause new, Task.play faltering
      (Client.embedAll ⟨{ Policy.usual with batchSize := 1 }, "m"⟩ [#[97], #[98]] none) [] =
        (.error (serviceError "Embedding service failed after 2 attempt(s): no key"
          .authentication 2 cause), new) ∧ answered new = [([#[97]], [[1]])] := by
    simp only [Client.embedAll, hbatches, embedBatches, hattempts]
    exact ⟨_, _, rfl, rfl⟩
  obtain ⟨cause, new, hplay, hanswered⟩ := hrun
  obtain ⟨before, own, batch, n, hnew, hreported, -⟩ := embedAll_reports _ _ _ _ _ hplay
  obtain rfl : new = before ++ own := hnew
  refine ⟨cause, _, hplay, before, own, rfl, ?_⟩
  rcases hreported.outcome with ⟨hnone, hn⟩ | ⟨vectors, -, -, hn⟩
  · obtain rfl : 2 = n := Attempts.counted.inj hn
    rw [answered_append, hnone, List.append_nil] at hanswered
    obtain ⟨rest, hrest⟩ := hreported.preceding
    rw [hanswered] at hrest
    obtain ⟨rfl, -⟩ := List.cons.inj (List.cons.inj (hrest.trans hbatches)).2
    exact ⟨hanswered, hreported.calls⟩
  · cases hn

/-- A limit of the rate, and then an answer without vectors. -/
def evading : Surroundings Nat := serving fun _ h =>
  match (requests h).length with
  | 0 => .error (.provider .rateLimited "slow down" (some 429) none)
  | _ => .ok []

/-- There is one batch and two calls are made for it, but the error speaks of one attempt. -/
theorem embedAll_miscounts :
    Policy.usual.batches [#[97]] = [[#[97]]] ∧
      ∃ new, Task.play evading (Client.embedAll ⟨.usual, "m"⟩ [#[97]] none) [] =
          (.error (.service (.embeddingService .unexpected (.counted 1))
            "Embedding provider returned 0 vectors for 1 inputs" none), new) ∧
        requests new = List.replicate 2 ([#[97]], "m") := by
  have hattempts : Policy.usual.attempts = 5 := by decide +kernel
  have hbatches : Policy.usual.batches [#[97]] = [[#[97]]] := by decide +kernel
  refine ⟨hbatches, ?_⟩
  rw [Client.embedAll, hbatches, embedBatches, hattempts]
  exact ⟨_, rfl, rfl⟩

end Embedding
end Retrieval
