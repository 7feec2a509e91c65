import Retrieval.Delay
import Retrieval.Proofs.Embedding.Alignment

/-!
# Giving a request up

`embedAll_heeds`: at whatever moment the caller gives a request up, before it, while the provider
works, during a wait or between two batches, no request to the provider begins after that. The work
ends as cancelled unless the request that was then on its way settles the outcome by itself. That no
request begins too late is a matter of the order of questions (`guarded`): each request comes right
after a look at the signal that has found nothing.
-/

namespace Retrieval

variable {δ : Type}

/-- A timer runs for some time. -/
theorem Delay.duration_pos (ms : Float) : 0 < Delay.duration ms := by
  unfold Delay.duration
  split
  · simp only
    split
    · next hn =>
      simp only [Bool.and_eq_true, decide_eq_true_eq] at hn
      exact hn.1
    · exact Nat.one_pos
  · exact Nat.one_pos

/-! ## Signals -/

/-- After each history the signal says whether the caller has given up, and why. It is final, and it
changes while the provider works or a wait runs: in between, nothing else can run. -/
structure Surroundings.Aborts (w : Surroundings δ) (aborted : History δ → Option Fault) : Prop where
  signal : ∀ h, w .signal h = aborted h
  stays : ∀ h e reason, aborted h = some reason → aborted (h ++ [⟨e, w e h⟩]) = some reason
  turns : ∀ h e, e.request? = none → e.pause? = none → aborted (h ++ [⟨e, w e h⟩]) = aborted h

/-- When the signal is aborted, as seen from a wait that begins after some history. While the wait
runs, that happens so many milliseconds after its beginning. -/
def Surroundings.moment? (w : Surroundings δ) (aborted : History δ → Option Fault)
    (elapsed : History δ → Nat) (ms : Float) (h : History δ) : Option (Delay.Moment × Fault) :=
  match aborted h with
  | some reason => some (.before, reason)
  | none => (aborted (h ++ [⟨.wait ms, w (.wait ms) h⟩])).map fun reason => (.after (elapsed h), reason)

/-- Waits end with their time or with the signal. -/
def Surroundings.Delays (w : Surroundings δ) (aborted : History δ → Option Fault)
    (elapsed : History δ → Nat) : Prop :=
  ∀ ms h, w (.wait ms) h = Delay.outcome ms (w.moment? aborted elapsed ms h)

namespace Surroundings

variable {w : Surroundings δ} {aborted : History δ → Option Fault} {elapsed : History δ → Nat}
  {past pre post new : History δ} {event : Event δ} {reason : Fault}

theorem Tells.answer (h : w.Tells past (pre ++ event :: post)) :
    event.2 = w event.1 (past ++ pre) := by
  induction pre generalizing past with
  | nil =>
    rw [List.append_nil]
    exact h.1
  | cons first pre ih =>
    have hrest := ih h.2
    rwa [List.append_assoc] at hrest

theorem Tells.left (h : w.Tells past (pre ++ post)) : w.Tells past pre := by
  induction pre generalizing past with
  | nil => trivial
  | cons first pre ih => exact ⟨h.1, ih h.2⟩

theorem Tells.right (h : w.Tells past (pre ++ post)) : w.Tells (past ++ pre) post := by
  induction pre generalizing past with
  | nil => rwa [List.append_nil]
  | cons first pre ih =>
    have hrest := ih h.2
    rwa [List.append_assoc] at hrest

/-- Once the signal is aborted it stays so. -/
theorem Aborts.later (ha : w.Aborts aborted) (htells : w.Tells past new)
    (h : aborted past = some reason) : aborted (past ++ new) = some reason := by
  induction new generalizing past with
  | nil => rwa [List.append_nil]
  | cons event rest ih =>
    obtain ⟨e, r⟩ := event
    obtain ⟨hr, hrest⟩ := htells
    obtain rfl : r = w e past := hr
    have hnext := ih hrest (ha.stays past e reason h)
    rwa [List.append_assoc] at hnext

/-- Notes in the log do not change the signal. -/
theorem Aborts.unchanged (ha : w.Aborts aborted) (htells : w.Tells past new)
    (hnew : ∀ event ∈ new, event.1.request? = none ∧ event.1.pause? = none) :
    aborted (past ++ new) = aborted past := by
  induction new generalizing past with
  | nil => rw [List.append_nil]
  | cons event rest ih =>
    obtain ⟨e, r⟩ := event
    obtain ⟨hr, hrest⟩ := htells
    obtain rfl : r = w e past := hr
    obtain ⟨hrequest, hpause⟩ := hnew _ (List.mem_cons_self ..)
    have hnext := ih hrest fun event hmem => hnew event (List.mem_cons_of_mem _ hmem)
    rw [List.append_assoc] at hnext
    exact hnext.trans (ha.turns past e hrequest hpause)

/-- A wait that ends well began before the signal was aborted, and its time was over by then. -/
theorem Delays.ended {ms : Float} (hd : w.Delays aborted elapsed)
    (hok : w (.wait ms) past = .ok ()) :
    aborted past = none ∧
      ∀ reason, aborted (past ++ [⟨.wait ms, w (.wait ms) past⟩]) = some reason →
        Delay.duration ms ≤ elapsed past := by
  have hwait := hd ms past
  rw [hok, moment?] at hwait
  cases hpast : aborted past with
  | some reason =>
    rw [hpast] at hwait
    cases hwait
  | none =>
    refine ⟨rfl, fun reason hreason => ?_⟩
    simp only [hpast, hreason, Option.map_some, Delay.outcome] at hwait
    split at hwait
    · cases hwait
    · next hlt => exact Nat.not_lt.mp hlt

end Surroundings

namespace Embedding

open History

variable {α : Type} {h now new : History δ} {p : Policy} {model : String} {batch : List Text}
  {batches : List (List Text)}

/-! ## The order of questions -/

/-- The protocol of embedding with the history as its phase. A request comes right after a look at
the signal that has found nothing. -/
def guarded : Protocol (Effect δ) Effect.Answer (History δ) where
  Expects _ _ _ := True
  Moves h e r h' := h' = h ++ [⟨e, r⟩] ∧
    (e.request? ≠ none → ∃ before, h = before ++ [⟨.signal, none⟩])

theorem eq_append_of_leads (hl : Task.Leads guarded h new now) : now = h ++ new := by
  induction hl with
  | nil h => rw [List.append_nil]
  | cons hmove _ ih =>
    rw [ih, hmove.1, List.append_assoc]
    rfl

/-- No request begins once the signal is aborted. -/
theorem unaborted_of_leads {w : Surroundings δ} {aborted : History δ → Option Fault}
    {past pre post : History δ} {event : Event δ} (ha : w.Aborts aborted)
    (hl : Task.Leads guarded h new now) (htells : w.Tells (past ++ h) new)
    (hlooked : ∀ before, h = before ++ [⟨.signal, none⟩] → aborted (past ++ h) = none)
    (hnew : new = pre ++ event :: post) (hevent : event.1.request? ≠ none) :
    aborted (past ++ h ++ pre) = none := by
  induction hl generalizing pre with
  | nil h => cases pre <;> cases hnew
  | @cons h now' _ e r rest hmove _ ih =>
    obtain ⟨rfl, hguard⟩ := hmove
    obtain ⟨hr, htold⟩ := htells
    cases pre with
    | nil =>
      obtain ⟨rfl, -⟩ := List.cons.inj hnew
      obtain ⟨before, hbefore⟩ := hguard hevent
      rw [List.append_nil]
      exact hlooked before hbefore
    | cons first pre =>
      obtain ⟨rfl, hrest⟩ := List.cons.inj hnew
      have hnext := ih (by rwa [← List.append_assoc]) ?_ hrest
      · rw [← List.append_assoc past h, List.append_assoc (past ++ h)] at hnext
        exact hnext
      · -- a look at the signal has found what the signal says
        intro before hbefore
        obtain ⟨-, hlast⟩ := List.append_inj' hbefore rfl
        obtain ⟨rfl, hnone⟩ := Sigma.mk.inj (List.singleton_inj.mp hlast)
        obtain rfl := eq_of_heq hnone
        have hsignal := ha.signal (past ++ h)
        have hturn := ha.turns (past ++ h) .signal rfl rfl
        rw [← hr] at hturn hsignal
        rw [← List.append_assoc, hturn, ← hsignal]

/-! ## Outcomes -/

/-- Nothing but entries in the log. -/
def Notes (logs : History δ) : Prop := ∀ event ∈ logs, ∃ entry, event = ⟨.log entry, ()⟩

theorem notes_nil : Notes ([] : History δ) := by
  intro event h
  cases h

/-- The dimension to which an answer is held, by the answers before it. -/
def dimension? (answers : Answered δ) : Option Nat :=
  (answers.flatMap Prod.snd).head?.map List.length

/-- What the outcome of a request settles by itself, after what came before: it answers the last of
the batches, or it does not fit its batch, or it is a failure that does not pass, or it is the last
one that is allowed. -/
inductive Decides (p : Policy) (batches : List (List Text)) (before : History δ)
    (batch : List Text) : Except Fault (List (List δ)) → Except Fault (List (List δ)) → Prop
  | last (vectors : List (List δ)) :
      (answered before).map Prod.fst ++ [batch] = batches →
      Decides p batches before batch (.ok vectors)
        (.ok ((answered before).flatMap Prod.snd ++ vectors))
  | mismatch (vectors : List (List δ)) (fault : Fault) :
      mismatch? batch vectors (dimension? (answered before)) = some fault →
      Decides p batches before batch (.ok vectors) (.error fault)
  | settled (fault raised : Fault) :
      Settled (failures before + 1) (.error fault : Except Fault (List (List δ))) (.error raised) →
      Decides p batches before batch (.error fault) (.error raised)
  | exhausted (kind : FailureKind) (message : String) (status : Option Float)
      (cause : Option Fault) (failure : Failure) :
      kind.disposition? ≠ some .fatal → kind.disposition? ≠ some .cancelled →
      (kind.disposition? = some .retryable → failure = .of kind message status cause) →
      failures before + 1 = p.attempts →
      Decides p batches before batch (.error (.provider kind message status cause))
        (.error (failed failure p.attempts))

/-- The request that was made last decides, and only the log is written to after it. -/
def Decided (p : Policy) (batches : List (List Text)) (model : String) (now : History δ)
    (r : Except Fault (List (List δ))) : Prop :=
  ∃ before batch o logs, now = before ++ ⟨.embed batch model, o⟩ :: logs ∧ Notes logs ∧
    Decides p batches before batch o r

/-- The work has ended as cancelled, or the last request decides. -/
def Concluded (p : Policy) (batches : List (List Text)) (model : String) (now : History δ)
    (r : Except Fault (List (List δ))) : Prop :=
  (∃ cause, r = .error (cancelled cause)) ∨ Decided p batches model now r

/-! ## One batch -/

theorem guarded_log {bad : History δ → Fault → Prop} (level : LogLevel) (message : String)
    (data : List (String × Value)) :
    (Task.log level message data).Follows guarded
      (fun now _ => ∃ entry, now = h ++ [⟨.log entry, ()⟩]) bad h :=
  Task.follows_ask fun _ _ => ⟨_, ⟨rfl, fun hr => absurd rfl hr⟩, _, rfl⟩

theorem guarded_checkSignal :
    (checkSignal : Task δ Unit).Follows guarded (fun now _ => now = h ++ [⟨.signal, none⟩])
      (fun _ fault => ∃ cause, fault = cancelled cause) h := by
  have hlook : (Task.signal : Task δ _).Follows guarded
      (fun now r => now = h ++ [⟨.signal, r⟩]) (fun _ fault => ∃ cause, fault = cancelled cause) h :=
    Task.follows_ask fun _ _ => ⟨_, ⟨rfl, fun hr => absurd rfl hr⟩, rfl⟩
  refine hlook.bind fun now r hnow => ?_
  cases r with
  | none => exact Task.follows_pure hnow
  | some reason => exact Task.follows_throw ⟨some reason, rfl⟩

theorem guarded_embed {bad : History δ → Fault → Prop} (before : History δ)
    (hlooked : h = before ++ [⟨.signal, none⟩]) :
    (Task.embed batch model : Task δ _).Follows guarded
      (fun now o => now = h ++ [⟨.embed batch model, o⟩]) bad h :=
  Task.follows_ask fun _ _ => ⟨_, ⟨rfl, fun _ => ⟨before, hlooked⟩⟩, rfl⟩

theorem guarded_giveUp {ok : History δ → α → Prop} (failure : Failure) (n : Nat) :
    (giveUp failure n : Task δ α).Follows guarded ok
      (fun now fault => fault = failed failure n ∧ ∃ logs, now = h ++ logs ∧ Notes logs) h := by
  refine (guarded_log _ _ _).bind ?_
  rintro now - ⟨entry, rfl⟩
  refine Task.follows_throw ⟨rfl, _, rfl, ?_⟩
  intro event hmem
  exact ⟨entry, List.mem_singleton.mp hmem⟩

/-- A failure ends the work by itself, or may pass; then it is the latest one, if its kind is
known. -/
theorem guarded_judge (last : Option Failure) (n : Nat) (fault : Fault) :
    (judge last n fault : Task δ _).Follows guarded
      (fun now latest => now = h ∧ ∃ kind message status cause,
        fault = .provider kind message status cause ∧ kind.disposition? ≠ some .fatal ∧
        kind.disposition? ≠ some .cancelled ∧
        (kind.disposition? = some .retryable → latest = some (.of kind message status cause)))
      (fun now raised =>
        Settled n (.error fault : Except Fault (List (List δ))) (.error raised) ∧
        ∃ logs, now = h ++ logs ∧ Notes logs) h := by
  have hquiet : ∃ logs, h = h ++ logs ∧ Notes logs := ⟨[], (List.append_nil h).symm, notes_nil⟩
  unfold judge
  cases hf : Failure.ofFault fault with
  | error raised => exact Task.follows_throw ⟨.textless fault raised (ofFault_error hf), hquiet⟩
  | ok failure =>
    have hlift : (Task.lift (.ok failure) : Task δ _).Follows guarded
        (fun now f => now = h ∧ f = failure)
        (fun now raised =>
          Settled n (.error fault : Except Fault (List (List δ))) (.error raised) ∧
          ∃ logs, now = h ++ logs ∧ Notes logs) h :=
      Task.follows_lift ⟨rfl, rfl⟩
    refine hlift.bind ?_
    rintro now f ⟨rfl, rfl⟩
    rcases ofFault_ok hf with ⟨kind, message, status, cause, rfl, rfl⟩ | ⟨words, hne, hwords, rfl⟩
    · cases hd : kind.disposition? with
      | none =>
        simp only [Failure.of, hd]
        refine Task.follows_pure ⟨rfl, kind, message, status, cause, rfl, ?_, ?_, ?_⟩ <;> simp [hd]
      | some disposition =>
        cases disposition with
        | retryable =>
          simp only [Failure.of, hd]
          refine Task.follows_pure ⟨rfl, kind, message, status, cause, rfl, ?_, ?_, ?_⟩ <;> simp [hd]
        | fatal =>
          simp only [Failure.of, hd]
          refine (guarded_giveUp _ n).mono (fun _ _ h => h) ?_
          rintro now raised ⟨rfl, hlogs⟩
          exact ⟨.fatal kind message status cause hd, hlogs⟩
        | cancelled =>
          obtain rfl := eq_aborted_of_cancelled hd
          exact Task.follows_throw ⟨.aborted message status cause, hquiet⟩
    · refine (guarded_giveUp _ n).mono (fun _ _ h => h) ?_
      rintro now raised ⟨rfl, hlogs⟩
      exact ⟨.unexpected fault words hne hwords, hlogs⟩

theorem guarded_pause (last : Option Failure) (n : Nat) (backoff : Float) :
    (pause p last n backoff : Task δ Unit).Follows guarded
      (fun now _ => ∃ more, now = h ++ more ∧ requests more = [])
      (fun _ fault => ∃ cause, fault = cancelled cause) h := by
  refine (guarded_log _ _ _).bind ?_
  rintro now - ⟨entry, rfl⟩
  have hwait : (Task.wait backoff : Task δ _).Follows guarded
      (fun now r => now = h ++ [⟨.log entry, ()⟩] ++ [⟨.wait backoff, r⟩])
      (fun _ fault => ∃ cause, fault = cancelled cause) (h ++ [⟨.log entry, ()⟩]) :=
    Task.follows_ask fun _ _ => ⟨_, ⟨rfl, fun hr => absurd rfl hr⟩, rfl⟩
  refine hwait.bind ?_
  rintro now r rfl
  cases r with
  | ok => exact Task.follows_pure ⟨_, List.append_assoc .., rfl⟩
  | error reason => exact Task.follows_throw ⟨some reason, rfl⟩

/-- What the last failure leaves to be reported, when no attempt is left. -/
theorem decided_exhausted {before logs : History δ} {fault : Fault} {latest : Option Failure}
    (hlogs : Notes logs) (hlast : failures before + 1 = p.attempts)
    (hfault : ∃ kind message status cause,
      fault = .provider kind message status cause ∧ kind.disposition? ≠ some .fatal ∧
      kind.disposition? ≠ some .cancelled ∧
      (kind.disposition? = some .retryable → latest = some (.of kind message status cause))) :
    Decided p batches model (before ++ ⟨.embed batch model, .error fault⟩ :: logs)
      (.error (failed (latest.getD .noAttempt) p.attempts)) := by
  obtain ⟨kind, message, status, cause, rfl, hfatal, hcancelled, hlatest⟩ := hfault
  refine ⟨before, batch, _, logs, rfl, hlogs, ?_⟩
  refine .exhausted kind message status cause _ hfatal hcancelled (fun hd => ?_) hlast
  rw [hlatest hd, Option.getD_some]

/-- Trying a batch ends with its answer, as cancelled, or by what its last request decides. The
failures on record number the attempts. -/
theorem guarded_tryBatch (batches : List (List Text)) (attempt : Nat) (backoff : Float)
    (last : Option Failure) (left : Nat) (hn : failures h = attempt)
    (hsum : attempt + left = p.attempts) (hpos : 0 < left) :
    (tryBatch p model batch attempt backoff last left : Task δ _).Follows guarded
      (fun now vectors => ∃ before, now = before ++ [⟨.embed batch model, .ok vectors⟩] ∧
        answered before = answered h)
      (fun now fault => Concluded p batches model now (.error fault)) h := by
  induction left generalizing h attempt backoff last with
  | zero => exact absurd hpos (Nat.lt_irrefl 0)
  | succ left ih =>
    have hcancelled : ∀ (now : History δ) fault, (∃ cause, fault = cancelled cause) →
        Concluded p batches model now (.error fault) := by
      rintro now fault ⟨cause, rfl⟩
      exact Or.inl ⟨cause, rfl⟩
    refine (guarded_checkSignal.mono (fun _ _ hok => hok) hcancelled).bind ?_
    rintro now - rfl
    refine (guarded_embed h rfl).bind ?_
    rintro now o rfl
    have hanswered : answered (h ++ [⟨.signal, none⟩]) = answered h := by
      rw [answered_append]
      exact List.append_nil _
    have hfailures : failures (h ++ [⟨.signal, none⟩]) = attempt := by
      rw [failures_append rfl, hn]
    cases o with
    | ok vectors => exact Task.follows_pure ⟨_, rfl, hanswered⟩
    | error fault =>
      have hsettled : ∀ (now : History δ) raised,
          (Settled (attempt + 1) (.error fault : Except Fault (List (List δ))) (.error raised) ∧
            ∃ logs, now = h ++ [⟨.signal, none⟩] ++ [⟨.embed batch model, .error fault⟩] ++ logs ∧
              Notes logs) →
          Concluded p batches model now (.error raised) := by
        rintro now raised ⟨hs, logs, rfl, hlogs⟩
        refine Or.inr ⟨_, batch, _, logs, List.append_assoc .., hlogs, .settled fault raised ?_⟩
        rwa [hfailures]
      refine ((guarded_judge last (attempt + 1) fault).mono (fun _ _ hok => hok) hsettled).bind ?_
      rintro now latest ⟨rfl, hfault⟩
      split
      · next hzero =>
        refine (guarded_giveUp _ _).mono (fun _ _ hok => hok) ?_
        rintro now raised ⟨rfl, logs, rfl, hlogs⟩
        have hlast : attempt + 1 = p.attempts := by omega
        rw [hlast, List.append_assoc _ _ logs]
        exact Or.inr (decided_exhausted hlogs (by omega) hfault)
      · refine ((guarded_pause latest (attempt + 1) backoff).mono (fun _ _ hok => hok)
          hcancelled).bind ?_
        rintro now - ⟨more, rfl, hmore⟩
        have hnow : failures (h ++ [⟨.signal, none⟩] ++ [⟨.embed batch model, .error fault⟩] ++ more)
            = attempt + 1 := by
          rw [failures_append hmore, ← hfailures]
          simp [failures, Event.failuresAfter]
        refine (ih (attempt + 1) _ latest hnow (by omega) (by omega)).mono ?_ fun _ _ hbad => hbad
        rintro now vectors ⟨before, rfl, hbefore⟩
        refine ⟨before, rfl, ?_⟩
        rw [hbefore, answered_append, answered_append, answered_of_requests hmore, hanswered]
        simp [answered, Event.answered?]

/-! ## All batches -/

theorem dimension?_append (answers : Answered δ) (batch : List Text) (vectors : List (List δ)) :
    dimension? (answers ++ [(batch, vectors)]) = settled (dimension? answers) vectors := by
  simp only [dimension?, settled, List.flatMap_append, List.head?_append]
  cases (answers.flatMap Prod.snd).head? <;> simp

/-- Either there was nothing to send, or the last request answers the last batch; the result is made
of all the answers on record. -/
theorem guarded_embedBatches (batches rest : List (List Text)) (hpos : 0 < p.attempts)
    (hn : failures h = 0) (hrest : (answered h).map Prod.fst ++ rest = batches) :
    (embedBatches p model (dimension? (answered h)) rest : Task δ _).Follows guarded
      (fun now vectors => (rest = [] ∧ now = h ∧ vectors = []) ∨
        ∃ before batch last, now = before ++ [⟨.embed batch model, .ok last⟩] ∧
          (answered before).map Prod.fst ++ [batch] = batches ∧
          (answered h).flatMap Prod.snd ++ vectors = (answered before).flatMap Prod.snd ++ last)
      (fun now fault => Concluded p batches model now (.error fault)) h := by
  induction rest generalizing h with
  | nil => exact Task.follows_pure (Or.inl ⟨rfl, rfl, rfl⟩)
  | cons batch rest ih =>
    refine (guarded_tryBatch batches 0 p.initialBackoffMs none p.attempts hn
      (Nat.zero_add _) hpos).bind ?_
    rintro now vectors ⟨before, rfl, hbefore⟩
    cases hm : mismatch? batch vectors (dimension? (answered h)) with
    | some fault =>
      refine Task.follows_throw (Or.inr ⟨before, batch, _, [], rfl, notes_nil, .mismatch _ _ ?_⟩)
      rwa [hbefore]
    | none =>
      have hnow : answered (before ++ [⟨.embed batch model, .ok vectors⟩]) =
          answered h ++ [(batch, vectors)] := by
        rw [answered_append, hbefore]
        rfl
      have hnone : failures (before ++ [⟨.embed batch model, .ok vectors⟩]) = 0 := by
        simp [failures, Event.failuresAfter]
      have hmore := ih hnone (by rw [hnow, List.map_append, List.append_assoc]; exact hrest)
      rw [hnow, dimension?_append] at hmore
      refine hmore.bind ?_
      rintro now more (⟨rfl, rfl, rfl⟩ | ⟨before', batch', last, rfl, hsent, hall⟩)
      · refine Task.follows_pure (Or.inr ⟨before, batch, vectors, rfl, ?_, ?_⟩)
        · rwa [hbefore]
        · rw [List.append_nil, hbefore]
      · refine Task.follows_pure (Or.inr ⟨before', batch', last, rfl, hsent, ?_⟩)
        rw [← hall, List.flatMap_append, ← List.append_assoc]
        simp

theorem slices_ne_nil {n : Nat} {l : List α} (hn : 1 ≤ n) (hl : l ≠ []) : slices n l ≠ [] := by
  rw [← groupsOf_eq_slices hn]
  obtain ⟨a, rest, rfl⟩ := List.exists_cons_of_ne_nil hl
  rw [groupsOf]
  exact List.cons_ne_nil _ _

theorem guarded_embedAll (c : Client) (texts : List Text) (name : Option String)
    (hsize : 1 ≤ c.policy.batchSize) (hpos : 0 < c.policy.attempts) (htexts : texts ≠ []) :
    (c.embedAll texts name : Task δ _).Follows guarded
      (fun now vectors => Concluded c.policy (slices c.policy.batchSize texts)
        (name.getD c.defaultModel) now (.ok vectors))
      (fun now fault => Concluded c.policy (slices c.policy.batchSize texts)
        (name.getD c.defaultModel) now (.error fault)) [] := by
  have hbatches : c.policy.batches texts = slices c.policy.batchSize texts := by
    rw [Policy.batches, groupsOf_eq_slices hsize, if_neg (by simp; omega)]
  rw [Client.embedAll, hbatches]
  refine (guarded_embedBatches (h := []) (slices c.policy.batchSize texts) _ hpos rfl rfl).mono ?_
    fun _ _ hbad => hbad
  rintro now vectors (⟨hnil, -, -⟩ | ⟨before, batch, last, rfl, hsent, hall⟩)
  · exact absurd hnil (slices_ne_nil hsize htexts)
  · refine Or.inr ⟨before, batch, _, [], rfl, notes_nil, ?_⟩
    obtain rfl : vectors = (answered before).flatMap Prod.snd ++ last := hall
    exact .last last hsent

/-! ## Every run -/

/-- How a run heeds the signal. After `past`, `new` has been asked and answered, with the outcome
`r`. -/
structure Heeds (w : Surroundings δ) (aborted : History δ → Option Fault) (p : Policy)
    (batches : List (List Text)) (model : String) (past new : History δ)
    (r : Except Fault (List (List δ))) : Prop where
  /-- no request begins once the signal is aborted -/
  requests : ∀ pre batch name o post, new = pre ++ ⟨.embed batch name, o⟩ :: post →
    aborted (past ++ pre) = none
  /-- and no wait comes to its end: one that does began before that, and was over by then -/
  waits : ∀ elapsed, w.Delays aborted elapsed → ∀ pre ms post,
    new = pre ++ ⟨.wait ms, .ok ()⟩ :: post → aborted (past ++ pre) = none ∧
      ∀ reason, aborted (past ++ (pre ++ [⟨.wait ms, .ok ()⟩])) = some reason →
        Delay.duration ms ≤ elapsed (past ++ pre)
  /-- once the signal is aborted, the work ends as cancelled, unless the request that was on its way
  at that moment decides -/
  outcome : ∀ reason, aborted (past ++ new) = some reason →
    (∃ cause, r = .error (cancelled cause)) ∨
      ∃ before batch o logs, new = before ++ ⟨.embed batch model, o⟩ :: logs ∧ Notes logs ∧
        aborted (past ++ before) = none ∧
        aborted (past ++ (before ++ [⟨.embed batch model, o⟩])) = some reason ∧
        Decides p batches before batch o r
  /-- there is a result only if all batches were sent when the signal was aborted -/
  sent : ∀ vectors early late reason, r = .ok vectors → new = early ++ late →
    aborted (past ++ early) = some reason →
      ∀ batch ∈ batches, batch ∈ (History.requests early).map Prod.fst

theorem Notes.quiet {logs : History δ} (h : Notes logs) :
    ∀ event ∈ logs, event.1.request? = none ∧ event.1.pause? = none := by
  intro event hmem
  obtain ⟨entry, rfl⟩ := h event hmem
  exact ⟨rfl, rfl⟩

theorem mem_requests_of_answered (h : batch ∈ (answered new).map Prod.fst) :
    batch ∈ (requests new).map Prod.fst := by
  obtain ⟨answer, hanswer, rfl⟩ := List.mem_map.mp h
  obtain ⟨⟨e, r⟩, hevent, hr⟩ := List.mem_filterMap.mp hanswer
  cases e with
  | embed texts name =>
    cases r with
    | ok vectors =>
      cases hr
      exact List.mem_map.mpr ⟨(texts, name), List.mem_filterMap.mpr ⟨_, hevent, rfl⟩, rfl⟩
    | error fault => cases hr
  | _ => cases hr

/-- A run by the protocol that ends as embedding ends heeds the signal. -/
theorem heeds_of_leads {w : Surroundings δ} {aborted : History δ → Option Fault}
    {past : History δ} {r : Except Fault (List (List δ))} (ha : w.Aborts aborted)
    (htells : w.Tells past new) (hl : Task.Leads guarded [] new now)
    (hr : Concluded p batches model new r) : Heeds w aborted p batches model past new r := by
  have hrequests : ∀ pre batch name o post, new = pre ++ ⟨.embed batch name, o⟩ :: post →
      aborted (past ++ pre) = none := by
    intro pre batch name o post hnew
    have hstart : w.Tells (past ++ []) new := by rwa [List.append_nil]
    have hnone := unaborted_of_leads ha hl hstart
      (fun before hb => by cases before <;> cases hb) hnew
      (Option.some_ne_none _)
    rwa [List.append_nil] at hnone
  refine ⟨hrequests, ?_, ?_, ?_⟩
  · intro elapsed hd pre ms post hnew
    have hok : .ok () = w (.wait ms) (past ++ pre) := (hnew ▸ htells).answer
    have hended := hd.ended hok.symm
    rwa [← hok, List.append_assoc] at hended
  · intro reason hreason
    rcases hr with hcancelled | ⟨before, batch, o, logs, rfl, hlogs, hdecides⟩
    · exact Or.inl hcancelled
    · refine Or.inr ⟨before, batch, o, logs, rfl, hlogs, hrequests _ _ _ _ _ rfl, ?_, hdecides⟩
      rw [List.append_cons, ← List.append_assoc past] at hreason
      rw [List.append_cons] at htells
      rwa [ha.unchanged htells.right hlogs.quiet] at hreason
  · rintro vectors early late reason rfl hnew habort batch hbatch
    rcases hr with ⟨cause, hcause⟩ | ⟨before, lastBatch, o, logs, hsplit, -, hdecides⟩
    · cases hcause
    · have hnone := hrequests _ _ _ _ _ hsplit
      cases hdecides with
      | last _ hsent =>
        rcases List.append_eq_append_iff.mp (hnew.symm.trans hsplit) with
          ⟨rest, rfl, hlate⟩ | ⟨rest, rfl, hrest⟩
        · -- the last request would have begun after the signal was aborted
          rw [hnew, hlate] at htells
          have hlater := ha.later htells.right.left habort
          rw [List.append_assoc, hnone] at hlater
          cases hlater
        · cases rest with
          | nil =>
            rw [List.append_nil, hnone] at habort
            cases habort
          | cons event rest =>
            obtain ⟨rfl, -⟩ := List.cons.inj hrest
            rw [History.requests_append, List.map_append, List.mem_append]
            rw [← hsent, List.mem_append] at hbatch
            rcases hbatch with hbatch | hbatch
            · exact Or.inl (mem_requests_of_answered hbatch)
            · obtain rfl := List.mem_singleton.mp hbatch
              exact Or.inr (List.mem_cons_self ..)

/-- **Embedding heeds the signal**, at whatever moment it is aborted and whatever the provider and the
waits do. -/
theorem embedAll_heeds (c : Client) (texts : List Text) (name : Option String)
    (w : Surroundings δ) (aborted : History δ → Option Fault) (past : History δ)
    (hsize : 1 ≤ c.policy.batchSize) (hattempts : 0 < c.policy.attempts) (htexts : texts ≠ [])
    (ha : w.Aborts aborted) :
    ∃ r new, Task.play w (c.embedAll texts name) past = (r, past ++ new) ∧
      Heeds w aborted c.policy (slices c.policy.batchSize texts) (name.getD c.defaultModel) past new
        r := by
  obtain ⟨r, new, now, hplay, hleads, hends⟩ :=
    (guarded_embedAll c texts name hsize hattempts htexts).play (fun _ _ _ => trivial) past
  refine ⟨r, new, hplay, heeds_of_leads ha (Task.tells_of_play hplay) hleads ?_⟩
  obtain rfl : now = new := eq_append_of_leads hleads
  cases r with
  | ok vectors => exact hends
  | error fault => exact hends

/-- A caller gives up when the first wait begins. -/
def patience (h : History Nat) : Option Fault :=
  if (pauses h).isEmpty then none else some (.plain "too slow")

/-- The provider is always too busy, for a caller who does not wait. -/
def impatient : Surroundings Nat
  | .embed .., _ => .error (.provider .rateLimited "slow down" (some 429) none)
  | .wait _, _ => .error (.plain "too slow")
  | .signal, h => patience h
  | e, h => serving (fun _ _ => .ok []) e h

theorem pauses_append (h k : History δ) : pauses (h ++ k) = pauses h ++ pauses k :=
  List.filterMap_append

theorem impatient_aborts : impatient.Aborts patience where
  signal _ := rfl
  stays h e reason hreason := by
    unfold patience at hreason ⊢
    split at hreason
    · cases hreason
    · next hpauses =>
      have hmore : ¬ (pauses (h ++ [⟨e, impatient e h⟩])).isEmpty = true := by
        rw [List.isEmpty_iff] at hpauses ⊢
        rw [pauses_append]
        exact fun hnil => hpauses (List.append_eq_nil_iff.mp hnil).1
      rwa [if_neg hmore]
  turns h e _ hpause := by
    have hnone : pauses [(⟨e, impatient e h⟩ : Event Nat)] = [] := by simp [pauses, hpause]
    rw [patience, pauses_append, hnone, List.append_nil]
    rfl

theorem impatient_delays : impatient.Delays patience (fun _ => 0) := by
  intro ms h
  have hpos := Delay.duration_pos ms
  by_cases hpauses : (pauses h).isEmpty = true
  · have hnow : patience h = none := if_pos hpauses
    have hthen : patience (h ++ [⟨.wait ms, impatient (.wait ms) h⟩]) = some (.plain "too slow") := by
      rw [patience, pauses_append, if_neg (by simp [pauses, Effect.pause?])]
    simp only [Surroundings.moment?, hnow, hthen, Option.map_some, Delay.outcome, hpos, if_true]
    rfl
  · have hnow : patience h = some (.plain "too slow") := if_neg hpauses
    simp [Surroundings.moment?, hnow, Delay.outcome, impatient]

/-- The one request is not tried again, and the work ends as cancelled. -/
theorem embedAll_heeds_impatient :
    1 ≤ Policy.usual.batchSize ∧ 0 < Policy.usual.attempts ∧ [(#[97] : Text)] ≠ [] ∧
      impatient.Aborts patience ∧ impatient.Delays patience (fun _ => 0) ∧
      ∃ new, Task.play impatient (Client.embedAll ⟨.usual, "m"⟩ [#[97]] none) [] =
          (.error (cancelled (some (.plain "too slow"))), new) ∧
        requests new = [([#[97]], "m")] ∧
        ∀ pre ms post, new = pre ++ ⟨.wait ms, .ok ()⟩ :: post → patience pre = none := by
  have hattempts : Policy.usual.attempts = 5 := by decide +kernel
  have hbatches : Policy.usual.batches [#[97]] = [[#[97]]] := by decide +kernel
  have hpos : 0 < Policy.usual.attempts := by rw [hattempts]; decide
  have hrun : ∃ new, Task.play impatient (Client.embedAll ⟨.usual, "m"⟩ [#[97]] none) [] =
      (.error (cancelled (some (.plain "too slow"))), new) ∧ requests new = [([#[97]], "m")] := by
    rw [Client.embedAll, hbatches, embedBatches, hattempts]
    exact ⟨_, rfl, rfl⟩
  obtain ⟨new, hplay, hrequests⟩ := hrun
  obtain ⟨r, new', hplay', hheeds⟩ := embedAll_heeds ⟨.usual, "m"⟩ [#[97]] none impatient patience []
    (by decide) hpos (by decide) impatient_aborts
  obtain ⟨rfl, rfl⟩ := Prod.mk.inj (hplay.symm.trans hplay')
  refine ⟨by decide, hpos, by decide, impatient_aborts, impatient_delays, new, hplay, hrequests, ?_⟩
  intro pre ms post hnew
  exact (hheeds.waits _ impatient_delays pre ms post hnew).1

end Embedding
end Retrieval
