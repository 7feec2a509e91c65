import Mathlib.Algebra.Group.Defs
import Retrieval.Embedding.Client
import Retrieval.Proofs.Number.Order
import Retrieval.Proofs.Task.History
import Retrieval.Proofs.Value.Members

/-!
# Attempts at a batch

`tryBatch_attempts`: where the caller does not give up and waits come to their end, a batch is sent
again, after a wait that grows by a fixed factor, until the first outcome that is no passing failure
or until the attempts are used up. That outcome and the number of attempts settle what becomes of
the batch; nothing of earlier batches does.
-/

namespace Retrieval

variable {δ : Type}

/-! ## What is done about a kind of failure -/

namespace FailureKind

theorem disposition?_of_known {kind : FailureKind} (h : kind ∈ known) :
    kind.disposition? ≠ none := by
  cases kind with
  | unlisted name => simp [known] at h
  | _ => exact nofun

theorem find?_named {kinds : List FailureKind} (h : ∀ kind ∈ kinds, kind.disposition? ≠ none)
    (name : String) :
    Value.find? name (kinds.filterMap named?) =
      (kinds.find? (·.name? == some name)).bind fun kind =>
        kind.disposition?.map fun d => .text d.name := by
  induction kinds with
  | nil => rfl
  | cons kind rest ih =>
    obtain ⟨hkind, hrest⟩ := List.forall_mem_cons.mp h
    obtain ⟨d, hd⟩ := Option.ne_none_iff_exists'.mp hkind
    cases hname : kind.name? with
    | none =>
      have hnamed : named? kind = none := by rw [named?, hname, Option.bind_none]
      rw [List.filterMap_cons_none hnamed, ih hrest, List.find?_cons, hname]
      rfl
    | some n =>
      have hnamed : named? kind = some (n, .text d.name) := by
        rw [named?, hname, hd, Option.bind_some, Option.map_some]
      rw [List.filterMap_cons_some hnamed, Value.find?_cons, ih hrest, List.find?_cons, hname,
        Option.some_beq_some]
      cases n == name with
      | true => rw [if_pos rfl, Option.bind_some, hd, Option.map_some]
      | false => rw [if_neg Bool.false_ne_true]

/-- What is looked up under a name is the disposition of the kind with that name; only where there
is none it is what all records have under it. -/
theorem classified_eq (name : String) :
    classified name = ((ofName (some name)).disposition?.map fun d => Value.text d.name).elim
      (Value.inherited (.record []) name) .value := by
  have hfind : Value.find? name dispositions =
      (ofName (some name)).disposition?.map fun d => .text d.name := by
    rw [dispositions, find?_named fun _ => disposition?_of_known, ofName]
    cases known.find? (·.name? == some name) <;> rfl
  rw [classified, Value.memberOf, hfind]

end FailureKind

/-! ## What a history says of attempts -/

def Effect.request? : Effect δ → Option (List Text × String)
  | .embed texts model => some (texts, model)
  | _ => none

def Effect.pause? : Effect δ → Option Float
  | .wait ms => some ms
  | _ => none

namespace History

def requests (h : History δ) : List (List Text × String) := h.filterMap (·.1.request?)

def pauses (h : History δ) : List Float := h.filterMap (·.1.pause?)

/-- The requests and the waits, in the order in which they were made. -/
def attempts (h : History δ) : List (Effect δ) :=
  (h.map Sigma.fst).filter fun e => e.request?.isSome || e.pause?.isSome

theorem requests_append (h k : History δ) : requests (h ++ k) = requests h ++ requests k :=
  List.filterMap_append

theorem attempts_append (h k : History δ) : attempts (h ++ k) = attempts h ++ attempts k := by
  simp [attempts]

theorem requests_eq (h : History δ) : requests h = (attempts h).filterMap Effect.request? := by
  unfold requests attempts
  rw [List.filterMap_filter, List.filterMap_map]
  congr 1
  funext e
  cases hr : e.1.request? <;> simp [hr]

theorem pauses_eq (h : History δ) : pauses h = (attempts h).filterMap Effect.pause? := by
  unfold pauses attempts
  rw [List.filterMap_filter, List.filterMap_map]
  congr 1
  funext e
  cases hp : e.1.pause? <;> simp [hp]

end History

/-- The caller never gives up, and every wait comes to its end. -/
structure Surroundings.Calm (w : Surroundings δ) : Prop where
  signal : ∀ h, w .signal h = none
  wait : ∀ ms h, w (.wait ms) h = .ok ()

namespace Embedding

open History

variable {p : Policy} {batch : List Text} {model : String}

/-! ## The schedule -/

/-- The wait after attempt number `i`, counted from zero: the first wait times the factor, `i` times
over, each product rounded as products of doubles are. -/
def Policy.backoff (p : Policy) : Nat → Float
  | 0 => p.initialBackoffMs
  | i + 1 => p.backoff i * p.backoffFactor

/-- `n` attempts from number `i` on, with a wait between one and the next. -/
def schedule (p : Policy) (batch : List Text) (model : String) : Nat → Nat → List (Effect δ)
  | _, 0 => []
  | _, 1 => [.embed batch model]
  | i, n + 2 => .embed batch model :: .wait (p.backoff i) :: schedule p batch model (i + 1) (n + 1)

theorem schedule_requests (i n : Nat) :
    (schedule p batch model i n : List (Effect δ)).filterMap Effect.request? =
      List.replicate n (batch, model) := by
  fun_induction (schedule p batch model i n : List (Effect δ)) with
  | case1 => rfl
  | case2 => rfl
  | case3 i n ih =>
    rw [List.replicate_succ, ← ih]
    rfl

theorem schedule_pauses (i n : Nat) :
    (schedule p batch model i n : List (Effect δ)).filterMap Effect.pause? =
      (List.range' i (n - 1)).map p.backoff := by
  fun_induction (schedule p batch model i n : List (Effect δ)) with
  | case1 => rfl
  | case2 => rfl
  | case3 i n ih =>
    rw [show n + 2 - 1 = n + 1 from rfl, List.range'_succ, List.map_cons]
    exact congrArg (p.backoff i :: ·) ih

/-- `n` attempts at a batch are on record: nothing else was asked of the provider, and there was one
wait between any two of them and no other. -/
structure Attempted (p : Policy) (batch : List Text) (model : String) (n : Nat) (h : History δ) :
    Prop where
  requests_eq : requests h = List.replicate n (batch, model)
  pauses_eq : pauses h = (List.range (n - 1)).map p.backoff
  attempts_eq : attempts h = schedule p batch model 0 n

theorem Attempted.of_schedule {n : Nat} {h : History δ}
    (hs : attempts h = schedule p batch model 0 n) : Attempted p batch model n h where
  requests_eq := by rw [History.requests_eq, hs, schedule_requests]
  pauses_eq := by rw [History.pauses_eq, hs, schedule_pauses, List.range_eq_range']
  attempts_eq := hs

/-- Where the products are exact, a wait is the first one times a power of the factor. -/
theorem Policy.value_backoff {M : Type} [Monoid M] (value : Float → M) (i : Nat)
    (hexact : ∀ k, k < i → value (p.backoff k * p.backoffFactor) =
      value (p.backoff k) * value p.backoffFactor) :
    value (p.backoff i) = value p.initialBackoffMs * value p.backoffFactor ^ i := by
  induction i with
  | zero => rw [pow_zero, mul_one]; rfl
  | succ i ih =>
    have hi := ih fun k hk => hexact k (Nat.lt_succ_of_lt hk)
    rw [Policy.backoff, hexact i (Nat.lt_succ_self i), hi, mul_assoc, pow_succ]

/-! ## One attempt -/

/-- The outcome of a request is a failure that may pass. -/
def Passing (o : Except Fault (List (List δ))) : Prop :=
  ∃ kind message status cause,
    o = .error (.provider kind message status cause) ∧ kind.disposition? = some .retryable

/-- A failure of the provider is of a kind that is known. -/
def Known (o : Except Fault (List (List δ))) : Prop :=
  ∀ kind message status cause,
    o = .error (.provider kind message status cause) → kind ∈ FailureKind.known

/-- What becomes of a batch whose last of `n` attempts had an outcome that is no passing failure. -/
inductive Settled (n : Nat) : Except Fault (List (List δ)) → Except Fault (List (List δ)) → Prop
  | answered (vectors : List (List δ)) : Settled n (.ok vectors) (.ok vectors)
  | aborted (message : String) (status : Option Float) (cause : Option Fault) :
      Settled n (.error (.provider .aborted message status cause))
        (.error (cancelled (some (.provider .aborted message status cause))))
  | fatal (kind : FailureKind) (message : String) (status : Option Float) (cause : Option Fault) :
      kind.disposition? = some .fatal →
      Settled n (.error (.provider kind message status cause))
        (.error (failed (.of kind message status cause) n))
  | unexpected (fault : Fault) (words : String) :
      (∀ kind message status cause, fault ≠ .provider kind message status cause) →
      fault.words = .ok words →
      Settled n (.error fault) (.error (failed (.of .unexpected words none (some fault)) n))
  /-- what was raised has no text, and looking for one raises the fault that is passed on -/
  | textless (fault raised : Fault) :
      fault.words = .error raised → Settled n (.error fault) (.error raised)

variable {w : Surroundings δ} {past : History δ} {n left : Nat} {backoff : Float}
  {last : Option Failure}

theorem play_checkSignal (h : w .signal past = none) :
    Task.play w checkSignal past = (.ok (), past ++ [⟨.signal, none⟩]) := by
  unfold checkSignal Task.signal
  rw [Task.play_bind_ok w past (Task.play_ask w past .signal), h]
  rfl

/-- Giving up puts one entry in the log. -/
theorem play_giveUp (α : Type) (w : Surroundings δ) (past : History δ) (n : Nat)
    (failure : Failure) :
    ∃ new, Task.play w (giveUp failure n : Task δ α) past =
        (.error (failed failure n), past ++ new) ∧
      attempts new = [] :=
  ⟨[⟨.log _, _⟩], rfl, rfl⟩

/-- A fault without a text is the only one that stands for no failure. -/
theorem ofFault_error {fault raised : Fault} (h : Failure.ofFault fault = .error raised) :
    fault.words = .error raised := by
  cases fault with
  | provider kind message status cause => cases h
  | value v =>
    cases hw : (Fault.value v).words with
    | ok words => simp [Failure.ofFault, hw, Except.map] at h
    | error e => simpa [Failure.ofFault, hw, Except.map] using h
  | _ => cases h

/-- A failure of the provider's own stands for itself, any other fault for an unexpected one. -/
theorem ofFault_ok {fault : Fault} {failure : Failure} (h : Failure.ofFault fault = .ok failure) :
    (∃ kind message status cause, fault = .provider kind message status cause ∧
      failure = .of kind message status cause) ∨
    (∃ words, (∀ kind message status cause, fault ≠ .provider kind message status cause) ∧
      fault.words = .ok words ∧ failure = .of .unexpected words none (some fault)) := by
  cases fault with
  | provider kind message status cause =>
    cases h
    exact Or.inl ⟨kind, message, status, cause, rfl, rfl⟩
  | value v =>
    cases hw : (Fault.value v).words with
    | ok words =>
      simp only [Failure.ofFault, hw, Except.map, Except.ok.injEq] at h
      exact Or.inr ⟨words, nofun, rfl, h.symm⟩
    | error e => simp [Failure.ofFault, hw, Except.map] at h
  | _ =>
    cases h
    exact Or.inr ⟨_, nofun, rfl, rfl⟩

theorem eq_aborted_of_cancelled {kind : FailureKind} (h : kind.disposition? = some .cancelled) :
    kind = .aborted := by
  cases kind <;> first | rfl | cases h

theorem play_judge_passing {kind : FailureKind} {message : String} {status : Option Float}
    {cause : Option Fault} (h : kind.disposition? = some .retryable) :
    Task.play w (judge last n (.provider kind message status cause)) past =
      (.ok (some (.of kind message status cause)), past) := by
  have hf : Failure.ofFault (.provider kind message status cause) =
    .ok (.of kind message status cause) := rfl
  rw [judge, hf, Task.play_bind_ok w past (Task.play_lift w past _)]
  simp [Failure.of, h]

/-- A fault that does not pass settles what becomes of the batch. -/
theorem play_judge_settled {fault : Fault} {o : Except Fault (List (List δ))}
    (w : Surroundings δ) (past : History δ) (last : Option Failure) (n : Nat)
    (ho : o = .error fault) (hknown : Known o) (hstop : ¬ Passing o) :
    ∃ raised new, Task.play w (judge last n fault) past = (.error raised, past ++ new) ∧
      Settled n o (.error raised) ∧ attempts new = [] := by
  subst ho
  unfold judge
  cases hf : Failure.ofFault fault with
  | error raised =>
    rw [Task.play_bind_error w past (Task.play_lift w past _)]
    exact ⟨raised, [], by simp, .textless fault raised (ofFault_error hf), rfl⟩
  | ok failure =>
    rw [Task.play_bind_ok w past (Task.play_lift w past _)]
    rcases ofFault_ok hf with ⟨kind, message, status, cause, rfl, rfl⟩ | ⟨words, hne, hwords, rfl⟩
    · cases hd : kind.disposition? with
      | none => exact absurd hd (FailureKind.disposition?_of_known (hknown _ _ _ _ rfl))
      | some disposition =>
        cases disposition with
        | retryable => exact absurd ⟨kind, message, status, cause, rfl, hd⟩ hstop
        | fatal =>
          obtain ⟨new, hplay, hnew⟩ :=
            play_giveUp (Option Failure) w past n (.of kind message status cause)
          refine ⟨_, new, ?_, .fatal kind message status cause hd, hnew⟩
          simpa [Failure.of, hd] using hplay
        | cancelled =>
          obtain rfl := eq_aborted_of_cancelled hd
          exact ⟨_, [], by simp [Failure.of, hd], .aborted message status cause, rfl⟩
    · obtain ⟨new, hplay, hnew⟩ :=
        play_giveUp (Option Failure) w past n (.of .unexpected words none (some fault))
      exact ⟨_, new, hplay, .unexpected fault words hne hwords, hnew⟩

theorem play_pause (p : Policy) (past : History δ) (last : Option Failure) (n : Nat)
    (backoff : Float) (hcalm : w.Calm) :
    ∃ new, Task.play w (pause p last n backoff) past = (.ok (), past ++ new) ∧
      attempts new = [.wait backoff] := by
  unfold pause logRetry
  rw [Task.play_bind_ok w past (Task.play_log w past _ _ _), Task.wait,
    Task.play_bind_ok w _ (Task.play_ask w _ _), hcalm.wait]
  exact ⟨_, congrArg (Prod.mk _) (List.append_assoc ..), rfl⟩

/-! ## All attempts -/

/-- What an attempt puts on record: a look at the signal, and a request with its outcome. -/
def attempted (batch : List Text) (model : String) (o : Except Fault (List (List δ))) : History δ :=
  [⟨.signal, none⟩, ⟨.embed batch model, o⟩]

/-- Each attempt begins with a look at the signal and a request. -/
theorem play_request {α : Type} {o : Except Fault (List (List δ))} (hcalm : w.Calm)
    (ho : w (.embed batch model) (past ++ [⟨.signal, none⟩]) = o)
    (f : Except Fault (List (List δ)) → Task δ α) :
    Task.play w (checkSignal >>= fun _ => Task.embed batch model >>= f) past =
      Task.play w (f o) (past ++ attempted batch model o) := by
  rw [Task.play_bind_ok w past (play_checkSignal (hcalm.signal past)), Task.embed,
    Task.play_bind_ok w _ (Task.play_ask w _ _), ho, List.append_assoc]
  rfl

/-- An attempt whose outcome is no passing failure is the last one. -/
theorem play_tryBatch_settled {o : Except Fault (List (List δ))} (hcalm : w.Calm)
    (ho : w (.embed batch model) (past ++ [⟨.signal, none⟩]) = o) (hknown : Known o)
    (hstop : ¬ Passing o) :
    ∃ result rest, Task.play w (tryBatch p model batch n backoff last (left + 1)) past =
        (result, past ++ (attempted batch model o ++ rest)) ∧
      Settled (n + 1) o result ∧ attempts rest = [] := by
  rw [tryBatch, play_request hcalm ho]
  cases o with
  | ok vectors => exact ⟨_, [], by rw [List.append_nil]; rfl, .answered vectors, rfl⟩
  | error fault =>
    obtain ⟨raised, rest, hplay, hsettled, hrest⟩ := play_judge_settled w
      (past ++ attempted batch model (.error fault)) last (n + 1) rfl hknown hstop
    refine ⟨_, rest, ?_, hsettled, hrest⟩
    rw [Task.play_bind_error w _ hplay, List.append_assoc]

/-- After a passing failure there is a wait and the next attempt, if one is left. -/
theorem play_tryBatch_passing {kind : FailureKind} {message : String} {status : Option Float}
    {cause : Option Fault} {o : Except Fault (List (List δ))} (p : Policy) (n left : Nat)
    (backoff : Float) (last : Option Failure) (hcalm : w.Calm)
    (hkind : kind.disposition? = some .retryable)
    (ho : w (.embed batch model) (past ++ [⟨.signal, none⟩]) = o)
    (hfail : o = .error (.provider kind message status cause)) :
    ∃ rest, Task.play w (tryBatch p model batch n backoff last (left + 2)) past =
        Task.play w (tryBatch p model batch (n + 1) (backoff * p.backoffFactor)
          (some (.of kind message status cause)) (left + 1))
          (past ++ (attempted batch model o ++ rest)) ∧
      attempts rest = [.wait backoff] := by
  subst hfail
  obtain ⟨rest, hplay, hrest⟩ := play_pause p
    (past ++ attempted batch model (.error (.provider kind message status cause)))
    (some (.of kind message status cause)) (n + 1) backoff hcalm
  refine ⟨rest, ?_, hrest⟩
  rw [tryBatch, play_request hcalm ho]
  dsimp only
  rw [Task.play_bind_ok w _ (play_judge_passing hkind), if_neg (Nat.succ_ne_zero left),
    Task.play_bind_ok w _ hplay, List.append_assoc]

/-- A passing failure of the last attempt is what is reported. -/
theorem play_tryBatch_last {kind : FailureKind} {message : String} {status : Option Float}
    {cause : Option Fault} (p : Policy) (n : Nat) (backoff : Float) (last : Option Failure)
    (hcalm : w.Calm) (hkind : kind.disposition? = some .retryable)
    (ho : w (.embed batch model) (past ++ [⟨.signal, none⟩]) =
      .error (.provider kind message status cause)) :
    ∃ new, Task.play w (tryBatch p model batch n backoff last 1) past =
        (.error (failed (.of kind message status cause) (n + 1)), past ++ new) ∧
      attempts new = [.embed batch model] := by
  obtain ⟨new, hplay, hnew⟩ := play_giveUp (List (List δ)) w
    (past ++ attempted batch model (.error (.provider kind message status cause))) (n + 1)
    (.of kind message status cause)
  refine ⟨attempted batch model (.error (.provider kind message status cause)) ++ new, ?_, ?_⟩
  · rw [tryBatch, play_request hcalm ho]
    dsimp only
    rw [Task.play_bind_ok w _ (play_judge_passing hkind), if_pos rfl, ← List.append_assoc]
    exact hplay
  · rw [attempts_append, hnew]
    rfl

/-- From some point of the history on, request number `i` has the outcome `o i`. -/
def Scripted (w : Surroundings δ) (past : History δ) (o : Nat → Except Fault (List (List δ))) :
    Prop :=
  ∀ texts name new, w (.embed texts name) (past ++ new) = o (requests new).length

variable {o : Nat → Except Fault (List (List δ))} {pre : History δ}

theorem Scripted.next (batch : List Text) (model : String) (ho : Scripted w past o)
    (hn : (requests pre).length = n) :
    w (.embed batch model) (past ++ pre ++ [⟨.signal, none⟩]) = o n := by
  rw [List.append_assoc, ho, requests_append, List.length_append, hn]
  rfl

/-- Where request number `n` fails in a way that may pass, attempt number `n + 1` follows. -/
theorem play_tryBatch_retry (p : Policy) (batch : List Text) (model : String) (left : Nat)
    (last : Option Failure) (hcalm : w.Calm) (ho : Scripted w past o)
    (hn : (requests pre).length = n) (hpass : Passing (o n)) :
    ∃ failure new,
      Task.play w (tryBatch p model batch n (p.backoff n) last (left + 2)) (past ++ pre) =
        Task.play w (tryBatch p model batch (n + 1) (p.backoff (n + 1)) (some failure) (left + 1))
          (past ++ (pre ++ new)) ∧
      attempts new = [.embed batch model, .wait (p.backoff n)] ∧
      (requests (pre ++ new)).length = n + 1 := by
  obtain ⟨kind, message, status, cause, hfail, hkind⟩ := hpass
  obtain ⟨rest, hplay, hrest⟩ := play_tryBatch_passing p n left (p.backoff n) last hcalm hkind
    (ho.next batch model hn) hfail
  refine ⟨.of kind message status cause, attempted batch model (o n) ++ rest, ?_, ?_, ?_⟩
  · rw [hplay, List.append_assoc]
    rfl
  · rw [attempts_append, hrest]
    rfl
  · rw [requests_append, requests_append, List.length_append, List.length_append, hn,
      requests_eq rest, hrest]
    rfl

/-- The run up to the first outcome that is no passing failure, from attempt number `n` on. The
requests so far number the outcomes, and the backoff is the one that belongs to `n`. -/
theorem play_tryBatch_until {j : Nat} (p : Policy) (batch : List Text) (model : String)
    (last : Option Failure) (hcalm : w.Calm) (ho : Scripted w past o)
    (hn : (requests pre).length = n) (hj : n ≤ j) (hleft : j < n + left)
    (hpass : ∀ i, n ≤ i → i < j → Passing (o i)) (hknown : Known (o j)) (hstop : ¬ Passing (o j)) :
    ∃ result new,
      Task.play w (tryBatch p model batch n (p.backoff n) last left) (past ++ pre) =
        (result, past ++ pre ++ new) ∧
      Settled (j + 1) (o j) result ∧ attempts new = schedule p batch model n (j + 1 - n) := by
  induction left generalizing n pre last with
  | zero => omega
  | succ left ih =>
    rcases Nat.eq_or_lt_of_le hj with rfl | hlt
    · rw [Nat.add_sub_cancel_left]
      obtain ⟨result, rest, hplay, hsettled, hrest⟩ :=
        play_tryBatch_settled hcalm (ho.next batch model hn) hknown hstop
      refine ⟨result, attempted batch model (o n) ++ rest, hplay, hsettled, ?_⟩
      rw [attempts_append, hrest]
      rfl
    · obtain ⟨left, rfl⟩ : ∃ rest, left = rest + 1 := ⟨left - 1, by omega⟩
      obtain ⟨failure, new, hplay, hnew, hn'⟩ := play_tryBatch_retry p batch model left last hcalm
        ho hn (hpass n (Nat.le_refl n) hlt)
      obtain ⟨result, more, hrest, hsettled, hmore⟩ := ih (some failure) hn' hlt (by omega)
        fun i hi => hpass i (by omega)
      refine ⟨result, new ++ more, ?_, hsettled, ?_⟩
      · rw [hplay, hrest]
        simp only [List.append_assoc]
      · rw [attempts_append, hnew, hmore, show j + 1 - n = j - (n + 1) + 2 by omega,
          show j + 1 - (n + 1) = j - (n + 1) + 1 by omega]
        rfl

/-- The run in which all attempts that are left fail in a way that may pass. -/
theorem play_tryBatch_exhausted (p : Policy) (batch : List Text) (model : String) (left : Nat)
    (last : Option Failure) (hcalm : w.Calm) (ho : Scripted w past o)
    (hn : (requests pre).length = n) (hpass : ∀ i, n ≤ i → i ≤ n + left → Passing (o i)) :
    ∃ kind message status cause new,
      o (n + left) = .error (.provider kind message status cause) ∧
      Task.play w (tryBatch p model batch n (p.backoff n) last (left + 1)) (past ++ pre) =
        (.error (failed (.of kind message status cause) (n + left + 1)), past ++ pre ++ new) ∧
      attempts new = schedule p batch model n (left + 1) := by
  induction left generalizing n pre last with
  | zero =>
    obtain ⟨kind, message, status, cause, hfail, hkind⟩ := hpass n (Nat.le_refl n) (Nat.le_refl n)
    obtain ⟨new, hplay, hnew⟩ := play_tryBatch_last p n (p.backoff n) last hcalm hkind
      ((ho.next batch model hn).trans hfail)
    exact ⟨kind, message, status, cause, new, hfail, hplay, hnew⟩
  | succ left ih =>
    obtain ⟨failure, new, hplay, hnew, hn'⟩ := play_tryBatch_retry p batch model left last hcalm
      ho hn (hpass n (Nat.le_refl n) (by omega))
    obtain ⟨kind, message, status, cause, more, hfail, hrest, hmore⟩ :=
      ih (some failure) hn' fun i hi hle => hpass i (by omega) (by omega)
    rw [show n + (left + 1) = n + 1 + left by omega]
    refine ⟨kind, message, status, cause, new ++ more, hfail, ?_, ?_⟩
    · rw [hplay, hrest]
      simp only [List.append_assoc]
    · rw [attempts_append, hnew, hmore]
      rfl

/-! ## The bound -/

/-- A bound that is a whole number allows that many attempts. -/
theorem Policy.attempts_of_natural {m : Nat} (h : Number.natural? p.maxAttempts = some m)
    (hpos : 1 ≤ m) : p.attempts = m := by
  unfold Number.natural? at h
  obtain ⟨k, hk, hm⟩ := Option.bind_eq_some_iff.mp h
  obtain ⟨negative, mantissa, e, q, hx, rfl, heq⟩ := Exact.whole?_eq_some hk
  cases negative with
  | true =>
    simp only [Exact.signed, if_true, Option.ite_none_right_eq_some, Option.some.injEq] at hm
    omega
  | false =>
    simp only [Exact.signed, Bool.false_eq_true, if_false, Option.ite_none_right_eq_some,
      Option.some.injEq] at hm
    obtain ⟨-, rfl⟩ := hm
    have hstep := twoTo_pos (-e).toNat
    unfold Policy.attempts
    rw [hx]
    dsimp only
    rw [heq, Nat.add_sub_assoc hstep, Nat.mul_comm, Nat.mul_add_div hstep,
      Nat.div_eq_of_lt (Nat.sub_lt hstep Nat.one_pos), Nat.add_zero, Int.toNat_natCast]

/-- **The attempts at a batch**, whatever the provider does, after any history. Where request `k` is
the first whose outcome is no passing failure, there are `k + 1` attempts and that outcome settles
the batch; where there is no such request, all attempts are made and the last failure is reported.
Where the products of doubles are exact, the waits are the first one times powers of the factor. -/
theorem tryBatch_attempts {m : Nat} (p : Policy) (batch : List Text) (model : String)
    (o : Nat → Except Fault (List (List δ))) (w : Surroundings δ) (past : History δ)
    (hm : Number.natural? p.maxAttempts = some m) (hpos : 1 ≤ m) (hcalm : w.Calm)
    (ho : Scripted w past o) (hknown : ∀ i, Known (o i)) :
    (∀ k, k < m → (∀ i, i < k → Passing (o i)) → ¬ Passing (o k) →
      ∃ result new,
        Task.play w (tryBatch p model batch 0 p.initialBackoffMs none p.attempts) past =
          (result, past ++ new) ∧
        Settled (k + 1) (o k) result ∧ Attempted p batch model (k + 1) new) ∧
    ((∀ i, i < m → Passing (o i)) →
      ∃ kind message status cause new,
        o (m - 1) = .error (.provider kind message status cause) ∧
        Task.play w (tryBatch p model batch 0 p.initialBackoffMs none p.attempts) past =
          (.error (failed (.of kind message status cause) m), past ++ new) ∧
        Attempted p batch model m new) ∧
    (∀ {M : Type} [Monoid M] (value : Float → M) (i : Nat),
      (∀ k, k < i → value (p.backoff k * p.backoffFactor) =
        value (p.backoff k) * value p.backoffFactor) →
      value (p.backoff i) = value p.initialBackoffMs * value p.backoffFactor ^ i) := by
  rw [Policy.attempts_of_natural hm hpos]
  have hnone : (requests ([] : History δ)).length = 0 := rfl
  refine ⟨?_, ?_, fun value i hexact => p.value_backoff value i hexact⟩
  · intro k hk hpass hstop
    obtain ⟨result, new, hplay, hsettled, hnew⟩ := play_tryBatch_until p batch model none hcalm ho
      hnone (Nat.zero_le k) (Nat.zero_add m ▸ hk) (fun i _ hi => hpass i hi) (hknown k)
      hstop
    rw [List.append_nil] at hplay
    exact ⟨result, new, hplay, hsettled, Attempted.of_schedule hnew⟩
  · intro hpass
    obtain ⟨left, rfl⟩ : ∃ left, m = left + 1 := ⟨m - 1, by omega⟩
    obtain ⟨kind, message, status, cause, new, hfail, hplay, hnew⟩ :=
      play_tryBatch_exhausted p batch model left none hcalm ho hnone fun i _ hi =>
        hpass i (by omega)
    rw [List.append_nil, Nat.zero_add] at hplay
    rw [Nat.zero_add] at hfail
    exact ⟨kind, message, status, cause, new, hfail, hplay, Attempted.of_schedule hnew⟩

/-- A provider that answers by the texts and by what came before, for a caller who never gives up.
No table answers. -/
def serving (o : List Text → History δ → Except Fault (List (List δ))) : Surroundings δ
  | .embed texts _, h => o texts h
  | .wait _, _ => .ok ()
  | .signal, _ => none
  | .now, _ => 0
  | .freshId, _ => ""
  | .log _, _ => ()
  | .probe, _ => .ok ()
  | .stores _, _ => .error (.plain "")
  | .files _, _ => .error (.plain "")
  | .chunks _, _ => .error (.plain "")

theorem serving_calm (o : List Text → History δ → Except Fault (List (List δ))) :
    (serving o).Calm := ⟨fun _ => rfl, fun _ _ => rfl⟩

/-- A limit of the rate, then an interface that is down, then vectors. -/
def stumbling : Nat → Except Fault (List (List Nat))
  | 0 => .error (.provider .rateLimited "slow down" (some 429) none)
  | 1 => .error (.provider .serverUnavailable "down" (some 503) none)
  | _ => .ok [[1, 2]]

/-- The provider whose requests have these outcomes, one after the other. -/
def stumbler : Surroundings Nat := serving fun _ h => stumbling (requests h).length

/-- With the usual policy there are three attempts, after waits of one and of two seconds. -/
theorem tryBatch_attempts_stumbling :
    Number.natural? Policy.usual.maxAttempts = some 5 ∧ stumbler.Calm ∧
      ∃ new, Task.play stumbler
          (tryBatch .usual "m" [#[97]] 0 1000 none Policy.usual.attempts) [] = (.ok [[1, 2]], new) ∧
        requests new = List.replicate 3 ([#[97]], "m") ∧ pauses new = [1000, 2000] := by
  have hcalm : stumbler.Calm := serving_calm _
  have hknown : ∀ i, Known (stumbling i)
    | 0 => by rintro _ _ _ _ ⟨⟩; decide
    | 1 => by rintro _ _ _ _ ⟨⟩; decide
    | i + 2 => nofun
  have hm : Number.natural? Policy.usual.maxAttempts = some 5 := by decide +kernel
  obtain ⟨huntil, -⟩ := tryBatch_attempts .usual [#[97]] "m" stumbling stumbler [] hm
    (by decide) hcalm (fun _ _ _ => rfl) hknown
  obtain ⟨result, new, hplay, hsettled, hnew⟩ := huntil 2 (by decide)
    (fun i hi => match i, hi with
      | 0, _ => ⟨_, _, _, _, rfl, rfl⟩
      | 1, _ => ⟨_, _, _, _, rfl, rfl⟩) nofun
  cases hsettled
  refine ⟨hm, hcalm, new, hplay, hnew.requests_eq, hnew.pauses_eq.trans ?_⟩
  decide +kernel

/-- A value without a text ends the work with the fault that looking for its text raises, and not
with an error of the embedding service. -/
theorem tryBatch_textless :
    ∃ new, Task.play (serving fun _ _ => .error (.value (.record [("toString", .null)])))
        (tryBatch .usual "m" [#[97]] 0 1000 none Policy.usual.attempts : Task Nat _) [] =
      (.error .textless, new) ∧ requests new = [([#[97]], "m")] := by
  have hattempts : Policy.usual.attempts = 5 := by decide +kernel
  rw [hattempts]
  exact ⟨_, rfl, rfl⟩

end Embedding
end Retrieval
