import Retrieval.Embedding.Provider
import Retrieval.Proofs.Embedding.Exchange

/-!
# Vectors belong to their texts

`embedAll_aligned`: however the texts are cut into batches, however often requests fail in passing
and in whatever order the items of an answer come, text number `i` gets its own vector. And against
any provider at all, a result is made of the answers to consecutive slices of the texts.
-/

namespace Retrieval

variable {δ : Type}

/-! ## What a history says of answers -/

/-- The batch and the vectors of a request that was answered. -/
def Event.answered? : Event δ → Option (List Text × List (List δ))
  | ⟨.embed texts _, .ok vectors⟩ => some (texts, vectors)
  | _ => none

/-- The number of requests that have failed in a row, after one more event. -/
def Event.failuresAfter (n : Nat) : Event δ → Nat
  | ⟨.embed .., .ok _⟩ => 0
  | ⟨.embed .., .error _⟩ => n + 1
  | _ => n

namespace History

/-- The batches that were answered, each with its vectors. -/
def answered (h : History δ) : List (List Text × List (List δ)) := h.filterMap Event.answered?

/-- How many requests have failed since one was answered. -/
def failures (h : History δ) : Nat := h.foldl Event.failuresAfter 0

theorem answered_append (h k : History δ) : answered (h ++ k) = answered h ++ answered k :=
  List.filterMap_append

/-- An event that is no request. -/
theorem answered?_of_requests {event : Event δ} (h : event.1.request? = none) (n : Nat) :
    event.answered? = none ∧ event.failuresAfter n = n := by
  obtain ⟨e, r⟩ := event
  cases e with
  | embed texts model => cases h
  | _ => exact ⟨rfl, rfl⟩

theorem forall_of_requests {h : History δ} (hnone : requests h = []) :
    ∀ event ∈ h, event.1.request? = none := by
  intro event hmem
  cases hr : event.1.request? with
  | none => rfl
  | some request =>
    have hrequest : request ∈ requests h := List.mem_filterMap.mpr ⟨event, hmem, hr⟩
    rw [hnone] at hrequest
    cases hrequest

theorem answered_of_requests {h : History δ} (hnone : requests h = []) : answered h = [] :=
  List.filterMap_eq_nil_iff.mpr fun event hmem =>
    (answered?_of_requests (forall_of_requests hnone event hmem) 0).1

/-- What is no request changes nothing. -/
theorem failures_append {h k : History δ} (hnone : requests k = []) :
    failures (h ++ k) = failures h := by
  have hk := forall_of_requests hnone
  unfold failures
  rw [List.foldl_append]
  generalize h.foldl Event.failuresAfter 0 = n
  clear hnone
  induction k with
  | nil => rfl
  | cons event rest ih =>
    rw [List.foldl_cons, (answered?_of_requests (hk event List.mem_cons_self) n).2]
    exact ih fun event hmem => hk event (List.mem_cons_of_mem _ hmem)

end History

namespace Embedding

open History

/-- The events of an exchange tell what was answered. -/
theorem answered_of_leads {seen now : Answered δ} {new : History δ}
    (h : Task.Leads exchange seen new now) : now = seen ++ answered new := by
  induction h with
  | nil seen => rw [answered, List.filterMap_nil, List.append_nil]
  | cons hmove hrest ih =>
    subst ih
    cases hmove with
    | answered texts model vectors =>
      rw [List.append_assoc]
      rfl
    | _ => rfl

/-! ## Slices -/

/-- Consecutive slices of `n` elements; the last one has what is left. -/
def slices {α : Type} (n : Nat) (l : List α) : List (List α) :=
  (List.range ((l.length + n - 1) / n)).map fun i => (l.drop (i * n)).take n

theorem length_slices {α : Type} (n : Nat) (l : List α) :
    (slices n l).length = (l.length + n - 1) / n := by
  rw [slices, List.length_map, List.length_range]

theorem groupsOf_eq_slices {α : Type} {n : Nat} (hn : 1 ≤ n) (l : List α) :
    groupsOf n l = slices n l := by
  fun_induction groupsOf n l with
  | case1 =>
    have hzero : (0 + n - 1) / n = 0 := Nat.div_eq_of_lt (by omega)
    rw [slices, List.length_nil, hzero]
    rfl
  | case2 a rest ih =>
    have hsucc : (rest.length + 1 + n - 1) / n = rest.length / n + 1 := by
      rw [show rest.length + 1 + n - 1 = rest.length + n by omega, Nat.add_div_right _ hn]
    have hcount : (rest.length - (n - 1) + n - 1) / n = rest.length / n := by
      rcases Nat.lt_or_ge rest.length (n - 1) with hlt | hge
      · rw [Nat.div_eq_of_lt (by omega), Nat.div_eq_of_lt (by omega)]
      · rw [show rest.length - (n - 1) + n - 1 = rest.length by omega]
    rw [ih, slices, slices, List.length_drop, List.length_cons, hsucc, hcount,
      List.range_succ_eq_map, List.map_cons, List.map_map, Nat.zero_mul, List.drop_zero,
      List.take_cons hn]
    congr 1
    refine List.map_congr_left fun i _ => ?_
    rw [Function.comp_apply, List.drop_drop, show (i + 1) * n = n - 1 + i * n + 1 by
      rw [Nat.succ_mul]; omega, List.drop_succ_cons]

theorem ne_nil_of_mem_groupsOf {α : Type} {n : Nat} {l g : List α} (h : g ∈ groupsOf n l) :
    g ≠ [] := by
  fun_induction groupsOf n l with
  | case1 => cases h
  | case2 a rest ih =>
    rcases List.mem_cons.mp h with rfl | h
    · exact List.cons_ne_nil _ _
    · exact ih h

/-! ## The items of an answer -/

/-- The vectors of texts, each with the number of its text; the first number is `i`. -/
def numbered (f : Text → List δ) : Nat → List Text → List (Item δ)
  | _, [] => []
  | i, t :: rest => ⟨i, f t⟩ :: numbered f (i + 1) rest

variable {f : Text → List δ}

theorem embeddings_numbered (i : Nat) (texts : List Text) :
    (numbered f i texts).map Item.embedding = texts.map f := by
  induction texts generalizing i with
  | nil => rfl
  | cons t rest ih => rw [numbered, List.map_cons, ih, List.map_cons]

theorem le_of_mem_numbered {i : Nat} {texts : List Text} {item : Item δ}
    (h : item ∈ numbered f i texts) : (i : Int) ≤ item.index := by
  induction texts generalizing i with
  | nil => cases h
  | cons t rest ih =>
    rcases List.mem_cons.mp h with rfl | h
    · exact Int.le_refl _
    · have := ih h
      omega

theorem numbered_pairwise (i : Nat) (texts : List Text) :
    (numbered f i texts).Pairwise fun a b => a.index < b.index := by
  induction texts generalizing i with
  | nil => exact .nil
  | cons t rest ih =>
    refine .cons (fun item hitem => ?_) (ih (i + 1))
    have := le_of_mem_numbered hitem
    show (i : Int) < item.index
    omega

/-- No two items have one number. -/
theorem eq_of_index_eq {i : Nat} {texts : List Text} {a b : Item δ} (ha : a ∈ numbered f i texts)
    (hb : b ∈ numbered f i texts) (h : a.index = b.index) : a = b := by
  induction texts generalizing i with
  | nil => cases ha
  | cons t rest ih =>
    rcases List.mem_cons.mp ha with rfl | ha <;> rcases List.mem_cons.mp hb with rfl | hb
    · rfl
    · have := le_of_mem_numbered hb
      dsimp only at h
      omega
    · have := le_of_mem_numbered ha
      dsimp only at h
      omega
    · exact ih ha hb

/-- Sorting the items by their numbers brings the vectors in the order of the texts. -/
theorem vectorsOf_perm {texts : List Text} {items : List (Item δ)}
    (h : items.Perm (numbered f 0 texts)) : vectorsOf items = texts.map f := by
  have hperm := (List.mergeSort_perm items fun a b => a.index ≤ b.index).trans h
  have hsorted : (items.mergeSort fun a b => a.index ≤ b.index).Pairwise
      fun a b => decide (a.index ≤ b.index) = true :=
    List.pairwise_mergeSort
      (fun a b c hab hbc => by simp only [decide_eq_true_eq] at *; omega)
      (fun a b => by simp only [Bool.or_eq_true, decide_eq_true_eq]; omega) items
  have hle := hsorted.imp fun h => of_decide_eq_true h
  have heq := List.Perm.eq_of_pairwise
    (fun a b ha hb hab hba => eq_of_index_eq (hperm.subset ha) hb (Int.le_antisymm hab hba))
    hle ((numbered_pairwise 0 texts).imp Int.le_of_lt) hperm
  rw [vectorsOf, heq, embeddings_numbered]

/-! ## Against an interface that answers for `f` -/

/-- What an interface that answers for `f` may reply to a batch after some failures in a row: the
items of the batch in any order, or a failure that may pass, if that leaves an attempt. -/
inductive Reply (f : Text → List δ) (attempts failed : Nat) (batch : List Text) :
    Except Fault (List (Item δ)) → Prop
  | items (items : List (Item δ)) :
      items.Perm (numbered f 0 batch) → Reply f attempts failed batch (.ok items)
  | passing (fault : Fault) :
      Passing (received (.error fault) : Except Fault (List (List δ))) → failed + 1 < attempts →
      Reply f attempts failed batch (.error fault)

/-- Nobody gives up, and each request brings what the provider makes of such a reply. -/
structure Serves (w : Surroundings δ) (past : History δ) (attempts : Nat) (f : Text → List δ) :
    Prop where
  calm : w.Calm
  reply : ∀ batch model new, ∃ reply, Reply f attempts (failures new) batch reply ∧
    w (.embed batch model) (past ++ new) = received reply

variable {w : Surroundings δ} {past pre : History δ} {p : Policy} {model : String}

/-- An answer ends the row of failures. -/
theorem play_tryBatch_answered {vectors : List (List δ)} (batch : List Text) (left n : Nat)
    (backoff : Float) (last : Option Failure) (hcalm : w.Calm)
    (h : w (.embed batch model) (past ++ pre ++ [⟨.signal, none⟩]) = .ok vectors) :
    ∃ new, Task.play w (tryBatch p model batch n backoff last (left + 1)) (past ++ pre) =
        (.ok vectors, past ++ pre ++ new) ∧
      answered new = [(batch, vectors)] ∧ failures (pre ++ new) = 0 := by
  obtain ⟨result, rest, hplay, hsettled, hrest⟩ := play_tryBatch_settled hcalm h nofun nofun
  have hnone : requests rest = [] := by rw [requests_eq, hrest]; rfl
  cases hsettled
  refine ⟨_, hplay, ?_, ?_⟩
  · rw [answered_append, answered_of_requests hnone]
    rfl
  · rw [← List.append_assoc, failures_append hnone, failures, List.foldl_append]
    rfl

/-- A passing failure makes the row longer. -/
theorem play_tryBatch_refused {fault : Fault} (batch : List Text) (left n : Nat) (backoff : Float)
    (last : Option Failure) (hcalm : w.Calm)
    (hpass : Passing (.error fault : Except Fault (List (List δ))))
    (h : w (.embed batch model) (past ++ pre ++ [⟨.signal, none⟩]) = .error fault) :
    ∃ failure new, Task.play w (tryBatch p model batch n backoff last (left + 2)) (past ++ pre) =
        Task.play w (tryBatch p model batch (n + 1) (backoff * p.backoffFactor) (some failure)
          (left + 1)) (past ++ (pre ++ new)) ∧
      answered new = [] ∧ failures (pre ++ new) = failures pre + 1 := by
  obtain ⟨kind, message, status, cause, hfail, hkind⟩ := hpass
  obtain ⟨rest, hplay, hrest⟩ := play_tryBatch_passing p n left backoff last hcalm hkind h hfail
  have hnone : requests rest = [] := by rw [requests_eq, hrest]; rfl
  refine ⟨.of kind message status cause, attempted batch model (.error fault) ++ rest, ?_, ?_, ?_⟩
  · rw [hplay, List.append_assoc]
  · rw [answered_append, answered_of_requests hnone]
    rfl
  · rw [← List.append_assoc, failures_append hnone, failures, List.foldl_append]
    rfl

/-- A batch gets its vectors, after whatever failures: those in a row and the attempts that are left
make up what the policy allows. -/
theorem play_tryBatch_served (hw : Serves w past p.attempts f) (model : String)
    (batch : List Text) (left n : Nat) (backoff : Float) (last : Option Failure)
    (hleft : failures pre + left = p.attempts) (hpos : 0 < left) :
    ∃ new, Task.play w (tryBatch p model batch n backoff last left) (past ++ pre) =
        (.ok (batch.map f), past ++ pre ++ new) ∧
      answered new = [(batch, batch.map f)] ∧ failures (pre ++ new) = 0 := by
  induction left generalizing pre n backoff last with
  | zero => omega
  | succ left ih =>
    obtain ⟨reply, hreply, hanswer⟩ := hw.reply batch model (pre ++ [⟨.signal, none⟩])
    rw [failures_append rfl] at hreply
    rw [← List.append_assoc] at hanswer
    cases hreply with
    | items items hperm =>
      rw [received, vectorsOf_perm hperm] at hanswer
      exact play_tryBatch_answered batch left n backoff last hw.calm hanswer
    | passing fault hpass hlt =>
      obtain ⟨left, rfl⟩ : ∃ rest, left = rest + 1 := ⟨left - 1, by omega⟩
      obtain ⟨failure, new, hplay, hnew, hfailures⟩ :=
        play_tryBatch_refused batch left n backoff last hw.calm hpass hanswer
      have hleft' : failures (pre ++ new) + (left + 1) = p.attempts := by omega
      obtain ⟨more, hrest, hmore, hzero⟩ :=
        ih (n + 1) (backoff * p.backoffFactor) (some failure) hleft' (Nat.succ_pos left)
      refine ⟨new ++ more, ?_, ?_, ?_⟩
      · rw [hplay, hrest]
        simp only [List.append_assoc]
      · rw [answered_append, hnew, hmore]
        rfl
      · rw [← List.append_assoc, hzero]

/-- The vectors of `f` fit every batch that is not empty. -/
theorem mismatch?_map {d : Nat} {batch : List Text} {dimension : Option Nat}
    (hf : ∀ t, (f t).length = d) (hne : batch ≠ [])
    (hdim : ∀ known, dimension = some known → known = d) :
    mismatch? batch (batch.map f) dimension = none ∧ settled dimension (batch.map f) = some d := by
  have hsettled : settled dimension (batch.map f) = some d := by
    cases dimension with
    | some known => exact congrArg some (hdim known rfl)
    | none =>
      cases batch with
      | nil => exact absurd rfl hne
      | cons t rest => exact congrArg some (hf t)
  refine ⟨?_, hsettled⟩
  unfold settled at hsettled
  unfold mismatch?
  rw [hsettled, if_neg (not_not_intro (List.length_map f))]
  simp [hf]

/-- All batches get their vectors. -/
theorem play_embedBatches_served {d : Nat} (p : Policy) (model : String)
    (hf : ∀ t, (f t).length = d) (hw : Serves w past p.attempts f) (hpos : 0 < p.attempts)
    (batches : List (List Text))
    (dimension : Option Nat) (hne : ∀ batch ∈ batches, batch ≠ [])
    (hdim : ∀ known, dimension = some known → known = d) (hpre : failures pre = 0) :
    ∃ new, Task.play w (embedBatches p model dimension batches) (past ++ pre) =
        (.ok (batches.flatten.map f), past ++ pre ++ new) ∧
      (answered new).map Prod.fst = batches := by
  induction batches generalizing pre dimension with
  | nil => exact ⟨[], by rw [List.append_nil]; rfl, rfl⟩
  | cons batch rest ih =>
    have hstart : failures pre + p.attempts = p.attempts := by omega
    obtain ⟨new, hplay, hnew, hzero⟩ :=
      play_tryBatch_served hw model batch p.attempts 0 p.initialBackoffMs none hstart hpos
    obtain ⟨hfits, hsettled⟩ := mismatch?_map hf (hne batch List.mem_cons_self) hdim
    obtain ⟨more, hrest, hmore⟩ := ih (settled dimension (batch.map f))
      (fun b hb => hne b (List.mem_cons_of_mem _ hb))
      (fun known hknown => Option.some.inj (hknown.symm.trans hsettled)) hzero
    refine ⟨new ++ more, ?_, ?_⟩
    · rw [embedBatches, Task.play_bind_ok w _ hplay]
      dsimp only
      rw [hfits, List.append_assoc past]
      refine (Task.play_bind_ok w _ hrest).trans ?_
      rw [Task.play_pure, List.flatten_cons, List.map_append]
      simp only [List.append_assoc]
    · rw [answered_append, hnew, List.map_append, hmore]
      rfl

/-! ## All texts -/

namespace Client

def resized (c : Client) (size : Nat) : Client :=
  { c with policy := { c.policy with batchSize := size } }

variable (c : Client) {size : Nat}

theorem batches_resized (hsize : 1 ≤ size) (texts : List Text) :
    (c.resized size).policy.batches texts = groupsOf size texts := by
  unfold Policy.batches resized
  rw [if_neg]
  simp only [Bool.and_eq_true, decide_eq_true_eq]
  omega

/-- Each text gets its vector, with one answer for each slice of the texts. -/
theorem play_embedAll_served {d : Nat} (hsize : 1 ≤ size) (hf : ∀ t, (f t).length = d)
    (hw : Serves w past c.policy.attempts f) (hpos : 0 < c.policy.attempts) (texts : List Text)
    (name : Option String) :
    ∃ new, Task.play w ((c.resized size).embedAll texts name) past =
        (.ok (texts.map f), past ++ new) ∧
      (answered new).map Prod.fst = slices size texts := by
  have hnone : failures ([] : History δ) = 0 := rfl
  obtain ⟨new, hplay, hnew⟩ := play_embedBatches_served (c.resized size).policy
    (name.getD c.defaultModel) hf hw hpos (groupsOf size texts) none
    (fun _ => ne_nil_of_mem_groupsOf) nofun hnone
  rw [flatten_groupsOf, List.append_nil] at hplay
  refine ⟨new, ?_, hnew.trans (groupsOf_eq_slices hsize texts)⟩
  rw [embedAll, c.batches_resized hsize]
  exact hplay

/-- Whatever the provider does, a result is made of its answers to the slices of the texts. -/
theorem play_embedAll_ok {vectors : List (List δ)} {h : History δ} (hsize : 1 ≤ size)
    (w : Surroundings δ) (past : History δ) (texts : List Text) (name : Option String)
    (hplay : Task.play w ((c.resized size).embedAll texts name) past = (.ok vectors, h)) :
    ∃ new, h = past ++ new ∧ vectors.length = texts.length ∧
      (∃ d, ∀ v ∈ vectors, v.length = d) ∧ vectors = ((answered new).map Prod.snd).flatten ∧
      (answered new).map Prod.fst = slices size texts := by
  obtain ⟨r, new, now, hrun, hleads, hends⟩ :=
    (follows_embedAll [] (c.resized size) texts name).play (fun _ _ _ => trivial) past
  obtain ⟨rfl, rfl⟩ := Prod.mk.inj (hplay.symm.trans hrun)
  obtain ⟨answers, d, hnow, rfl, hserved⟩ := hends
  obtain rfl : answers = answered new := hnow.symm.trans (answered_of_leads hleads)
  refine ⟨new, rfl, ?_, ⟨d, fun v => hserved.dimension_eq⟩, rfl, ?_⟩
  · rw [hserved.length_eq, flatten_groupsOf]
  · exact hserved.1.trans (groupsOf_eq_slices hsize texts)

/-- **Alignment.** Against an interface that answers for `f`, batches of any size bring each text
its vector, so that no two sizes differ, with one answer for each slice of the texts. And against
any provider, a result has one vector for each text, all of one length, and is made of the answers
to the slices. -/
theorem embedAll_aligned (c : Client) (texts : List Text) (name : Option String) :
    (∀ (f : Text → List δ) (d : Nat) (w : Surroundings δ) (past : History δ),
      (∀ t, (f t).length = d) → Serves w past c.policy.attempts f → 0 < c.policy.attempts →
      (∀ size, 1 ≤ size → ∃ new,
        Task.play w ((c.resized size).embedAll texts name) past =
          (.ok (texts.map f), past ++ new) ∧
        (answered new).map Prod.fst = slices size texts ∧
        (answered new).length = (texts.length + size - 1) / size) ∧
      (∀ size size', 1 ≤ size → 1 ≤ size' →
        (Task.play w ((c.resized size).embedAll texts name) past).1 =
          (Task.play w ((c.resized size').embedAll texts name) past).1)) ∧
    (∀ (w : Surroundings δ) (past : History δ) (size : Nat) (vectors : List (List δ))
      (h : History δ), 1 ≤ size →
      Task.play w ((c.resized size).embedAll texts name) past = (.ok vectors, h) →
      ∃ new, h = past ++ new ∧ vectors.length = texts.length ∧
        (∃ d, ∀ v ∈ vectors, v.length = d) ∧ vectors = ((answered new).map Prod.snd).flatten ∧
        (answered new).map Prod.fst = slices size texts) := by
  refine ⟨fun f d w past hf hw hpos => ⟨?_, ?_⟩, ?_⟩
  · intro size hsize
    obtain ⟨new, hplay, hnew⟩ := c.play_embedAll_served hsize hf hw hpos texts name
    refine ⟨new, hplay, hnew, ?_⟩
    rw [← length_slices, ← hnew, List.length_map]
  · intro size size' hsize hsize'
    obtain ⟨new, hplay, -⟩ := c.play_embedAll_served hsize hf hw hpos texts name
    obtain ⟨new', hplay', -⟩ := c.play_embedAll_served hsize' hf hw hpos texts name
    rw [hplay, hplay']
  · intro w past size vectors h hsize hplay
    exact c.play_embedAll_ok hsize w past texts name hplay

/-- The length of a text, twice over. -/
def sample (t : Text) : List Nat := [t.size, t.size]

/-- An interface that times out once for each batch and then sends the items in reverse. -/
def backward : Surroundings Nat := serving fun texts h =>
  received <|
    if failures h = 0 then .error (.api .timeout "late") else .ok (numbered sample 0 texts).reverse

theorem backward_serves : Serves backward [] Policy.usual.attempts sample where
  calm := serving_calm _
  reply batch model new := by
    have hattempts : Policy.usual.attempts = 5 := by decide +kernel
    refine ⟨_, ?_, rfl⟩
    split
    · next hzero =>
      have hzero : failures new = 0 := hzero
      refine .passing _ ⟨.timeout, "late", none, some (.api .timeout "late"), rfl, rfl⟩ ?_
      omega
    · exact .items _ (List.reverse_perm _)

/-- Three texts in batches of two, each of which fails once. -/
theorem embedAll_aligned_backward :
    Serves backward [] Policy.usual.attempts sample ∧ 0 < Policy.usual.attempts ∧
      ∃ new, Task.play backward
          ((resized ⟨.usual, "m"⟩ 2).embedAll [#[97], #[], #[98, 99]] none) [] =
            (.ok [[1, 1], [0, 0], [2, 2]], new) ∧
        (answered new).map Prod.fst = [[#[97], #[]], [#[98, 99]]] ∧ (answered new).length = 2 := by
  have hpos : 0 < Policy.usual.attempts := by decide +kernel
  obtain ⟨hserved, -⟩ := (embedAll_aligned ⟨.usual, "m"⟩ [#[97], #[], #[98, 99]] none).1 sample 2
    backward [] (fun _ => rfl) backward_serves hpos
  obtain ⟨new, hplay, hslices, hcount⟩ := hserved 2 (by decide)
  exact ⟨backward_serves, hpos, new, hplay, hslices, hcount⟩

end Client
end Embedding
end Retrieval
