import Retrieval.Proofs.Embedding.Attempts
import Retrieval.Proofs.Task.Protocol

/-!
# What is exchanged with the provider

`follows_embedAll`: embedding asks the provider, the clock of waits, the signal and the log, and
nothing else. Where it has a result, each batch in turn was answered, the result is these answers in
a row, with as many vectors as texts and all of one length. Where it fails, the fault has words.
-/

namespace Retrieval

variable {δ : Type}

/-- There is something to be told about the fault. -/
def Fault.Worded (f : Fault) : Prop := ∃ words, f.words = .ok words

theorem Fault.worded_service (error : ServiceError) (message : String) (cause : Option Fault) :
    (Fault.service error message cause).Worded := ⟨message, rfl⟩

theorem Fault.worded_other (name message : String) (cause : Option Fault) :
    (Fault.other name message cause).Worded := ⟨message, rfl⟩

/-- Where a fault has no words, that is what is raised. -/
theorem Fault.eq_textless_of_words {f raised : Fault} (h : f.words = .error raised) :
    raised = .textless := by
  cases f with
  | value v =>
    cases hd : v.display? .common with
    | some text => simp [Fault.words, hd] at h
    | none => simpa [Fault.words, hd] using h.symm
  | _ => cases h

/-- And this can be told. -/
theorem Fault.worded_of_words {f raised : Fault} (h : f.words = .error raised) : raised.Worded := by
  rw [Fault.eq_textless_of_words h]
  exact Fault.worded_other _ _ _

namespace Embedding

/-! ## The protocol -/

/-- The batches that were answered so far, with their answers. -/
abbrev Answered (δ : Type) := List (List Text × List (List δ))

/-- One question that embedding may ask: what it adds to the batches that were answered. -/
inductive Exchanged : Answered δ → (e : Effect δ) → e.Answer → Answered δ → Prop
  | answered (seen : Answered δ) (texts : List Text) (model : String) (vectors : List (List δ)) :
      Exchanged seen (.embed texts model) (.ok vectors) (seen ++ [(texts, vectors)])
  | refused (seen : Answered δ) (texts : List Text) (model : String) (fault : Fault) :
      Exchanged seen (.embed texts model) (.error fault) seen
  | waited (seen : Answered δ) (ms : Float) (r : Except Fault Unit) :
      Exchanged seen (.wait ms) r seen
  | looked (seen : Answered δ) (r : Option Fault) : Exchanged seen .signal r seen
  | logged (seen : Answered δ) (entry : LogEntry) : Exchanged seen (.log entry) () seen

/-- The protocol of embedding. Any answer has to be reckoned with. -/
def exchange : Protocol (Effect δ) Effect.Answer (Answered δ) where
  Expects _ _ _ := True
  Moves := Exchanged

variable {α : Type} {seen : Answered δ} {p : Policy} {model : String} {batch : List Text}

/-- Work of embedding follows every protocol that its questions leave in its phase. -/
theorem follows_of_exchange {Φ : Type} {P : Protocol (Effect δ) Effect.Answer Φ} {φ : Φ}
    {t : Task δ α} {ok : Answered δ → α → Prop} {bad : Answered δ → Fault → Prop}
    (ht : t.Follows exchange ok bad seen)
    (hstays : ∀ now e r now', Exchanged now e r now' → P.Moves φ e r φ) :
    t.Follows P (fun ψ a => ψ = φ ∧ ∃ now, ok now a) (fun ψ fault => ψ = φ ∧ ∃ now, bad now fault)
      φ := by
  have hmove : ∀ (now now' : Answered δ) (ψ : Φ) (e : Effect δ) (r : e.Answer),
      ψ = φ → exchange.Moves now e r now' → ∃ ψ', P.Moves ψ e r ψ' ∧ ψ' = φ := by
    rintro now now' ψ e r rfl hmove
    exact ⟨ψ, hstays now e r now' hmove, rfl⟩
  refine Program.Follows.mono (Program.Follows.transfer (fun _ ψ => ψ = φ) ht rfl ?_ hmove) ?_
  · intros
    trivial
  · rintro ψ r ⟨now, rfl, hr⟩
    cases r with
    | ok a => exact ⟨rfl, now, hr⟩
    | error fault => exact ⟨rfl, now, hr⟩

abbrev Unmoved (seen : Answered δ) : Answered δ → α → Prop := fun now _ => now = seen

/-- The fault has words, whatever was answered before. -/
abbrev FailsInWords : Answered δ → Fault → Prop := fun _ fault => fault.Worded

theorem follows_log (level : LogLevel) (message : String) (data : List (String × Value)) :
    (Task.log level message data).Follows exchange (Unmoved seen) FailsInWords seen :=
  Task.follows_ask fun _ _ => ⟨seen, .logged seen _, rfl⟩

theorem follows_signal : Task.signal.Follows exchange (Unmoved seen) FailsInWords seen :=
  Task.follows_ask fun r _ => ⟨seen, .looked seen r, rfl⟩

theorem follows_wait (ms : Float) :
    (Task.wait ms).Follows exchange (Unmoved seen) FailsInWords seen :=
  Task.follows_ask fun r _ => ⟨seen, .waited seen ms r, rfl⟩

/-- A request is answered, and on record, or nothing has changed. -/
theorem follows_embed : (Task.embed batch model : Task δ _).Follows exchange
    (fun now r => match r with
      | .ok vectors => now = seen ++ [(batch, vectors)]
      | .error _ => now = seen) FailsInWords seen :=
  Task.follows_ask fun r _ => match r with
    | .ok vectors => ⟨_, .answered seen batch model vectors, rfl⟩
    | .error fault => ⟨seen, .refused seen batch model fault, rfl⟩

/-! ## One batch -/

theorem follows_checkSignal :
    (checkSignal : Task δ Unit).Follows exchange (Unmoved seen) FailsInWords seen := by
  refine follows_signal.bind fun now r hnow => ?_
  cases r with
  | none => exact Task.follows_pure hnow
  | some reason => exact Task.follows_throw (Fault.worded_service _ _ _)

theorem follows_giveUp {ok : Answered δ → α → Prop} (failure : Failure) (attempts : Nat) :
    (giveUp failure attempts : Task δ α).Follows exchange ok FailsInWords seen :=
  (follows_log _ _ _).bind fun _ _ _ => Task.follows_throw (Fault.worded_service _ _ _)

theorem follows_judge (last : Option Failure) (attempts : Nat) (fault : Fault) :
    (judge last attempts fault : Task δ _).Follows exchange (Unmoved seen) FailsInWords seen := by
  unfold judge
  cases hf : Failure.ofFault fault with
  | error raised => exact Task.follows_throw (Fault.worded_of_words (ofFault_error hf))
  | ok failure =>
    have hlift : (Task.lift (.ok failure)).Follows exchange
        (fun now f => now = seen ∧ f = failure) FailsInWords seen :=
      Task.follows_lift ⟨rfl, rfl⟩
    refine hlift.bind ?_
    rintro now f ⟨rfl, rfl⟩
    cases f.kind.disposition? with
    | none => exact Task.follows_pure rfl
    | some disposition =>
      cases disposition with
      | retryable => exact Task.follows_pure rfl
      | fatal => exact follows_giveUp f attempts
      | cancelled => exact Task.follows_throw (Fault.worded_service _ _ _)

theorem follows_pause (last : Option Failure) (attempts : Nat) (backoff : Float) :
    (pause p last attempts backoff : Task δ Unit).Follows exchange (Unmoved seen) FailsInWords
      seen := by
  refine (follows_log _ _ _).bind ?_
  rintro now - rfl
  refine (follows_wait backoff).bind fun now' r hnow => ?_
  cases r with
  | ok => exact Task.follows_pure hnow
  | error reason => exact Task.follows_throw (Fault.worded_service _ _ _)

/-- Trying a batch ends with the one answer to it on record, or fails. -/
theorem follows_tryBatch (attempt : Nat) (backoff : Float) (last : Option Failure) (left : Nat) :
    (tryBatch p model batch attempt backoff last left : Task δ _).Follows exchange
      (fun now vectors => now = seen ++ [(batch, vectors)]) FailsInWords seen := by
  induction left generalizing attempt backoff last with
  | zero => exact follows_giveUp _ _
  | succ left ih =>
    refine follows_checkSignal.bind ?_
    rintro now - rfl
    refine follows_embed.bind fun now' r hnow => ?_
    cases r with
    | ok vectors => exact Task.follows_pure hnow
    | error fault =>
      obtain rfl : now' = now := hnow
      refine (follows_judge last (attempt + 1) fault).bind ?_
      rintro now last rfl
      split
      · exact follows_giveUp _ _
      · refine (follows_pause last (attempt + 1) backoff).bind ?_
        rintro now - rfl
        exact ih _ _ _

/-! ## All batches -/

/-- An answer fits its batch: one vector for each text, all of one length. -/
structure Fits (dimension : Nat) (batch : List Text) (vectors : List (List δ)) : Prop where
  length_eq : vectors.length = batch.length
  dimension_eq : ∀ v ∈ vectors, v.length = dimension

/-- The dimension that later batches are held to, after an answer. -/
def settled (dimension : Option Nat) (vectors : List (List δ)) : Option Nat :=
  dimension.orElse fun _ => vectors.head?.map List.length

/-- Only an answer that fits its batch passes. -/
theorem mismatch?_eq_none {vectors : List (List δ)} {dimension : Option Nat}
    (h : mismatch? batch vectors dimension = none) :
    ∃ d, settled dimension vectors = some d ∧ Fits d batch vectors := by
  unfold mismatch? at h
  split at h
  · cases h
  · next hlength =>
    split at h
    · cases h
    · next d hd =>
      split at h
      · cases h
      · next hany =>
        refine ⟨d, hd, Decidable.not_not.mp hlength, ?_⟩
        simpa using hany

theorem worded_of_mismatch? {vectors : List (List δ)} {dimension : Option Nat} {fault : Fault}
    (h : mismatch? batch vectors dimension = some fault) : fault.Worded := by
  unfold mismatch? at h
  split at h
  · cases h
    exact Fault.worded_service _ _ _
  · split at h
    · cases h
      exact Fault.worded_other _ _ _
    · split at h
      · cases h
        exact Fault.worded_service _ _ _
      · cases h

/-- Each batch in turn has an answer that fits it. -/
def Served (d : Nat) (batches : List (List Text)) (answers : Answered δ) : Prop :=
  answers.map Prod.fst = batches ∧ ∀ a ∈ answers, Fits d a.1 a.2

/-- A result is made of the answers to the batches, in order. The dimension, where one is known, is
that of all vectors. -/
theorem follows_embedBatches (dimension : Option Nat) (batches : List (List Text)) :
    (embedBatches p model dimension batches : Task δ _).Follows exchange
      (fun now vectors => ∃ answers d, now = seen ++ answers ∧
        vectors = (answers.map Prod.snd).flatten ∧ Served d batches answers ∧
        ∀ known, dimension = some known → d = known) FailsInWords seen := by
  induction batches generalizing dimension seen with
  | nil =>
    refine Task.follows_pure ⟨[], dimension.getD 0, ?_, rfl, ⟨rfl, nofun⟩, ?_⟩
    · rw [List.append_nil]
    · rintro known rfl
      rfl
  | cons batch rest ih =>
    refine (follows_tryBatch 0 p.initialBackoffMs none p.attempts).bind ?_
    rintro now vectors rfl
    cases hm : mismatch? batch vectors dimension with
    | some fault => exact Task.follows_throw (worded_of_mismatch? hm)
    | none =>
      obtain ⟨d, hd, hfits⟩ := mismatch?_eq_none hm
      refine (ih (settled dimension vectors)).bind ?_
      rintro now more ⟨answers, d', rfl, rfl, ⟨hfst, hall⟩, hd'⟩
      obtain rfl := hd' d hd
      refine Task.follows_pure ⟨(batch, vectors) :: answers, d', ?_, rfl, ⟨?_, ?_⟩, ?_⟩
      · rw [List.append_assoc]
        rfl
      · rw [List.map_cons, hfst]
      · intro a ha
        rcases List.mem_cons.mp ha with rfl | ha
        · exact hfits
        · exact hall a ha
      · rintro known rfl
        exact Option.some.inj hd |>.symm

theorem Served.dimension_eq {d : Nat} {batches : List (List Text)} {answers : Answered δ}
    (h : Served d batches answers) {v : List δ} (hv : v ∈ (answers.map Prod.snd).flatten) :
    v.length = d := by
  obtain ⟨vectors, hmem, hv⟩ := List.mem_flatten.mp hv
  obtain ⟨a, ha, rfl⟩ := List.mem_map.mp hmem
  exact (h.2 a ha).dimension_eq v hv

/-- There are as many vectors as texts. -/
theorem Served.length_eq {d : Nat} {batches : List (List Text)} {answers : Answered δ}
    (h : Served d batches answers) :
    (answers.map Prod.snd).flatten.length = batches.flatten.length := by
  obtain ⟨rfl, hall⟩ := h
  rw [List.length_flatten, List.length_flatten, List.map_map, List.map_map]
  congr 1
  exact List.map_congr_left fun a ha => (hall a ha).length_eq

/-- An empty batch has no result, as there is no vector to take the dimension from. -/
theorem mismatch?_empty (vectors : List (List δ)) : mismatch? [] vectors none ≠ none := by
  cases vectors with
  | nil => exact nofun
  | cons v rest => exact nofun

theorem follows_emptyBatch {ok : Answered δ → List (List δ) → Prop} :
    (embedBatches p model none [[]] : Task δ _).Follows exchange ok FailsInWords seen := by
  refine (follows_tryBatch 0 p.initialBackoffMs none p.attempts).bind fun now vectors _ => ?_
  cases hm : mismatch? [] vectors none with
  | some fault => exact Task.follows_throw (worded_of_mismatch? hm)
  | none => exact absurd hm (mismatch?_empty vectors)

/-- Embedding asks for nothing but its exchange with the provider. A result is made of the answers
to the batches of the texts, in order; a fault has words. -/
theorem follows_embedAll (seen : Answered δ) (c : Client) (texts : List Text)
    (name : Option String) :
    (c.embedAll texts name : Task δ _).Follows exchange
      (fun now vectors => ∃ answers d, now = seen ++ answers ∧
        vectors = (answers.map Prod.snd).flatten ∧
        Served d (groupsOf c.policy.batchSize texts) answers) FailsInWords seen := by
  unfold Client.embedAll Policy.batches
  split
  · exact follows_emptyBatch
  · refine (follows_embedBatches none (groupsOf c.policy.batchSize texts)).mono ?_ fun _ _ h => h
    rintro now vectors ⟨answers, d, hnow, hvectors, hserved, -⟩
    exact ⟨answers, d, hnow, hvectors, hserved⟩

end Embedding
end Retrieval
