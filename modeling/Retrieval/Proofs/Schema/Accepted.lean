import Retrieval.Proofs.Schema.Checks
import Retrieval.Schema.Requests

/-!
# Accepted values

What an accepted value has passed. Where outcomes are put together, all of them are accepted
(`Outcome.both_eq_ok_iff`), so that a record is accepted member by member. What a check makes sure
of (`Check.Ensures`) is kept by the ways in which a value may be missing. So the numbers that a
caller may ask for about chunks are whole and within their bounds (`chunkingMembers_asked`).
-/

namespace Retrieval

theorem mapError_eq_ok_iff {ε ε' α : Type} {x : Except ε α} {f : ε → ε'} {a : α} :
    x.mapError f = .ok a ↔ x = .ok a := by
  cases x with
  | error => exact iff_of_false nofun nofun
  | ok => exact ⟨fun h => Except.ok.inj h ▸ rfl, fun h => Except.ok.inj h ▸ rfl⟩

theorem bind_eq_ok_iff {ε α β : Type} {x : Except ε α} {f : α → Except ε β} {b : β} :
    (x >>= f) = .ok b ↔ ∃ a, x = .ok a ∧ f a = .ok b := by
  cases x <;> simp [bind, Except.bind]

namespace Outcome

variable {α β γ : Type}

theorem toExcept_eq_ok_iff {o : Outcome α} {a : α} :
    o.toExcept = .ok a ↔ o.textless = false ∧ o.value = some a ∧ o.issues = [] := by
  obtain ⟨value, issues, textless⟩ := o
  cases textless <;> cases value <;> cases issues <;> simp [toExcept]

theorem map_eq_ok_iff {f : α → β} {o : Outcome α} {b : β} :
    (o.map f).toExcept = .ok b ↔ ∃ a, o.toExcept = .ok a ∧ f a = b := by
  rw [toExcept_map]
  cases o.toExcept <;> simp [Except.map]

theorem both_eq_ok_iff {f : α → β → γ} {x : Outcome α} {y : Outcome β} {c : γ} :
    (x.both f y).toExcept = .ok c ↔
      ∃ a b, x.toExcept = .ok a ∧ y.toExcept = .ok b ∧ f a b = c := by
  obtain ⟨value, issues, textless⟩ := x
  obtain ⟨value', issues', textless'⟩ := y
  simp only [toExcept_eq_ok_iff, both, Bool.or_eq_false_iff, List.append_eq_nil_iff,
    Option.bind_eq_some_iff, Option.map_eq_some_iff]
  constructor
  · rintro ⟨⟨hx, hy⟩, ⟨a, ha, b, hb, hc⟩, hi, hj⟩
    exact ⟨a, b, ⟨hx, ha, hi⟩, ⟨hy, hb, hj⟩, hc⟩
  · rintro ⟨a, b, ⟨hx, ha, hi⟩, ⟨hy, hb, hj⟩, hc⟩
    exact ⟨⟨hx, hy⟩, ⟨a, ha, b, hb, hc⟩, hi, hj⟩

end Outcome

namespace Check

open Value (RecordKind)

variable {α : Type} {c : Check α} {P : α → Prop} {path : List String} {v : Value}

theorem and_eq_ok_iff {rules : List (α → Option (Finding × Option String))} {a : α} :
    (c.and rules path v).toExcept = .ok a ↔
      (c path v).toExcept = .ok a ∧ ∀ rule ∈ rules, rule a = none := by
  rw [and_eq]
  generalize c path v = o
  simp only [Outcome.toExcept_eq_ok_iff, List.append_eq_nil_iff]
  constructor
  · rintro ⟨hread, hvalue, hissues, hfound⟩
    rw [hvalue] at hfound
    exact ⟨⟨hread, hvalue, hissues⟩, found_eq_nil.mp hfound⟩
  · rintro ⟨⟨hread, hvalue, hissues⟩, hrules⟩
    rw [hvalue]
    exact ⟨hread, rfl, hissues, found_eq_nil.mpr hrules⟩

/-- Whatever the check accepts satisfies `P`. -/
def Ensures (c : Check α) (P : α → Prop) : Prop :=
  ∀ path v a, (c path v).toExcept = .ok a → P a

theorem Ensures.orElse {usual : α} (hc : Ensures c P) (husual : P usual) :
    Ensures (orElse c usual) P := by
  intro path v a h
  cases v with
  | absent =>
    obtain rfl := Except.ok.inj h
    exact husual
  | _ => exact hc path _ a h

theorem Ensures.optional (hc : Ensures c P) :
    Ensures (optional c) fun found => ∀ a, found = some a → P a := by
  intro path v found h a hfound
  have hpresent (hmap : ((c path v).map some).toExcept = .ok found) : P a := by
    obtain ⟨a', ha', rfl⟩ := Outcome.map_eq_ok_iff.mp hmap
    obtain rfl := Option.some.inj hfound
    exact hc path v a' ha'
  cases v with
  | absent =>
    obtain rfl := Except.ok.inj h
    cases hfound
  | _ => exact hpresent h

/-- Rules on whole numbers as conditions on integers. -/
theorem ensures_number {kind : RecordKind} {rules : List (Float → Option (Finding × Option String))}
    {p : Int → Prop}
    (h : ∀ x k, Number.whole? x = some k → ((∀ rule ∈ rules, rule x = none) ↔ p k)) :
    Ensures ((coerced kind).and (whole :: rules)) (Whole p) := by
  intro path v x hx
  obtain ⟨-, hrules⟩ := and_eq_ok_iff.mp hx
  obtain ⟨hwhole, hrest⟩ := List.forall_mem_cons.mp hrules
  cases hk : Number.whole? x with
  | none =>
    rw [whole, hk] at hwhole
    cases hwhole
  | some k => exact ⟨k, hk, (h x k hk).mp hrest⟩

/-- A whole number that is not negative is a natural number. -/
theorem Whole.natural {x : Float} {p : Int → Prop} (h : Whole p x) (hp : ∀ k, p k → 0 ≤ k) :
    ∃ n : Nat, Number.natural? x = some n ∧ p n := by
  obtain ⟨k, hk, hpk⟩ := h
  refine ⟨k.toNat, Number.natural?_of_whole hk (hp k hpk), ?_⟩
  rwa [Int.toNat_of_nonneg (hp k hpk)]

/-- The numbers that may be asked for about chunks. -/
structure Asked (size overlap : Option Float) : Prop where
  size : ∀ x, size = some x → Whole (1 ≤ ·) x
  overlap : ∀ x, overlap = some x → Whole (0 ≤ ·) x

/-- **What is accepted about chunks**, in whatever way it is sent. -/
theorem chunkingMembers_asked {kind : RecordKind} {get : String → Value} {r : ChunkingRequest}
    (h : (chunkingMembers kind path get).toExcept = .ok r) : Asked r.size r.overlap := by
  have hsize : Ensures ((coerced kind).and [whole, positive]) (Whole (1 ≤ ·)) :=
    ensures_number fun _ _ hk => by simp [positive_of_whole hk]
  have hoverlap : Ensures ((coerced kind).and [whole, atLeast 0]) (Whole (0 ≤ ·)) :=
    ensures_number fun _ _ hk => by simp [atLeast_of_whole hk]
  simp only [chunkingMembers, Outcome.map_eq, Outcome.seq_eq, Outcome.both_eq_ok_iff,
    Outcome.map_eq_ok_iff] at h
  obtain ⟨_, overlap, ⟨size, hs, rfl⟩, ho, rfl⟩ := h
  exact ⟨hsize.optional _ _ _ hs, hoverlap.optional _ _ _ ho⟩

theorem asked_of_object {kind : RecordKind} {r : ChunkingRequest}
    (h : (object (chunkingMembers kind) path v).toExcept = .ok r) : Asked r.size r.overlap := by
  unfold object at h
  split at h
  · exact chunkingMembers_asked h
  · cases h

theorem asked_of_document {kind : RecordKind} {r : DocumentRequest}
    (h : (document kind path v).toExcept = .ok r) : Asked r.chunking.size r.chunking.overlap := by
  unfold document object at h
  split at h
  · simp only [Outcome.map_eq, Outcome.seq_eq, Outcome.both_eq_ok_iff, Outcome.map_eq_ok_iff] at h
    obtain ⟨_, _, ⟨_, _, ⟨_, _, ⟨_, _, ⟨chunking, hchunking, rfl⟩, -, rfl⟩, -, rfl⟩, -, rfl⟩, -, rfl⟩ :=
      h
    exact chunkingMembers_asked hchunking
  · cases h

theorem asked_of_uploadFields {kind : RecordKind} {r : UploadFields}
    (h : (uploadFields kind path v).toExcept = .ok r) :
    Asked r.chunking.size r.chunking.overlap := by
  unfold uploadFields object at h
  split at h
  · simp only [Outcome.map_eq, Outcome.seq_eq, Outcome.both_eq_ok_iff, Outcome.map_eq_ok_iff] at h
    obtain ⟨_, _, ⟨_, _, ⟨chunking, hchunking, rfl⟩, -, rfl⟩, -, rfl⟩ := h
    exact chunkingMembers_asked hchunking
  · cases h

end Check
end Retrieval
