import Mathlib.Tactic.Ring
import Retrieval.Proofs.Text.Paired
import Retrieval.Tokenizer.BytePair

/-!
# Bytes read as scalar values

However a run of bytes is formed, what is read from it are scalar values: `isScalar_of_mem_decode`.
A character that has begun carries the bound, because its next byte is restricted where the values
would be too small, too large, or halves of a pair (`Pending.Sound`). So a tokenizer that reads its
tokens as bytes gives paired texts, whatever the tokens are.
-/

namespace Retrieval.Utf8

open Text (IsScalar)

variable {seen : List (Option Nat)} {pending : Option Pending} {p : Pending} {b c : Nat}
variable {bytes : List UInt8}

/-- Whatever bytes complete the character, it is a scalar value. -/
structure Pending.Sound (p : Pending) : Prop where
  needed_pos : 0 < p.needed
  completed : ∀ k r, p.low ≤ k → k ≤ p.high → r < 0x40 ^ (p.needed - 1) →
    IsScalar ((p.value * 0x40 + (k - 0x80)) * 0x40 ^ (p.needed - 1) + r)

/-- The last byte completes a scalar value. -/
theorem Pending.Sound.last (h : p.Sound) (hlow : p.low ≤ b) (hhigh : b ≤ p.high)
    (hone : p.needed = 1) : IsScalar (p.value * 0x40 + (b - 0x80)) := by
  have hc := h.completed b 0 hlow hhigh
  rw [hone] at hc
  simpa using hc

/-- Any other byte leaves a sound character behind. -/
theorem Pending.Sound.next (h : p.Sound) (hlow : p.low ≤ b) (hhigh : b ≤ p.high)
    (hmore : p.needed ≠ 1) :
    Pending.Sound { value := p.value * 0x40 + (b - 0x80), needed := p.needed - 1 } := by
  have hpos := h.needed_pos
  obtain ⟨n, hn⟩ : ∃ n, p.needed = n + 2 := ⟨p.needed - 2, by omega⟩
  constructor
  · simp only
    omega
  · intro k r hk hk' hr
    simp only [hn] at hk hk' hr ⊢
    rw [show n + 2 - 1 - 1 = n by omega] at hr ⊢
    have hc := h.completed b ((k - 0x80) * 0x40 ^ n + r) hlow hhigh
    rw [hn, show n + 2 - 1 = n + 1 by omega, Nat.pow_succ] at hc
    have hlt : (k - 0x80) * 0x40 ^ n + r < 0x40 ^ n * 0x40 := by
      have hle : (k - 0x80) * 0x40 ^ n ≤ 0x3F * 0x40 ^ n := Nat.mul_le_mul_right _ (by omega)
      omega
    have heq : ((p.value * 0x40 + (b - 0x80)) * 0x40 + (k - 0x80)) * 0x40 ^ n + r =
        (p.value * 0x40 + (b - 0x80)) * (0x40 ^ n * 0x40) + ((k - 0x80) * 0x40 ^ n + r) := by
      ring
    rw [heq]
    exact hc hlt

/-- A byte that begins a longer character leaves a sound one behind: what the next byte may be keeps
the value from being too small, too large or half of a pair. -/
theorem lead_sound (h : lead b = some (.inr p)) : p.Sound := by
  revert h
  fun_cases lead b with
  | case1 =>
    intro h
    cases h
  | case9 =>
    intro h
    cases h
  | _ =>
    intro h
    obtain rfl := Sum.inr.inj (Option.some.inj h)
    constructor
    · simp
    · intro k r hk hk' hr
      simp only [Nat.reduceSub, Nat.reducePow, Bool.and_eq_true, Nat.not_lt, decide_eq_true_eq,
        not_and, beq_iff_eq] at *
      rw [IsScalar]
      omega

/-- A byte that is a character is a scalar value. -/
theorem lead_isScalar (h : lead b = some (.inl c)) : IsScalar c := by
  fun_cases lead b <;> simp_all [lead]
  exact Or.inl (by omega)

/-- What a byte does where no character has begun. -/
def begun (seen : List (Option Nat)) (b : Nat) : List (Option Nat) × Option Pending :=
  match lead b with
  | some (.inl c) => (some c :: seen, none)
  | some (.inr p) => (seen, some p)
  | none => (none :: seen, none)

/-- What one more byte does to the characters read so far and the one that has begun. -/
def readByte (seen : List (Option Nat)) (b : Nat) :
    Option Pending → List (Option Nat) × Option Pending
  | none => begun seen b
  | some p =>
    if p.low ≤ b && b ≤ p.high then
      if p.needed == 1 then (some (p.value * 0x40 + (b - 0x80)) :: seen, none)
      else (seen, some { value := p.value * 0x40 + (b - 0x80), needed := p.needed - 1 })
    else begun (none :: seen) b

theorem decodeOnto_cons (seen : List (Option Nat)) (pending : Option Pending) (b : UInt8)
    (rest : List UInt8) :
    decodeOnto seen pending (b :: rest) =
      decodeOnto (readByte seen b.toNat pending).1 (readByte seen b.toNat pending).2 rest := by
  cases pending <;> rfl

/-- What has been read are scalar values, and a character that has begun is sound. -/
structure Good (seen : List (Option Nat)) (pending : Option Pending) : Prop where
  scalars : ∀ c, some c ∈ seen → IsScalar c
  sound : ∀ p, pending = some p → p.Sound

theorem good_nil : Good [] none := by
  refine ⟨fun c hc => ?_, fun p hp => ?_⟩
  · cases hc
  · cases hp

theorem Good.bad (h : Good seen pending) : Good (none :: seen) pending := by
  refine ⟨fun c hc => ?_, h.sound⟩
  rcases List.mem_cons.mp hc with heq | hc
  · cases heq
  · exact h.scalars c hc

theorem Good.character (h : Good seen pending) (hc : IsScalar c) : Good (some c :: seen) none := by
  refine ⟨fun d hd => ?_, nofun⟩
  rcases List.mem_cons.mp hd with heq | hd
  · cases heq
    exact hc
  · exact h.scalars d hd

theorem good_begun (h : Good seen pending) (b : Nat) : Good (begun seen b).1 (begun seen b).2 := by
  unfold begun
  split
  · next hlead => exact h.character (lead_isScalar hlead)
  · next hlead =>
    refine ⟨h.scalars, fun q hq => ?_⟩
    cases hq
    exact lead_sound hlead
  · exact ⟨h.bad.scalars, nofun⟩

/-- **One byte** keeps all of it good. -/
theorem Good.readByte (h : Good seen pending) (b : Nat) :
    Good (readByte seen b pending).1 (readByte seen b pending).2 := by
  cases pending with
  | none => exact good_begun h b
  | some p =>
    have hp := h.sound p rfl
    simp only [Utf8.readByte]
    split
    · next hrange =>
      simp only [Bool.and_eq_true, decide_eq_true_eq] at hrange
      split
      · next hone => exact h.character (hp.last hrange.1 hrange.2 (eq_of_beq hone))
      · next hmore =>
        refine ⟨h.scalars, fun q hq => ?_⟩
        obtain rfl := Option.some.inj hq
        exact hp.next hrange.1 hrange.2 (by simpa using hmore)
    · exact good_begun h.bad b

theorem isScalar_of_mem_decodeOnto (h : Good seen pending)
    (hc : some c ∈ decodeOnto seen pending bytes) : IsScalar c := by
  induction bytes generalizing seen pending with
  | nil =>
    cases pending with
    | none => exact h.scalars c hc
    | some p => exact h.bad.scalars c hc
  | cons b rest ih =>
    rw [decodeOnto_cons] at hc
    exact ih (h.readByte b.toNat) hc

/-- **What bytes are read as are scalar values**, well-formed or not. -/
theorem isScalar_of_mem_decode (hc : c ∈ decode bytes) : IsScalar c := by
  rw [decode, List.mem_reverse, List.mem_map] at hc
  obtain ⟨read, hread, rfl⟩ := hc
  cases read with
  | none => exact Or.inr ⟨by decide, by decide⟩
  | some c => exact isScalar_of_mem_decodeOnto good_nil hread

end Retrieval.Utf8

namespace Retrieval.Tokenizer

theorem paired_decode_byte (tokens : List UInt8) : (byte.decode tokens).Paired :=
  Text.paired_ofCodePoints fun _ hc => Utf8.isScalar_of_mem_decode hc

theorem paired_decode_bytePair (tokens : List Nat) : (bytePair.decode tokens).Paired := by
  apply Text.paired_ofCodePoints
  intro c hc
  split at hc
  · exact Utf8.isScalar_of_mem_decode (List.mem_of_mem_drop hc)
  · exact Utf8.isScalar_of_mem_decode hc

end Retrieval.Tokenizer
