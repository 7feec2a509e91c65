import Mathlib.Tactic.IntervalCases
import Retrieval.Proofs.Text.Decoding
import Retrieval.Proofs.Text.Utf8

/-!
# Bytes cut inside a character

Bytes of whole code points are read back as these, each half of a pair as the replacement character
(`decode_flatMap`). A cut inside a character leaves bytes in front that only continue one, and each
of them is read as a replacement character of its own (`decode_strays_append`). Every cut through
the bytes of a text is one of the two (`drop_flatMap_cases`).
-/

namespace Retrieval.Utf8

open Text (IsScalar)

variable {seen : List (Option Nat)} {b : UInt8} {c q n : Nat} {cs : List Nat}
variable {rest strays bytes : List UInt8}

/-- The code point that the bytes of `c` stand for. -/
def scalarOf (c : Nat) : Nat := if 0xD800 ≤ c && c < 0xE000 then replacement else c

theorem isScalar_scalarOf (hc : c < 0x110000) : IsScalar (scalarOf c) := by
  rw [scalarOf, IsScalar]
  split
  · decide
  · next h =>
    simp only [Bool.and_eq_true, decide_eq_true_eq] at h
    omega

theorem bytesOf_scalarOf (c : Nat) : bytesOf (scalarOf c) = bytesOf c := by
  unfold scalarOf
  split
  · next h =>
    unfold bytesOf
    rw [if_pos h]
    rfl
  · rfl

theorem isScalar_of_mem_map (hcs : ∀ c ∈ cs, c < 0x110000) (hc : c ∈ cs.map scalarOf) :
    IsScalar c := by
  obtain ⟨d, hd, rfl⟩ := List.mem_map.mp hc
  exact isScalar_scalarOf (hcs d hd)

theorem flatMap_scalarOf (cs : List Nat) :
    (cs.map scalarOf).flatMap bytesOf = cs.flatMap bytesOf := by
  rw [List.flatMap_map]
  exact congrArg (List.flatMap · cs) (funext bytesOf_scalarOf)

/-! ## One character -/

theorem lead_two (hlow : 2 ≤ q) (hhigh : q < 0x20) :
    lead (0xC0 + q) = some (.inr ⟨q, 1, 0x80, 0xBF⟩) := by
  interval_cases q <;> rfl

theorem lead_three (h : q < 0x10) :
    lead (0xE0 + q) =
      some (.inr ⟨q, 2, if q = 0 then 0xA0 else 0x80, if q = 0xD then 0x9F else 0xBF⟩) := by
  interval_cases q <;> rfl

theorem lead_four (h : q < 5) :
    lead (0xF0 + q) =
      some (.inr ⟨q, 3, if q = 0 then 0x90 else 0x80, if q = 4 then 0x8F else 0xBF⟩) := by
  interval_cases q <;> rfl

theorem readByte_more {p : Pending} {k : Nat} (hlow : p.low ≤ k) (hhigh : k ≤ p.high)
    (hmore : p.needed ≠ 1) :
    readByte seen k (some p) =
      (seen, some { value := p.value * 0x40 + (k - 0x80), needed := p.needed - 1 }) := by
  simp [readByte, hlow, hhigh, hmore]

theorem readByte_last {p : Pending} {k : Nat} (hlow : p.low ≤ k) (hhigh : k ≤ p.high)
    (hone : p.needed = 1) :
    readByte seen k (some p) = (some (p.value * 0x40 + (k - 0x80)) :: seen, none) := by
  simp [readByte, hlow, hhigh, hone]

/-- The bytes of a scalar value are read as this value. -/
theorem decodeOnto_bytesOf (hc : IsScalar c) (seen : List (Option Nat)) (rest : List UInt8) :
    decodeOnto seen none (bytesOf c ++ rest) = decodeOnto (some c :: seen) none rest := by
  have hlt : c < 0x110000 := by
    rw [IsScalar] at hc
    omega
  rw [bytesOf_scalar hc]
  by_cases h1 : c < 0x80
  · rw [if_pos h1, List.singleton_append, decodeOnto_cons, toNat_toUInt8 (by omega)]
    simp [readByte, begun, lead, h1]
  by_cases h2 : c < 0x800
  · rw [if_neg h1, if_pos h2, List.cons_append, List.singleton_append, decodeOnto_cons,
      decodeOnto_cons, toNat_toUInt8 (by omega), toNat_toUInt8 (by omega), readByte, begun,
      lead_two (by omega) (by omega)]
    dsimp only
    rw [readByte_last (by dsimp only; omega) (by dsimp only; omega) rfl]
    dsimp only
    rw [show c / 0x40 * 0x40 + (0x80 + c % 0x40 - 0x80) = c by omega]
  rw [IsScalar] at hc
  by_cases h3 : c < 0x10000
  · rw [if_neg h1, if_neg h2, if_pos h3, List.cons_append, List.cons_append, List.singleton_append,
      decodeOnto_cons, decodeOnto_cons, decodeOnto_cons, toNat_toUInt8 (by omega),
      toNat_toUInt8 (by omega), toNat_toUInt8 (by omega), readByte, begun, lead_three (by omega)]
    dsimp only
    rw [readByte_more (by dsimp only; split <;> omega) (by dsimp only; split <;> omega) (by simp)]
    dsimp only
    rw [readByte_last (by dsimp only; omega) (by dsimp only; omega) rfl]
    dsimp only
    rw [show (c / 0x1000 * 0x40 + (0x80 + c / 0x40 % 0x40 - 0x80)) * 0x40 +
      (0x80 + c % 0x40 - 0x80) = c by omega]
  · rw [if_neg h1, if_neg h2, if_neg h3, List.cons_append, List.cons_append, List.cons_append,
      List.singleton_append, decodeOnto_cons, decodeOnto_cons, decodeOnto_cons, decodeOnto_cons,
      toNat_toUInt8 (by omega), toNat_toUInt8 (by omega), toNat_toUInt8 (by omega),
      toNat_toUInt8 (by omega), readByte, begun, lead_four (by omega)]
    dsimp only
    rw [readByte_more (by dsimp only; split <;> omega) (by dsimp only; split <;> omega) (by simp)]
    dsimp only
    rw [readByte_more (by dsimp only; omega) (by dsimp only; omega) (by simp)]
    dsimp only
    rw [readByte_last (by dsimp only; omega) (by dsimp only; omega) rfl]
    dsimp only
    rw [show ((c / 0x40000 * 0x40 + (0x80 + c / 0x1000 % 0x40 - 0x80)) * 0x40 +
      (0x80 + c / 0x40 % 0x40 - 0x80)) * 0x40 + (0x80 + c % 0x40 - 0x80) = c by omega]

/-- **Whole characters** are read as what their bytes stand for. -/
theorem decodeOnto_flatMap (h : ∀ c ∈ cs, c < 0x110000) (seen : List (Option Nat)) :
    decodeOnto seen none (cs.flatMap bytesOf) = (cs.map fun c => some (scalarOf c)).reverse ++ seen := by
  induction cs generalizing seen with
  | nil => rfl
  | cons c cs ih =>
    have hscalar := isScalar_scalarOf (h c (List.mem_cons_self ..))
    rw [List.flatMap_cons, ← bytesOf_scalarOf, decodeOnto_bytesOf hscalar,
      ih fun d hd => h d (List.mem_cons_of_mem c hd)]
    simp

/-! ## Bytes that continue a character -/

/-- The byte can only continue a character that has begun. -/
def continues (b : UInt8) : Bool := 0x80 ≤ b.toNat && b.toNat < 0xC0

theorem continues_iff : continues b = true ↔ 0x80 ≤ b.toNat ∧ b.toNat < 0xC0 := by
  simp [continues]

theorem continues_toUInt8 (hlow : 0x80 ≤ n) (hhigh : n < 0xC0) : continues n.toUInt8 = true := by
  rw [continues_iff, toNat_toUInt8 (by omega)]
  exact ⟨hlow, hhigh⟩

/-- Behind its first byte a character has only bytes that continue it. -/
theorem bytesOf_cases (hc : c < 0x110000) :
    ∃ b more, bytesOf c = b :: more ∧ continues b = false ∧ ∀ x ∈ more, continues x = true := by
  have hscalar := isScalar_scalarOf hc
  rw [← bytesOf_scalarOf, bytesOf_scalar hscalar]
  generalize scalarOf c = d at hscalar
  rw [IsScalar] at hscalar
  have hfirst {n : Nat} (hn : n < 0x100) (h : n < 0x80 ∨ 0xC0 ≤ n) :
      continues n.toUInt8 = false := by
    rw [Bool.eq_false_iff, ne_eq, continues_iff, toNat_toUInt8 hn]
    omega
  by_cases h1 : d < 0x80
  · rw [if_pos h1]
    exact ⟨_, _, rfl, hfirst (by omega) (by omega), fun _ h => absurd h List.not_mem_nil⟩
  by_cases h2 : d < 0x800
  · rw [if_neg h1, if_pos h2]
    refine ⟨_, _, rfl, hfirst (by omega) (by omega), ?_⟩
    rw [List.forall_mem_singleton]
    exact continues_toUInt8 (by omega) (by omega)
  by_cases h3 : d < 0x10000
  · rw [if_neg h1, if_neg h2, if_pos h3]
    refine ⟨_, _, rfl, hfirst (by omega) (by omega), ?_⟩
    rw [List.forall_mem_cons, List.forall_mem_singleton]
    exact ⟨continues_toUInt8 (by omega) (by omega), continues_toUInt8 (by omega) (by omega)⟩
  · rw [if_neg h1, if_neg h2, if_neg h3]
    refine ⟨_, _, rfl, hfirst (by omega) (by omega), ?_⟩
    rw [List.forall_mem_cons, List.forall_mem_cons, List.forall_mem_singleton]
    exact ⟨continues_toUInt8 (by omega) (by omega), continues_toUInt8 (by omega) (by omega),
      continues_toUInt8 (by omega) (by omega)⟩

/-- How many bytes at the front only continue a character. -/
def strayCount (bytes : List UInt8) : Nat := (bytes.takeWhile continues).length

theorem strayCount_append (hstrays : ∀ x ∈ strays, continues x = true)
    (hcs : ∀ c ∈ cs, c < 0x110000) :
    strayCount (strays ++ cs.flatMap bytesOf) = strays.length := by
  have hrest : (cs.flatMap bytesOf).takeWhile continues = [] := by
    cases cs with
    | nil => rfl
    | cons c cs =>
      obtain ⟨b, more, hbytes, hb, -⟩ := bytesOf_cases (hcs c (List.mem_cons_self ..))
      rw [List.flatMap_cons, hbytes, List.cons_append, List.takeWhile_cons_of_neg (by simp [hb])]
  rw [strayCount, List.takeWhile_append_of_pos hstrays, hrest, List.append_nil]

theorem strayCount_flatMap (hcs : ∀ c ∈ cs, c < 0x110000) :
    strayCount (cs.flatMap bytesOf) = 0 := by
  have h := @strayCount_append cs [] nofun hcs
  rwa [List.nil_append] at h

/-- No character begins with such a byte. -/
theorem lead_of_continues (h : continues b = true) : lead b.toNat = none := by
  rw [continues_iff] at h
  obtain ⟨hlow, hhigh⟩ := h
  generalize b.toNat = k at hlow hhigh
  interval_cases k <;> rfl

theorem decodeOnto_strays (h : ∀ x ∈ strays, continues x = true) (seen : List (Option Nat))
    (rest : List UInt8) :
    decodeOnto seen none (strays ++ rest) =
      decodeOnto (List.replicate strays.length none ++ seen) none rest := by
  induction strays generalizing seen with
  | nil => rfl
  | cons b strays ih =>
    have hlead := lead_of_continues (h b (List.mem_cons_self ..))
    rw [List.cons_append, decodeOnto_cons, readByte, begun, hlead]
    dsimp only
    rw [ih fun x hx => h x (List.mem_cons_of_mem b hx), List.length_cons, List.replicate_succ',
      List.append_assoc]
    rfl

/-- **Bytes that begin inside a character** are read as one replacement character for each byte that
is left of it, and then as what follows. -/
theorem decode_strays_append (hstrays : ∀ x ∈ strays, continues x = true)
    (hcs : ∀ c ∈ cs, c < 0x110000) :
    decode (strays ++ cs.flatMap bytesOf) =
      List.replicate strays.length replacement ++ cs.map scalarOf := by
  rw [decode, decodeOnto_strays hstrays, decodeOnto_flatMap hcs]
  simp [Function.comp_def]

theorem decode_flatMap (hcs : ∀ c ∈ cs, c < 0x110000) :
    decode (cs.flatMap bytesOf) = cs.map scalarOf := by
  have h := @decode_strays_append cs [] nofun hcs
  rwa [List.nil_append, List.length_nil, List.replicate_zero, List.nil_append] at h

/-- A cut through the bytes of some code points is between two of them, or leaves bytes that
continue one, and not its first. -/
theorem drop_flatMap_cases (hcs : ∀ c ∈ cs, c < 0x110000) (n : Nat) :
    (∃ front back, cs = front ++ back ∧ (cs.flatMap bytesOf).drop n = back.flatMap bytesOf) ∨
      ∃ front c back strays, cs = front ++ c :: back ∧ 0 < strays.length ∧
        strays.length < (bytesOf c).length ∧ (∀ x ∈ strays, continues x = true) ∧
        (cs.flatMap bytesOf).drop n = strays ++ back.flatMap bytesOf := by
  induction cs generalizing n with
  | nil => exact Or.inl ⟨[], [], rfl, by simp⟩
  | cons c cs ih =>
    obtain ⟨b, more, hbytes, -, hmore⟩ := bytesOf_cases (hcs c (List.mem_cons_self ..))
    have hrest := ih (fun d hd => hcs d (List.mem_cons_of_mem c hd)) (n - (bytesOf c).length)
    rw [List.flatMap_cons, List.drop_append]
    rcases Nat.eq_zero_or_pos n with rfl | hpos
    · exact Or.inl ⟨[], c :: cs, rfl, by simp⟩
    rcases Nat.lt_or_ge n (bytesOf c).length with hlt | hge
    · -- the cut lies inside the first character
      have hlength : ((bytesOf c).drop n).length = (bytesOf c).length - n := List.length_drop
      refine Or.inr ⟨[], c, cs, (bytesOf c).drop n, rfl, by omega, by omega, fun x hx => ?_, ?_⟩
      · obtain ⟨m, rfl⟩ : ∃ m, n = m + 1 := ⟨n - 1, by omega⟩
        rw [hbytes, List.drop_succ_cons] at hx
        exact hmore x (List.mem_of_mem_drop hx)
      · rw [Nat.sub_eq_zero_of_le (Nat.le_of_lt hlt), List.drop_zero]
    · rw [List.drop_eq_nil_of_le hge, List.nil_append]
      rcases hrest with ⟨front, back, hsplit, hdrop⟩ | ⟨front, d, back, strays, hsplit, hdrop⟩
      · exact Or.inl ⟨c :: front, back, by rw [hsplit, List.cons_append], hdrop⟩
      · exact Or.inr ⟨c :: front, d, back, strays, by rw [hsplit, List.cons_append], hdrop⟩

end Retrieval.Utf8
