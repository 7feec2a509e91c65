import Mathlib.Algebra.GroupWithZero.Nat
import Mathlib.Data.List.TakeDrop
import Mathlib.Data.List.TakeWhile
import Retrieval.Number.Reading
import Retrieval.Proofs.Number.Order

/-!
# Natural numbers as doubles

Every natural number up to `2 ^ 53` is a double, and sums up to there are exact
(`ofNat_add_ofNat`). Such a number is written with a mantissa of 53 bits (`lead`); rounding leaves
it as it is, because all that is shifted out of it is zeros (`round_natural`). Read from its decimal
digits it is the same double (`ofText_repr`).
-/

namespace Retrieval.Number

open Float.Model (Format UnpackedFloat totalExponent)
open Float.Model.UnpackedFloat
open Float.Model.UnpackedFloat (Sign)

variable {c d n m a b : Nat} {e : Int} {s : Sign}

/-! ## Numbers of bits -/

theorem log2_le_of_lt {k : Nat} (hn : n < 2 ^ (k + 1)) : n.log2 ≤ k := by
  rcases Nat.eq_zero_or_pos n with rfl | hpos
  · rw [Nat.log2_zero]
    exact Nat.zero_le k
  · exact Nat.lt_succ_iff.mp ((Nat.log2_lt (Nat.ne_of_gt hpos)).mpr hn)

theorem log2_mul_two_pow (hpos : 0 < n) (d : Nat) : (n * 2 ^ d).log2 = n.log2 + d := by
  have hne : n * 2 ^ d ≠ 0 := Nat.ne_of_gt (Nat.mul_pos hpos (Nat.two_pow_pos d))
  rw [Nat.log2_eq_iff hne, Nat.pow_add, Nat.add_right_comm, Nat.pow_add 2 (n.log2 + 1)]
  exact ⟨Nat.mul_le_mul_right _ (Nat.log2_self_le (Nat.ne_of_gt hpos)),
    Nat.mul_lt_mul_of_pos_right Nat.lt_log2_self (Nat.two_pow_pos d)⟩

/-- Where nothing is too small, the mantissa is brought to 53 bits. -/
theorem targetExponent_eq (he : -1074 ≤ m.log2 + e - 52) :
    Format.binary64.targetExponent (totalExponent m e) = m.log2 + e - 52 := by
  have hbits : (Format.binary64.mantissaBits : Int) = 53 := rfl
  have hmin : Format.binary64.minExponent = -1074 := by decide
  unfold Format.targetExponent totalExponent
  rw [hbits, hmin]
  omega

/-! ## Rounding what needs no rounding -/

/-- A mantissa of 53 bits. -/
structure Full (c : Nat) : Prop where
  low : 2 ^ 52 ≤ c
  high : c < 2 ^ 53

theorem Full.pos (h : Full c) : 0 < c := Nat.lt_of_lt_of_le (by decide) h.low

theorem Full.log2_eq (h : Full c) : c.log2 = 52 :=
  (Nat.log2_eq_iff (Nat.ne_of_gt h.pos)).mpr ⟨h.low, h.high⟩

/-- Shifting zeros out loses nothing. -/
theorem repeat_shiftRightOne (c d : Nat) :
    d.repeat ExtendedMantissa.shiftRightOne ⟨c * 2 ^ d, false, false⟩ = ⟨c, false, false⟩ := by
  induction d generalizing c with
  | zero => rw [Nat.pow_zero, Nat.mul_one, Nat.repeat]
  | succ d ih =>
    have hdouble : c * 2 ^ (d + 1) = 2 * c * 2 ^ d := by
      rw [Nat.pow_succ, Nat.mul_comm 2 c, Nat.mul_assoc, Nat.mul_comm (2 ^ d)]
    rw [Nat.repeat, hdouble, ih, ExtendedMantissa.shiftRightOne]
    simp

theorem Full.shiftToTargetExponent_eq (h : Full c) (d : Nat) (he : -1074 ≤ e + d) :
    shiftToTargetExponent Format.binary64 (c * 2 ^ d) e .exact = (⟨c, false, false⟩, e + d) := by
  have hlog : (c * 2 ^ d).log2 = 52 + d := by rw [log2_mul_two_pow h.pos, h.log2_eq]
  have htarget : Format.binary64.targetExponent (totalExponent (c * 2 ^ d) e) = e + d := by
    rw [targetExponent_eq (by omega)]
    omega
  have hshift : (e + d - e).toNat = d := by omega
  unfold shiftToTargetExponent shiftToExponent
  dsimp only
  rw [htarget, hshift]
  exact congrArg (·, e + (d : Int)) (repeat_shiftRightOne c d)

/-- An amount with a mantissa of 53 bits and zeros behind it is rounded to itself. -/
theorem Full.roundWithAccuracy_eq (h : Full c) (s : Sign) (d : Nat) (he : -1074 ≤ e + d) :
    roundWithAccuracy Format.binary64 s (c * 2 ^ d) e .exact = .finite s c (e + d) h.pos := by
  have hagain := h.shiftToTargetExponent_eq (e := e + d) 0 (by omega)
  rw [Nat.pow_zero, Nat.mul_one, Int.ofNat_zero, Int.add_zero] at hagain
  have hrounded : (⟨c, false, false⟩ : ExtendedMantissa).roundedMantissa = c := rfl
  rw [roundWithAccuracy, h.shiftToTargetExponent_eq d he]
  dsimp only
  rw [hrounded, hagain]
  exact dif_neg (Nat.ne_of_gt h.pos)

/-! ## The mantissa of a natural number -/

/-- The mantissa with which a natural number is written. -/
def lead (n : Nat) : Nat := n * 2 ^ 52 / 2 ^ n.log2

theorem lead_mul (hn : n ≤ 2 ^ 53) : lead n * 2 ^ n.log2 = n * 2 ^ 52 := by
  refine Nat.div_mul_cancel ?_
  rcases Nat.lt_or_eq_of_le hn with hlt | rfl
  · exact Nat.dvd_mul_left_of_dvd (Nat.pow_dvd_pow 2 (log2_le_of_lt hlt)) n
  · decide +kernel

theorem full_lead (hpos : 0 < n) (hn : n ≤ 2 ^ 53) : Full (lead n) := by
  have hlow := Nat.log2_self_le (Nat.ne_of_gt hpos)
  have hhigh : n < 2 ^ (n.log2 + 1) := Nat.lt_log2_self
  have hmul := lead_mul hn
  have hk := Nat.two_pow_pos n.log2
  rw [Nat.pow_succ] at hhigh
  generalize 2 ^ n.log2 = k at hlow hhigh hmul hk
  constructor
  · refine Nat.le_of_mul_le_mul_right ?_ hk
    rw [hmul, Nat.mul_comm]
    exact Nat.mul_le_mul_right _ hlow
  · refine Nat.lt_of_mul_lt_mul_right (a := k) ?_
    rw [hmul]
    omega

def unpacked (n : Nat) : UnpackedFloat :=
  if h : 0 < lead n then .finite .positive (lead n) ((n.log2 : Int) - 52) h else .zero .positive

theorem unpacked_zero : unpacked 0 = .zero .positive := rfl

theorem unpacked_pos (hpos : 0 < n) (hn : n ≤ 2 ^ 53) :
    unpacked n = .finite .positive (lead n) ((n.log2 : Int) - 52) (full_lead hpos hn).pos :=
  dif_pos (full_lead hpos hn).pos

/-- **Natural numbers up to `2 ^ 53` are rounded to themselves**, however far they were shifted. -/
theorem round_natural (hpos : 0 < n) (hn : n ≤ 2 ^ 53) (a : Nat) :
    UnpackedFloat.round .binary64 .positive (n * 2 ^ a) (-(a : Int)) = unpacked n := by
  have hfull := full_lead hpos hn
  have hlog := log2_mul_two_pow hpos a
  have htarget : Format.binary64.targetExponent (totalExponent (n * 2 ^ a) (-(a : Int))) =
      (n.log2 : Int) - 52 := by
    rw [targetExponent_eq (by omega)]
    omega
  obtain ⟨t, ht⟩ : ∃ t, t = (-(a : Int) - ((n.log2 : Int) - 52)).toNat := ⟨_, rfl⟩
  -- shifted far enough, the number is its mantissa with zeros behind it
  have hshifted : n * 2 ^ a * 2 ^ t = lead n * 2 ^ (n.log2 + a + t - 52) := by
    refine Nat.eq_of_mul_eq_mul_right (Nat.two_pow_pos 52) ?_
    calc n * 2 ^ a * 2 ^ t * 2 ^ 52
      _ = n * 2 ^ 52 * (2 ^ a * 2 ^ t) := by ac_rfl
      _ = lead n * (2 ^ n.log2 * (2 ^ a * 2 ^ t)) := by rw [← lead_mul hn, Nat.mul_assoc]
      _ = lead n * 2 ^ (n.log2 + a + t - 52 + 52) := by
        rw [← Nat.pow_add, ← Nat.pow_add]
        congr 2
        omega
      _ = lead n * 2 ^ (n.log2 + a + t - 52) * 2 ^ 52 := by rw [Nat.pow_add, Nat.mul_assoc]
  unfold UnpackedFloat.round decreaseExponent
  dsimp only
  rw [htarget, ← ht, Nat.shiftLeft_eq, hshifted, hfull.roundWithAccuracy_eq _ _ (by omega),
    unpacked_pos hpos hn]
  congr 1
  omega

/-! ## Sums -/

theorem normalize_natural (hn : n ≤ 2 ^ 53) (a : Nat) :
    UnpackedFloat.normalize Format.binary64 ((n * 2 ^ a : Nat) : Int) (-(a : Int)) .positive =
      unpacked n := by
  unfold UnpackedFloat.normalize
  rcases Nat.eq_zero_or_pos n with rfl | hpos
  · rw [Nat.zero_mul]
    rfl
  · have hsign : compare ((n * 2 ^ a : Nat) : Int) 0 = .gt := by
      rw [Int.compare_eq_gt]
      exact_mod_cast Nat.mul_pos hpos (Nat.two_pow_pos a)
    rw [hsign]
    exact round_natural hpos hn a

/-- The mantissa of a number below `2 ^ 53`, with its exponent lowered to `- t`. -/
theorem decreaseExponent_lead (hn : n < 2 ^ 53) {t : Nat} (hlog : 52 ≤ n.log2 + t) :
    (decreaseExponent (lead n) ((n.log2 : Int) - 52) (-(t : Int))).1 = n * 2 ^ t := by
  have hshift : ((n.log2 : Int) - 52 - -(t : Int)).toNat = n.log2 + t - 52 := by omega
  unfold decreaseExponent
  dsimp only
  rw [hshift, Nat.shiftLeft_eq]
  refine Nat.eq_of_mul_eq_mul_right (Nat.two_pow_pos 52) ?_
  calc lead n * 2 ^ (n.log2 + t - 52) * 2 ^ 52
    _ = lead n * 2 ^ n.log2 * 2 ^ t := by
      rw [Nat.mul_assoc, ← Nat.pow_add, Nat.mul_assoc, ← Nat.pow_add]
      congr 2
      omega
    _ = n * 2 ^ t * 2 ^ 52 := by
      rw [lead_mul (Nat.le_of_lt hn)]
      ac_rfl

/-- Two amounts are added with the smaller one of their exponents. -/
theorem add_finite {s' : Sign} {m' : Nat} {e' : Int} (h : 0 < m) (h' : 0 < m') :
    UnpackedFloat.add .binary64 (.finite s m e h) (.finite s' m' e' h') =
      UnpackedFloat.normalize .binary64
        (s.apply (decreaseExponent m e (min e e')).1 +
          s'.apply (decreaseExponent m' e' (min e e')).1)
        (min e e') .positive := rfl

/-- **Sums of natural numbers are exact** as long as they do not go beyond `2 ^ 53`. -/
theorem add_unpacked (h : a + b ≤ 2 ^ 53) :
    UnpackedFloat.add .binary64 (unpacked a) (unpacked b) = unpacked (a + b) := by
  rcases Nat.eq_zero_or_pos a with rfl | ha
  · rcases Nat.eq_zero_or_pos b with rfl | hb
    · rfl
    · rw [Nat.zero_add, unpacked_pos hb (by omega)]
      rfl
  · rcases Nat.eq_zero_or_pos b with rfl | hb
    · rw [Nat.add_zero, unpacked_pos ha (by omega)]
      rfl
    · obtain ⟨t, ht⟩ : ∃ t, t = 52 - min a.log2 b.log2 := ⟨_, rfl⟩
      have hloga : a.log2 ≤ 52 := log2_le_of_lt (by omega)
      have hlogb : b.log2 ≤ 52 := log2_le_of_lt (by omega)
      have hmin : min ((a.log2 : Int) - 52) ((b.log2 : Int) - 52) = -(t : Int) := by omega
      rw [unpacked_pos ha (by omega), unpacked_pos hb (by omega), add_finite, hmin,
        decreaseExponent_lead (by omega) (by omega), decreaseExponent_lead (by omega) (by omega)]
      have hsum : Sign.positive.apply ((a * 2 ^ t : Nat) : Int) +
          Sign.positive.apply ((b * 2 ^ t : Nat) : Int) = (((a + b) * 2 ^ t : Nat) : Int) := by
        rw [Nat.add_mul, Int.natCast_add]
        rfl
      rw [hsum]
      exact normalize_natural h t

/-! ## Packing -/

theorem unpackSign_packComponents (s : Sign) (exponent : BitVec 11) (mantissa : BitVec 52) :
    @unpackSign .binary64 (packComponents .binary64 s exponent mantissa) = s.toBitVec := by
  have hbits : @unpackSign .binary64 (packComponents .binary64 s exponent mantissa) =
      (s.toBitVec ++ exponent ++ mantissa).extractLsb' 63 1 := rfl
  rw [hbits, BitVec.extractLsb'_append_eq_of_le (by decide),
    BitVec.extractLsb'_append_eq_of_le (by decide)]
  exact BitVec.extractLsb'_eq_self

theorem finite_congr {s' : Sign} {m' : Nat} {e' : Int} {h : 0 < m} {h' : 0 < m'} (hs : s = s')
    (hm : m = m') (he : e = e') : UnpackedFloat.finite s m e h = .finite s' m' e' h' := by
  subst hs hm he
  rfl

theorem Full.pack_eq (h : Full c) (he : (e + 1023 + 52).toNat < 2047) :
    UnpackedFloat.pack .binary64 (.finite s c e h.pos) =
      packComponents .binary64 s (BitVec.ofNat 11 (e + 1023 + 52).toNat) (BitVec.ofNat 52 c) := by
  have hlog : c.log2 + 1 = Format.binary64.mantissaBits := by
    rw [h.log2_eq]
    rfl
  have hsmall : ¬ 2 ^ 11 ≤ (e + 1023 + 52).toNat + 1 := by omega
  exact (if_neg hsmall).trans (if_pos hlog)

/-- The leading bit of a mantissa is not stored; put in front again it gives the mantissa. -/
theorem Full.toNat_append (h : Full c) : (1#1 ++ BitVec.ofNat 52 c).toNat = c := by
  have hlow := h.low
  have hhigh := h.high
  have hmod : c % 2 ^ 52 < 2 ^ 52 := Nat.mod_lt _ (by decide)
  rw [BitVec.toNat_append, BitVec.toNat_ofNat, BitVec.toNat_ofNat,
    ← Nat.shiftLeft_add_eq_or_of_lt hmod]
  show 2 ^ 52 + c % 2 ^ 52 = c
  omega

theorem unpack_eq {v : BitVec 64} (hones : @unpackExponent .binary64 v ≠ -1#11)
    (hzeros : @unpackExponent .binary64 v ≠ 0#11) :
    ∃ hpos, UnpackedFloat.unpack .binary64 v =
      .finite (.ofBitVec (@unpackSign .binary64 v)) (1#1 ++ @unpackMantissa .binary64 v).toNat
        ((@unpackExponent .binary64 v).toNat - (1023 + 52)) hpos :=
  ⟨_, (if_neg hones).trans (if_neg hzeros)⟩

/-- A natural number is the same after it was packed. -/
theorem unpack_pack (hn : n ≤ 2 ^ 53) :
    UnpackedFloat.unpack .binary64 (UnpackedFloat.pack .binary64 (unpacked n)) = unpacked n := by
  rcases Nat.eq_zero_or_pos n with rfl | hpos
  · rfl
  · have hfull := full_lead hpos hn
    have hlog : n.log2 ≤ 53 := log2_le_of_lt (by omega)
    have hbiased : ((n.log2 : Int) - 52 + 1023 + 52).toNat = n.log2 + 1023 := by omega
    have hexponent : (BitVec.ofNat 11 (n.log2 + 1023)).toNat = n.log2 + 1023 := by
      rw [BitVec.toNat_ofNat]
      exact Nat.mod_eq_of_lt (by omega)
    have hones : BitVec.ofNat 11 (n.log2 + 1023) ≠ -1#11 := by
      rw [ne_eq, ← BitVec.toNat_inj, hexponent]
      exact Nat.ne_of_lt (show n.log2 + 1023 < 2047 by omega)
    have hzeros : BitVec.ofNat 11 (n.log2 + 1023) ≠ 0#11 := by
      rw [ne_eq, ← BitVec.toNat_inj, hexponent]
      exact Nat.ne_of_gt (show 0 < n.log2 + 1023 by omega)
    have hpack := hfull.pack_eq (s := .positive) (e := (n.log2 : Int) - 52) (by omega)
    rw [hbiased] at hpack
    rw [unpacked_pos hpos hn, hpack]
    generalize hv : packComponents .binary64 Sign.positive (BitVec.ofNat 11 (n.log2 + 1023))
      (BitVec.ofNat 52 (lead n)) = v
    have hsignOf : @unpackSign .binary64 v = Sign.positive.toBitVec := by
      rw [← hv, unpackSign_packComponents]
    have hexponentOf : @unpackExponent .binary64 v = BitVec.ofNat 11 (n.log2 + 1023) := by
      rw [← hv, unpackExponent_packComponents]
    have hmantissaOf : @unpackMantissa .binary64 v = BitVec.ofNat 52 (lead n) := by
      rw [← hv, unpackMantissa_packComponents]
    obtain ⟨_, hunpack⟩ := unpack_eq (ne_of_eq_of_ne hexponentOf hones)
      (ne_of_eq_of_ne hexponentOf hzeros)
    rw [hunpack]
    refine finite_congr ?_ ?_ ?_
    · rw [hsignOf]
      rfl
    · rw [hmantissaOf, hfull.toNat_append]
    · rw [hexponentOf, hexponent]
      omega

/-! ## Doubles -/

theorem toModel_unpack (hn : n ≤ 2 ^ 53) :
    (Float.Model.pack (unpacked n)).unpack = unpacked n := unpack_pack hn

/-- Nothing changes when a natural number is multiplied by one. -/
theorem mul_one_unpacked (hn : n ≤ 2 ^ 53) :
    UnpackedFloat.mul .binary64 (unpacked n) (.finite .positive (2 ^ 52) (-52) (by decide)) =
      unpacked n := by
  rcases Nat.eq_zero_or_pos n with rfl | hpos
  · rfl
  · rw [unpacked_pos hpos hn]
    refine ((full_lead hpos hn).roundWithAccuracy_eq .positive 52 (by omega)).trans ?_
    refine finite_congr rfl rfl ?_
    omega

/-- A natural number up to `2 ^ 53` as a double. -/
theorem toModel_ofNat (hn : n ≤ 2 ^ 53) :
    (Float.ofNat n).toModel = Float.Model.pack (unpacked n) := by
  rcases Nat.lt_or_eq_of_le hn with hlt | rfl
  · have hfast : Float.ofNat n = n.toUInt64.toFloat * Float.ofBits 0x3FF0000000000000 :=
      dif_pos ⟨hlt, by decide⟩
    have hword : n.toUInt64.toFloat.toModel = Float.Model.pack (unpacked n) := by
      have hnat : n.toUInt64.toNat = n := by
        rw [UInt64.toNat_ofNat']
        exact Nat.mod_eq_of_lt (by omega)
      have hnormal := normalize_natural hn 0
      rw [Nat.pow_zero, Nat.mul_one] at hnormal
      show Float.Model.pack (UnpackedFloat.ofNat .binary64 n.toUInt64.toNat) = _
      rw [hnat]
      exact congrArg Float.Model.pack hnormal
    have hone : (Float.ofBits 0x3FF0000000000000).toModel.unpack =
        .finite .positive (2 ^ 52) (-52) (by decide) := rfl
    rw [hfast]
    show Float.Model.pack (UnpackedFloat.mul .binary64 n.toUInt64.toFloat.toModel.unpack
      (Float.ofBits 0x3FF0000000000000).toModel.unpack) = _
    rw [hword, hone, toModel_unpack hn, mul_one_unpacked hn]
  · decide +kernel

theorem ofNat_eq (hn : n ≤ 2 ^ 53) : Float.ofNat n = .ofModel (Float.Model.pack (unpacked n)) :=
  congrArg Float.ofModel (toModel_ofNat hn)

/-- **Doubles add up as natural numbers do** as long as they do not go beyond `2 ^ 53`. -/
theorem ofNat_add_ofNat (h : a + b ≤ 2 ^ 53) :
    Float.ofNat a + Float.ofNat b = Float.ofNat (a + b) := by
  rw [ofNat_eq h]
  show Float.ofModel (Float.Model.pack (UnpackedFloat.add .binary64
    (Float.ofNat a).toModel.unpack (Float.ofNat b).toModel.unpack)) = _
  rw [toModel_ofNat (by omega), toModel_ofNat (by omega), toModel_unpack (by omega),
    toModel_unpack (by omega), add_unpacked h]

/-- What is so many times a power of two is a whole number. -/
theorem whole?_finite {negative : Bool} {m q : Nat}
    (h : m * twoTo e.toNat = q * twoTo (-e).toNat) :
    (Exact.finite negative m e).whole? = some (Exact.signed negative q) := by
  unfold Exact.whole?
  dsimp only
  rcases Int.le_total 0 e with hpos | hneg
  · have hzero : (-e).toNat = 0 := by omega
    rw [hzero, show twoTo 0 = 1 from rfl, Nat.mul_one] at h
    rw [if_pos hpos, h]
  · have hzero : e.toNat = 0 := by omega
    rw [hzero, show twoTo 0 = 1 from rfl, Nat.mul_one] at h
    rw [h, Nat.mul_mod_left, Nat.mul_div_cancel _ (twoTo_pos _), if_pos (beq_self_eq_true 0)]
    split
    · next hle =>
      have hsame : (-e).toNat = 0 := by omega
      rw [hsame, hzero, show twoTo 0 = 1 from rfl, Nat.mul_one, Nat.mul_one]
    · rfl

theorem lead_mul_twoTo (hn : n ≤ 2 ^ 53) :
    lead n * twoTo ((n.log2 : Int) - 52).toNat = n * twoTo (-((n.log2 : Int) - 52)).toNat := by
  have hlead := lead_mul hn
  rcases Nat.le_total 52 n.log2 with hle | hle
  · obtain ⟨d, hd⟩ := Nat.exists_eq_add_of_le hle
    have hup : ((n.log2 : Int) - 52).toNat = d := by omega
    have hdown : (-((n.log2 : Int) - 52)).toNat = 0 := by omega
    rw [hup, hdown, show twoTo 0 = 1 from rfl, Nat.mul_one]
    refine Nat.eq_of_mul_eq_mul_right (Nat.two_pow_pos 52) ?_
    rw [← hlead, hd, Nat.mul_assoc, Nat.pow_add, Nat.mul_comm (2 ^ 52)]
    rfl
  · obtain ⟨d, hd⟩ := Nat.exists_eq_add_of_le hle
    have hup : ((n.log2 : Int) - 52).toNat = 0 := by omega
    have hdown : (-((n.log2 : Int) - 52)).toNat = d := by omega
    rw [hup, hdown, show twoTo 0 = 1 from rfl, Nat.mul_one]
    refine Nat.eq_of_mul_eq_mul_right (Nat.two_pow_pos n.log2) ?_
    rw [hlead, Nat.mul_assoc, hd, Nat.add_comm, Nat.pow_add]
    rfl

/-- The double of a natural number up to `2 ^ 53` is that number. -/
theorem natural?_ofNat (hn : n ≤ 2 ^ 53) : natural? (Float.ofNat n) = some n := by
  have hof : Exact.of (Float.ofNat n) = Exact.ofUnpacked (unpacked n) := by
    rw [Exact.of_eq, toModel_ofNat hn, toModel_unpack hn]
  have hwhole : whole? (Float.ofNat n) = some (n : Int) := by
    unfold whole?
    rw [hof]
    rcases Nat.eq_zero_or_pos n with rfl | hpos
    · rw [unpacked_zero, Exact.ofUnpacked_zero]
      exact whole?_finite (q := 0) (by rw [Nat.zero_mul, Nat.zero_mul])
    · rw [unpacked_pos hpos hn, Exact.ofUnpacked_finite]
      exact whole?_finite (lead_mul_twoTo hn)
  rw [natural?_of_whole hwhole (Int.natCast_nonneg n), Int.toNat_natCast]

/-! ## Decimal digits -/

variable {cs : List Char}

theorem toNat_of_isDigit {c : Char} (h : c.isDigit = true) : 48 ≤ c.toNat ∧ c.toNat ≤ 57 := by
  simp only [Char.isDigit, Bool.and_eq_true, decide_eq_true_eq, UInt32.le_iff_toNat_le] at h
  exact h

theorem digit?_of_isDigit {c : Char} (h : c.isDigit = true) :
    digit? 10 c = some (c.toNat - 48) := by
  obtain ⟨hlow, hhigh⟩ := toNat_of_isDigit h
  unfold digit?
  simp only [hlow, hhigh, decide_true, Bool.and_self, if_true]
  exact if_pos (by omega)

theorem natOfDigits?_digits (hne : cs ≠ []) (h : ∀ c ∈ cs, c.isDigit = true) :
    natOfDigits? 10 cs = some (Nat.ofDigitChars 10 cs 0) := by
  have hfold (cs : List Char) (h : ∀ c ∈ cs, c.isDigit = true) (n : Nat) :
      cs.foldl (fun n c => n.bind fun n => (digit? 10 c).map (10 * n + ·)) (some n) =
        some (Nat.ofDigitChars 10 cs n) := by
    induction cs generalizing n with
    | nil => rw [List.foldl_nil, Nat.ofDigitChars_nil]
    | cons c rest ih =>
      obtain ⟨hc, hrest⟩ := List.forall_mem_cons.mp h
      rw [List.foldl_cons, Option.bind_some, digit?_of_isDigit hc, Option.map_some, ih hrest,
        Nat.ofDigitChars_cons]
      rfl
  rw [natOfDigits?, if_neg (by simpa using hne), hfold cs h 0]

/-- Digits are no blanks, so nothing is trimmed off a number. -/
theorem trimBlank_digits (h : ∀ c ∈ cs, c.isDigit = true) : trimBlank cs = cs := by
  have hkept (cs : List Char) (h : ∀ c ∈ cs, c.isDigit = true) :
      cs.dropWhile (isBlankPoint ·.toNat) = cs := by
    cases cs with
    | nil => rfl
    | cons c rest =>
      obtain ⟨hlow, hhigh⟩ := toNat_of_isDigit (h c (List.mem_cons_self ..))
      refine List.dropWhile_cons_of_neg ?_
      simp only [isBlankPoint, Bool.or_eq_true, Bool.and_eq_true, decide_eq_true_eq, beq_iff_eq]
      omega
  have hreverse : ∀ c ∈ cs.reverse, c.isDigit = true := fun c hc => h c (List.mem_reverse.mp hc)
  unfold trimBlank
  dsimp only
  rw [hkept cs h, hkept cs.reverse hreverse, List.reverse_reverse]

theorem spanDigits_digits (h : ∀ c ∈ cs, c.isDigit = true) : spanDigits cs = (cs, []) := by
  have hall : ∀ c ∈ cs, (digit? 10 c).isSome = true := fun c hc => by
    rw [digit?_of_isDigit (h c hc)]
    rfl
  rw [spanDigits, List.span_eq_takeWhile_dropWhile, List.takeWhile_eq_self_iff.mpr hall,
    List.dropWhile_eq_nil_iff.mpr hall]

theorem unsigned?_digits (hne : cs ≠ []) (h : ∀ c ∈ cs, c.isDigit = true) :
    unsigned? cs = some (ofDecimal cs 0) := by
  have hword : cs ≠ "Infinity".toList := by
    rintro rfl
    exact absurd (h 'I' (by decide)) (by decide)
  unfold unsigned?
  rw [if_neg (by simpa using hword), spanDigits_digits h]
  simp [exponent?, hne]

/-- **A natural number is read from its decimal digits** as the double nearest to it. -/
theorem ofText_repr (hn : n < 10 ^ 100) : ofText (Nat.repr n) = Float.ofNat n := by
  have hdigits : ∀ c ∈ Nat.toDigits 10 n, c.isDigit = true := fun c hc =>
    Nat.isDigit_of_mem_toDigits (by decide) (by decide) hc
  have hne : Nat.toDigits 10 n ≠ [] := Nat.toDigits_ne_nil
  have hnumber : natOfDigits? 10 (Nat.toDigits 10 n) = some n := by
    rw [natOfDigits?_digits hne hdigits, Nat.ofDigitChars_ten_toDigits]
  have hsize : significant (Nat.toDigits 10 n) ≤ 100 :=
    Nat.le_trans (List.dropWhile_sublist _).length_le
      ((Nat.length_toDigits_le_iff (by decide) (by decide)).mpr hn)
  have hdecimal : ofDecimal (Nat.toDigits 10 n) 0 = Float.ofNat n := by
    unfold ofDecimal
    rw [hnumber]
    dsimp only [Option.getD_some]
    split
    · next hzero =>
      have hnone : n = 0 := by
        simp only [Bool.or_eq_true, beq_iff_eq, decide_eq_true_eq] at hzero
        omega
      rw [hnone]
      rfl
    · rw [if_neg (by omega)]
      rfl
  have hno (c : Char) (hc : c.isDigit = false) (hmem : c ∈ Nat.toDigits 10 n) : False := by
    rw [hdigits c hmem] at hc
    cases hc
  unfold ofText
  rw [Nat.toList_repr, trimBlank_digits hdigits]
  split
  · next heq => exact absurd heq hne
  · next heq => exact (hno 'x' rfl (by simp [heq])).elim
  · next heq => exact (hno 'X' rfl (by simp [heq])).elim
  · next heq => exact (hno 'b' rfl (by simp [heq])).elim
  · next heq => exact (hno 'B' rfl (by simp [heq])).elim
  · next heq => exact (hno 'o' rfl (by simp [heq])).elim
  · next heq => exact (hno 'O' rfl (by simp [heq])).elim
  · next heq => exact (hno '-' rfl (by simp [heq])).elim
  · next heq => exact (hno '+' rfl (by simp [heq])).elim
  · rw [unsigned?_digits hne hdigits, Option.getD_some, hdecimal]

end Retrieval.Number
