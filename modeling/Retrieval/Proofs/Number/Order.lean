import Retrieval.Number.Exact

/-!
# Doubles compare as their values do

The exact value of a double is what taking its bits apart gives (`Exact.of_eq`). Every finite double
is a multiple of the smallest positive one, so that the order of doubles is that of these multiples
(`Exact.lt_iff`); between whole numbers it is the order of the integers (`Number.lt_iff_of_whole`).
-/

namespace Retrieval

theorem twoTo_pos (k : Nat) : 0 < twoTo k := Nat.pow_pos (by decide)

theorem twoTo_add (a b : Nat) : twoTo (a + b) = twoTo a * twoTo b := Nat.pow_add 2 a b

namespace Exact

open Float.Model (Format UnpackedFloat)
open Float.Model.UnpackedFloat (Sign)

def isNegative : Sign → Bool
  | .negative => true
  | .positive => false

/-- The value of a double that was taken apart. -/
def ofUnpacked : UnpackedFloat → Exact
  | .notANumber => .nan
  | .infinity s => .infinite (isNegative s)
  | .zero s => .finite (isNegative s) 0 (-1074)
  | .finite s m e _ => .finite (isNegative s) m e

theorem ofUnpacked_infinity (s : Sign) : ofUnpacked (.infinity s) = .infinite (isNegative s) := rfl

theorem ofUnpacked_zero (s : Sign) :
    ofUnpacked (.zero s) = .finite (isNegative s) 0 (-1074) := rfl

theorem ofUnpacked_finite (s : Sign) {m : Nat} (e : Int) (hm : 0 < m) :
    ofUnpacked (.finite s m e hm) = .finite (isNegative s) m e := rfl

theorem exponent_toNat (b : UInt64) :
    ((b >>> 52) &&& 0x7FF).toNat = b.toNat / twoTo 52 % twoTo 11 := by
  rw [UInt64.toNat_and, UInt64.toNat_shiftRight, Nat.shiftRight_eq_div_pow]
  exact Nat.and_two_pow_sub_one_eq_mod _ 11

theorem fraction_toNat (b : UInt64) : (b &&& 0xFFFFFFFFFFFFF).toNat = b.toNat % twoTo 52 := by
  rw [UInt64.toNat_and]
  exact Nat.and_two_pow_sub_one_eq_mod _ 52

theorem sign_toNat (b : UInt64) : (b >>> 63 == 1) = decide (b.toNat / twoTo 63 = 1) := by
  have h : (b >>> 63).toNat = b.toNat / twoTo 63 := by
    rw [UInt64.toNat_shiftRight, Nat.shiftRight_eq_div_pow]
    rfl
  rw [Bool.beq_eq_decide_eq, ← h]
  simp [← UInt64.toNat_inj]

theorem unpackMantissa_toNat (b : BitVec 64) :
    (@UnpackedFloat.unpackMantissa .binary64 b).toNat = b.toNat % twoTo 52 := by
  have hbits : @UnpackedFloat.unpackMantissa .binary64 b = b.extractLsb' 0 52 := rfl
  rw [hbits, BitVec.extractLsb'_toNat, Nat.shiftRight_zero]
  rfl

theorem unpackExponent_toNat (b : BitVec 64) :
    (@UnpackedFloat.unpackExponent .binary64 b).toNat = b.toNat / twoTo 52 % twoTo 11 := by
  have hbits : @UnpackedFloat.unpackExponent .binary64 b = b.extractLsb' 52 11 := rfl
  rw [hbits, BitVec.extractLsb'_toNat, Nat.shiftRight_eq_div_pow]
  rfl

theorem unpackSign_toNat (b : BitVec 64) :
    (@UnpackedFloat.unpackSign .binary64 b).toNat = b.toNat / twoTo 63 % 2 := by
  have hbits : @UnpackedFloat.unpackSign .binary64 b = b.extractLsb' 63 1 := rfl
  rw [hbits, BitVec.extractLsb'_toNat, Nat.shiftRight_eq_div_pow]
  rfl

theorem isNegative_ofBitVec (b : BitVec 1) : isNegative (Sign.ofBitVec b) = decide (b.toNat = 1) := by
  have h := b.isLt
  unfold Sign.ofBitVec
  split
  · next hb => simp [isNegative, hb]
  · next hb =>
    have hne : b.toNat ≠ 0 := fun h0 => hb (BitVec.eq_of_toNat_eq h0)
    simp only [isNegative]
    symm
    rw [decide_eq_true_eq]
    omega

/-- What taking bits apart gives, by the numbers of the exponent and of the fraction. -/
theorem ofUnpacked_unpack (b : BitVec 64) {e f : Nat} {negative : Bool}
    (he : (@UnpackedFloat.unpackExponent .binary64 b).toNat = e)
    (hf : (@UnpackedFloat.unpackMantissa .binary64 b).toNat = f)
    (hs : isNegative (Sign.ofBitVec (@UnpackedFloat.unpackSign .binary64 b)) = negative) :
    ofUnpacked (UnpackedFloat.unpack .binary64 b) =
      if e = 0x7FF then (if f = 0 then .infinite negative else .nan)
      else if e = 0 then .finite negative f (-1074)
      else .finite negative (twoTo 52 + f) ((e : Int) - 1075) := by
  have hones : @UnpackedFloat.unpackExponent .binary64 b = -1#(Format.binary64.exponentBits) ↔
      e = 0x7FF := by
    rw [← he, ← BitVec.toNat_inj]
    rfl
  have hzeros : @UnpackedFloat.unpackExponent .binary64 b = 0#(Format.binary64.exponentBits) ↔
      e = 0 := by
    rw [← he, ← BitVec.toNat_inj]
    rfl
  have hnone : @UnpackedFloat.unpackMantissa .binary64 b =
      0#(Format.binary64.mantissaBitsWithoutImplicit) ↔ f = 0 := by
    rw [← hf, ← BitVec.toNat_inj]
    rfl
  have happend : (1#1 ++ @UnpackedFloat.unpackMantissa .binary64 b).toNat = twoTo 52 + f := by
    have hlt : f < 2 ^ 52 := hf ▸ (@UnpackedFloat.unpackMantissa .binary64 b).isLt
    rw [BitVec.toNat_append, hf, ← Nat.shiftLeft_add_eq_or_of_lt hlt]
    rfl
  have hbias : Format.binary64.exponentBias = 1023 := by decide
  unfold UnpackedFloat.unpack
  dsimp only
  by_cases hmax : e = 0x7FF
  · rw [if_pos (hones.mpr hmax), if_pos hmax]
    by_cases h0 : f = 0
    · rw [if_pos (hnone.mpr h0), if_pos h0, ofUnpacked_infinity, hs]
    · rw [if_neg (mt hnone.mp h0), if_neg h0]
      rfl
  rw [if_neg (mt hones.mp hmax), if_neg hmax]
  by_cases hmin : e = 0
  · rw [if_pos (hzeros.mpr hmin), if_pos hmin]
    by_cases h0 : f = 0
    · rw [dif_pos (hnone.mpr h0), ofUnpacked_zero, hs, h0]
    · rw [dif_neg (mt hnone.mp h0), ofUnpacked_finite, hs, hf, he, hmin, hbias]
      rfl
  · rw [if_neg (mt hzeros.mp hmin), if_neg hmin, ofUnpacked_finite, hs, he, happend, hbias]
    rfl

/-- The value of a double is what taking it apart gives. -/
theorem of_eq (x : Float) : Exact.of x = ofUnpacked x.toModel.unpack := by
  have hlt := x.toModel.toBits.toNat_lt
  have hdiv : x.toModel.toBits.toNat / twoTo 63 < 2 := Nat.div_lt_of_lt_mul hlt
  have hs : isNegative (Sign.ofBitVec
      (@UnpackedFloat.unpackSign .binary64 x.toModel.toBits.toBitVec)) =
      (x.toModel.toBits >>> 63 == 1) := by
    rw [sign_toNat, isNegative_ofBitVec, unpackSign_toNat, UInt64.toNat_toBitVec,
      Nat.mod_eq_of_lt hdiv]
  have hunpack := ofUnpacked_unpack x.toModel.toBits.toBitVec (unpackExponent_toNat _)
    (unpackMantissa_toNat _) hs
  have hmodel : x.toModel.unpack = UnpackedFloat.unpack .binary64 x.toModel.toBits.toBitVec := rfl
  have hbits : Exact.of x = ofBits x.toModel.toBits := rfl
  rw [hmodel, hunpack, hbits, ofBits, exponent_toNat, fraction_toNat]
  simp only [UInt64.toNat_toBitVec, beq_iff_eq]

/-! ## Finite doubles in steps of the smallest one -/

/-- A mantissa and an exponent as finite doubles have them: no exponent is smaller than needed. -/
structure Canonical (m : Nat) (e : Int) : Prop where
  lt : m < twoTo 53
  le : -1074 ≤ e
  normal : e = -1074 ∨ twoTo 52 ≤ m

theorem canonical_of {x : Float} {negative : Bool} {m : Nat} {e : Int}
    (h : Exact.of x = .finite negative m e) : Canonical m e := by
  have hlt := Nat.mod_lt x.toBits.toNat (twoTo_pos 52)
  rw [Exact.of, ofBits, exponent_toNat, fraction_toNat] at h
  generalize x.toBits.toNat % twoTo 52 = f at h hlt
  generalize x.toBits.toNat / twoTo 52 % twoTo 11 = k at h
  have h52 : twoTo 52 = 2 ^ 52 := rfl
  have h53 : twoTo 53 = 2 ^ 53 := rfl
  simp only [beq_iff_eq] at h
  split at h
  · split at h <;> cases h
  · split at h
    · cases h
      exact ⟨by omega, Int.le_refl _, Or.inl rfl⟩
    · cases h
      exact ⟨by omega, by omega, Or.inr (by omega)⟩

/-- How many steps of the smallest positive double an amount is. -/
def steps (m : Nat) (e : Int) : Nat := m * twoTo (e + 1074).toNat

theorem steps_lt_of_exponent {m m' : Nat} {e e' : Int} (h : Canonical m e) (h' : Canonical m' e')
    (he : e < e') : steps m e < steps m' e' := by
  have hle := h.le
  have hm' : twoTo 52 ≤ m' := h'.normal.resolve_left (by omega)
  obtain ⟨k, hk⟩ : ∃ k, (e' + 1074).toNat = (e + 1074).toNat + 1 + k :=
    ⟨(e' + 1074).toNat - ((e + 1074).toNat + 1), by omega⟩
  calc steps m e
    _ < twoTo 53 * twoTo (e + 1074).toNat := Nat.mul_lt_mul_of_pos_right h.lt (Nat.two_pow_pos _)
    _ = twoTo 52 * twoTo ((e + 1074).toNat + 1) := by
      simp only [twoTo, Nat.pow_eq, Nat.pow_succ]
      omega
    _ ≤ twoTo 52 * twoTo (e' + 1074).toNat := by
      apply Nat.mul_le_mul_left
      rw [hk]
      exact Nat.pow_le_pow_right (by decide) (Nat.le_add_right _ _)
    _ ≤ steps m' e' := Nat.mul_le_mul_right _ hm'

/-- Of two amounts the one with the greater exponent is greater, and of two with the same one that
with the greater mantissa. -/
theorem compare_steps {m m' : Nat} {e e' : Int} (h : Canonical m e) (h' : Canonical m' e') :
    (compare e e').then (compare m m') = compare (steps m e) (steps m' e') := by
  rcases Int.lt_trichotomy e e' with hlt | rfl | hgt
  · rw [Int.compare_eq_lt.mpr hlt, Nat.compare_eq_lt.mpr (steps_lt_of_exponent h h' hlt)]
    rfl
  · have hpos : 0 < twoTo (e + 1074).toNat := Nat.two_pow_pos _
    rw [Int.compare_eq_eq.mpr rfl, Ordering.eq_then]
    rcases Nat.lt_trichotomy m m' with hlt | rfl | hgt
    · rw [Nat.compare_eq_lt.mpr hlt, eq_comm, Nat.compare_eq_lt]
      exact Nat.mul_lt_mul_of_pos_right hlt hpos
    · rw [Nat.compare_eq_eq.mpr rfl, Nat.compare_eq_eq.mpr rfl]
    · rw [Nat.compare_eq_gt.mpr hgt, eq_comm, Nat.compare_eq_gt]
      exact Nat.mul_lt_mul_of_pos_right hgt hpos
  · rw [Int.compare_eq_gt.mpr hgt, Nat.compare_eq_gt.mpr (steps_lt_of_exponent h' h hgt)]
    rfl

/-- The signed number of steps. -/
def position (negative : Bool) (m : Nat) (e : Int) : Int := signed negative (steps m e)

theorem position_zero (negative : Bool) (e : Int) : position negative 0 e = 0 := by
  cases negative <;> simp [position, steps, signed]

theorem steps_pos {m : Nat} (e : Int) (hm : 0 < m) : 0 < steps m e :=
  Nat.mul_pos hm (Nat.two_pow_pos _)

theorem position_pos {m : Nat} (e : Int) (hm : 0 < m) : 0 < position false m e := by
  have hsteps := steps_pos e hm
  simp only [position, signed, Bool.false_eq_true, if_false]
  omega

theorem position_neg {m : Nat} (e : Int) (hm : 0 < m) : position true m e < 0 := by
  have hsteps := steps_pos e hm
  simp only [position, signed, if_true]
  omega

theorem compare_natCast (a b : Nat) : compare (a : Int) (b : Int) = compare a b := by
  rcases Nat.lt_trichotomy a b with hlt | rfl | hgt
  · rw [Nat.compare_eq_lt.mpr hlt, Int.compare_eq_lt]
    omega
  · rw [Nat.compare_eq_eq.mpr rfl, Int.compare_eq_eq]
  · rw [Nat.compare_eq_gt.mpr hgt, Int.compare_eq_gt]
    omega

theorem compare_neg_natCast (a b : Nat) : compare (-a : Int) (-b : Int) = (compare a b).swap := by
  rcases Nat.lt_trichotomy a b with hlt | rfl | hgt
  · rw [Nat.compare_eq_lt.mpr hlt, Ordering.swap_lt, Int.compare_eq_gt]
    omega
  · rw [Nat.compare_eq_eq.mpr rfl, Ordering.swap_eq, Int.compare_eq_eq]
  · rw [Nat.compare_eq_gt.mpr hgt, Ordering.swap_gt, Int.compare_eq_lt]
    omega

/-- Values that were taken apart compare as their steps do. -/
theorem compare_ofUnpacked {u v : UnpackedFloat} {n n' : Bool} {m m' : Nat} {e e' : Int}
    (hu : ofUnpacked u = .finite n m e) (hv : ofUnpacked v = .finite n' m' e')
    (hcu : Canonical m e) (hcv : Canonical m' e') :
    u.compare v = some (compare (position n m e) (position n' m' e')) := by
  cases u with
  | notANumber => cases hu
  | infinity s => cases hu
  | zero s =>
    cases hu
    cases v with
    | notANumber => cases hv
    | infinity s' => cases hv
    | zero s' =>
      cases hv
      rw [position_zero, position_zero]
      rfl
    | finite s' m' e' hpos' =>
      cases hv
      rw [position_zero]
      cases s' with
      | negative => exact congrArg some (Int.compare_eq_gt.mpr (position_neg e' hpos')).symm
      | positive => exact congrArg some (Int.compare_eq_lt.mpr (position_pos e' hpos')).symm
  | finite s m e hpos =>
    cases hu
    cases v with
    | notANumber => cases hv
    | infinity s' => cases hv
    | zero s' =>
      cases hv
      rw [position_zero]
      cases s with
      | negative => exact congrArg some (Int.compare_eq_lt.mpr (position_neg e hpos)).symm
      | positive => exact congrArg some (Int.compare_eq_gt.mpr (position_pos e hpos)).symm
    | finite s' m' e' hpos' =>
      cases hv
      cases s with
      | negative =>
        cases s' with
        | negative =>
          show some ((compare e e').then (compare m m')).swap = _
          rw [compare_steps hcu hcv, ← compare_neg_natCast]
          rfl
        | positive =>
          have hlt := Int.lt_trans (position_neg e hpos) (position_pos e' hpos')
          exact congrArg some (Int.compare_eq_lt.mpr hlt).symm
      | positive =>
        cases s' with
        | negative =>
          have hgt := Int.lt_trans (position_neg e' hpos') (position_pos e hpos)
          exact congrArg some (Int.compare_eq_gt.mpr hgt).symm
        | positive =>
          show some ((compare e e').then (compare m m')) = _
          rw [compare_steps hcu hcv, ← compare_natCast]
          rfl

/-- **Finite doubles compare as their values do.** -/
theorem lt_iff {x y : Float} {n n' : Bool} {m m' : Nat} {e e' : Int}
    (hx : Exact.of x = .finite n m e) (hy : Exact.of y = .finite n' m' e') :
    x < y ↔ position n m e < position n' m' e' := by
  have hcompare := compare_ofUnpacked ((of_eq x).symm.trans hx) ((of_eq y).symm.trans hy)
    (canonical_of hx) (canonical_of hy)
  have hlt : x < y ↔ (x.toModel.unpack.compare y.toModel.unpack == some .lt) = true := by
    show (x.lt y) = true ↔ _
    unfold Float.lt
    rw [decide_eq_true_eq]
    exact Iff.rfl
  rw [hlt, hcompare, beq_iff_eq, Option.some.injEq, Int.compare_eq_lt]

/-! ## Whole numbers -/

/-- A double that is a whole number has a mantissa that its exponent divides. -/
theorem whole?_eq_some {x : Exact} {k : Int} (h : x.whole? = some k) :
    ∃ negative m e q, x = .finite negative m e ∧ k = signed negative q ∧
      m * twoTo e.toNat = q * twoTo (-e).toNat := by
  unfold whole? at h
  split at h
  · next negative m e =>
    split at h
    · next he =>
      have hzero : (-e).toNat = 0 := by omega
      refine ⟨negative, m, e, _, rfl, (Option.some.inj h).symm, ?_⟩
      rw [hzero, show twoTo 0 = 1 from rfl, Nat.mul_one]
    · next he =>
      split at h
      · next hdvd =>
        have hzero : e.toNat = 0 := by omega
        refine ⟨negative, m, e, _, rfl, (Option.some.inj h).symm, ?_⟩
        rw [hzero, show twoTo 0 = 1 from rfl, Nat.mul_one,
          Nat.div_mul_cancel (Nat.dvd_of_mod_eq_zero (by simpa using hdvd))]
      · cases h
  · cases h

theorem signed_mul (negative : Bool) (q t : Nat) :
    signed negative (q * t) = signed negative q * t := by
  cases negative with
  | false => exact Int.natCast_mul q t
  | true => exact (congrArg Neg.neg (Int.natCast_mul q t)).trans (Int.neg_mul q t).symm

/-- A whole number lies relative to an integer as the integer does that it is. -/
theorem compareTo_of_whole {x : Exact} {j : Int} (h : x.whole? = some j) (k : Int) :
    x.compareTo k = some (compare j k) := by
  obtain ⟨negative, m, e, q, rfl, rfl, heq⟩ := whole?_eq_some h
  have hpos : 0 < (twoTo (-e).toNat : Int) := by exact_mod_cast twoTo_pos _
  rw [compareTo, heq, signed_mul]
  congr 1
  rcases Int.lt_trichotomy (signed negative q) k with hlt | heq | hgt
  · rw [Int.compare_eq_lt.mpr hlt, Int.compare_eq_lt]
    exact Int.mul_lt_mul_of_pos_right hlt hpos
  · rw [heq, Int.compare_eq_eq.mpr rfl]
    exact (Int.compare_eq_eq.mpr rfl).symm
  · rw [Int.compare_eq_gt.mpr hgt, Int.compare_eq_gt]
    exact Int.mul_lt_mul_of_pos_right hgt hpos

/-- An amount in smaller steps, of which `n` halvings make one. -/
theorem mul_twoTo_of_whole {m q n : Nat} {e : Int} (hle : -n ≤ e)
    (heq : m * twoTo e.toNat = q * twoTo (-e).toNat) : m * twoTo (e + n).toNat = q * twoTo n := by
  rcases Int.le_total 0 e with hpos | hneg
  · have hzero : (-e).toNat = 0 := by omega
    rw [hzero, show twoTo 0 = 1 from rfl, Nat.mul_one] at heq
    rw [← heq, show (e + n).toNat = e.toNat + n by omega, twoTo_add, Nat.mul_assoc]
  · have hzero : e.toNat = 0 := by omega
    rw [hzero, show twoTo 0 = 1 from rfl, Nat.mul_one] at heq
    rw [heq, Nat.mul_assoc, ← twoTo_add, show (-e).toNat + (e + n).toNat = n by omega]

/-- A whole number is so many times the steps that make one. -/
theorem position_of_whole {x : Float} {k : Int} (h : (Exact.of x).whole? = some k) :
    ∃ negative m e, Exact.of x = .finite negative m e ∧ position negative m e = k * twoTo 1074 := by
  obtain ⟨negative, m, e, q, hx, rfl, heq⟩ := whole?_eq_some h
  have hle := (canonical_of hx).le
  refine ⟨negative, m, e, hx, ?_⟩
  have hsteps : m * twoTo (e + 1074).toNat = q * twoTo 1074 := mul_twoTo_of_whole hle heq
  rw [position, steps, hsteps, signed_mul]

end Exact

namespace Number

theorem natural?_of_whole {x : Float} {k : Int} (h : whole? x = some k) (hk : 0 ≤ k) :
    natural? x = some k.toNat := by
  rw [natural?, h, Option.bind_some, if_pos hk]

/-- Of two whole numbers the doubles compare as the integers do. -/
theorem lt_iff_of_whole {x y : Float} {j k : Int} (hx : whole? x = some j) (hy : whole? y = some k) :
    x < y ↔ j < k := by
  obtain ⟨n, m, e, hof, hpos⟩ := Exact.position_of_whole hx
  obtain ⟨n', m', e', hof', hpos'⟩ := Exact.position_of_whole hy
  have hone : 0 < (twoTo 1074 : Int) := by exact_mod_cast twoTo_pos _
  rw [Exact.lt_iff hof hof', hpos, hpos']
  exact Int.mul_lt_mul_right hone

end Number
end Retrieval
