import Mathlib.Algebra.Order.Field.Power
import Mathlib.Algebra.Order.Ring.Rat
import Retrieval.Number.Notation
import Retrieval.Proofs.Number.Naturals

/-!
# Plain notation

A decimal in plain notation has its digits in full, with a point where the scale asks for one and
without an exponent. There is exactly one such text (`Plain.unique`, `plain_positional`). The text of
a number is in plain notation if the number lies between `1e-6` and `1e21` (`plain_text_iff`).
-/

namespace Retrieval

/-! ## Digits -/

namespace Number

variable {cs ds : List Char}

/-- Each digit counts as often as its place says. -/
theorem ofDigitChars_cons_zero (c : Char) (cs : List Char) :
    Nat.ofDigitChars 10 (c :: cs) 0 =
      10 ^ cs.length * (c.toNat - 48) + Nat.ofDigitChars 10 cs 0 := by
  rw [Nat.ofDigitChars_cons, Nat.ofDigitChars_eq_ofDigitChars_zero]
  simp

theorem ofDigitChars_lt (h : ∀ c ∈ cs, c.isDigit = true) :
    Nat.ofDigitChars 10 cs 0 < 10 ^ cs.length := by
  induction cs with
  | nil => simp
  | cons c cs ih =>
    obtain ⟨hc, hcs⟩ := List.forall_mem_cons.mp h
    have hdigit : c.toNat - 48 ≤ 9 := by
      have := (toNat_of_isDigit hc).2
      omega
    calc Nat.ofDigitChars 10 (c :: cs) 0
        = 10 ^ cs.length * (c.toNat - 48) + Nat.ofDigitChars 10 cs 0 := ofDigitChars_cons_zero c cs
      _ < 10 ^ cs.length * 9 + 10 ^ cs.length :=
        Nat.add_lt_add_of_le_of_lt (Nat.mul_le_mul_left _ hdigit) (ih hcs)
      _ = 10 ^ (c :: cs).length := by rw [List.length_cons, Nat.pow_succ]; omega

/-- Without a zero at the front, a number is as great as its digits are many. -/
theorem le_ofDigitChars (h : ∀ c ∈ cs, c.isDigit = true) (hne : cs ≠ [])
    (hlead : cs.head? ≠ some '0') : 10 ^ (cs.length - 1) ≤ Nat.ofDigitChars 10 cs 0 := by
  cases cs with
  | nil => exact absurd rfl hne
  | cons c cs =>
    have hdigit : 1 ≤ c.toNat - 48 := by
      have hlow := (toNat_of_isDigit (h c List.mem_cons_self)).1
      have hzero : c.toNat ≠ 48 := fun hc => hlead (congrArg some (Char.toNat_inj.mp hc))
      omega
    calc 10 ^ ((c :: cs).length - 1) = 10 ^ cs.length * 1 := by simp
      _ ≤ 10 ^ cs.length * (c.toNat - 48) := Nat.mul_le_mul_left _ hdigit
      _ ≤ Nat.ofDigitChars 10 (c :: cs) 0 := by
        rw [ofDigitChars_cons_zero]
        exact Nat.le_add_right _ _

/-- So many digits write a number in one way only. -/
theorem eq_of_ofDigitChars_eq (hc : ∀ c ∈ cs, c.isDigit = true) (hd : ∀ d ∈ ds, d.isDigit = true)
    (hlength : cs.length = ds.length)
    (hvalue : Nat.ofDigitChars 10 cs 0 = Nat.ofDigitChars 10 ds 0) : cs = ds := by
  induction cs generalizing ds with
  | nil => exact (List.eq_nil_of_length_eq_zero hlength.symm).symm
  | cons c cs ih =>
    cases ds with
    | nil => cases hlength
    | cons d ds =>
      obtain ⟨hc, hcs⟩ := List.forall_mem_cons.mp hc
      obtain ⟨hd, hds⟩ := List.forall_mem_cons.mp hd
      have hlength : cs.length = ds.length := Nat.succ.inj hlength
      have hless := ofDigitChars_lt hcs
      have hless' := ofDigitChars_lt hds
      rw [ofDigitChars_cons_zero, ofDigitChars_cons_zero, hlength] at hvalue
      rw [hlength] at hless
      have hpos : 0 < 10 ^ ds.length := Nat.pow_pos (by decide)
      have hfirst : c.toNat - 48 = d.toNat - 48 := by
        have hquotient := congrArg (· / 10 ^ ds.length) hvalue
        simpa only [Nat.mul_add_div hpos, Nat.div_eq_of_lt hless, Nat.div_eq_of_lt hless',
          Nat.add_zero] using hquotient
      have hrest : Nat.ofDigitChars 10 cs 0 = Nat.ofDigitChars 10 ds 0 := by
        rw [hfirst] at hvalue
        exact Nat.add_left_cancel hvalue
      have hsame : c.toNat = d.toNat := by
        have hlow := (toNat_of_isDigit hc).1
        have hlow' := (toNat_of_isDigit hd).1
        omega
      rw [Char.toNat_inj.mp hsame, ih hcs hds hlength hrest]

theorem isDigit_toDigits (n : Nat) : ∀ c ∈ Nat.toDigits 10 n, c.isDigit = true :=
  fun _ hc => Nat.isDigit_of_mem_toDigits (by decide) (by decide) hc

/-- The digits of a positive number are as many as its size says. -/
theorem toDigits_bounds {n : Nat} (hn : 0 < n) :
    10 ^ ((Nat.toDigits 10 n).length - 1) ≤ n ∧ n < 10 ^ (Nat.toDigits 10 n).length := by
  have hlength : 0 < (Nat.toDigits 10 n).length := Nat.length_toDigits_pos
  refine ⟨?_, (Nat.length_toDigits_le_iff (by decide) hlength).mp (Nat.le_refl _)⟩
  by_contra hless
  rcases Nat.eq_zero_or_pos ((Nat.toDigits 10 n).length - 1) with hone | hmore
  · rw [hone] at hless
    exact hless hn
  · have hfew := (Nat.length_toDigits_le_iff (by decide) hmore).mpr (Nat.not_le.mp hless)
    omega

theorem head?_toDigits {n : Nat} (hn : 0 < n) : (Nat.toDigits 10 n).head? ≠ some '0' := by
  intro hzero
  obtain ⟨rest, hrest⟩ := List.head?_eq_some_iff.mp hzero
  have hdigits := isDigit_toDigits n
  rw [hrest] at hdigits
  have hless := ofDigitChars_lt (List.forall_mem_cons.mp hdigits).2
  have hvalue : n = Nat.ofDigitChars 10 rest 0 := by
    conv_lhs => rw [← Nat.ofDigitChars_ten_toDigits (n := n), hrest, ofDigitChars_cons_zero]
    simp
  have hlow := (toDigits_bounds hn).1
  rw [hrest, List.length_cons, Nat.add_sub_cancel] at hlow
  omega

end Number

/-! ## The notation -/

namespace Decimal

open Number

/-- The number that a decimal is. -/
def value (d : Decimal) : ℚ := d.digits * 10 ^ d.scale

/-- Digits with a point between them; none where nothing comes behind it. -/
def pointed (front fraction : List Char) : List Char :=
  front ++ if fraction.isEmpty then [] else '.' :: fraction

/-- These are the digits of a decimal before its point and behind it. -/
structure Split (d : Decimal) (front fraction : List Char) : Prop where
  digits : ∀ c ∈ front ++ fraction, c.isDigit = true
  /-- there is a digit before the point -/
  nonempty : front ≠ []
  /-- and a zero comes first only if it is the only one -/
  lead : front.head? = some '0' → front = ['0']
  places : fraction.length = (-d.scale).toNat
  value : Nat.ofDigitChars 10 (front ++ fraction) 0 = d.digits * 10 ^ d.scale.toNat

/-- The text is the decimal in plain notation. -/
def Plain (d : Decimal) (s : String) : Prop :=
  ∃ front fraction, d.Split front fraction ∧ s = String.ofList (pointed front fraction)

variable {d : Decimal} {front fraction front' fraction' : List Char} {s s' : String}

theorem Split.length_le (h : d.Split front fraction) (h' : d.Split front' fraction') :
    front'.length ≤ front.length := by
  by_contra hless
  have hnonempty := List.length_pos_iff.mpr h.nonempty
  -- the longer one does not begin with a zero, so that its number is greater
  have hlead : (front' ++ fraction').head? ≠ some '0' := by
    rw [List.head?_append, List.head?_eq_some_head h'.nonempty, Option.some_or]
    intro hzero
    rw [h'.lead ((List.head?_eq_some_head h'.nonempty).trans hzero)] at hless
    exact hless hnonempty
  have hlow := le_ofDigitChars h'.digits (by simp [h'.nonempty]) hlead
  have hhigh := ofDigitChars_lt h.digits
  rw [h'.value, ← h.value] at hlow
  have hpower := Nat.lt_of_le_of_lt hlow hhigh
  have hexponent := (Nat.pow_lt_pow_iff_right (by decide)).mp hpower
  rw [List.length_append, List.length_append, h.places, h'.places] at hexponent
  omega

/-- The digits are determined. -/
theorem Split.unique (h : d.Split front fraction) (h' : d.Split front' fraction') :
    front = front' ∧ fraction = fraction' := by
  have hlength : front.length = front'.length := Nat.le_antisymm (h'.length_le h) (h.length_le h')
  refine List.append_inj (eq_of_ofDigitChars_eq h.digits h'.digits ?_ ?_) hlength
  · rw [List.length_append, List.length_append, hlength, h.places, h'.places]
  · rw [h.value, h'.value]

/-- There is no other text in plain notation. -/
theorem Plain.unique (h : d.Plain s) (h' : d.Plain s') : s = s' := by
  obtain ⟨front, fraction, hsplit, rfl⟩ := h
  obtain ⟨front', fraction', hsplit', rfl⟩ := h'
  obtain ⟨rfl, rfl⟩ := hsplit.unique hsplit'
  rfl

/-- There is no exponent in it. -/
theorem Plain.no_exponent (h : d.Plain s) : 'e' ∉ s.toList := by
  obtain ⟨front, fraction, hsplit, rfl⟩ := h
  have hno : 'e' ∉ front ++ fraction := fun hmem => absurd (hsplit.digits 'e' hmem) (by decide)
  rw [List.mem_append, not_or] at hno
  rw [String.toList_ofList, pointed, List.mem_append, not_or]
  refine ⟨hno.1, ?_⟩
  split
  · exact List.not_mem_nil
  · exact List.not_mem_cons_of_ne_of_not_mem (by decide) hno.2

/-! ## The text of a decimal -/

theorem length_repr (n : Nat) : (Nat.repr n).length = (Nat.toDigits 10 n).length := by
  rw [← String.length_toList, Nat.toList_repr]

theorem isDigit_zeros (n : Nat) : ∀ c ∈ List.replicate n '0', c.isDigit = true := by
  intro c hc
  rw [List.eq_of_mem_replicate hc]
  rfl

/-- Zeros behind the digits of a whole number. -/
theorem split_whole (hd : 0 < d.digits) (hscale : 0 ≤ d.scale) :
    d.Split (Nat.toDigits 10 d.digits ++ List.replicate d.scale.toNat '0') [] where
  digits := by
    rw [List.append_nil]
    exact List.forall_mem_append.mpr ⟨isDigit_toDigits _, isDigit_zeros _⟩
  nonempty := by simp [Nat.toDigits_ne_nil]
  lead := by
    intro hzero
    rw [List.head?_append, List.head?_eq_some_head Nat.toDigits_ne_nil, Option.some_or,
      ← List.head?_eq_some_head] at hzero
    exact absurd hzero (head?_toDigits hd)
  places := by
    rw [List.length_nil]
    omega
  value := by
    rw [List.append_nil, Nat.ofDigitChars_append, Nat.ofDigitChars_ten_toDigits,
      Nat.ofDigitChars_replicate_zero, Nat.mul_comm]

/-- A point among the digits. -/
theorem split_within (hd : 0 < d.digits) (hscale : d.scale < 0)
    (hpoint : 0 < (Nat.toDigits 10 d.digits).length + d.scale) :
    d.Split ((Nat.toDigits 10 d.digits).take ((Nat.toDigits 10 d.digits).length + d.scale).toNat)
      ((Nat.toDigits 10 d.digits).drop ((Nat.toDigits 10 d.digits).length + d.scale).toNat) where
  digits := by
    rw [List.take_append_drop]
    exact isDigit_toDigits _
  nonempty := by
    rw [Ne, List.take_eq_nil_iff, not_or]
    exact ⟨by omega, Nat.toDigits_ne_nil⟩
  lead := by
    intro hzero
    refine absurd ?_ (head?_toDigits hd)
    rw [← List.take_append_drop ((Nat.toDigits 10 d.digits).length + d.scale).toNat
      (Nat.toDigits 10 d.digits), List.head?_append, hzero, Option.some_or]
  places := by
    rw [List.length_drop]
    omega
  value := by
    rw [List.take_append_drop, Nat.ofDigitChars_ten_toDigits, Int.toNat_of_nonpos hscale.le,
      Nat.pow_zero, Nat.mul_one]

/-- A zero before the point, and zeros ahead of the digits. -/
theorem split_below (hpoint : (Nat.toDigits 10 d.digits).length + d.scale ≤ 0) :
    d.Split ['0'] (List.replicate (-((Nat.toDigits 10 d.digits).length + d.scale)).toNat '0'
      ++ Nat.toDigits 10 d.digits) where
  digits := List.forall_mem_append.mpr
    ⟨isDigit_zeros 1, List.forall_mem_append.mpr ⟨isDigit_zeros _, isDigit_toDigits _⟩⟩
  nonempty := List.cons_ne_nil _ _
  lead _ := rfl
  places := by
    rw [List.length_append, List.length_replicate]
    omega
  value := by
    have hscale : d.scale.toNat = 0 := by omega
    have hzero : Nat.ofDigitChars 10 ['0'] 0 = 0 := rfl
    rw [Nat.ofDigitChars_append, Nat.ofDigitChars_append, Nat.ofDigitChars_replicate_zero, hzero,
      Nat.mul_zero, Nat.ofDigitChars_ten_toDigits, hscale, Nat.pow_zero, Nat.mul_one]

theorem ofList_pointed_nil (front : List Char) :
    String.ofList (pointed front []) = String.ofList front := by
  rw [pointed, List.isEmpty_nil, if_pos rfl, List.append_nil]

theorem ofList_pointed (front : List Char) (h : fraction ≠ []) :
    String.ofList (pointed front fraction) =
      String.ofList front ++ "." ++ String.ofList fraction := by
  apply String.toList_inj.mp
  simp [pointed, h]

/-- The digits in full are plain notation. -/
theorem plain_positional (hd : 0 < d.digits) : d.Plain d.positional := by
  unfold positional
  dsimp only
  rw [length_repr, Nat.toList_repr]
  split
  · next hscale =>
    refine ⟨_, _, split_whole hd hscale, ?_⟩
    rw [ofList_pointed_nil, String.ofList_append, Nat.repr_eq_ofList_toDigits]
    rfl
  · next hscale =>
    split
    · next hpoint =>
      refine ⟨_, _, split_within hd (by omega) hpoint, ?_⟩
      rw [ofList_pointed _ (by rw [Ne, List.drop_eq_nil_iff]; omega)]
    · next hpoint =>
      refine ⟨_, _, split_below (by omega), ?_⟩
      rw [ofList_pointed _ (by simp [Nat.toDigits_ne_nil]), String.ofList_append,
        Nat.repr_eq_ofList_toDigits, ← String.append_assoc]
      rfl

/-- Zero is a single digit. -/
theorem plain_zero : Plain ⟨0, 0⟩ "0" :=
  ⟨['0'], [], ⟨isDigit_zeros 1, List.cons_ne_nil _ _, fun _ => rfl, rfl, rfl⟩, rfl⟩

/-- A text with an exponent is not plain notation. -/
theorem mem_scientific : 'e' ∈ d.scientific.toList := by
  simp [scientific]

theorem not_plain_scientific : ¬ d.Plain d.scientific := fun h => h.no_exponent mem_scientific

/-! ## Where an exponent begins -/

/-- A decimal lies between two powers of ten by the place of its point. -/
theorem value_bounds (hd : 0 < d.digits) :
    10 ^ ((Nat.toDigits 10 d.digits).length + d.scale - 1) ≤ d.value ∧
      d.value < 10 ^ ((Nat.toDigits 10 d.digits).length + d.scale) := by
  obtain ⟨hlow, hhigh⟩ := toDigits_bounds hd
  have hlength : 0 < (Nat.toDigits 10 d.digits).length := Nat.length_toDigits_pos
  have hscale : (0 : ℚ) < 10 ^ d.scale := zpow_pos (by norm_num) _
  constructor
  · have hsplit : ((Nat.toDigits 10 d.digits).length + d.scale - 1 : Int) =
        ((Nat.toDigits 10 d.digits).length - 1 : Nat) + d.scale := by omega
    rw [hsplit, zpow_add₀ (by norm_num), zpow_natCast, value]
    exact mul_le_mul_of_nonneg_right (by exact_mod_cast hlow) hscale.le
  · rw [zpow_add₀ (by norm_num), zpow_natCast, value]
    exact mul_lt_mul_of_pos_right (by exact_mod_cast hhigh) hscale

theorem le_value_iff (hd : 0 < d.digits) (k : Int) :
    10 ^ k ≤ d.value ↔ k < (Nat.toDigits 10 d.digits).length + d.scale := by
  obtain ⟨hlow, hhigh⟩ := value_bounds hd
  constructor
  · intro h
    exact (zpow_lt_zpow_iff_right₀ (by norm_num)).mp (h.trans_lt hhigh)
  · intro h
    exact (zpow_le_zpow_right₀ (by norm_num) (by omega)).trans hlow

/-- **The text of a decimal is plain notation exactly if it is between `1e-6` and `1e21`.** -/
theorem plain_text_iff (hd : 0 < d.digits) :
    d.Plain d.text ↔ 10 ^ (-6 : Int) ≤ d.value ∧ d.value < 10 ^ (21 : Int) := by
  rw [← not_le, le_value_iff hd, le_value_iff hd]
  unfold text
  dsimp only
  rw [length_repr]
  split
  · next h =>
    simp only [Bool.and_eq_true, decide_eq_true_eq] at h
    exact iff_of_true (plain_positional hd) ⟨h.1, by omega⟩
  · next h =>
    simp only [Bool.and_eq_true, decide_eq_true_eq, not_and] at h
    exact iff_of_false not_plain_scientific fun ⟨hlow, hhigh⟩ => hhigh (by have := h hlow; omega)

end Decimal

/-! ## The decimal of a double -/

namespace Neighbourhood

variable {x : Neighbourhood} {d : Decimal}

theorem compareScaled_zero {b : Nat} (hb : 0 < b) (i j : Int) :
    compareScaled 0 i b j = .lt := by
  have htwo : 0 < twoTo j.toNat := Nat.pow_pos (by decide)
  have hten : 0 < tenTo (-i).toNat := Nat.pow_pos (by decide)
  rw [compareScaled, Nat.zero_mul, Nat.zero_mul, Nat.compare_eq_lt]
  exact Nat.mul_pos (Nat.mul_pos hb htwo) hten

/-- Zero reads back as no positive double. -/
theorem digits_pos_of_readsBack (hx : 0 < x.mantissa) (h : x.readsBack d = true) :
    0 < d.digits := by
  refine Nat.pos_of_ne_zero fun hzero => ?_
  have hbound : 0 < if x.narrowBelow then 4 * x.mantissa - 1 else 4 * x.mantissa - 2 := by
    split <;> omega
  simp only [readsBack, hzero, compareScaled_zero hbound] at h
  simp at h

theorem digits_pos_of_onGrid? (hx : 0 < x.mantissa) {scale : Int} (h : x.onGrid? scale = some d) :
    0 < d.digits := by
  unfold onGrid? at h
  dsimp only at h
  split at h
  · next hlower _ =>
    cases h
    exact digits_pos_of_readsBack hx hlower
  · cases h
    exact Nat.succ_pos _
  · cases h
  · next hlower _ =>
    have hpos : 0 < x.steps scale := digits_pos_of_readsBack hx hlower
    split at h
    · cases h
      exact hpos
    · cases h
      exact Nat.succ_pos _
    · cases h
      split
      · exact hpos
      · exact Nat.succ_pos _

theorem digits_pos_of_search (hx : 0 < x.mantissa) {top : Int} {n count : Nat}
    (h : x.search top n count = some d) : 0 < d.digits := by
  induction count generalizing n with
  | zero => cases h
  | succ count ih =>
    rw [search] at h
    cases hgrid : x.onGrid? (top - n) with
    | none =>
      rw [hgrid] at h
      exact ih h
    | some found =>
      rw [hgrid] at h
      cases h
      exact digits_pos_of_onGrid? hx hgrid

theorem digits_pos_withoutZeros (hd : 0 < d.digits) (count : Nat) :
    0 < (withoutZeros d count).digits := by
  induction count generalizing d with
  | zero => exact hd
  | succ count ih =>
    rw [withoutZeros]
    split
    · next h =>
      refine ih ?_
      simp only [Bool.and_eq_true, beq_iff_eq] at h
      show 0 < d.digits / 10
      omega
    · exact hd

/-- The decimal of a positive double is positive. -/
theorem digits_pos_shortest (hx : 0 < x.mantissa) : 0 < x.shortest.digits := by
  refine digits_pos_withoutZeros ?_ _
  cases hfound : x.search x.magnitude 1 17 with
  | some d => exact digits_pos_of_search hx hfound
  | none =>
    rw [Option.getD_none]
    split
    · exact Nat.mul_pos hx (Nat.pow_pos (by decide))
    · exact Nat.mul_pos hx (Nat.pow_pos (by decide))

end Neighbourhood
end Retrieval
