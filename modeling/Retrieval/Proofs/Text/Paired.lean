import Retrieval.Proofs.Text.CodePoint

/-!
# Pairs of halves

A text is paired when no half of a pair stands alone in it, and a position is a boundary when no
pair stands across it. The code points on both sides of a boundary are those of the whole text
(`Boundary.codePoints`), and a slice of a paired text between boundaries is paired (`Paired.slice`).
Texts that are made of scalar values are paired (`paired_ofCodePoints`).
-/

namespace Retrieval.Text

variable {t x y : Text} {a b c i : Nat} {u v : UInt16} {units more : List UInt16}

/-- The unit at `i` is there and the first half of a pair. -/
def leadingAt (t : Text) (i : Nat) : Bool := t[i]?.any isLeading

/-- The unit at `i` is there and the second half of a pair. -/
def trailingAt (t : Text) (i : Nat) : Bool := t[i]?.any isTrailing

/-- No half of a pair stands alone. -/
structure Paired (t : Text) : Prop where
  leading : ∀ i, t.leadingAt i = true → t.trailingAt (i + 1) = true
  trailing : ∀ i, t.trailingAt i = true → 0 < i ∧ t.leadingAt (i - 1) = true

/-- The position lies in the text or at its end, and no pair stands across it. -/
structure Boundary (t : Text) (i : Nat) : Prop where
  le_size : i ≤ t.size
  apart : 0 < i → t.leadingAt (i - 1) = true → t.trailingAt i = false

/-! ## Halves -/

theorem isLeading_iff : isLeading u = true ↔ 0xD800 ≤ u.toNat ∧ u.toNat < 0xDC00 := by
  simp [isLeading, UInt16.le_iff_toNat_le, UInt16.lt_iff_toNat_lt]

theorem isTrailing_iff : isTrailing u = true ↔ 0xDC00 ≤ u.toNat ∧ u.toNat < 0xE000 := by
  simp [isTrailing, UInt16.le_iff_toNat_le, UInt16.lt_iff_toNat_lt]

theorem isTrailing_of_isLeading (h : isLeading u = true) : isTrailing u = false := by
  rw [isLeading_iff] at h
  rw [Bool.eq_false_iff, ne_eq, isTrailing_iff]
  omega

theorem isLeading_of_isTrailing (h : isTrailing u = true) : isLeading u = false := by
  cases hlead : isLeading u with
  | false => rfl
  | true =>
    rw [isTrailing_of_isLeading hlead] at h
    cases h

theorem lt_size_of_leadingAt (h : t.leadingAt i = true) : i < t.size := by
  by_cases hi : i < t.size
  · exact hi
  · rw [leadingAt, Array.getElem?_eq_none (by omega)] at h
    cases h

theorem lt_size_of_trailingAt (h : t.trailingAt i = true) : i < t.size := by
  by_cases hi : i < t.size
  · exact hi
  · rw [trailingAt, Array.getElem?_eq_none (by omega)] at h
    cases h

/-- A blank is no first half. -/
theorem leadingAt_of_blankAt (h : t.blankAt i = true) : t.leadingAt i = false := by
  have hi := lt_size_of_blankAt h
  rw [blankAt, Array.getElem?_eq_getElem hi] at h
  rw [leadingAt, Array.getElem?_eq_getElem hi]
  cases hl : isLeading t[i] with
  | false => exact hl
  | true => simp [isBlank_of_isLeading hl] at h

/-- A blank is no second half. -/
theorem trailingAt_of_blankAt (h : t.blankAt i = true) : t.trailingAt i = false := by
  have hi := lt_size_of_blankAt h
  rw [blankAt, Array.getElem?_eq_getElem hi] at h
  rw [trailingAt, Array.getElem?_eq_getElem hi]
  cases ht : isTrailing t[i] with
  | false => exact ht
  | true => simp [isBlank_of_isTrailing ht] at h

theorem leadingAt_slice (h : a + i < b) : (t.slice a b).leadingAt i = t.leadingAt (a + i) := by
  rw [leadingAt, leadingAt, getElem?_slice h]

theorem trailingAt_slice (h : a + i < b) : (t.slice a b).trailingAt i = t.trailingAt (a + i) := by
  rw [trailingAt, trailingAt, getElem?_slice h]

/-! ## Boundaries -/

theorem boundary_zero (t : Text) : t.Boundary 0 := ⟨Nat.zero_le _, fun h => absurd h (by omega)⟩

theorem boundary_size (t : Text) : t.Boundary t.size := by
  refine ⟨Nat.le_refl _, fun _ _ => ?_⟩
  cases h : t.trailingAt t.size with
  | false => rfl
  | true => exact absurd (lt_size_of_trailingAt h) (by omega)

theorem boundary_of_trailingAt (hi : i ≤ t.size) (h : t.trailingAt i = false) : t.Boundary i :=
  ⟨hi, fun _ _ => h⟩

theorem boundary_of_leadingAt (hi : i ≤ t.size) (h : t.leadingAt (i - 1) = false) :
    t.Boundary i := by
  refine ⟨hi, fun _ hl => ?_⟩
  rw [h] at hl
  cases hl

theorem boundary_of_blankAt (h : t.blankAt i = true) : t.Boundary i :=
  boundary_of_trailingAt (Nat.le_of_lt (lt_size_of_blankAt h)) (trailingAt_of_blankAt h)

/-- Behind a blank there is a boundary. -/
theorem boundary_succ_of_blankAt (h : t.blankAt i = true) : t.Boundary (i + 1) :=
  boundary_of_leadingAt (lt_size_of_blankAt h) (leadingAt_of_blankAt h)

/-- A slice between boundaries has no half without the other. -/
theorem Paired.slice (ht : t.Paired) (ha : t.Boundary a) (hb : t.Boundary b) :
    (t.slice a b).Paired := by
  have hsize : (t.slice a b).size = b - a := size_slice hb.le_size
  constructor
  · intro i hi
    have hlt := lt_size_of_leadingAt hi
    rw [leadingAt_slice (by omega)] at hi
    have hnext := ht.leading _ hi
    by_cases hend : a + i + 1 < b
    · rw [trailingAt_slice (by omega)]
      exact hnext
    · -- the pair would stand across the end
      have heq : b = a + i + 1 := by omega
      rw [heq] at hb
      rw [hb.apart (by omega) hi] at hnext
      cases hnext
  · intro i hi
    have hlt := lt_size_of_trailingAt hi
    rw [trailingAt_slice (by omega)] at hi
    obtain ⟨hpos, hbefore⟩ := ht.trailing _ hi
    cases i with
    | zero =>
      -- the pair would stand across the start
      rw [Nat.add_zero] at hi hpos hbefore
      rw [ha.apart hpos hbefore] at hi
      cases hi
    | succ i =>
      refine ⟨Nat.succ_pos i, ?_⟩
      rw [Nat.add_sub_cancel, leadingAt_slice (by omega)]
      exact hbefore

/-- The first unit of a paired text is no second half. -/
theorem Paired.trailingAt_zero (ht : t.Paired) : t.trailingAt 0 = false := by
  cases h : t.trailingAt 0 with
  | false => rfl
  | true => exact absurd (ht.trailing 0 h).1 (by omega)

/-- Leading blanks end at a boundary. -/
theorem boundary_skipBlank (t : Text) : t.Boundary (t.skipBlank 0 t.size) := by
  rcases Nat.eq_zero_or_pos (t.skipBlank 0 t.size) with hzero | hpos
  · rw [hzero]
    exact boundary_zero t
  · have hblank := blankOn_skipBlank t 0 t.size (t.skipBlank 0 t.size - 1) (Nat.zero_le _) (by omega)
    have hnext := boundary_succ_of_blankAt hblank
    rwa [Nat.sub_add_cancel hpos] at hnext

theorem Paired.trimStart (ht : t.Paired) : t.trimStart.Paired :=
  ht.slice (boundary_skipBlank t) (boundary_size t)

/-! ## Code points on both sides -/

/-- Units that follow each other without a pair across the place where they meet. -/
def Apart (units more : List UInt16) : Prop :=
  ∀ u v, units.getLast? = some u → more.head? = some v → (isLeading u && isTrailing v) = false

theorem codePointsOnto_append (seen : List Nat) (h : Apart units more) :
    codePointsOnto seen (units ++ more) = codePointsOnto (codePointsOnto seen units) more := by
  fun_induction codePointsOnto seen units with
  | case1 => rfl
  | case2 seen u =>
    cases more with
    | nil => rfl
    | cons v rest =>
      have huv := h u v rfl rfl
      rw [List.singleton_append, codePointsOnto, if_neg (by simp [huv])]
  | case3 seen u v rest hpair ih =>
    have hrest : Apart rest more := by
      intro x y hx hy
      cases rest with
      | nil => cases hx
      | cons w rest => exact h x y hx hy
    rw [List.cons_append, List.cons_append, codePointsOnto, if_pos hpair]
    exact ih hrest
  | case4 seen u v rest hpair ih =>
    rw [List.cons_append, List.cons_append, codePointsOnto, if_neg hpair]
    exact ih h

theorem codePoints_append (h : Apart x.toList y.toList) :
    (x ++ y).codePoints = x.codePoints ++ y.codePoints := by
  rw [codePoints, Array.toList_append, codePointsOnto_append [] h, codePointsOnto_eq,
    List.reverse_append]
  rfl

/-- The code points of a slice are those in front of a boundary in it and those behind. -/
theorem Boundary.codePoints_slice (h : t.Boundary i) (ha : a ≤ i) (hb : i ≤ b) :
    (t.slice a i).codePoints ++ (t.slice i b).codePoints = (t.slice a b).codePoints := by
  have hsize : (t.slice a i).size = i - a := size_slice h.le_size
  have hapart : Apart (t.slice a i).toList (t.slice i b).toList := by
    intro u v hu hv
    rw [List.getLast?_eq_getElem?, Array.length_toList, Array.getElem?_toList, hsize] at hu
    rw [List.head?_eq_getElem?, Array.getElem?_toList] at hv
    have hlt : a < i := by
      have := (Array.getElem?_eq_some_iff.mp hu).1
      omega
    have hnext : i < b := by
      have := (Array.getElem?_eq_some_iff.mp hv).1
      simp only [slice, Array.size_extract] at this
      omega
    rw [getElem?_slice (by omega), show a + (i - a - 1) = i - 1 by omega] at hu
    rw [getElem?_slice (by omega), Nat.add_zero] at hv
    have hstands := h.apart (by omega)
    rw [leadingAt, trailingAt, hu, hv] at hstands
    cases hl : isLeading u with
    | false => rfl
    | true => simpa [hl] using hstands
  rw [← codePoints_append hapart, slice_append ha hb]

/-- The code points in front of a boundary and behind it are those of the text. -/
theorem Boundary.codePoints (h : t.Boundary i) :
    (t.slice 0 i).codePoints ++ (t.slice i t.size).codePoints = t.codePoints := by
  rw [h.codePoints_slice (Nat.zero_le i) h.le_size, slice_all]

/-! ## Putting texts together -/

theorem leadingAt_append_left (hi : i < x.size) : (x ++ y).leadingAt i = x.leadingAt i := by
  rw [leadingAt, leadingAt, Array.getElem?_append_left hi]

theorem trailingAt_append_left (hi : i < x.size) : (x ++ y).trailingAt i = x.trailingAt i := by
  rw [trailingAt, trailingAt, Array.getElem?_append_left hi]

theorem leadingAt_append_right (hi : x.size ≤ i) :
    (x ++ y).leadingAt i = y.leadingAt (i - x.size) := by
  rw [leadingAt, leadingAt, Array.getElem?_append_right hi]

theorem trailingAt_append_right (hi : x.size ≤ i) :
    (x ++ y).trailingAt i = y.trailingAt (i - x.size) := by
  rw [trailingAt, trailingAt, Array.getElem?_append_right hi]

theorem paired_empty : Paired #[] := by
  constructor
  · intro i hi
    exact absurd (lt_size_of_leadingAt hi) (Nat.not_lt_zero i)
  · intro i hi
    exact absurd (lt_size_of_trailingAt hi) (Nat.not_lt_zero i)

theorem Paired.append (hx : x.Paired) (hy : y.Paired) : (x ++ y).Paired := by
  constructor
  · intro i hi
    by_cases hlt : i < x.size
    · rw [leadingAt_append_left hlt] at hi
      have hnext := hx.leading i hi
      rw [trailingAt_append_left (lt_size_of_trailingAt hnext)]
      exact hnext
    · rw [leadingAt_append_right (by omega)] at hi
      rw [trailingAt_append_right (by omega), Nat.sub_add_comm (by omega)]
      exact hy.leading _ hi
  · intro i hi
    by_cases hlt : i < x.size
    · rw [trailingAt_append_left hlt] at hi
      obtain ⟨hpos, hbefore⟩ := hx.trailing i hi
      rw [leadingAt_append_left (by omega)]
      exact ⟨hpos, hbefore⟩
    · rw [trailingAt_append_right (by omega)] at hi
      obtain ⟨hpos, hbefore⟩ := hy.trailing _ hi
      rw [leadingAt_append_right (by omega), Nat.sub_right_comm]
      exact ⟨by omega, hbefore⟩

/-! ## Scalar values -/

/-- A code point that is no half of a pair. -/
def IsScalar (c : Nat) : Prop := c < 0xD800 ∨ (0xE000 ≤ c ∧ c < 0x110000)

instance (c : Nat) : Decidable (IsScalar c) :=
  inferInstanceAs (Decidable (c < 0xD800 ∨ (0xE000 ≤ c ∧ c < 0x110000)))

theorem toNat_toUInt16 {n : Nat} (h : n < 0x10000) : n.toUInt16.toNat = n :=
  UInt16.toNat_ofNat_of_lt' h

/-- A code point is one unit, or two halves that belong together. -/
theorem unitsOf_cases_of_lt {c : Nat} (hc : c < 0x110000) :
    (∃ u, unitsOf c = [u] ∧ u.toNat = c) ∨
      0x10000 ≤ c ∧
        ∃ u v, unitsOf c = [u, v] ∧ isLeading u = true ∧ isTrailing v = true ∧ joined u v = c := by
  by_cases hlow : c < 0x10000
  · exact Or.inl ⟨c.toUInt16, if_pos hlow, toNat_toUInt16 hlow⟩
  · obtain ⟨q, hq⟩ : ∃ q, q = (c - 0x10000) / 0x400 := ⟨_, rfl⟩
    obtain ⟨r, hr⟩ : ∃ r, r = (c - 0x10000) % 0x400 := ⟨_, rfl⟩
    have hlt : r < 0x400 := hr ▸ Nat.mod_lt _ (by decide)
    have hsum : 0x400 * q + r = c - 0x10000 := by
      rw [hq, hr]
      exact Nat.div_add_mod _ _
    have hu : (0xD800 + q).toUInt16.toNat = 0xD800 + q := toNat_toUInt16 (by omega)
    have hv : (0xDC00 + r).toUInt16.toNat = 0xDC00 + r := toNat_toUInt16 (by omega)
    refine Or.inr ⟨by omega, (0xD800 + q).toUInt16, (0xDC00 + r).toUInt16, ?_, ?_, ?_, ?_⟩
    · rw [unitsOf, if_neg hlow, hq, hr]
    · rw [isLeading_iff, hu]
      omega
    · rw [isTrailing_iff, hv]
      omega
    · unfold joined
      rw [hu, hv, Nat.add_sub_cancel_left, Nat.add_sub_cancel_left]
      omega

/-- A scalar value is one unit that is no half, or two halves that belong together. -/
theorem unitsOf_cases {c : Nat} (hc : IsScalar c) :
    (∃ u, unitsOf c = [u] ∧ u.toNat = c ∧ isLeading u = false ∧ isTrailing u = false) ∨
      ∃ u v, unitsOf c = [u, v] ∧ isLeading u = true ∧ isTrailing v = true ∧ joined u v = c := by
  rw [IsScalar] at hc
  rcases unitsOf_cases_of_lt (c := c) (by omega) with ⟨u, hunits, hu⟩ | ⟨-, hpair⟩
  · refine Or.inl ⟨u, hunits, hu, ?_, ?_⟩
    · rw [Bool.eq_false_iff, ne_eq, isLeading_iff, hu]
      omega
    · rw [Bool.eq_false_iff, ne_eq, isTrailing_iff, hu]
      omega
  · exact Or.inr hpair

theorem ofCodePoints_eq (cs : List Nat) : ofCodePoints cs = (cs.flatMap unitsOf).toArray := by
  have hfold : ∀ (cs : List Nat) (t : Text),
      cs.foldl (fun t c => (unitsOf c).foldl Array.push t) t = t ++ (cs.flatMap unitsOf).toArray := by
    intro cs
    induction cs with
    | nil => simp
    | cons c cs ih =>
      intro t
      rw [List.foldl_cons, ih]
      simp
  rw [ofCodePoints, hfold, Array.empty_append]

theorem ofCodePoints_cons (c : Nat) (cs : List Nat) :
    ofCodePoints (c :: cs) = (unitsOf c).toArray ++ ofCodePoints cs := by
  simp [ofCodePoints_eq]

theorem paired_unitsOf {c : Nat} (hc : IsScalar c) : Paired (unitsOf c).toArray := by
  rcases unitsOf_cases hc with ⟨u, hunits, _, hl, ht⟩ | ⟨u, v, hunits, hl, ht, _⟩
  · rw [hunits]
    constructor
    · rintro (_ | i) hi <;> simp [leadingAt, hl] at hi
    · rintro (_ | i) hi <;> simp [trailingAt, ht] at hi
  · rw [hunits]
    constructor
    · rintro (_ | _ | i) hi
      · simpa [trailingAt] using ht
      · simp [leadingAt, isLeading_of_isTrailing ht] at hi
      · simp [leadingAt] at hi
    · rintro (_ | _ | i) hi
      · simp [trailingAt, isTrailing_of_isLeading hl] at hi
      · simpa [leadingAt] using hl
      · simp [trailingAt] at hi

/-- A text that is made of scalar values is paired. -/
theorem paired_ofCodePoints {cs : List Nat} (h : ∀ c ∈ cs, IsScalar c) :
    (ofCodePoints cs).Paired := by
  induction cs with
  | nil => exact paired_empty
  | cons c cs ih =>
    rw [ofCodePoints_cons]
    exact (paired_unitsOf (h c (List.mem_cons_self ..))).append
      (ih fun d hd => h d (List.mem_cons_of_mem c hd))

end Retrieval.Text
