import Mathlib.Data.List.Chain
import Retrieval.Proofs.Text.Paired

/-!
# Texts as lists of code points

Every text is made of its code points, also where half of a pair stands alone in it
(`ofCodePoints_codePoints`). The other way round, code points are read back from the text that they
make as long as no first half among them is followed by a second one (`Separate.codePoints`); the
code points of a text are of this kind, and so is every run of them.
-/

namespace Retrieval.Text

variable {t : Text} {c d : Nat} {cs ds : List Nat} {u v : UInt16} {rest : List UInt16}

/-! ## A text is made of its code points -/

theorem unitsOf_toNat (u : UInt16) : unitsOf u.toNat = [u] := by
  rw [unitsOf, if_pos u.toNat_lt, Nat.toUInt16_eq, UInt16.ofNat_toNat]

theorem unitsOf_joined (hu : isLeading u = true) (hv : isTrailing v = true) :
    unitsOf (joined u v) = [u, v] := by
  rw [isLeading_iff] at hu
  rw [isTrailing_iff] at hv
  have hlow : ¬ joined u v < 0x10000 := by
    unfold joined
    omega
  have hfirst : 0xD800 + (joined u v - 0x10000) / 0x400 = u.toNat := by
    unfold joined
    omega
  have hsecond : 0xDC00 + (joined u v - 0x10000) % 0x400 = v.toNat := by
    unfold joined
    omega
  rw [unitsOf, if_neg hlow, hfirst, hsecond, Nat.toUInt16_eq, Nat.toUInt16_eq, UInt16.ofNat_toNat,
    UInt16.ofNat_toNat]

theorem flatMap_unitsOf_codePointsOnto (seen : List Nat) (units : List UInt16) :
    (codePointsOnto seen units).reverse.flatMap unitsOf = seen.reverse.flatMap unitsOf ++ units := by
  fun_induction codePointsOnto seen units with
  | case1 => simp
  | case2 seen u => simp [unitsOf_toNat]
  | case3 seen u v rest hpair ih =>
    simp only [Bool.and_eq_true] at hpair
    rw [ih]
    simp [unitsOf_joined hpair.1 hpair.2]
  | case4 seen u v rest _ ih =>
    rw [ih]
    simp [unitsOf_toNat]

/-- The units of the code points of a text are the text's. -/
theorem flatMap_unitsOf_codePoints (t : Text) : t.codePoints.flatMap unitsOf = t.toList :=
  flatMap_unitsOf_codePointsOnto [] t.toList

theorem ofCodePoints_codePoints (t : Text) : ofCodePoints t.codePoints = t := by
  rw [ofCodePoints_eq, flatMap_unitsOf_codePoints]

/-- A text with a unit has a code point. -/
theorem length_codePoints_pos {t : Text} (h : 0 < t.size) : 0 < t.codePoints.length := by
  rw [List.length_pos_iff]
  intro hnil
  have hempty := ofCodePoints_codePoints t
  rw [hnil] at hempty
  have hzero : t.size = 0 := by
    rw [← hempty]
    rfl
  omega

theorem ofCodePoints_append (cs ds : List Nat) :
    ofCodePoints (cs ++ ds) = ofCodePoints cs ++ ofCodePoints ds := by
  simp [ofCodePoints_eq]

/-! ## What reads back -/

/-- Code points below the limit, in which no first half of a pair stands before a second one. -/
structure Separate (cs : List Nat) : Prop where
  lt : ∀ c ∈ cs, c < 0x110000
  apart : cs.IsChain fun c d => ¬ (0xD800 ≤ c ∧ c < 0xDC00 ∧ 0xDC00 ≤ d ∧ d < 0xE000)

theorem Separate.of_isInfix (h : Separate ds) (hcs : cs <:+: ds) : Separate cs :=
  ⟨fun c hc => h.lt c (hcs.subset hc), List.IsChain.infix h.apart hcs⟩

theorem codePoints_cons_cons (u v : UInt16) (rest : List UInt16) :
    codePoints (u :: v :: rest).toArray =
      if isLeading u && isTrailing v then joined u v :: codePoints rest.toArray
      else u.toNat :: codePoints (v :: rest).toArray := by
  simp only [codePoints]
  rw [codePointsOnto]
  split
  · rw [codePointsOnto_eq, List.reverse_append]
    rfl
  · rw [codePointsOnto_eq, List.reverse_append]
    rfl

theorem le_joined (u v : UInt16) : 0x10000 ≤ joined u v :=
  Nat.le_trans (Nat.le_add_right ..) (Nat.le_add_right ..)

theorem joined_lt (hu : isLeading u = true) (hv : isTrailing v = true) : joined u v < 0x110000 := by
  rw [isLeading_iff] at hu
  rw [isTrailing_iff] at hv
  unfold joined
  omega

/-- The first code point is the first unit, or lies above all halves. -/
theorem head_codePoints (hc : (codePoints (u :: rest).toArray).head? = some c) :
    c = u.toNat ∨ 0x10000 ≤ c := by
  cases rest with
  | nil => exact Or.inl (Option.some.inj hc).symm
  | cons v rest =>
    rw [codePoints_cons_cons] at hc
    split at hc
    · exact Or.inr (Option.some.inj hc ▸ le_joined u v)
    · exact Or.inl (Option.some.inj hc).symm

theorem separate_nil : Separate [] := by
  constructor
  · intro c hc
    cases hc
  · exact List.isChain_nil

/-- One more code point in front: what follows it is no second half where it is a first one. -/
theorem Separate.cons (h : Separate cs) (hc : c < 0x110000)
    (hapart : ∀ d, cs.head? = some d → ¬ (0xD800 ≤ c ∧ c < 0xDC00 ∧ 0xDC00 ≤ d ∧ d < 0xE000)) :
    Separate (c :: cs) := by
  constructor
  · intro d hd
    rcases List.mem_cons.mp hd with rfl | hd
    · exact hc
    · exact h.lt d hd
  · exact List.isChain_cons.mpr ⟨hapart, h.apart⟩

theorem separate_codePoints_toArray : ∀ units : List UInt16, Separate (codePoints units.toArray)
  | [] => separate_nil
  | [u] => separate_nil.cons (Nat.lt_trans u.toNat_lt (by decide)) fun _ hd => nomatch hd
  | u :: v :: rest => by
    rw [codePoints_cons_cons]
    split
    · next hpair =>
      simp only [Bool.and_eq_true] at hpair
      have hle := le_joined u v
      refine (separate_codePoints_toArray rest).cons (joined_lt hpair.1 hpair.2) ?_
      intro d _ hhalves
      omega
    · next hpair =>
      simp only [Bool.and_eq_true, isLeading_iff, isTrailing_iff] at hpair
      refine (separate_codePoints_toArray (v :: rest)).cons
        (Nat.lt_trans u.toNat_lt (by decide)) ?_
      -- the unit that follows is no second half, or a pair begins with it
      intro d hd hhalves
      rcases head_codePoints hd with rfl | hlarge <;> omega

theorem separate_codePoints (t : Text) : Separate t.codePoints := separate_codePoints_toArray t.toList

theorem codePoints_unitsOf (hc : c < 0x110000) : codePoints (unitsOf c).toArray = [c] := by
  rcases unitsOf_cases_of_lt hc with ⟨u, hunits, hu⟩ | ⟨_, u, v, hunits, hl, ht, hjoined⟩
  · simp [codePoints, codePointsOnto, hunits, hu]
  · simp [codePoints, codePointsOnto, hunits, hl, ht, hjoined]

/-- Code points that are not read as one stay apart in the text that they make. -/
theorem apart_unitsOf (hc : c < 0x110000) (h : Separate (c :: cs)) :
    Apart (unitsOf c) (ofCodePoints cs).toList := by
  intro u v hu hv
  cases cs with
  | nil => cases hv
  | cons d cs =>
    have hd : d < 0x110000 := h.lt d (List.mem_cons_of_mem c (List.mem_cons_self ..))
    have hcd := (List.isChain_cons_cons.mp h.apart).1
    rw [ofCodePoints_cons, Array.toList_append] at hv
    rcases unitsOf_cases_of_lt hc with ⟨w, hunits, hw⟩ | ⟨_, _, w, hunits, _, ht, _⟩
    · rw [hunits, List.getLast?_singleton, Option.some.injEq] at hu
      subst hu
      rcases unitsOf_cases_of_lt hd with ⟨x, hunits', hx⟩ | ⟨_, x, _, hunits', hl, _⟩
      · rw [hunits'] at hv
        cases hv
        rw [Bool.eq_false_iff, ne_eq, Bool.and_eq_true, isLeading_iff, isTrailing_iff, hw, hx]
        omega
      · rw [hunits'] at hv
        cases hv
        rw [isTrailing_of_isLeading hl, Bool.and_false]
    · rw [hunits, List.getLast?_cons_cons, List.getLast?_singleton, Option.some.injEq] at hu
      rw [← hu, isLeading_of_isTrailing ht, Bool.false_and]

/-- **Code points read back** where none of them can be read together with the next one. -/
theorem Separate.codePoints (h : Separate cs) : (ofCodePoints cs).codePoints = cs := by
  induction cs with
  | nil => rfl
  | cons c cs ih =>
    have hc : c < 0x110000 := h.lt c (List.mem_cons_self ..)
    have hrest : Separate cs := h.of_isInfix (List.infix_cons (List.infix_refl cs))
    rw [ofCodePoints_cons, codePoints_append (x := (unitsOf c).toArray) (apart_unitsOf hc h),
      codePoints_unitsOf hc, ih hrest, List.singleton_append]

/-- Any run of the code points of a text reads back. -/
theorem codePoints_ofCodePoints_of_infix (h : cs <:+: t.codePoints) :
    (ofCodePoints cs).codePoints = cs :=
  ((separate_codePoints t).of_isInfix h).codePoints

/-- A text that is made of scalar values reads back as these. -/
theorem codePoints_ofCodePoints (h : ∀ c ∈ cs, IsScalar c) : (ofCodePoints cs).codePoints = cs := by
  apply Separate.codePoints
  constructor
  · intro c hc
    have := h c hc
    rw [IsScalar] at this
    omega
  · refine List.Pairwise.isChain (List.pairwise_of_forall_mem_list fun c hc d _ hhalves => ?_)
    have := h c hc
    rw [IsScalar] at this
    omega

end Retrieval.Text
