import Retrieval.Proofs.Text.Blank
import Retrieval.Tokenizer.Basic

/-!
# Code points

Where one code point stands in a text, that no half of a pair is blank, and how counts of code
points compare: two texts together have no more than each by itself (`length_codePoints_append`), and
a trimmed text has no more than before (`length_codePoints_trim_le`). These are the costs of the
tokenizer with one token for each code point.
-/

namespace Retrieval.Text

variable {t : Text} {i j : Nat} {u v : UInt16}

/-- One code point stands in `[i, j)`: a single unit, or two halves that belong together. -/
def PointAt (t : Text) (i j : Nat) : Prop :=
  (j = i + 1 ∧ i < t.size) ∨
    (j = i + 2 ∧ ∃ u v, t[i]? = some u ∧ t[i + 1]? = some v ∧ isLeading u ∧ isTrailing v)

theorem isBlank_of_isLeading (h : isLeading u = true) : isBlank u = false := by
  simp only [isLeading, Bool.and_eq_true, decide_eq_true_eq, UInt16.le_iff_toNat_le,
    UInt16.lt_iff_toNat_lt, UInt16.reduceToNat] at h
  simp only [isBlank, isBlankPoint, Bool.or_eq_false_iff, Bool.and_eq_false_iff,
    decide_eq_false_iff_not, beq_eq_false_iff_ne]
  omega

theorem isBlank_of_isTrailing (h : isTrailing u = true) : isBlank u = false := by
  simp only [isTrailing, Bool.and_eq_true, decide_eq_true_eq, UInt16.le_iff_toNat_le,
    UInt16.lt_iff_toNat_lt, UInt16.reduceToNat] at h
  simp only [isBlank, isBlankPoint, Bool.or_eq_false_iff, Bool.and_eq_false_iff,
    decide_eq_false_iff_not, beq_eq_false_iff_ne]
  omega

theorem PointAt.single (hu : t[i]? = some u) : t.PointAt i (i + 1) := by
  obtain ⟨hi, _⟩ := Array.getElem?_eq_some_iff.mp hu
  exact Or.inl ⟨rfl, hi⟩

theorem PointAt.lt (h : t.PointAt i j) : i < j := by
  rcases h with ⟨rfl, _⟩ | ⟨rfl, _⟩ <;> omega

theorem PointAt.le_size (h : t.PointAt i j) : j ≤ t.size := by
  rcases h with ⟨rfl, hi⟩ | ⟨rfl, u, v, _, hv, _⟩
  · exact hi
  · obtain ⟨hi, _⟩ := Array.getElem?_eq_some_iff.mp hv
    exact hi

theorem slice_one (hu : t[i]? = some u) : t.slice i (i + 1) = #[u] := by
  obtain ⟨hi, rfl⟩ := Array.getElem?_eq_some_iff.mp hu
  apply Array.ext
  · rw [size_slice (by omega)]
    simp
  · intro k hk hk'
    have : k = 0 := by simpa using hk'
    subst this
    simp [slice]

theorem PointAt.codePoints (h : t.PointAt i j) : (t.slice i j).codePoints.length = 1 := by
  rcases h with ⟨rfl, hi⟩ | ⟨rfl, u, v, hu, hv, hl, ht⟩
  · rw [slice_one (Array.getElem?_eq_getElem hi)]
    rfl
  · rw [← slice_append (Nat.le_succ i) (Nat.le_succ (i + 1)), slice_one hu, slice_one hv]
    simp [Text.codePoints, codePointsOnto, hl, ht]

/-- A code point that is two units long has no blank at either end. -/
theorem PointAt.not_blank (h : t.PointAt i j) (hij : i + 1 < j) :
    t.blankAt i = false ∧ t.blankAt (j - 1) = false := by
  rcases h with ⟨rfl, _⟩ | ⟨rfl, u, v, hu, hv, hl, ht⟩
  · omega
  · constructor
    · simp [blankAt, hu, isBlank_of_isLeading hl]
    · simp [blankAt, hv, isBlank_of_isTrailing ht]

/-! ## Counting -/

/-- What was seen before stays behind what is found now. -/
theorem codePointsOnto_eq : ∀ (seen : List Nat) (units : List UInt16),
    codePointsOnto seen units = codePointsOnto [] units ++ seen
  | _, [] => rfl
  | _, [_] => rfl
  | seen, u :: v :: rest => by
    rw [codePointsOnto, codePointsOnto]
    split
    · rw [codePointsOnto_eq (joined u v :: seen), codePointsOnto_eq [joined u v],
        List.append_assoc, List.singleton_append]
    · rw [codePointsOnto_eq (u.toNat :: seen), codePointsOnto_eq [u.toNat], List.append_assoc,
        List.singleton_append]

theorem length_codePointsOnto (units : List UInt16) (seen : List Nat) :
    (codePointsOnto seen units).length = seen.length + (codePointsOnto [] units).length := by
  rw [codePointsOnto_eq, List.length_append, Nat.add_comm]

/-- How many code points a run of units holds. -/
def pointCount (units : List UInt16) : Nat := (codePointsOnto [] units).length

theorem pointCount_cons_cons (u v : UInt16) (rest : List UInt16) :
    pointCount (u :: v :: rest) =
      1 + if isLeading u && isTrailing v then pointCount rest else pointCount (v :: rest) := by
  rw [pointCount, codePointsOnto]
  split
  · exact length_codePointsOnto rest _
  · exact length_codePointsOnto (v :: rest) _

/-- One more unit in front adds one code point, or completes a pair and adds none. -/
theorem pointCount_cons_bounds (u : UInt16) (units : List UInt16) :
    pointCount units ≤ pointCount (u :: units) ∧ pointCount (u :: units) ≤ 1 + pointCount units := by
  induction units generalizing u with
  | nil => exact ⟨Nat.zero_le _, Nat.le_refl _⟩
  | cons v rest ih =>
    have hv := ih v
    rw [pointCount_cons_cons]
    split <;> omega

theorem pointCount_append_le : ∀ units more : List UInt16,
    pointCount (units ++ more) ≤ pointCount units + pointCount more
  | [], more => by simp [pointCount, codePointsOnto]
  | [u], more => (pointCount_cons_bounds u more).2
  | u :: v :: rest, more => by
    rw [List.cons_append, List.cons_append, pointCount_cons_cons, pointCount_cons_cons]
    have hrest := pointCount_append_le rest more
    have hcons := pointCount_append_le (v :: rest) more
    rw [List.cons_append] at hcons
    split <;> omega

theorem pointCount_le_append_right (units more : List UInt16) :
    pointCount more ≤ pointCount (units ++ more) := by
  induction units with
  | nil => exact Nat.le_refl _
  | cons u rest ih => exact Nat.le_trans ih (pointCount_cons_bounds u (rest ++ more)).1

theorem pointCount_le_append_left : ∀ units more : List UInt16,
    pointCount units ≤ pointCount (units ++ more)
  | [], _ => Nat.zero_le _
  | [u], more => by
    have hone : 1 ≤ pointCount (u :: more) := by
      cases more with
      | nil => exact Nat.le_refl 1
      | cons v rest =>
        rw [pointCount_cons_cons]
        omega
    exact hone
  | u :: v :: rest, more => by
    rw [List.cons_append, List.cons_append, pointCount_cons_cons, pointCount_cons_cons]
    have hrest := pointCount_le_append_left rest more
    have hcons := pointCount_le_append_left (v :: rest) more
    rw [List.cons_append] at hcons
    split <;> omega

theorem length_codePoints (t : Text) : t.codePoints.length = pointCount t.toList := by
  rw [codePoints, List.length_reverse, pointCount]

theorem length_codePoints_append (x y : Text) :
    (x ++ y).codePoints.length ≤ x.codePoints.length + y.codePoints.length := by
  rw [length_codePoints, length_codePoints, length_codePoints, Array.toList_append]
  exact pointCount_append_le x.toList y.toList

theorem length_codePoints_trim_le (t : Text) : t.trim.codePoints.length ≤ t.codePoints.length := by
  obtain ⟨front, hfront⟩ := List.dropWhile_suffix isBlank (l := t.toList)
  obtain ⟨back, hback⟩ := List.dropWhile_suffix isBlank (l := (t.toList.dropWhile isBlank).reverse)
  have hsplit : t.toList.dropWhile isBlank = t.trim.toList ++ back.reverse := by
    rw [trim, ← List.reverse_append, hback, List.reverse_reverse]
  rw [length_codePoints, length_codePoints]
  calc pointCount t.trim.toList
    _ ≤ pointCount (t.trim.toList ++ back.reverse) := pointCount_le_append_left _ _
    _ = pointCount (t.toList.dropWhile isBlank) := by rw [hsplit]
    _ ≤ pointCount (front ++ t.toList.dropWhile isBlank) := pointCount_le_append_right _ _
    _ = pointCount t.toList := by rw [hfront]

end Retrieval.Text

namespace Retrieval.Tokenizer

theorem count_codePoint (t : Text) : codePoint.count t = t.codePoints.length := by
  rw [count]
  split
  · next hempty =>
    have hnil : t = #[] := by simpa using hempty
    rw [hnil]
    rfl
  · rfl

end Retrieval.Tokenizer
