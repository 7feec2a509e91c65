import Retrieval.Text.Blank

/-!
# Blanks and slices

Where blanks stand in a text, what the two scans over blanks find, and what a slice keeps.
`Text.trim` states trimming on the units alone; `trim_pad` says that it removes any blanks around a
text that begins and ends without one.
-/

namespace Retrieval.Text

variable {t u m v : Text} {a b c i : Nat}

/-! ## Slices -/

theorem size_slice (h : b ≤ t.size) : (t.slice a b).size = b - a := by
  rw [slice, Array.size_extract, Nat.min_eq_left h]

theorem slice_append (h₁ : a ≤ b) (h₂ : b ≤ c) : t.slice a b ++ t.slice b c = t.slice a c := by
  simp only [slice, Array.extract_append_extract]
  rw [Nat.min_eq_left h₁, Nat.max_eq_right h₂]

theorem slice_slice (h : a + b ≤ c) : (t.slice a c).slice i b = t.slice (a + i) (a + b) := by
  simp only [slice, Array.extract_extract]
  rw [Nat.min_eq_left h]

/-- What a slice begins with stands where it begins. -/
theorem slice_front (hab : a ≤ b) (h : t.slice a b = u ++ v) : t.slice a (a + u.size) = u := by
  have hsize := congrArg Array.size h
  rw [slice, Array.size_extract, Array.size_append] at hsize
  have hsub := slice_slice (t := t) (a := a) (i := 0) (b := u.size) (c := b) (by omega)
  rw [h, Nat.add_zero] at hsub
  rw [← hsub]
  simp [slice]

/-- What a slice ends with stands where it ends. -/
theorem slice_back (hab : a ≤ b) (hb : b ≤ t.size) (h : t.slice a b = u ++ v) :
    t.slice (b - v.size) b = v := by
  have hsize := congrArg Array.size h
  rw [size_slice hb, Array.size_append] at hsize
  have hsub := slice_slice (t := t) (a := a) (i := u.size) (b := u.size + v.size) (c := b) (by omega)
  rw [h, show a + u.size = b - v.size by omega, show a + (u.size + v.size) = b by omega] at hsub
  rw [← hsub]
  simp [slice]

theorem slice_all : t.slice 0 t.size = t := Array.extract_size

theorem getElem?_slice (h : a + i < b) : (t.slice a b)[i]? = t[a + i]? := by
  rw [slice, Array.getElem?_extract]
  by_cases ht : a + i < t.size
  · rw [if_pos (by omega)]
  · rw [if_neg (by omega), Array.getElem?_eq_none (by omega)]

theorem blankAt_slice (h : a + i < b) : (t.slice a b).blankAt i = t.blankAt (a + i) := by
  rw [blankAt, blankAt, getElem?_slice h]

/-! ## Runs of blanks -/

/-- Every unit in `[a, b)` is there and blank. -/
def BlankOn (t : Text) (a b : Nat) : Prop := ∀ i, a ≤ i → i < b → t.blankAt i = true

instance (t : Text) (a b : Nat) : Decidable (t.BlankOn a b) :=
  decidable_of_iff (∀ i, i < b → a ≤ i → t.blankAt i = true)
    ⟨fun h i ha hb => h i hb ha, fun h i hb ha => h i ha hb⟩

theorem BlankOn.of_le (h : b ≤ a) : t.BlankOn a b := by
  intro i ha hb
  omega

theorem BlankOn.trans (h₁ : t.BlankOn a b) (h₂ : t.BlankOn b c) : t.BlankOn a c := by
  intro i ha hc
  by_cases hi : i < b
  · exact h₁ i ha hi
  · exact h₂ i (by omega) hc

theorem lt_size_of_blankAt (h : t.blankAt i = true) : i < t.size := by
  by_cases hi : i < t.size
  · exact hi
  · rw [blankAt, Array.getElem?_eq_none (by omega)] at h
    cases h

theorem BlankOn.le_size (h : t.BlankOn a b) (hab : a < b) : b ≤ t.size := by
  have := lt_size_of_blankAt (h (b - 1) (by omega) (by omega))
  omega

/-- The slice over a run of blanks has blank units only. -/
theorem BlankOn.isBlank_of_mem (h : t.BlankOn a b) {x : UInt16} (hx : x ∈ (t.slice a b).toList) :
    isBlank x = true := by
  obtain ⟨i, hi, rfl⟩ := List.getElem_of_mem hx
  have hlt : i < (t.slice a b).size := by simpa using hi
  have hb : a + i < b := by
    simp only [slice, Array.size_extract] at hlt
    omega
  have hblank : (t.slice a b).blankAt i = true := by
    rw [blankAt_slice hb]
    exact h _ (by omega) hb
  rw [blankAt, Array.getElem?_eq_getElem hlt] at hblank
  simpa using hblank

/-! ## The two scans -/

theorem le_skipBlank (t : Text) (a b : Nat) : a ≤ t.skipBlank a b := by
  fun_induction skipBlank t a b with
  | case1 a _ ih => omega
  | case2 => exact Nat.le_refl _

theorem skipBlank_le (h : a ≤ b) : t.skipBlank a b ≤ b := by
  fun_induction skipBlank t a b with
  | case1 a hc ih =>
    simp only [Bool.and_eq_true, decide_eq_true_eq] at hc
    exact ih (by omega)
  | case2 => exact h

theorem blankOn_skipBlank (t : Text) (a b : Nat) : t.BlankOn a (t.skipBlank a b) := by
  fun_induction skipBlank t a b with
  | case1 a hc ih =>
    simp only [Bool.and_eq_true] at hc
    intro i ha hi
    rcases Nat.eq_or_lt_of_le ha with rfl | hlt
    · exact hc.2
    · exact ih i hlt hi
  | case2 => exact BlankOn.of_le (Nat.le_refl _)

theorem blankAt_skipBlank (h : t.skipBlank a b < b) : t.blankAt (t.skipBlank a b) = false := by
  fun_induction skipBlank t a b with
  | case1 a _ ih => exact ih h
  | case2 a hc => simpa [h] using hc

theorem dropBlank_le (t : Text) (a b : Nat) : t.dropBlank a b ≤ b := by
  induction b with
  | zero => exact Nat.le_refl _
  | succ b ih =>
    rw [dropBlank]
    split <;> omega

theorem blankOn_dropBlank (t : Text) (a b : Nat) : t.BlankOn (t.dropBlank a b) b := by
  induction b with
  | zero => exact BlankOn.of_le (Nat.zero_le _)
  | succ b ih =>
    rw [dropBlank]
    split
    · next hc =>
      simp only [Bool.and_eq_true] at hc
      intro i hi hb
      rcases Nat.eq_or_lt_of_le (Nat.le_of_lt_succ hb) with rfl | hlt
      · exact hc.2
      · exact ih i hi hlt
    · exact BlankOn.of_le (Nat.le_refl _)

theorem blankAt_dropBlank (h : a < t.dropBlank a b) :
    t.blankAt (t.dropBlank a b - 1) = false := by
  induction b with
  | zero => simp [dropBlank] at h
  | succ b ih =>
    rw [dropBlank] at h ⊢
    split at h
    · next hc =>
      rw [if_pos hc]
      exact ih h
    · next hc =>
      rw [if_neg hc]
      simpa [h] using hc

/-! ## Texts without blanks at their ends -/

/-- The text is not empty and has no blank at either end. -/
structure Tight (t : Text) : Prop where
  size_pos : 0 < t.size
  first : t.blankAt 0 = false
  last : t.blankAt (t.size - 1) = false

/-- The units without the blanks at either end. -/
def trim (t : Text) : Text :=
  ((t.toList.dropWhile isBlank).reverse.dropWhile isBlank).reverse.toArray

theorem dropWhile_of_head {l : List UInt16} (h : l.head?.any isBlank = false) :
    l.dropWhile isBlank = l := by
  cases l with
  | nil => rfl
  | cons x l =>
    have hx : isBlank x = false := by simpa using h
    simp [hx]

theorem Tight.head (h : m.Tight) : m.toList.head?.any isBlank = false := by
  rw [← h.first, blankAt, List.head?_eq_getElem?, Array.getElem?_toList]

theorem Tight.head_reverse (h : m.Tight) : m.toList.reverse.head?.any isBlank = false := by
  rw [← h.last, blankAt, List.head?_reverse, List.getLast?_eq_getElem?, Array.getElem?_toList,
    Array.length_toList]

/-- Trimming gives back a text without blanks at its ends from any blanks around it. -/
theorem trim_pad (hu : ∀ x ∈ u.toList, isBlank x = true) (hv : ∀ x ∈ v.toList, isBlank x = true)
    (hm : m.Tight) : (u ++ m ++ v).trim = m := by
  have hne : m.toList ≠ [] := by
    have := hm.size_pos
    intro h
    simp [← Array.length_toList, h] at this
  have front : (m ++ v).toList.dropWhile isBlank = m.toList ++ v.toList := by
    rw [Array.toList_append]
    apply dropWhile_of_head
    have : (m.toList ++ v.toList).head? = m.toList.head? := by
      cases hl : m.toList with
      | nil => exact absurd hl hne
      | cons x l => rfl
    rw [this]
    exact hm.head
  have back : (m.toList ++ v.toList).reverse.dropWhile isBlank = m.toList.reverse := by
    rw [List.reverse_append, List.dropWhile_append_of_pos (by simpa using hv)]
    exact dropWhile_of_head hm.head_reverse
  rw [trim, Array.append_assoc, Array.toList_append, List.dropWhile_append_of_pos hu, front, back,
    List.reverse_reverse]

/-! ## What can be seen -/

def visible (t : Text) : List UInt16 := t.toList.filter fun u => !isBlank u

theorem visible_append (u v : Text) : (u ++ v).visible = u.visible ++ v.visible := by
  simp [visible]

theorem BlankOn.visible_slice (h : t.BlankOn a b) : (t.slice a b).visible = [] := by
  rw [visible, List.filter_eq_nil_iff]
  intro x hx
  simp [h.isBlank_of_mem hx]

end Retrieval.Text
