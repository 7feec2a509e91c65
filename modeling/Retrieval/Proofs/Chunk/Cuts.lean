import Mathlib.Order.Bounds.Defs
import Retrieval.Proofs.Chunk.Bound
import Retrieval.Proofs.Chunk.Padding
import Retrieval.Proofs.Text.Points

/-!
# Cuts are the longest that fit

Where no separator is left, a span is cut between code points. `cuts_longest`: whatever the
tokenizer does, the cuts follow each other without a gap, hold every code point of the span once,
and cost no more than the budget unless they are a single code point; what comes out of them is
their trimmed form. If no text costs less than a text that it begins with, each cut is the longest
that fits. The search for its end is then exact (`lastFit_spec`), because what does not fit at the
middle does not fit behind it either.
-/

namespace Retrieval

/-- No text costs less than a text that it begins with. -/
def Tokenizer.PrefixMonotone (tok : Tokenizer) : Prop :=
  ∀ x y : Text, tok.count x ≤ tok.count (x ++ y)

theorem Tokenizer.codePoint_prefixMonotone : Tokenizer.codePoint.PrefixMonotone := by
  intro x y
  rw [Tokenizer.count_codePoint, Tokenizer.count_codePoint, Text.length_codePoints,
    Text.length_codePoints, Array.toList_append]
  exact Text.pointCount_le_append_left x.toList y.toList

namespace Text

variable {t : Text} {a b c i : Nat}

/-- A slice of a slice, counted from the front of the text. -/
theorem slice_slice_of_le_size (h : b ≤ (t.slice a c).size) :
    (t.slice a c).slice i b = t.slice (a + i) (a + b) := by
  rcases Nat.lt_or_ge c a with hlt | hle
  · have hzero : (t.slice a c).size = 0 := by
      rw [slice, Array.size_extract]
      omega
    have hleft : ((t.slice a c).slice i b).size = 0 := by
      rw [slice, Array.size_extract]
      omega
    have hright : (t.slice (a + i) (a + b)).size = 0 := by
      rw [slice, Array.size_extract]
      omega
    rw [Array.eq_empty_of_size_eq_zero hleft, Array.eq_empty_of_size_eq_zero hright]
  · rw [slice, Array.size_extract] at h
    exact slice_slice (by omega)

/-- The end of a slice may be beyond the text. -/
theorem slice_min_size : t.slice a (min b t.size) = t.slice a b := by
  rcases Nat.le_total b t.size with hle | hle
  · rw [Nat.min_eq_left hle]
  · rw [Nat.min_eq_right hle]
    apply Array.ext_getElem?
    intro k
    rw [slice, slice, Array.getElem?_extract, Array.getElem?_extract, Nat.min_self,
      Nat.min_eq_right hle]

end Text

theorem Tokenizer.PrefixMonotone.take_le {tok : Tokenizer} (hmono : tok.PrefixMonotone)
    (cs : List Nat) {m n : Nat}
    (h : m ≤ n) :
    tok.count (Text.ofCodePoints (cs.take m)) ≤ tok.count (Text.ofCodePoints (cs.take n)) := by
  have hsplit : cs.take n = cs.take m ++ (cs.drop m).take (n - m) := by
    rw [← List.take_add, Nat.add_sub_cancel' h]
  rw [hsplit, Text.ofCodePoints_append]
  exact hmono _ _

namespace Span

variable {tok : Tokenizer} {src : Text} {budget i j n : Nat} {s r : Span} {c : Nat}
variable {cs : List Nat} {bounds : Array Nat} {fits : Nat → Bool} {low high best : Nat}

/-! ## Where code points end -/

/-- How many units the first `n` of some code points take. -/
def extent (cs : List Nat) (n : Nat) : Nat := (Text.ofCodePoints (cs.take n)).size

theorem extent_zero (cs : List Nat) : extent cs 0 = 0 := by
  rw [extent, List.take_zero]
  rfl

theorem extent_cons (c : Nat) (cs : List Nat) (n : Nat) :
    extent (c :: cs) (n + 1) = (Text.unitsOf c).length + extent cs n := by
  rw [extent, List.take_succ_cons, Text.ofCodePoints_cons, Array.size_append, List.size_toArray,
    extent]

/-- The code points end where as many units as they take have passed. -/
theorem getElem?_codePointEnds (pos : Nat) (units : List UInt16)
    (h : n ≤ (Text.codePoints units.toArray).length) :
    (pos :: codePointEnds pos units)[n]? =
      some (pos + extent (Text.codePoints units.toArray) n) := by
  fun_induction codePointEnds pos units generalizing n with
  | case1 pos =>
    obtain rfl : n = 0 := Nat.le_zero.mp h
    rfl
  | case2 pos u =>
    have hone : Text.codePoints [u].toArray = [u.toNat] := rfl
    rw [hone] at h ⊢
    cases n with
    | zero => rw [extent_zero]; rfl
    | succ n =>
      obtain rfl : n = 0 := by simpa using h
      rw [extent_cons, Text.unitsOf_toNat, extent_zero]
      rfl
  | case3 pos u v rest hpair ih =>
    rw [Text.codePoints_cons_cons, if_pos hpair] at h ⊢
    cases n with
    | zero => rw [extent_zero]; rfl
    | succ n =>
      simp only [Bool.and_eq_true] at hpair
      rw [List.getElem?_cons_succ, ih (Nat.le_of_succ_le_succ h), extent_cons,
        Text.unitsOf_joined hpair.1 hpair.2, Nat.add_assoc]
      rfl
  | case4 pos u v rest hpair ih =>
    rw [Text.codePoints_cons_cons, if_neg hpair] at h ⊢
    cases n with
    | zero => rw [extent_zero]; rfl
    | succ n =>
      rw [List.getElem?_cons_succ, ih (Nat.le_of_succ_le_succ h), extent_cons, Text.unitsOf_toNat,
        Nat.add_assoc]
      rfl

theorem length_codePointEnds (pos : Nat) (units : List UInt16) :
    (codePointEnds pos units).length = (Text.codePoints units.toArray).length := by
  fun_induction codePointEnds pos units with
  | case1 => rfl
  | case2 => rfl
  | case3 pos u v rest hpair ih =>
    rw [Text.codePoints_cons_cons, if_pos hpair, List.length_cons, List.length_cons, ih]
  | case4 pos u v rest hpair ih =>
    rw [Text.codePoints_cons_cons, if_neg hpair, List.length_cons, List.length_cons, ih]

theorem size_boundaries (src : Text) (s : Span) :
    (boundaries src s).size = (s.text src).codePoints.length + 1 := by
  rw [boundaries, List.size_toArray, List.length_cons, length_codePointEnds]

theorem boundaries_getD (h : j < (boundaries src s).size) :
    (boundaries src s).getD j 0 = s.start + extent (s.text src).codePoints j := by
  rw [size_boundaries] at h
  rw [Array.getD_eq_getD_getElem?, boundaries, List.getElem?_toArray,
    getElem?_codePointEnds s.start (s.text src).toList (Nat.le_of_lt_succ h), Option.getD_some]

/-- The text between two boundaries is made of the code points between them. -/
theorem text_between (hij : i ≤ j) (hj : j < (boundaries src s).size) :
    (between (boundaries src s) i j).text src =
      Text.ofCodePoints (((s.text src).codePoints.drop i).take (j - i)) := by
  obtain ⟨cs, hcs⟩ : ∃ cs, cs = (s.text src).codePoints := ⟨_, rfl⟩
  have hfront : cs.take j = cs.take i ++ (cs.drop i).take (j - i) := by
    rw [← List.take_add, Nat.add_sub_cancel' hij]
  have htext : s.text src = Text.ofCodePoints (cs.take i) ++
      Text.ofCodePoints ((cs.drop i).take (j - i)) ++ Text.ofCodePoints (cs.drop j) := by
    rw [← Text.ofCodePoints_append, ← hfront, ← Text.ofCodePoints_append, List.take_append_drop,
      hcs, Text.ofCodePoints_codePoints]
  have hextent : extent cs j =
      (Text.ofCodePoints ((cs.drop i).take (j - i))).size + extent cs i := by
    rw [extent, hfront, Text.ofCodePoints_append, Array.size_append, Nat.add_comm, extent]
  have hle : extent cs j ≤ (s.text src).size := by
    rw [htext, Array.size_append, Array.size_append, hextent, extent]
    omega
  have hslice : (s.text src).slice (extent cs i) (extent cs j) =
      Text.ofCodePoints ((cs.drop i).take (j - i)) := by
    rw [htext, hextent]
    have hpad := Text.slice_pad (u := Text.ofCodePoints (cs.take i))
      (t := Text.ofCodePoints ((cs.drop i).take (j - i))) (v := Text.ofCodePoints (cs.drop j))
      (a := 0) (Nat.le_refl _)
    rwa [Text.slice_all, Nat.zero_add] at hpad
  rw [between, Span.text, boundaries_getD (Nat.lt_of_le_of_lt hij hj), boundaries_getD hj, ← hcs,
    ← hslice, Span.text, Text.slice_slice_of_le_size hle]

theorem codePoints_between (hij : i ≤ j) (hj : j < (boundaries src s).size) :
    ((between (boundaries src s) i j).text src).codePoints =
      ((s.text src).codePoints.drop i).take (j - i) := by
  rw [text_between hij hj]
  exact Text.codePoints_ofCodePoints_of_infix
    ((List.take_prefix _ _).isInfix.trans (List.drop_suffix _ _).isInfix)

theorem boundaries_lt (hij : i < j) (hj : j < (boundaries src s).size) :
    (boundaries src s).getD i 0 < (boundaries src s).getD j 0 :=
  Nat.lt_of_lt_of_le (boundaries_pointAt (Nat.lt_of_le_of_lt hij hj)).lt (boundaries_le src s hij hj)

/-- From a boundary on, the span holds the code points that are left. -/
theorem codePoints_from (hi : i + 1 < (boundaries src s).size) :
    (src.slice ((boundaries src s).getD i 0) s.stop).codePoints =
      (s.text src).codePoints.drop i := by
  have hlast : (boundaries src s).getD ((boundaries src s).size - 1) 0 =
      s.start + (s.text src).size := boundaries_last
  have hpos : (boundaries src s).getD i 0 <
      (boundaries src s).getD ((boundaries src s).size - 1) 0 := boundaries_lt (by omega) (by omega)
  have hend : s.start + (s.text src).size = min s.stop src.size := by
    have hfirst := boundaries_le src s (Nat.zero_le i) (by omega)
    rw [boundaries_first] at hfirst
    rw [hlast] at hpos
    simp only [Span.text, Text.slice, Array.size_extract] at hpos ⊢
    omega
  have hbetween : ((between (boundaries src s) i ((boundaries src s).size - 1)).text src).codePoints =
      ((s.text src).codePoints.drop i).take ((boundaries src s).size - 1 - i) :=
    codePoints_between (by omega) (by omega)
  rw [between, Span.text, hlast, hend, Text.slice_min_size] at hbetween
  rw [hbetween, List.take_of_length_le]
  rw [List.length_drop, size_boundaries]
  omega

/-! ## One cut -/

/-- **The search is exact** where nothing fits behind an index that does not fit. -/
theorem lastFit_spec
    (hdown : ∀ j k, low ≤ j → j ≤ k → k < high → fits k = true → fits j = true) :
    (lastFit fits low high best = best ∧ ∀ j, low ≤ j → j < high → fits j = false) ∨
      IsGreatest {j | low ≤ j ∧ j < high ∧ fits j = true} (lastFit fits low high best) := by
  fun_induction lastFit fits low high best with
  | case1 low high best hlt mid hfit ih =>
    right
    rcases ih fun j k hj hjk hk => hdown j k (by omega) hjk hk with ⟨heq, hnone⟩ | hgreatest
    · rw [heq]
      refine ⟨⟨by omega, by omega, hfit⟩, ?_⟩
      rintro j ⟨hj, hhigh, hfits⟩
      rcases Nat.lt_or_ge mid j with hbehind | hle
      · rw [hnone j hbehind hhigh] at hfits
        cases hfits
      · exact hle
    · obtain ⟨⟨hlow, hhigh, hfits⟩, hmax⟩ := hgreatest
      refine ⟨⟨by omega, hhigh, hfits⟩, ?_⟩
      rintro j ⟨hj, hjhigh, hjfits⟩
      rcases Nat.lt_or_ge mid j with hbehind | hle
      · exact hmax ⟨hbehind, hjhigh, hjfits⟩
      · omega
  | case2 low high best hlt mid hfit ih =>
    have hbehind : ∀ j, mid ≤ j → j < high → fits j = false := by
      intro j hj hhigh
      cases hfits : fits j with
      | false => rfl
      | true => exact absurd (hdown mid j (by omega) hj hhigh hfits) hfit
    rcases ih fun j k hj hjk hk => hdown j k hj hjk (by omega) with ⟨heq, hnone⟩ | hgreatest
    · refine Or.inl ⟨heq, fun j hj hhigh => ?_⟩
      rcases Nat.lt_or_ge j mid with hbefore | hge
      · exact hnone j hj hbefore
      · exact hbehind j hge hhigh
    · obtain ⟨⟨hlow, hhigh, hfits⟩, hmax⟩ := hgreatest
      refine Or.inr ⟨⟨hlow, by omega, hfits⟩, ?_⟩
      rintro j ⟨hj, hjhigh, hjfits⟩
      rcases Nat.lt_or_ge j mid with hbefore | hge
      · exact hmax ⟨hj, hbefore, hjfits⟩
      · rw [hbehind j hge hjhigh] at hjfits
        cases hjfits
  | case3 low high best hge =>
    exact Or.inl ⟨rfl, fun j hj hhigh => absurd (Nat.lt_of_le_of_lt hj hhigh) hge⟩

/-- The first `n` of the code points fit the budget and no more of them do; or `n` is one, where not
even the first fits. -/
def Longest (tok : Tokenizer) (budget : Nat) (cs : List Nat) (n : Nat) : Prop :=
  IsGreatest {m | 0 < m ∧ m ≤ cs.length ∧ tok.count (Text.ofCodePoints (cs.take m)) ≤ budget} n ∨
    n = 1 ∧ budget < tok.count (Text.ofCodePoints (cs.take 1))

/-- A cut that begins with the code points that are left takes as many of them as fit. -/
theorem cutEnd_longest (hmono : tok.PrefixMonotone) (hi : i + 1 < (boundaries src s).size) :
    Longest tok budget ((s.text src).codePoints.drop i)
      (cutEnd tok src budget (boundaries src s) i - i) := by
  obtain ⟨rest, hrest⟩ : ∃ rest, rest = (s.text src).codePoints.drop i := ⟨_, rfl⟩
  have hlength : rest.length + i + 1 = (boundaries src s).size := by
    rw [size_boundaries] at hi ⊢
    rw [hrest, List.length_drop]
    omega
  obtain ⟨fits, hfits⟩ : ∃ fits : Nat → Bool, fits = fun j =>
      decide ((between (boundaries src s) i j).cost tok src ≤ budget) := ⟨_, rfl⟩
  have fits_iff : ∀ j, i + 1 ≤ j → j < (boundaries src s).size →
      (fits j = true ↔ tok.count (Text.ofCodePoints (rest.take (j - i))) ≤ budget) := by
    intro j hj hsize
    rw [hfits, decide_eq_true_eq, cost, text_between (by omega) hsize, hrest]
  have hend : cutEnd tok src budget (boundaries src s) i =
      lastFit fits (i + 1) (boundaries src s).size (i + 1) := by
    rw [cutEnd, hfits]
  have hdown : ∀ j k, i + 1 ≤ j → j ≤ k → k < (boundaries src s).size →
      fits k = true → fits j = true := by
    intro j k hj hjk hk hfit
    rw [fits_iff k (by omega) hk] at hfit
    rw [fits_iff j hj (by omega)]
    exact Nat.le_trans (hmono.take_le rest (by omega)) hfit
  rw [hend, ← hrest]
  rcases lastFit_spec hdown with ⟨heq, hnone⟩ | ⟨⟨hlow, hhigh, hfit⟩, hmax⟩
  · right
    have hone := hnone (i + 1) (Nat.le_refl _) hi
    rw [Bool.eq_false_iff, ne_eq, fits_iff _ (Nat.le_refl _) hi, Nat.add_sub_cancel_left] at hone
    rw [heq, Nat.add_sub_cancel_left]
    exact ⟨rfl, Nat.lt_of_not_le hone⟩
  · left
    rw [fits_iff _ hlow hhigh] at hfit
    refine ⟨⟨by omega, by omega, hfit⟩, ?_⟩
    rintro m ⟨hpos, hle, hm⟩
    have hindex : i + m ≤ lastFit fits (i + 1) (boundaries src s).size (i + 1) := by
      refine hmax ⟨by omega, by omega, ?_⟩
      rw [fits_iff _ (by omega) (by omega), Nat.add_sub_cancel_left]
      exact hm
    omega

/-! ## All cuts -/

/-- The spans follow each other from `a` to `b` without a gap, and none of them is empty. -/
def Consecutive (a : Nat) : List Span → Nat → Prop
  | [], b => a = b
  | r :: rest, b => r.start = a ∧ a < r.stop ∧ Consecutive r.stop rest b

/-- What is cut from a boundary on: runs between boundaries, each of them as long as the search
finds, that hold all code points that are left. -/
theorem cutsFrom_runs (tok : Tokenizer) (budget : Nat) (hi : i < (boundaries src s).size) :
    ∃ runs, cutsFrom tok src budget (boundaries src s) i = runs.flatMap (trimmed src) ∧
      Consecutive ((boundaries src s).getD i 0) runs (s.start + (s.text src).size) ∧
      runs.flatMap (fun r => (r.text src).codePoints) = (s.text src).codePoints.drop i ∧
      ∀ r ∈ runs, ∃ k, k + 1 < (boundaries src s).size ∧
        r = between (boundaries src s) k (cutEnd tok src budget (boundaries src s) k) := by
  obtain ⟨bounds, hbounds⟩ : ∃ bounds, bounds = boundaries src s := ⟨_, rfl⟩
  rw [← hbounds] at hi ⊢
  fun_induction cutsFrom tok src budget bounds i with
  | case1 i hlt next ih =>
    have hnext : next < bounds.size := cutEnd_lt_size hlt
    have hle : i < next := lt_cutEnd ..
    obtain ⟨runs, hcuts, hconsecutive, hpoints, hruns⟩ := ih hnext
    refine ⟨between bounds i next :: runs, ?_, ⟨rfl, ?_, hconsecutive⟩, ?_, ?_⟩
    · rw [List.flatMap_cons, hcuts]
    · subst hbounds
      exact boundaries_lt hle hnext
    · subst hbounds
      rw [List.flatMap_cons, hpoints, codePoints_between (Nat.le_of_lt hle) hnext]
      conv => rhs; rw [← List.take_append_drop (next - i) ((s.text src).codePoints.drop i)]
      rw [List.drop_drop, Nat.add_sub_cancel' (Nat.le_of_lt hle)]
    · intro r hr
      rcases List.mem_cons.mp hr with rfl | hr
      · exact ⟨i, hlt, rfl⟩
      · exact hruns r hr
  | case2 i hge =>
    subst hbounds
    have hlast : i = (boundaries src s).size - 1 := by omega
    refine ⟨[], rfl, ?_, ?_, fun r hr => by cases hr⟩
    · rw [Consecutive, hlast, boundaries_last]
    · rw [List.flatMap_nil, List.drop_of_length_le]
      rw [size_boundaries] at hge
      omega

/-- Spans between code points into which a span is cut before they are trimmed. -/
structure Cutting (tok : Tokenizer) (src : Text) (budget : Nat) (s : Span) (runs : List Span) :
    Prop where
  consecutive : Consecutive s.start runs (s.start + (s.text src).size)
  /-- each code point of the span is in one of them -/
  codePoints_eq : runs.flatMap (fun r => (r.text src).codePoints) = (s.text src).codePoints
  /-- what is left of them without blanks comes out -/
  cuts_eq : cuts tok src budget s = runs.flatMap (trimmed src)
  fits : ∀ r ∈ runs, (r.text src).codePoints.length = 1 ∨ r.cost tok src ≤ budget

/-- **A span is cut into the longest runs that fit**, for every text, span and budget. Nothing is lost
and only a single code point may cost too much, whatever the tokenizer does; and each run is the
longest that fits, where no text costs less than one that it begins with. -/
theorem cuts_longest (tok : Tokenizer) (src : Text) (budget : Nat) (s : Span) :
    ∃ runs, Cutting tok src budget s runs ∧
      (tok.PrefixMonotone → ∀ r ∈ runs,
        Longest tok budget (src.slice r.start s.stop).codePoints (r.text src).codePoints.length) := by
  have hzero : 0 < (boundaries src s).size := by
    rw [size_boundaries]
    exact Nat.succ_pos _
  obtain ⟨runs, hcuts, hconsecutive, hpoints, hruns⟩ := cutsFrom_runs tok budget hzero
  have hlength : ∀ k, k + 1 < (boundaries src s).size →
      ((between (boundaries src s) k (cutEnd tok src budget (boundaries src s) k)).text
        src).codePoints.length = cutEnd tok src budget (boundaries src s) k - k := by
    intro k hk
    have hlt := lt_cutEnd tok src budget (boundaries src s) k
    have hsize : cutEnd tok src budget (boundaries src s) k < (boundaries src s).size :=
      cutEnd_lt_size hk
    rw [codePoints_between (Nat.le_of_lt hlt) hsize, List.length_take, List.length_drop]
    rw [size_boundaries] at hsize
    omega
  refine ⟨runs, ⟨?_, ?_, hcuts, ?_⟩, ?_⟩
  · rwa [boundaries_first] at hconsecutive
  · rwa [List.drop_zero] at hpoints
  · intro r hr
    obtain ⟨k, hk, rfl⟩ := hruns r hr
    rcases cutEnd_cases tok src budget (boundaries src s) k with hone | ⟨_, hfits⟩
    · left
      rw [hlength k hk, hone, Nat.add_sub_cancel_left]
    · exact Or.inr hfits
  · intro hmono r hr
    obtain ⟨k, hk, rfl⟩ := hruns r hr
    rw [hlength k hk, between, codePoints_from hk]
    exact cutEnd_longest hmono hk

/-- Two code points to a cut: the pair of halves in `"a😀b"` is one of them, and is not cut. -/
theorem cuts_longest_codePoint :
    Tokenizer.codePoint.PrefixMonotone ∧
      cuts .codePoint #[97, 0xD83D, 0xDE00, 98] 2 ⟨0, 4⟩ = [⟨0, 3⟩, ⟨3, 4⟩] ∧
      ∃ runs, Cutting .codePoint #[97, 0xD83D, 0xDE00, 98] 2 ⟨0, 4⟩ runs ∧
        ∀ r ∈ runs, Longest .codePoint 2
          (Text.slice #[97, 0xD83D, 0xDE00, 98] r.start 4).codePoints
          (r.text #[97, 0xD83D, 0xDE00, 98]).codePoints.length := by
  have hmono := Tokenizer.codePoint_prefixMonotone
  obtain ⟨runs, hcutting, hlongest⟩ :=
    cuts_longest .codePoint #[97, 0xD83D, 0xDE00, 98] 2 ⟨0, 4⟩
  exact ⟨hmono, by decide +kernel, runs, hcutting, hlongest hmono⟩

end Span
end Retrieval
