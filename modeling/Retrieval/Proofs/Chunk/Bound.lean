import Retrieval.Proofs.Chunk.Regions
import Retrieval.Proofs.Text.CodePoint

/-!
# What a chunk may cost

`split_bounded`: a chunk costs more than the size of the window only if it repeats nothing and is a
single code point, or what trimming left of a longer slice that did fit. Every other way in which a
segment is accepted measures the segment itself, and an overlap is taken only where the whole chunk
fits. So no chunk is too large for a tokenizer that charges no code point more than the size and no
text more once it is trimmed.
-/

namespace Retrieval

namespace Span

variable {tok : Tokenizer} {src : Text} {budget i j : Nat} {s p : Span} {bounds : Array Nat}

/-! ## Cuts -/

/-- Neighbours among the boundaries enclose one code point. -/
theorem codePointEnds_pointAt (pos : Nat) (units : List UInt16)
    (h : ∀ k, k < units.length → src[pos + k]? = units[k]?) {a b : Nat}
    (ha : (pos :: codePointEnds pos units)[i]? = some a)
    (hb : (codePointEnds pos units)[i]? = some b) : src.PointAt a b := by
  fun_induction codePointEnds pos units generalizing i with
  | case1 => cases hb
  | case2 pos u =>
    cases i with
    | zero =>
      cases ha
      cases hb
      exact Text.PointAt.single (h 0 (by simp))
    | succ i => cases hb
  | case3 pos u v rest hpair ih =>
    cases i with
    | zero =>
      cases ha
      cases hb
      simp only [Bool.and_eq_true] at hpair
      exact Or.inr ⟨rfl, u, v, h 0 (by simp), h 1 (by simp), hpair.1, hpair.2⟩
    | succ i =>
      refine ih (fun k hk => ?_) ha hb
      rw [Nat.add_right_comm, Nat.add_assoc, h (k + 2) (by simpa using hk)]
      rfl
  | case4 pos u v rest _ ih =>
    cases i with
    | zero =>
      cases ha
      cases hb
      exact Text.PointAt.single (h 0 (by simp))
    | succ i =>
      refine ih (fun k hk => ?_) ha hb
      rw [Nat.add_right_comm, Nat.add_assoc, h (k + 1) (by simpa using hk)]
      rfl

theorem boundaries_pointAt (h : i + 1 < (boundaries src s).size) :
    src.PointAt (between (boundaries src s) i (i + 1)).start
      (between (boundaries src s) i (i + 1)).stop := by
  have hlen : i < (codePointEnds s.start (s.text src).toList).length := by
    simpa [boundaries] using h
  apply codePointEnds_pointAt s.start (s.text src).toList (i := i)
  · intro k hk
    have hsize : k < min s.stop src.size - s.start := by
      rwa [Array.length_toList, Span.text, Text.slice, Array.size_extract] at hk
    rw [Array.getElem?_toList, Span.text, Text.slice, Array.getElem?_extract, if_pos hsize]
  · have hi : i < (s.start :: codePointEnds s.start (s.text src).toList).length :=
      Nat.lt_succ_of_lt hlen
    simp only [between, boundaries, Array.getD_eq_getD_getElem?, List.getElem?_toArray,
      List.getElem?_eq_getElem hi, Option.getD_some]
  · simp only [between, boundaries, Array.getD_eq_getD_getElem?, List.getElem?_toArray,
      List.getElem?_cons_succ, List.getElem?_eq_getElem hlen, Option.getD_some]

/-- A boundary behind the first one lies in the text. -/
theorem boundaries_le_size (hj : j < (boundaries src s).size) (hpos : 0 < j) :
    (boundaries src s).getD j 0 ≤ src.size := by
  have hj' : j ≤ (boundaries src s).size - 1 := by omega
  have hle := boundaries_le src s hj' (by omega)
  have hsize : 0 < (s.text src).size := by
    rcases Nat.eq_zero_or_pos (s.text src).size with hzero | hpos
    · have hnil : (s.text src).toList = [] := by
        rw [← List.length_eq_zero_iff, Array.length_toList, hzero]
      simp [boundaries, hnil, codePointEnds] at hj
      omega
    · exact hpos
  rw [boundaries_last] at hle
  simp only [Span.text, Text.slice, Array.size_extract] at hle hsize
  omega

/-- A cut is a trimmed span between boundaries, with one code point in it or within the budget. -/
theorem mem_cutsFrom (h : p ∈ cutsFrom tok src budget bounds i) :
    ∃ k next, k < next ∧ next < bounds.size ∧ p ∈ trimmed src (between bounds k next) ∧
      (next = k + 1 ∨ (between bounds k next).cost tok src ≤ budget) := by
  fun_induction cutsFrom tok src budget bounds i with
  | case1 i hlt next ih =>
    rcases List.mem_append.mp h with hp | hp
    · refine ⟨i, next, lt_cutEnd .., cutEnd_lt_size hlt, hp, ?_⟩
      rcases cutEnd_cases tok src budget bounds i with heq | ⟨_, hcost⟩
      · exact Or.inl heq
      · exact Or.inr hcost
    · exact ih hp
  | case2 => cases h

theorem trimOf_of_mem_cuts (h : p ∈ cuts tok src budget s) :
    ∃ k next, k < next ∧ next < (boundaries src s).size ∧
      p.TrimOf src (between (boundaries src s) k next) ∧
      (next = k + 1 ∨ (between (boundaries src s) k next).cost tok src ≤ budget) := by
  obtain ⟨k, next, hlt, hnext, hp, hwhy⟩ := mem_cutsFrom h
  have hbound := boundaries_le_size hnext (Nat.zero_lt_of_lt hlt)
  have hle := boundaries_le src s (Nat.le_of_lt hlt) hnext
  exact ⟨k, next, hlt, hnext, (mem_trimmed_iff hle hbound).mp hp, hwhy⟩

/-! ## Segments -/

/-- Why a segment may be a chunk of its own: it fits, it is one code point, or it is what trimming
left of a span that fits. -/
inductive Allowed (tok : Tokenizer) (src : Text) (budget : Nat) (s : Span) : Prop
  | fits : s.cost tok src ≤ budget → Allowed tok src budget s
  | point : src.PointAt s.start s.stop → Allowed tok src budget s
  | trimmed (t : Span) : t.stop ≤ src.size → s.TrimOf src t → t.cost tok src ≤ budget →
      Allowed tok src budget s

/-- Trimming takes nothing from a code point that is not blank. -/
theorem TrimOf.eq_of_pointAt (h : p.TrimOf src s) (hs : src.PointAt s.start s.stop) : p = s := by
  rcases h.eq_or_shorter with heq | hshort
  · exact heq
  · have hlt := h.tight.lt
    have hstart := h.start_le
    have hstop := h.le_stop
    have hlong : s.start + 1 < s.stop := by omega
    obtain ⟨hfirst, hlast⟩ := hs.not_blank hlong
    have hs : s.Tight src := ⟨by omega, hs.le_size, hfirst, hlast⟩
    exact h.unique hs.trimOf_self

theorem allowed_of_mem_cuts (h : p ∈ cuts tok src budget s) : Allowed tok src budget p := by
  obtain ⟨k, next, hlt, hnext, htrim, hwhy⟩ := trimOf_of_mem_cuts h
  have hbound := boundaries_le_size hnext (Nat.zero_lt_of_lt hlt)
  rcases hwhy with rfl | hcost
  · have hpoint := boundaries_pointAt hnext
    rw [htrim.eq_of_pointAt hpoint]
    exact .point hpoint
  · exact .trimmed _ hbound htrim hcost

/-- What comes out of a merge was measured, or was cut with the finer separators. -/
theorem Merges.fits_or_finer {finer : Span → List Span} {run : Option Run} {parts out : List Span}
    (hm : Merges tok src budget finer run parts out) (h : p ∈ out) :
    p.cost tok src ≤ budget ∨ ∃ t, p ∈ finer t := by
  induction hm with
  | done => cases h
  | @settle r _ _ _ ih =>
    rcases List.mem_append.mp h with h | h
    · rw [Span.settle] at h
      split at h
      · exact Or.inr ⟨r.span, h⟩
      · cases List.mem_singleton.mp h
        exact Or.inl (by omega)
    · exact ih h
  | @large part _ _ _ _ ih =>
    rcases List.mem_append.mp h with h | h
    · exact Or.inr ⟨part, h⟩
    · exact ih h
  | start _ _ ih => exact ih h
  | extend _ _ _ ih => exact ih h

/-- **Every segment is allowed**, at every level of the separators. -/
theorem allowed_of_mem_segments {separators : List Separator}
    (h : p ∈ segments tok src budget separators s) : Allowed tok src budget p := by
  induction separators generalizing s with
  | nil =>
    rw [segments] at h
    split at h
    · next hcost =>
      cases List.mem_singleton.mp h
      exact .fits hcost
    · exact allowed_of_mem_cuts h
  | cons sep finer ih =>
    rw [segments] at h
    split at h
    · next hcost =>
      cases List.mem_singleton.mp h
      exact .fits hcost
    · split at h
      · rcases (merges_merge tok src budget _ none _).fits_or_finer h with hcost | ⟨t, ht⟩
        · exact .fits hcost
        · exact ih ht
      · exact ih h

theorem fits_or_allowed_of_mem_segmentsOf {w : Window} (h : p ∈ segmentsOf tok w src) :
    p.cost tok src ≤ w.size ∨ Allowed tok src w.budget p := by
  obtain ⟨s, _, hp⟩ := List.mem_flatMap.mp h
  split at hp
  · next hcost =>
    cases List.mem_singleton.mp hp
    exact Or.inl hcost
  · exact Or.inr (allowed_of_mem_segments hp)

end Span

/-! ## Chunks -/

theorem Text.Tight.not_allBlank {t : Text} (h : t.Tight) : t.allBlank = false := by
  cases hall : t.allBlank with
  | false => rfl
  | true =>
    have hfirst := h.first
    have hmem := Array.all_eq_true.mp hall 0 h.size_pos
    rw [Text.blankAt, Array.getElem?_eq_getElem h.size_pos] at hfirst
    simp [hmem] at hfirst

/-- Why a chunk may cost more than the size of the window. -/
def Chunk.Exempt (tok : Tokenizer) (w : Window) (src : Text) (c : Chunk) : Prop :=
  c.overlap = 0 ∧ (c.text.codePoints.length = 1 ∨
    ∃ a b, b ≤ src.size ∧ c.text.size < b - a ∧ tok.count (src.slice a b) ≤ w.size - w.overlap ∧
      c.text = (src.slice a b).trim)

/-- A chunk that repeats something fits, and any other is its segment. -/
theorem fits_or_segment {tok : Tokenizer} {w : Window} {src : Text} {c : Chunk}
    (hc : c ∈ split tok w src) :
    c.tokenCount ≤ w.size ∨ c.overlap = 0 ∧ c.own = ⟨c.start, c.stop⟩ ∧
      c.own ∈ Span.segmentsOf tok w src ∧ c.own.cost tok src = c.tokenCount := by
  have hrow := split_inRow tok w src
  have hloc := hrow.located_of_mem hc
  rcases Nat.eq_zero_or_pos c.overlap with hzero | hpos
  · have hown : c.own = ⟨c.start, c.stop⟩ := by simp [Chunk.own, Chunk.ownStart, hzero]
    refine Or.inr ⟨hzero, hown, own_mem_segmentsOf hc, ?_⟩
    rw [hloc.tokenCount_eq, hloc.text_eq, hown]
    rfl
  · exact Or.inl (hrow.of_overlap_pos hc hpos).2

theorem fits_or_exempt {tok : Tokenizer} {w : Window} {src : Text} {c : Chunk}
    (hc : c ∈ split tok w src) : c.tokenCount ≤ w.size ∨ c.Exempt tok w src := by
  have hloc := (split_inRow tok w src).located_of_mem hc
  rcases fits_or_segment hc with hfits | ⟨hzero, hown, hmem, hcost⟩
  · exact Or.inl hfits
  have hbudget : w.budget ≤ w.size := Nat.sub_le ..
  rcases Span.fits_or_allowed_of_mem_segmentsOf hmem with
    hfits | hfits | hpoint | ⟨t, ht, htrim, hfits⟩
  · exact Or.inl (by omega)
  · exact Or.inl (by omega)
  · rw [hown] at hpoint
    refine Or.inr ⟨hzero, Or.inl ?_⟩
    rw [hloc.text_eq]
    exact hpoint.codePoints
  · rcases htrim.eq_or_shorter with heq | hshort
    · rw [← heq] at hfits
      exact Or.inl (by omega)
    · rw [hown] at htrim hshort
      refine Or.inr ⟨hzero, Or.inr ⟨t.start, t.stop, ht, ?_, hfits, ?_⟩⟩
      · rw [hloc.size_text]
        exact hshort
      · rw [hloc.text_eq]
        exact htrim.text_eq

/-- **The bound and its only exceptions**, for every text, tokenizer and window; and there are none
for a tokenizer that charges no code point more than the size and no text more once trimmed. -/
theorem split_bounded (tok : Tokenizer) (w : Window) (src : Text) :
    ∃ chunks, splitWatched? .never tok w src = some chunks ∧
      (∀ c ∈ chunks, c.tokenCount ≤ w.size ∨ c.Exempt tok w src) ∧
      ((∀ t : Text, t.codePoints.length = 1 → t.allBlank = false → tok.count t ≤ w.size) →
        (∀ t : Text, tok.count t.trim ≤ tok.count t) → ∀ c ∈ chunks, c.tokenCount ≤ w.size) := by
  refine ⟨split tok w src, splitWatched?_never tok w src, fun c hc => fits_or_exempt hc, ?_⟩
  intro hpoint htrim c hc
  have hloc := (split_inRow tok w src).located_of_mem hc
  rcases fits_or_exempt hc with hfits | ⟨_, hone | ⟨a, b, _, _, hcost, htext⟩⟩
  · exact hfits
  · rw [hloc.tokenCount_eq]
    exact hpoint c.text hone hloc.text_tight.not_allBlank
  · have hle := htrim (src.slice a b)
    rw [hloc.tokenCount_eq, htext]
    omega

/-- Two code points to a chunk, the first of which may repeat: no chunk of `"a b  c"` has more. -/
theorem split_bounded_codePoint :
    ∃ chunks, splitWatched? .never .codePoint ⟨2, 1, by decide⟩ #[97, 32, 98, 32, 32, 99]
        = some chunks ∧
      ∀ c ∈ chunks, c.tokenCount ≤ 2 := by
  obtain ⟨chunks, heq, _, hbound⟩ :=
    split_bounded .codePoint ⟨2, 1, by decide⟩ #[97, 32, 98, 32, 32, 99]
  refine ⟨chunks, heq, hbound ?_ ?_⟩
  · intro t hone _
    rw [Tokenizer.count_codePoint, hone]
    decide
  · intro t
    rw [Tokenizer.count_codePoint, Tokenizer.count_codePoint]
    exact Text.length_codePoints_trim_le t

end Retrieval
