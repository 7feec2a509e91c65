import Mathlib.Order.Bounds.Defs
import Retrieval.Proofs.Chunk.Regions
import Retrieval.Proofs.Text.CodePoint
import Retrieval.Proofs.Text.Points

/-!
# As much is carried over as may be

A tail of the chunk before may be put in front of a chunk when it is the text of some of its last
tokens, no more of them than the overlap, and the whole still fits (`Chunk.Admits`). Of these tails
the one with the most tokens is taken: `split_carries_most`. With one token for each code point this
says where the chunk starts, without the tokens: at the first position from which the overlap and the
size can be kept (`CarriesMost.startsFirst`).
-/

namespace Retrieval

/-! ## Leading blanks -/

namespace Text

variable {t x y tail : Text} {a b c : Nat}

theorem skipBlank_le_of_not_blank (hac : a ≤ c) (h : t.blankAt c = false) :
    t.skipBlank a b ≤ c := by
  rcases Nat.lt_or_ge c (t.skipBlank a b) with hlt | hle
  · rw [blankOn_skipBlank t a b c hac hlt] at h
    cases h
  · exact hle

theorem trimStart_of_not_blank (h : t.blankAt 0 = false) : t.trimStart = t := by
  rw [trimStart, Nat.le_zero.mp (skipBlank_le_of_not_blank (Nat.le_refl 0) h), slice_all]

theorem length_codePoints_trimStart_le (t : Text) :
    t.trimStart.codePoints.length ≤ t.codePoints.length := by
  have hsplit : t.slice 0 (t.skipBlank 0 t.size) ++ t.trimStart = t := by
    rw [trimStart, slice_append (Nat.zero_le _) (skipBlank_le (Nat.zero_le _)), slice_all]
  conv => rhs; rw [← hsplit]
  rw [length_codePoints, length_codePoints, Array.toList_append]
  exact pointCount_le_append_right _ _

theorem size_trimStart (t : Text) : t.trimStart.size = t.size - t.skipBlank 0 t.size := by
  rw [trimStart, size_slice (Nat.le_refl _)]

/-- Units in front of a text can only make what trimming leaves of it longer. -/
theorem size_trimStart_append_le (x y : Text) : y.trimStart.size ≤ (x ++ y).trimStart.size := by
  rcases Nat.lt_or_ge (y.skipBlank 0 y.size) y.size with hlt | hge
  · have hblank : (x ++ y).blankAt (x.size + y.skipBlank 0 y.size) = false := by
      rw [blankAt, Array.getElem?_append_right (Nat.le_add_right ..), Nat.add_sub_cancel_left]
      exact blankAt_skipBlank hlt
    have hskip := skipBlank_le_of_not_blank (b := (x ++ y).size) (Nat.zero_le _) hblank
    rw [size_trimStart, size_trimStart]
    simp only [Array.size_append] at hskip ⊢
    omega
  · rw [size_trimStart]
    omega

/-- A unit that begins no pair is a code point. -/
theorem pointCount_cons_of_not_leading {u : UInt16} (h : isLeading u = false)
    (rest : List UInt16) : pointCount (u :: rest) = 1 + pointCount rest := by
  cases rest with
  | nil => rfl
  | cons v rest =>
    rw [pointCount_cons_cons, h, Bool.false_and]
    rfl

/-- A first half in front of a second one makes no further code point. -/
theorem length_codePoints_slice_pair {a b : Nat} (hab : a + 1 < b) (hlead : t.leadingAt a = true)
    (htrail : t.trailingAt (a + 1) = true) :
    (t.slice a b).codePoints.length = (t.slice (a + 1) b).codePoints.length := by
  obtain ⟨u, hu⟩ : ∃ u, t[a]? = some u := ⟨_, Array.getElem?_eq_getElem (lt_size_of_leadingAt hlead)⟩
  obtain ⟨v, hv⟩ : ∃ v, t[a + 1]? = some v :=
    ⟨_, Array.getElem?_eq_getElem (lt_size_of_trailingAt htrail)⟩
  have hul : isLeading u = true := by simpa [leadingAt, hu] using hlead
  have hvt : isTrailing v = true := by simpa [trailingAt, hv] using htrail
  have hsecond : (t.slice (a + 1) b).toList = v :: (t.slice (a + 2) b).toList := by
    rw [← slice_append (Nat.le_succ (a + 1)) hab, slice_one hv, Array.toList_append]
    rfl
  have hfirst : (t.slice a b).toList = u :: v :: (t.slice (a + 2) b).toList := by
    rw [← slice_append (Nat.le_succ a) (Nat.le_of_lt hab), slice_one hu, Array.toList_append,
      hsecond]
    rfl
  rw [length_codePoints, length_codePoints, hfirst, hsecond, pointCount_cons_cons, hul, hvt,
    pointCount_cons_of_not_leading (isLeading_of_isTrailing hvt)]
  rfl

theorem trailingAt_of_leadingAt (h : t.leadingAt a = true) : t.trailingAt a = false := by
  have ha := lt_size_of_leadingAt h
  rw [leadingAt, Array.getElem?_eq_getElem ha] at h
  rw [trailingAt, Array.getElem?_eq_getElem ha]
  exact isTrailing_of_isLeading h

/-- A position in a text is a boundary, or a pair of halves stands across it. -/
theorem boundary_or_inside (ha : a ≤ t.size) :
    t.Boundary a ∨ 0 < a ∧ t.leadingAt (a - 1) = true ∧ t.trailingAt a = true := by
  rcases Nat.eq_zero_or_pos a with rfl | hpos
  · exact Or.inl (boundary_zero t)
  · cases hlead : t.leadingAt (a - 1) with
    | false => exact Or.inl (boundary_of_leadingAt ha hlead)
    | true =>
      cases htrail : t.trailingAt a with
      | false => exact Or.inl (boundary_of_trailingAt ha htrail)
      | true => exact Or.inr ⟨hpos, rfl, rfl⟩

end Text

namespace Chunk

variable {tok : Tokenizer} {src : Text} {w : Window} {p c : Chunk} {segment : Span}
variable {segments : List Span} {previous : Option Chunk} {size take i j k x : Nat}

/-! ## The longest tail -/

/-- The text of the last `k` tokens of a chunk without its leading blanks. -/
def tail (tok : Tokenizer) (p : Chunk) (k : Nat) : Text :=
  (tok.decode ((tok.encode p.text).drop ((tok.encode p.text).length - k))).trimStart

/-- The text of the last `k` tokens of `p` is a tail of it that can be put in front of what ends at
`stop`. -/
structure Carries (tok : Tokenizer) (src : Text) (size : Nat) (p : Chunk) (stop k : Nat) : Prop where
  nonempty : 0 < (p.tail tok k).size
  suffix : ∃ front, p.text = front ++ p.tail tok k
  fits : tok.count (src.slice (p.stop - (p.tail tok k).size) stop) ≤ size

/-- Between one token and the overlap, the last `k` tokens of `p` can be put in front of `c`. -/
structure Admits (tok : Tokenizer) (src : Text) (w : Window) (p c : Chunk) (k : Nat) : Prop extends
    Carries tok src w.size p c.stop k where
  pos : 0 < k
  le : k ≤ min w.overlap (tok.encode p.text).length

/-- One step down in the search for the tail. -/
theorem carried?_succ (tok : Tokenizer) (src : Text) (size : Nat) (p : Chunk) (segment : Span)
    (take : Nat) :
    (Carries tok src size p segment.stop (take + 1) ∧
      carried? tok src size p (tok.encode p.text) segment (take + 1) =
        some ⟨p.stop - (p.tail tok (take + 1)).size, segment.stop⟩) ∨
    ¬ Carries tok src size p segment.stop (take + 1) ∧
      carried? tok src size p (tok.encode p.text) segment (take + 1) =
        carried? tok src size p (tok.encode p.text) segment take := by
  rw [carried?]
  split
  · next h =>
    simp only [Bool.and_eq_true, Bool.not_eq_true', Array.isEmpty, decide_eq_false_iff_not,
      decide_eq_true_eq] at h
    obtain ⟨⟨hne, hends⟩, hfits⟩ := h
    exact Or.inl ⟨⟨Nat.pos_of_ne_zero hne, Text.endsWith_iff_append.mp hends, hfits⟩, rfl⟩
  · next h =>
    refine Or.inr ⟨fun hcarries => h ?_, rfl⟩
    simp only [Bool.and_eq_true, Bool.not_eq_true', Array.isEmpty, decide_eq_false_iff_not,
      decide_eq_true_eq]
    exact ⟨⟨Nat.ne_of_gt hcarries.nonempty, Text.endsWith_iff_append.mpr hcarries.suffix⟩,
      hcarries.fits⟩

/-- **The search goes down from the greatest count**, so it finds the longest tail that fits. -/
theorem carried?_greatest (tok : Tokenizer) (src : Text) (size : Nat) (p : Chunk) (segment : Span)
    (take : Nat) :
    (∃ k, IsGreatest {k | 0 < k ∧ k ≤ take ∧ Carries tok src size p segment.stop k} k ∧
      carried? tok src size p (tok.encode p.text) segment take =
        some ⟨p.stop - (p.tail tok k).size, segment.stop⟩) ∨
    (∀ k, 0 < k → k ≤ take → ¬ Carries tok src size p segment.stop k) ∧
      carried? tok src size p (tok.encode p.text) segment take = none := by
  induction take with
  | zero => exact Or.inr ⟨fun k hpos hle => by omega, rfl⟩
  | succ take ih =>
    rcases carried?_succ tok src size p segment take with
      ⟨hhere, heq⟩ | ⟨hnot, heq⟩
    · exact Or.inl ⟨take + 1, ⟨⟨Nat.succ_pos _, Nat.le_refl _, hhere⟩, fun k hk => hk.2.1⟩, heq⟩
    · -- what holds up to `take` holds one further, where there is no tail
      rw [heq]
      rcases ih with ⟨k, ⟨⟨hpos, hle, hk⟩, hmax⟩, hsome⟩ | ⟨hnone, hnil⟩
      · refine Or.inl ⟨k, ⟨⟨hpos, Nat.le_succ_of_le hle, hk⟩, ?_⟩, hsome⟩
        rintro j ⟨hj, hjle, hcarries⟩
        rcases Nat.le_or_eq_of_le_succ hjle with hjle | rfl
        · exact hmax ⟨hj, hjle, hcarries⟩
        · exact absurd hcarries hnot
      · refine Or.inr ⟨fun j hj hjle hcarries => ?_, hnil⟩
        rcases Nat.le_or_eq_of_le_succ hjle with hjle | rfl
        · exact hnone j hj hjle hcarries
        · exact hnot hcarries

/-- `c` starts with the longest tail of `p` that may be put in front of it, or with its own region
where there is none. -/
def CarriesMost (tok : Tokenizer) (src : Text) (w : Window) (p c : Chunk) : Prop :=
  (∃ k, IsGreatest {k | Admits tok src w p c k} k ∧ c.start = p.stop - (p.tail tok k).size) ∨
    (∀ k, ¬ Admits tok src w p c k) ∧ c.start = c.ownStart

/-- **One step**: a chunk starts with the longest tail. -/
theorem carriesMost_of_eq (hc : c = ofSegment tok src w i (some p) c.own) :
    CarriesMost tok src w p c := by
  have hstart : c.start = (extended tok src w (some p) c.own).start :=
    congrArg Chunk.start hc
  have hadmits : ∀ k, Admits tok src w p c k ↔
      0 < k ∧ k ≤ min w.overlap (tok.encode p.text).length ∧
        Carries tok src w.size p c.own.stop k :=
    fun k => ⟨fun h => ⟨h.pos, h.le, h.toCarries⟩, fun ⟨hpos, hle, h⟩ => ⟨h, hpos, hle⟩⟩
  by_cases hw : w.overlap = 0
  · refine Or.inr ⟨fun k hk => ?_, ?_⟩
    · have hpos := hk.pos
      have hle := hk.le
      omega
    · rw [hstart]
      simp [extended, hw, own]
  · have hextended : extended tok src w (some p) c.own =
        (carried? tok src w.size p (tok.encode p.text) c.own
          (min w.overlap (tok.encode p.text).length)).getD c.own := by
      simp [extended, hw]
    rw [hextended] at hstart
    rcases carried?_greatest tok src w.size p c.own
      (min w.overlap (tok.encode p.text).length) with ⟨k, hk, hsome⟩ | ⟨hnone, hnil⟩
    · left
      refine ⟨k, ?_, by rw [hstart, hsome]; rfl⟩
      simpa only [hadmits] using hk
    · right
      refine ⟨fun k hk => ?_, by rw [hstart, hnil]; rfl⟩
      obtain ⟨hpos, hle, hcarries⟩ := (hadmits k).mp hk
      exact hnone k hpos hle hcarries

/-- Neighbours: the second is made from its own region with the first before it. -/
theorem ofSegments_next (hp : (ofSegments tok src w i previous segments)[k]? = some p)
    (hc : (ofSegments tok src w i previous segments)[k + 1]? = some c) :
    ∃ segment, segments[k + 1]? = some segment ∧
      c = ofSegment tok src w (i + k + 1) (some p) segment := by
  induction segments generalizing i previous k with
  | nil => cases hp
  | cons s rest ih =>
    rw [ofSegments] at hp hc
    cases k with
    | zero =>
      cases rest with
      | nil => cases hc
      | cons s' rest =>
        cases hp
        cases hc
        exact ⟨s', rfl, rfl⟩
    | succ k =>
      obtain ⟨segment, hsegment, heq⟩ := ih hp hc
      exact ⟨segment, hsegment, by rw [heq]; congr 1; omega⟩

/-- **The run**: so does every chunk of a text behind the first. -/
theorem split_carriesMost (hp : (split tok w src)[i]? = some p)
    (hc : (split tok w src)[i + 1]? = some c) : CarriesMost tok src w p c := by
  have hmap := map_own_split tok w src
  have hown : (Span.segmentsOf tok w src)[i + 1]? = some c.own := by
    rw [← hmap, List.getElem?_map, hc]
    rfl
  rw [split_eq] at hp hc
  obtain ⟨segment, hsegment, heq⟩ := ofSegments_next hp hc
  rw [hown] at hsegment
  obtain rfl := Option.some.inj hsegment
  exact carriesMost_of_eq heq

/-! ## Where a tail begins -/

/-- A tail that may be put in front of a chunk begins in the chunk before, and with no blank. -/
theorem Admits.start (h : Admits tok src w p c k) (hp : p.Located tok src) :
    p.start ≤ p.stop - (p.tail tok k).size ∧ p.stop - (p.tail tok k).size < p.stop ∧
      src.blankAt (p.stop - (p.tail tok k).size) = false := by
  obtain ⟨hstart, hstop, hfirst⟩ := hp.first_of_tail h.nonempty h.suffix
  refine ⟨hstart, hstop, ?_⟩
  rw [Text.blankAt, hfirst]
  exact Text.blankAt_trimStart h.nonempty

/-! ## One token for each code point -/

/-- What is asked of a start of `c` in `p`: no blank stands there, no more code points than the
overlap follow up to the end of `p`, and no more than the size up to the end of `c`. -/
structure MayStart (src : Text) (w : Window) (p c : Chunk) (x : Nat) : Prop where
  start_le : p.start ≤ x
  lt_stop : x < p.stop
  not_blank : src.blankAt x = false
  overlap : (src.slice x p.stop).codePoints.length ≤ w.overlap
  size : (src.slice x c.stop).codePoints.length ≤ w.size

/-- `c` starts at the first position at which it may, or with its own region where there is none. -/
def StartsFirst (src : Text) (w : Window) (p c : Chunk) : Prop :=
  IsLeast {x | MayStart src w p c x} c.start ∨
    (∀ x, ¬ MayStart src w p c x) ∧ c.start = c.ownStart

theorem length_encode_codePoint (t : Text) :
    (Tokenizer.codePoint.encode t).length = t.codePoints.length := rfl

theorem tail_codePoint (p : Chunk) (k : Nat) :
    p.tail .codePoint k =
      (Text.ofCodePoints (p.text.codePoints.drop (p.text.codePoints.length - k))).trimStart := rfl

/-- More tokens make a tail that is no shorter. -/
theorem size_tail_mono (p : Chunk) (h : j ≤ k) :
    (p.tail .codePoint j).size ≤ (p.tail .codePoint k).size := by
  obtain ⟨cs, hcs⟩ : ∃ cs, cs = p.text.codePoints := ⟨_, rfl⟩
  have hsplit := List.take_append_drop (cs.length - j - (cs.length - k)) (cs.drop (cs.length - k))
  rw [List.drop_drop, Nat.add_sub_cancel' (by omega)] at hsplit
  rw [tail_codePoint, tail_codePoint, ← hcs, ← hsplit, Text.ofCodePoints_append]
  exact Text.size_trimStart_append_le _ _

/-- The last `k` tokens are read back as `k` code points, and trimming only takes some away. -/
theorem length_codePoints_tail_le (p : Chunk) (k : Nat) :
    (p.tail .codePoint k).codePoints.length ≤ k := by
  rw [tail_codePoint]
  refine Nat.le_trans (Text.length_codePoints_trimStart_le _) ?_
  rw [Text.codePoints_ofCodePoints_of_infix (t := p.text) (List.drop_suffix _ _).isInfix,
    List.length_drop]
  omega

/-- Where a tail begins, the chunk may start. -/
theorem Admits.mayStart (h : Admits .codePoint src w p c k) (hp : p.Located .codePoint src) :
    MayStart src w p c (p.stop - (p.tail .codePoint k).size) := by
  obtain ⟨hstart, hstop, hblank⟩ := h.start hp
  refine ⟨hstart, hstop, hblank, ?_, ?_⟩
  · rw [(hp.slice_tail h.suffix).2]
    have hle := h.le
    exact Nat.le_trans (length_codePoints_tail_le p k) (Nat.le_trans hle (Nat.min_le_left ..))
  · have hfits := h.fits
    rwa [Tokenizer.count_codePoint] at hfits

/-- From a position between code points at which the chunk may start, a tail begins. -/
theorem MayStart.admits_of_boundary (h : MayStart src w p c x) (hp : p.Located .codePoint src)
    (hx : p.text.Boundary (x - p.start)) :
    ∃ k, Admits .codePoint src w p c k ∧ p.stop - (p.tail .codePoint k).size = x := by
  have hstart := h.start_le
  have hstop := h.lt_stop
  have hbound : p.stop ≤ src.size := hp.own_tight.stop_le
  obtain ⟨rest, hrest⟩ : ∃ rest, rest = src.slice x p.stop := ⟨_, rfl⟩
  have hsize : rest.size = p.stop - x := by rw [hrest, Text.size_slice hbound]
  have hslice : p.text.slice (x - p.start) p.text.size = rest := by
    rw [hp.size_text, hp.text_eq, Text.slice_slice (by omega), hrest,
      Nat.add_sub_cancel' hstart, Nat.add_sub_cancel' (by omega)]
  have hsplit := hx.codePoints
  rw [hslice] at hsplit
  -- the tokens of the rest are read back as the rest, which begins with no blank
  have htail : p.tail .codePoint rest.codePoints.length = rest := by
    have hdrop : p.text.codePoints.drop (p.text.codePoints.length - rest.codePoints.length) =
        rest.codePoints := by
      rw [← hsplit, List.length_append, Nat.add_sub_cancel, List.drop_left]
    have hblank : rest.blankAt 0 = false := by
      rw [hrest, Text.blankAt_slice (by omega), Nat.add_zero]
      exact h.not_blank
    rw [tail_codePoint, hdrop, Text.ofCodePoints_codePoints, Text.trimStart_of_not_blank hblank]
  have hbegin : p.stop - (p.tail .codePoint rest.codePoints.length).size = x := by
    rw [htail, hsize]
    omega
  refine ⟨rest.codePoints.length, ⟨⟨?_, ?_, ?_⟩, ?_, ?_⟩, hbegin⟩
  · rw [htail, hsize]
    omega
  · rw [htail]
    refine ⟨p.text.slice 0 (x - p.start), ?_⟩
    rw [← hslice, Text.slice_append (Nat.zero_le _) hx.le_size, Text.slice_all]
  · rw [hbegin, Tokenizer.count_codePoint]
    exact h.size
  · exact Text.length_codePoints_pos (by omega)
  · have hoverlap := h.overlap
    rw [← hrest] at hoverlap
    have hlength := congrArg List.length hsplit
    rw [List.length_append] at hlength
    rw [length_encode_codePoint]
    omega

/-- Wherever the chunk may start, a tail begins there or, inside a pair of halves, just before. -/
theorem MayStart.admits (h : MayStart src w p c x) (hp : p.Located .codePoint src)
    (hstop : p.stop < c.stop) :
    ∃ k, Admits .codePoint src w p c k ∧ p.stop - (p.tail .codePoint k).size ≤ x := by
  have hstart := h.start_le
  have hlt := h.lt_stop
  have hsize := hp.size_text
  rcases Text.boundary_or_inside (t := p.text) (a := x - p.start) (by omega) with
    hx | ⟨hpos, hlead, htrail⟩
  · obtain ⟨k, hk, heq⟩ := h.admits_of_boundary hp hx
    exact ⟨k, hk, Nat.le_of_eq heq⟩
  · -- the first half may be taken along: it is no blank and makes no further code point
    have hbefore : p.text.Boundary (x - 1 - p.start) := by
      rw [Nat.sub_right_comm]
      exact Text.boundary_of_trailingAt (by omega) (Text.trailingAt_of_leadingAt hlead)
    rw [hp.text_eq, Text.leadingAt_slice (by omega),
      show p.start + (x - p.start - 1) = x - 1 by omega] at hlead
    rw [hp.text_eq, Text.trailingAt_slice (by omega),
      show p.start + (x - p.start) = x - 1 + 1 by omega] at htrail
    have hblank : src.blankAt (x - 1) = false := by
      cases hblank : src.blankAt (x - 1) with
      | false => rfl
      | true =>
        rw [Text.leadingAt_of_blankAt hblank] at hlead
        cases hlead
    have hcount : ∀ b, x < b →
        (src.slice (x - 1) b).codePoints.length = (src.slice x b).codePoints.length := by
      intro b hb
      rw [Text.length_codePoints_slice_pair (by omega) hlead htrail, Nat.sub_add_cancel (by omega)]
    have hmay : MayStart src w p c (x - 1) :=
      ⟨by omega, by omega, hblank, hcount p.stop hlt ▸ h.overlap,
        hcount c.stop (Nat.lt_trans hlt hstop) ▸ h.size⟩
    obtain ⟨k, hk, heq⟩ := hmay.admits_of_boundary hp hbefore
    exact ⟨k, hk, by omega⟩

/-- **Where a chunk starts**, said without the tokens. -/
theorem CarriesMost.startsFirst (h : CarriesMost .codePoint src w p c)
    (hp : p.Located .codePoint src) (hstop : p.stop < c.stop) : StartsFirst src w p c := by
  rcases h with ⟨k, ⟨hk, hmax⟩, hstart⟩ | ⟨hnone, hstart⟩
  · refine Or.inl ⟨hstart ▸ hk.mayStart hp, fun x hx => ?_⟩
    obtain ⟨j, hj, hle⟩ := MayStart.admits hx hp hstop
    have hsize := size_tail_mono p (hmax hj)
    omega
  · refine Or.inr ⟨fun x hx => ?_, hstart⟩
    obtain ⟨j, hj, -⟩ := MayStart.admits hx hp hstop
    exact hnone j hj

end Chunk

/-- **As much is carried over as may be**, for every text and window: with any tokenizer a chunk starts
with the longest tail of the chunk before that may be put in front of it, and with one token for each
code point it starts at the first position in the chunk before at which it may. -/
theorem split_carries_most (w : Window) (src : Text) :
    (∀ tok : Tokenizer, ∃ chunks, splitWatched? .never tok w src = some chunks ∧
      ∀ (i : Nat) (p c : Chunk), chunks[i]? = some p → chunks[i + 1]? = some c →
        Chunk.CarriesMost tok src w p c) ∧
    ∃ chunks, splitWatched? .never .codePoint w src = some chunks ∧
      ∀ (i : Nat) (p c : Chunk), chunks[i]? = some p → chunks[i + 1]? = some c →
        Chunk.StartsFirst src w p c := by
  constructor
  · intro tok
    exact ⟨split tok w src, splitWatched?_never tok w src, fun i p c hp hc =>
      Chunk.split_carriesMost hp hc⟩
  · refine ⟨split .codePoint w src, splitWatched?_never .codePoint w src, fun i p c hp hc => ?_⟩
    have hrow := split_inRow .codePoint w src
    have hlt : c.ownStart < c.stop := (hrow.located_of_mem (List.mem_of_getElem? hc)).own_tight.lt
    exact (Chunk.split_carriesMost hp hc).startsFirst
      (hrow.located_of_mem (List.mem_of_getElem? hp))
      (Nat.lt_of_le_of_lt (hrow.follows hp hc).stop_le hlt)

/-- Eight code points to a chunk, four of which may repeat: only three of `"aaaa"` fit in front of
`"bbbb"`. -/
theorem split_carries_most_shrunk :
    ∃ p c : Chunk,
      splitWatched? .never .codePoint ⟨8, 4, by decide⟩ #[97, 97, 97, 97, 32, 98, 98, 98, 98] =
        some [p, c] ∧ c.start = 1 ∧
      Chunk.CarriesMost .codePoint #[97, 97, 97, 97, 32, 98, 98, 98, 98] ⟨8, 4, by decide⟩ p c ∧
      Chunk.StartsFirst #[97, 97, 97, 97, 32, 98, 98, 98, 98] ⟨8, 4, by decide⟩ p c := by
  obtain ⟨hany, chunks, heq, hfirst⟩ :=
    split_carries_most ⟨8, 4, by decide⟩ #[97, 97, 97, 97, 32, 98, 98, 98, 98]
  obtain ⟨chunks', heq', hmost⟩ := hany .codePoint
  have hsplit : splitWatched? .never .codePoint ⟨8, 4, by decide⟩
      #[97, 97, 97, 97, 32, 98, 98, 98, 98] =
        some [⟨0, #[97, 97, 97, 97], 4, 0, 4, 0⟩,
          ⟨1, #[97, 97, 97, 32, 98, 98, 98, 98], 8, 1, 9, 4⟩] := by
    decide +kernel
  rw [hsplit, Option.some.injEq] at heq heq'
  subst heq heq'
  exact ⟨_, _, hsplit, rfl, hmost 0 _ _ rfl rfl, hfirst 0 _ _ rfl rfl⟩

end Retrieval
