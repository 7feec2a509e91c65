import Retrieval.Proofs.Chunk.Segments

/-!
# Own regions and the overlap before them

A chunk is made from a segment and the chunk before it. The step lemma is `Chunk.ofSegment_spec`:
the own region of the chunk is the segment, and what is put before it is a tail of the chunk
before, whatever the tokenizer reads back. `Chunk.ofSegments_inRow` carries this along all segments,
and `split_inRow` says it of a whole text.
-/

namespace Retrieval

/-! ## Ends of texts -/

namespace Text

variable {t tail : Text}

theorem blankAt_trimStart (h : 0 < t.trimStart.size) : t.trimStart.blankAt 0 = false := by
  have hlt : t.skipBlank 0 t.size < t.size := by
    rw [trimStart, size_slice (Nat.le_refl _)] at h
    omega
  rw [trimStart, blankAt_slice (by omega)]
  exact blankAt_skipBlank hlt

theorem endsWith_iff :
    t.endsWith tail = true ↔ tail.size ≤ t.size ∧ t.slice (t.size - tail.size) t.size = tail := by
  simp [endsWith]

theorem endsWith_iff_append : t.endsWith tail = true ↔ ∃ front, t = front ++ tail := by
  rw [endsWith_iff]
  constructor
  · rintro ⟨hle, hslice⟩
    have hsplit := slice_append (t := t) (Nat.zero_le (t.size - tail.size)) (Nat.sub_le ..)
    rw [hslice, slice_all] at hsplit
    exact ⟨t.slice 0 (t.size - tail.size), hsplit.symm⟩
  · rintro ⟨front, rfl⟩
    simp [slice]

end Text

namespace Chunk

variable {tok : Tokenizer} {src : Text} {w : Window} {p c : Chunk} {previous : Option Chunk}
variable {segment e : Span} {segments : List Span} {chunks : List Chunk} {size take i : Nat}

/-! ## One chunk -/

def own (c : Chunk) : Span := ⟨c.ownStart, c.stop⟩

/-- The chunk is a slice of the source with its cost, it begins without a blank, and so does its own
region, which is not empty and ends without one. -/
structure Located (tok : Tokenizer) (src : Text) (c : Chunk) : Prop where
  text_eq : c.text = src.slice c.start c.stop
  tokenCount_eq : c.tokenCount = tok.count c.text
  first : src.blankAt c.start = false
  own_tight : c.own.Tight src

theorem start_le_ownStart (c : Chunk) : c.start ≤ c.ownStart := Nat.le_add_right ..

theorem Located.lt (h : c.Located tok src) : c.start < c.stop :=
  Nat.lt_of_le_of_lt c.start_le_ownStart h.own_tight.lt

theorem Located.tight (h : c.Located tok src) : Span.Tight src ⟨c.start, c.stop⟩ :=
  ⟨h.lt, h.own_tight.stop_le, h.first, h.own_tight.last⟩

theorem Located.text_tight (h : c.Located tok src) : c.text.Tight := by
  rw [h.text_eq]
  exact h.tight.text

theorem Located.size_text (h : c.Located tok src) : c.text.size = c.stop - c.start := by
  rw [h.text_eq]
  exact Text.size_slice h.own_tight.stop_le

/-- A tail of a chunk lies in the source where it ends with the chunk. -/
theorem Located.slice_tail {t : Text} (hp : p.Located tok src) (h : ∃ front, p.text = front ++ t) :
    t.size ≤ p.stop - p.start ∧ src.slice (p.stop - t.size) p.stop = t := by
  obtain ⟨front, hfront⟩ := h
  have hsize := congrArg Array.size hfront
  rw [hp.size_text, Array.size_append] at hsize
  rw [hp.text_eq] at hfront
  exact ⟨by omega, Text.slice_back (Nat.le_of_lt hp.lt) hp.own_tight.stop_le hfront⟩

/-- Such a tail begins inside the chunk, with its first unit. -/
theorem Located.first_of_tail {t : Text} (hp : p.Located tok src) (hpos : 0 < t.size)
    (h : ∃ front, p.text = front ++ t) :
    p.start ≤ p.stop - t.size ∧ p.stop - t.size < p.stop ∧ src[p.stop - t.size]? = t[0]? := by
  obtain ⟨hle, hslice⟩ := hp.slice_tail h
  have hlt := hp.lt
  have hfirst := Text.getElem?_slice (t := src) (a := p.stop - t.size) (b := p.stop) (i := 0)
    (by omega)
  rw [hslice, Nat.add_zero] at hfirst
  exact ⟨by omega, by omega, hfirst.symm⟩

/-- The own text is the source over the own region. -/
theorem Located.ownText_eq (h : c.Located tok src) : c.ownText = c.own.text src := by
  have hlt := h.lt
  rw [ownText, h.size_text, h.text_eq, Text.slice_slice (by omega)]
  rw [show c.start + (c.stop - c.start) = c.stop by omega]
  rfl

/-- The chunk `c` comes after `p`: its own region begins where `p` has ended, and what it repeats
is a tail of `p`. -/
structure Follows (p c : Chunk) : Prop where
  stop_le : p.stop ≤ c.ownStart
  start_le : p.start ≤ c.start
  lt_stop : 0 < c.overlap → c.start < p.stop

/-! ## What is carried over -/

/-- What is carried over is the text of some last tokens without its leading blanks; it ends the
chunk before, and the segment extended over it fits. -/
theorem carried?_eq_some {tokens : List tok.Token}
    (h : carried? tok src size p tokens segment take = some e) :
    ∃ k ≤ take, ∃ tail, tail = (tok.decode (tokens.drop (tokens.length - k))).trimStart ∧
      0 < tail.size ∧ p.text.endsWith tail = true ∧ e = ⟨p.stop - tail.size, segment.stop⟩ ∧
      e.cost tok src ≤ size := by
  induction take with
  | zero => cases h
  | succ take ih =>
    rw [carried?] at h
    split at h
    · next hc =>
      simp only [Bool.and_eq_true, Bool.not_eq_true', Array.isEmpty, decide_eq_false_iff_not,
        decide_eq_true_eq] at hc
      obtain ⟨⟨hne, hends⟩, hfits⟩ := hc
      cases h
      exact ⟨take + 1, Nat.le_refl _, _, rfl, Nat.pos_of_ne_zero hne, hends, rfl, hfits⟩
    · obtain ⟨k, hk, htail⟩ := ih h
      exact ⟨k, Nat.le_succ_of_le hk, htail⟩

/-- A carried tail begins inside the chunk before, with the first unit of what the tokens read as. -/
theorem tail_of_carried? {tokens : List tok.Token} (hp : p.Located tok src)
    (h : carried? tok src size p tokens segment take = some e) :
    p.start ≤ e.start ∧ e.start < p.stop ∧
      ∃ tokens, 0 < (tok.decode tokens).trimStart.size ∧
        src[e.start]? = (tok.decode tokens).trimStart[0]? := by
  obtain ⟨k, _, tail, htail, hpos, hends, rfl, _⟩ := carried?_eq_some h
  obtain ⟨hstart, hstop, hfirst⟩ := hp.first_of_tail hpos (Text.endsWith_iff_append.mp hends)
  exact ⟨hstart, hstop, _, htail ▸ hpos, htail ▸ hfirst⟩

/-- What is carried over does not begin with a blank. -/
theorem start_of_carried? {tokens : List tok.Token} (hp : p.Located tok src)
    (h : carried? tok src size p tokens segment take = some e) :
    p.start ≤ e.start ∧ e.start < p.stop ∧ src.blankAt e.start = false := by
  obtain ⟨hstart, hstop, tokens, hpos, hfirst⟩ := tail_of_carried? hp h
  refine ⟨hstart, hstop, ?_⟩
  rw [Text.blankAt, hfirst]
  exact Text.blankAt_trimStart hpos

/-- The segment is extended over a tail of the chunk before so that it fits, or not at all. -/
theorem extended_cases (tok : Tokenizer) (src : Text) (w : Window) (previous : Option Chunk)
    (segment : Span) :
    extended tok src w previous segment = segment ∨
      ∃ p, previous = some p ∧ 0 < w.overlap ∧
        carried? tok src w.size p (tok.encode p.text) segment
          (min w.overlap (tok.encode p.text).length) =
            some (extended tok src w previous segment) := by
  cases previous with
  | none => exact Or.inl rfl
  | some p =>
    by_cases hw : w.overlap = 0
    · exact Or.inl (by simp [extended, hw])
    · cases hc : carried? tok src w.size p (tok.encode p.text) segment
        (min w.overlap (tok.encode p.text).length) with
      | none => exact Or.inl (by simp [extended, hw, hc])
      | some e => exact Or.inr ⟨p, rfl, by omega, by simp [extended, hw, hc]⟩

/-- **One step.** The own region of a chunk is its segment, and the chunk follows the one before. It
repeats something only where the window asks for it, there is a chunk before, and the whole fits. -/
theorem ofSegment_spec (hs : segment.Tight src)
    (hp : ∀ p, previous = some p → p.Located tok src ∧ p.stop ≤ segment.start) :
    (ofSegment tok src w i previous segment).own = segment ∧
      (ofSegment tok src w i previous segment).Located tok src ∧
      (∀ p, previous = some p → p.Follows (ofSegment tok src w i previous segment)) ∧
      (0 < (ofSegment tok src w i previous segment).overlap →
        previous.isSome ∧ 0 < w.overlap ∧
          (ofSegment tok src w i previous segment).tokenCount ≤ w.size) := by
  have hlt := hs.lt
  rcases extended_cases tok src w previous segment with heq | ⟨p, rfl, hw, hcar⟩
  · -- nothing is carried over
    have hown : (ofSegment tok src w i previous segment).own = segment := by
      simp [own, ownStart, ofSegment, heq]
    refine ⟨hown, ⟨rfl, rfl, ?_, hown.symm ▸ hs⟩, ?_, ?_⟩
    · simpa [ofSegment, heq] using hs.first
    · intro p hprev
      obtain ⟨hloc, hle⟩ := hp p hprev
      have hpos := hloc.lt
      refine ⟨?_, ?_, ?_⟩
      · simpa [ownStart, ofSegment, heq] using hle
      · simp only [ofSegment, heq]
        omega
      · simp [ofSegment, heq]
    · simp [ofSegment, heq]
  · -- a tail of `p` is carried over
    obtain ⟨hloc, hle⟩ := hp p rfl
    obtain ⟨hstart, hstop, hblank⟩ := start_of_carried? hloc hcar
    obtain ⟨_, _, tail, _, _, _, he, hfits⟩ := carried?_eq_some hcar
    have hsegstop : (extended tok src w (some p) segment).stop = segment.stop := by rw [he]
    have hsum : (extended tok src w (some p) segment).start +
        (segment.start - (extended tok src w (some p) segment).start) = segment.start := by omega
    have hown : (ofSegment tok src w i (some p) segment).own = segment := by
      simp [own, ownStart, ofSegment, hsum, hsegstop]
    refine ⟨hown, ⟨rfl, rfl, hblank, hown.symm ▸ hs⟩, ?_, fun _ => ⟨rfl, hw, hfits⟩⟩
    intro q hq
    cases hq
    exact ⟨by simpa [ownStart, ofSegment, hsum] using hle, hstart, fun _ => hstop⟩

/-! ## All chunks -/

/-- The chunks over segments in a row: numbered from `i` on, each one located over its segment and
following the one before, and the first of them following `previous`. -/
inductive InRow (tok : Tokenizer) (src : Text) (w : Window) :
    Nat → Option Chunk → List Span → List Chunk → Prop
  | nil {i : Nat} {previous : Option Chunk} : InRow tok src w i previous [] []
  | cons {i : Nat} {previous : Option Chunk} {c : Chunk} {segments : List Span}
      {chunks : List Chunk} :
      c.index = i → c.Located tok src → (∀ p, previous = some p → p.Follows c) →
        (0 < c.overlap → previous.isSome ∧ 0 < w.overlap ∧ c.tokenCount ≤ w.size) →
          InRow tok src w (i + 1) (some c) segments chunks →
            InRow tok src w i previous (c.own :: segments) (c :: chunks)

theorem ofSegments_inRow {a b : Nat} (h : Span.Tiling src a segments b)
    (hp : ∀ p, previous = some p → p.Located tok src ∧ p.stop ≤ a) :
    InRow tok src w i previous segments (ofSegments tok src w i previous segments) := by
  induction h generalizing i previous with
  | blank => exact .nil
  | @span a b s rest hs _ ht hrest ih =>
    obtain ⟨hown, hloc, hfollows, hover⟩ := ofSegment_spec (w := w) (i := i) ht fun p hprev =>
      ⟨(hp p hprev).1, Nat.le_trans (hp p hprev).2 hs⟩
    have hnext : ∀ q, some (ofSegment tok src w i previous s) = some q →
        q.Located tok src ∧ q.stop ≤ s.stop := by
      intro q hq
      cases hq
      have hstop : (ofSegment tok src w i previous s).own.stop = s.stop := by rw [hown]
      exact ⟨hloc, Nat.le_of_eq hstop⟩
    have hrow := InRow.cons rfl hloc hfollows hover (ih hnext)
    rwa [hown] at hrow

namespace InRow

theorem map_own (h : InRow tok src w i previous segments chunks) : chunks.map own = segments := by
  induction h with
  | nil => rfl
  | cons _ _ _ _ _ ih => rw [List.map_cons, ih]

theorem located_of_mem (h : InRow tok src w i previous segments chunks) (hc : c ∈ chunks) :
    c.Located tok src := by
  induction h with
  | nil => cases hc
  | cons _ hloc _ _ _ ih =>
    rcases List.mem_cons.mp hc with rfl | hc
    · exact hloc
    · exact ih hc

theorem of_overlap_pos (h : InRow tok src w i previous segments chunks) (hc : c ∈ chunks)
    (hpos : 0 < c.overlap) : 0 < w.overlap ∧ c.tokenCount ≤ w.size := by
  induction h with
  | nil => cases hc
  | cons _ _ _ hover _ ih =>
    rcases List.mem_cons.mp hc with rfl | hc
    · exact (hover hpos).2
    · exact ih hc

theorem index_eq {k : Nat} (h : InRow tok src w i previous segments chunks)
    (hc : chunks[k]? = some c) : c.index = i + k := by
  induction h generalizing k with
  | nil => cases hc
  | cons hindex _ _ _ _ ih =>
    cases k with
    | zero =>
      cases hc
      exact hindex
    | succ k =>
      rw [ih hc]
      omega

theorem first_overlap (h : InRow tok src w i none segments chunks) (hc : chunks[0]? = some c) :
    c.overlap = 0 := by
  cases h with
  | nil => cases hc
  | cons _ _ _ hover _ =>
    cases hc
    rcases Nat.eq_zero_or_pos c.overlap with hzero | hpos
    · exact hzero
    · exact absurd (hover hpos).1 (by simp)

theorem follows {k : Nat} (h : InRow tok src w i previous segments chunks)
    (hp : chunks[k]? = some p) (hc : chunks[k + 1]? = some c) : p.Follows c := by
  induction h generalizing k with
  | nil => cases hp
  | cons _ _ _ _ hrest ih =>
    cases k with
    | zero =>
      cases hp
      cases hrest with
      | nil => cases hc
      | cons _ _ hfollows _ _ =>
        cases hc
        exact hfollows _ rfl
    | succ k => exact ih hp hc

/-- Starts never go back and ends always go on, counted from the chunk before on. -/
theorem bounds_of_mem (h : InRow tok src w i (some p) segments chunks) (hc : c ∈ chunks) :
    p.start ≤ c.start ∧ p.stop < c.stop := by
  induction segments generalizing i p chunks with
  | nil =>
    cases h
    cases hc
  | cons s segments ih =>
    cases h with
    | @cons _ _ d _ chunks _ hloc hfollows _ hrest =>
      have hd := hfollows _ rfl
      have hlt : d.ownStart < d.stop := hloc.own_tight.lt
      have hstep : p.start ≤ d.start ∧ p.stop < d.stop :=
        ⟨hd.start_le, Nat.lt_of_le_of_lt hd.stop_le hlt⟩
      rcases List.mem_cons.mp hc with rfl | hc
      · exact hstep
      · have := ih hrest hc
        omega

theorem pairwise (h : InRow tok src w i previous segments chunks) :
    chunks.Pairwise fun p c => p.start ≤ c.start ∧ p.stop < c.stop := by
  induction h with
  | nil => exact List.Pairwise.nil
  | cons _ _ _ _ hrest ih => exact List.Pairwise.cons (fun _ hc => hrest.bounds_of_mem hc) ih

end InRow
end Chunk

/-! ## A whole text -/

namespace Span

variable {tok : Tokenizer} {src : Text} {w : Window}

/-- The segments of a text: none of a blank one, the text without the blanks around it where that
fits the window, and else what it is cut into. -/
def segmentsOf (tok : Tokenizer) (w : Window) (src : Text) : List Span :=
  (trimmed src (whole src)).flatMap fun s =>
    if s.cost tok src ≤ w.size then [s] else segments tok src w.budget Separator.all s

theorem segmentsOf_tiling (tok : Tokenizer) (w : Window) (src : Text) :
    Tiling src 0 (segmentsOf tok w src) src.size := by
  have hwhole : (whole src).stop ≤ src.size := Nat.le_refl _
  rcases trimmed_cases (Nat.zero_le _) hwhole with ⟨hnil, hblank⟩ | ⟨s, hs, htrim⟩
  · rw [segmentsOf, hnil]
    exact .blank (Nat.zero_le _) hblank
  · rw [segmentsOf, hs, List.flatMap_singleton]
    have hinner : Tiling src s.start (if s.cost tok src ≤ w.size then [s]
        else segments tok src w.budget Separator.all s) s.stop := by
      split
      · exact Tiling.single htrim.tight
      · exact segments_tiling _ htrim.tight
    exact (hinner.pad_left (Nat.zero_le _) htrim.before).pad_right htrim.le_stop htrim.after

end Span

variable {tok : Tokenizer} {src : Text} {w : Window}

theorem split_eq (tok : Tokenizer) (w : Window) (src : Text) :
    split tok w src = Chunk.ofSegments tok src w 0 none (Span.segmentsOf tok w src) := by
  by_cases hlt : ((Span.whole src).trim src).start < ((Span.whole src).trim src).stop
  · have hempty : ((Span.whole src).trim src).isEmpty = false := by
      simp only [Span.isEmpty, decide_eq_false_iff_not]
      omega
    simp only [split, Span.segmentsOf, Span.trimmed, hempty, if_pos hlt, List.flatMap_singleton,
      Bool.false_eq_true, if_false]
    split
    · simp [Chunk.ofSegments, Chunk.ofSegment, Chunk.extended]
    · rfl
  · have hempty : ((Span.whole src).trim src).isEmpty = true := by
      simp only [Span.isEmpty, decide_eq_true_eq]
      omega
    simp [split, Span.segmentsOf, Span.trimmed, hempty, hlt, Chunk.ofSegments]

theorem split_inRow (tok : Tokenizer) (w : Window) (src : Text) :
    Chunk.InRow tok src w 0 none (Span.segmentsOf tok w src) (split tok w src) := by
  rw [split_eq]
  exact Chunk.ofSegments_inRow (Span.segmentsOf_tiling tok w src) fun p hp => by cases hp

/-- The own regions of the chunks are the segments. -/
theorem map_own_split (tok : Tokenizer) (w : Window) (src : Text) :
    (split tok w src).map Chunk.own = Span.segmentsOf tok w src :=
  (split_inRow tok w src).map_own

theorem own_mem_segmentsOf {c : Chunk} (hc : c ∈ split tok w src) :
    c.own ∈ Span.segmentsOf tok w src := by
  rw [← map_own_split]
  exact List.mem_map_of_mem hc

/-! ## Without a signal -/

theorem Watch.pass?_never {α : Type} (l : List α) : Watch.never.pass? l = some l := by
  induction l with
  | nil => rfl
  | cons a l ih => simp [Watch.pass?, Watch.read?, ih]

/-- Where no signal ends the work, the split gives its chunks. -/
theorem splitWatched?_never (tok : Tokenizer) (w : Window) (src : Text) :
    splitWatched? .never tok w src = some (split tok w src) := by
  have hbudget : w.budget ≤ w.size := Nat.sub_le ..
  simp only [splitWatched?, Watch.read?, Option.bind_some, split]
  split
  · rfl
  · split
    · rfl
    · next hcost =>
      have hcut : ¬ ((Span.whole src).trim src).cost tok src ≤ w.budget := by omega
      conv => rhs; rw [Separator.all, Span.segments, if_neg hcut]
      split
      · rw [Watch.pass?_never]
        rfl
      · rfl

end Retrieval
