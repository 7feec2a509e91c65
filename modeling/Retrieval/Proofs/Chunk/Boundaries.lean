import Retrieval.Proofs.Chunk.Bound
import Retrieval.Proofs.Text.Decoding

/-!
# Chunks begin and end between code points

`split_between_codePoints`: where the source and what the tokenizer reads back have no half of a pair
that stands alone, no pair stands across the start of a chunk, the start of its own region or its
end. Segments begin and end at boundaries whatever the tokenizer does, since a separator is a blank,
trimming takes blanks, and a cut ends with a code point (`Span.segmentsOf_aligned`). A tail that is
carried over begins where the chunk before has a unit that is no second half (`ofSegment_uncut`).
-/

namespace Retrieval

/-- A separator is a blank, so it begins and ends at a boundary. -/
theorem Separator.boundary {src : Text} {sep : Separator} {i : Nat}
    (h : src.startsAt sep.units i = true) :
    src.Boundary i ∧ src.Boundary (i + sep.units.length) := by
  have hblank := Separator.blankOn h
  have hpos := sep.units_length_pos
  constructor
  · exact Text.boundary_of_blankAt (hblank i (Nat.le_refl _) (by omega))
  · have hlast := hblank (i + sep.units.length - 1) (by omega) (by omega)
    have hnext := Text.boundary_succ_of_blankAt hlast
    rwa [Nat.sub_add_cancel (by omega)] at hnext

namespace Span

variable {tok : Tokenizer} {src : Text} {budget : Nat} {sep : Separator} {w : Window}
variable {s p : Span} {start stop a b pos : Nat} {finer : Span → List Span}
variable {run : Option Run} {parts out : List Span}

/-- The span begins and ends at a boundary of the text. -/
structure Aligned (src : Text) (s : Span) : Prop where
  start : src.Boundary s.start
  stop : src.Boundary s.stop

theorem aligned_whole (src : Text) : (whole src).Aligned src :=
  ⟨Text.boundary_zero src, Text.boundary_size src⟩

/-- Beside the blanks that trimming takes away there are boundaries. -/
theorem TrimOf.aligned (h : p.TrimOf src s) (hs : s.Aligned src) : p.Aligned src := by
  constructor
  · rcases Nat.eq_or_lt_of_le h.start_le with heq | hlt
    · rw [← heq]
      exact hs.start
    · have hblank := h.before (p.start - 1) (by omega) (by omega)
      have hnext := Text.boundary_succ_of_blankAt hblank
      rwa [Nat.sub_add_cancel (by omega)] at hnext
  · rcases Nat.eq_or_lt_of_le h.le_stop with heq | hlt
    · rw [heq]
      exact hs.stop
    · exact Text.boundary_of_blankAt (h.after p.stop (Nat.le_refl _) hlt)

theorem aligned_of_mem_trimmed (hp : p ∈ trimmed src s) (h : s.start ≤ s.stop)
    (hs : s.Aligned src) : p.Aligned src :=
  ((mem_trimmed_iff h hs.stop.le_size).mp hp).aligned hs

/-! ## Parts between separators -/

theorem aligned_of_mem_partsFrom (hp : p ∈ partsFrom src sep stop start)
    (hstart : src.Boundary start) (hstop : src.Boundary stop) : p.Aligned src := by
  fun_induction partsFrom src sep stop start with
  | case1 start hle next here hnext =>
    exact aligned_of_mem_trimmed hp (le_partEnd hle) ⟨hstart, hnext.symm ▸ hstop⟩
  | case2 start hle next here hnext ih =>
    rcases partEnd_cases src sep stop start with hend | ⟨hsep, _⟩
    · exact absurd hend hnext
    · obtain ⟨hhere, hbehind⟩ := Separator.boundary hsep
      rcases List.mem_append.mp hp with hp | hp
      · exact aligned_of_mem_trimmed hp (le_partEnd hle) ⟨hstart, hhere⟩
      · exact ih hp hbehind
  | case3 => cases hp

theorem aligned_of_mem_parts (hp : p ∈ s.parts src sep) (hs : s.Aligned src) : p.Aligned src :=
  aligned_of_mem_partsFrom hp hs.start hs.stop

/-! ## Cuts between code points -/

/-- Each code point of a run of units ends at a boundary, if the run itself does. -/
theorem boundary_of_mem_codePointEnds (pos : Nat) (units : List UInt16)
    (h : ∀ k, k < units.length → src[pos + k]? = units[k]?)
    (hend : src.Boundary (pos + units.length)) (hb : b ∈ codePointEnds pos units) :
    src.Boundary b := by
  have hle := hend.le_size
  fun_induction codePointEnds pos units with
  | case1 => cases hb
  | case2 pos u =>
    obtain rfl := List.mem_singleton.mp hb
    exact hend
  | case3 pos u v rest hpair ih =>
    simp only [List.length_cons] at hle
    rcases List.mem_cons.mp hb with rfl | hb
    · -- the second half is no first half
      simp only [Bool.and_eq_true] at hpair
      apply Text.boundary_of_leadingAt (by omega)
      have hv : src[pos + 1]? = some v := h 1 (by simp)
      rw [show pos + 2 - 1 = pos + 1 by omega, Text.leadingAt, hv]
      exact Text.isLeading_of_isTrailing hpair.2
    · refine ih (fun k hk => ?_) ?_ hb (by omega)
      · rw [Nat.add_right_comm, Nat.add_assoc, h (k + 2) (by simpa using hk)]
        rfl
      · rwa [List.length_cons, List.length_cons, show pos + (rest.length + 1 + 1) =
          pos + 2 + rest.length by omega] at hend
  | case4 pos u v rest hpair ih =>
    simp only [List.length_cons] at hle
    rcases List.mem_cons.mp hb with rfl | hb
    · -- the two units are no pair
      refine ⟨by omega, fun _ hlead => ?_⟩
      have hu : src[pos]? = some u := h 0 (by simp)
      have hv : src[pos + 1]? = some v := h 1 (by simp)
      rw [Nat.add_sub_cancel, Text.leadingAt, hu] at hlead
      rw [Text.trailingAt, hv]
      simpa [show Text.isLeading u = true from hlead] using hpair
    · refine ih (fun k hk => ?_) ?_ hb (by simp only [List.length_cons]; omega)
      · rw [Nat.add_right_comm, Nat.add_assoc, h (k + 1) (by simpa using hk)]
        rfl
      · rwa [List.length_cons, List.length_cons, show pos + (rest.length + 1 + 1) =
          pos + 1 + (rest.length + 1) by omega] at hend

theorem boundary_boundaries {j : Nat} (hs : s.Aligned src) (hle : s.start ≤ s.stop)
    (hj : j < (boundaries src s).size) : src.Boundary ((boundaries src s).getD j 0) := by
  cases j with
  | zero =>
    rw [boundaries_first]
    exact hs.start
  | succ j =>
    have hlen : j < (codePointEnds s.start (s.text src).toList).length := by
      simpa [boundaries] using hj
    have hsize : (s.text src).toList.length = s.stop - s.start := by
      rw [Array.length_toList, Span.text, Text.size_slice hs.stop.le_size]
    rw [Array.getD_eq_getD_getElem?, boundaries, List.getElem?_toArray, List.getElem?_cons_succ,
      List.getElem?_eq_getElem hlen, Option.getD_some]
    apply boundary_of_mem_codePointEnds s.start (s.text src).toList _ _ (List.getElem_mem hlen)
    · intro k hk
      rw [Array.getElem?_toList, Span.text, Text.getElem?_slice (by omega)]
    · rw [hsize, Nat.add_sub_cancel' hle]
      exact hs.stop

theorem aligned_of_mem_cuts (hp : p ∈ cuts tok src budget s) (hs : s.Aligned src)
    (hle : s.start ≤ s.stop) : p.Aligned src := by
  obtain ⟨k, next, hlt, hnext, htrim, _⟩ := trimOf_of_mem_cuts hp
  exact htrim.aligned
    ⟨boundary_boundaries hs hle (Nat.lt_trans hlt hnext), boundary_boundaries hs hle hnext⟩

/-! ## Segments -/

/-- Merging keeps boundaries: a run begins where a part does and ends where one does. -/
theorem Merges.aligned (hm : Merges tok src budget finer run parts out)
    (hfiner : ∀ t : Span, t.Tight src → t.Aligned src → ∀ q ∈ finer t, q.Aligned src)
    (h : Tiling src a ((run.map Run.span).toList ++ parts) b)
    (hparts : ∀ q ∈ (run.map Run.span).toList ++ parts, q.Aligned src) (hp : p ∈ out) :
    p.Aligned src := by
  induction hm generalizing a with
  | done => cases hp
  | @settle r parts _ _ ih =>
    have hr := hparts r.span (List.mem_cons_self ..)
    rcases List.mem_append.mp hp with hp | hp
    · rw [Span.settle] at hp
      split at hp
      · exact hfiner r.span h.head_tight hr p hp
      · obtain rfl := List.mem_singleton.mp hp
        exact hr
    · exact ih h.tail (fun q hq => hparts q (List.mem_cons_of_mem _ hq)) hp
  | @large part rest _ _ _ ih =>
    rcases List.mem_append.mp hp with hp | hp
    · exact hfiner part h.head_tight (hparts part (List.mem_cons_self ..)) p hp
    · exact ih h.tail (fun q hq => hparts q (List.mem_cons_of_mem _ hq)) hp
  | start _ _ ih => exact ih h hparts hp
  | @extend r grown part rest _ _ hext _ ih =>
    refine ih (h.extend hext) (fun q hq => ?_) hp
    have hr := hparts r.span (List.mem_cons_self ..)
    have hpart := hparts part (List.mem_cons_of_mem _ (List.mem_cons_self ..))
    rcases List.mem_cons.mp hq with rfl | hq
    · rw [(extend?_eq_some hext).1]
      exact ⟨hr.start, hpart.stop⟩
    · exact hparts q (List.mem_cons_of_mem _ (List.mem_cons_of_mem _ hq))

theorem segments_aligned {separators : List Separator} (hs : s.Tight src) (ha : s.Aligned src)
    (hp : p ∈ segments tok src budget separators s) : p.Aligned src := by
  induction separators generalizing s p with
  | nil =>
    rw [segments] at hp
    split at hp
    · obtain rfl := List.mem_singleton.mp hp
      exact ha
    · exact aligned_of_mem_cuts hp ha (Nat.le_of_lt hs.lt)
  | cons sep finer ih =>
    rw [segments] at hp
    split at hp
    · obtain rfl := List.mem_singleton.mp hp
      exact ha
    · split at hp
      · exact (merges_merge tok src budget _ none _).aligned (fun t ht hta q hq => ih ht hta hq)
          (parts_tiling hs) (fun q hq => aligned_of_mem_parts hq ha) hp
      · exact ih hs ha hp

/-- **Every segment begins and ends at a boundary**, whatever the tokenizer does. -/
theorem segmentsOf_aligned (hp : p ∈ segmentsOf tok w src) : p.Aligned src := by
  obtain ⟨s, hs, hp⟩ := List.mem_flatMap.mp hp
  have htrim := (mem_trimmed_iff (Nat.zero_le _) (Nat.le_refl _)).mp hs
  have ha := htrim.aligned (aligned_whole src)
  split at hp
  · obtain rfl := List.mem_singleton.mp hp
    exact ha
  · exact segments_aligned htrim.tight ha hp

end Span

/-! ## Chunks -/

namespace Chunk

variable {tok : Tokenizer} {src : Text} {w : Window} {c : Chunk} {previous : Option Chunk}
variable {segment : Span} {segments : List Span} {a b i : Nat}

/-- No pair of halves stands across the start of the chunk, that of its own region, or its end. -/
structure Uncut (src : Text) (c : Chunk) : Prop where
  start : src.Boundary c.start
  own : c.own.Aligned src

/-- **One step**: the own region of the chunk is the segment, and a tail that is put before it begins
at a boundary, because what the tokens read as does not begin with a second half. -/
theorem ofSegment_uncut (hdecode : ∀ tokens, (tok.decode tokens).Paired) (hs : segment.Tight src)
    (ha : segment.Aligned src)
    (hp : ∀ p, previous = some p → p.Located tok src ∧ p.stop ≤ segment.start) :
    (ofSegment tok src w i previous segment).Uncut src := by
  have hown := (ofSegment_spec (w := w) (i := i) hs hp).1
  refine ⟨?_, hown.symm ▸ ha⟩
  rcases extended_cases tok src w previous segment with heq | ⟨p, rfl, _, hcar⟩
  · simp only [ofSegment, heq]
    exact ha.start
  · have hloc := (hp p rfl).1
    obtain ⟨_, hlt, tokens, hpos, hfirst⟩ := tail_of_carried? hloc hcar
    have hle : p.stop ≤ src.size := hloc.own_tight.stop_le
    apply Text.boundary_of_trailingAt (Nat.le_of_lt (Nat.lt_of_lt_of_le hlt hle))
    have hzero := (hdecode tokens).trimStart.trailingAt_zero
    rw [Text.trailingAt] at hzero ⊢
    rw [← hzero, ← hfirst]

theorem ofSegments_uncut (hdecode : ∀ tokens, (tok.decode tokens).Paired)
    (h : Span.Tiling src a segments b) (ha : ∀ s ∈ segments, s.Aligned src)
    (hp : ∀ p, previous = some p → p.Located tok src ∧ p.stop ≤ a)
    (hc : c ∈ ofSegments tok src w i previous segments) : c.Uncut src := by
  induction h generalizing i previous with
  | blank => cases hc
  | @span a b s rest hs _ ht _ ih =>
    have hprev : ∀ p, previous = some p → p.Located tok src ∧ p.stop ≤ s.start := fun p hprev =>
      ⟨(hp p hprev).1, Nat.le_trans (hp p hprev).2 hs⟩
    rcases List.mem_cons.mp hc with rfl | hc
    · exact ofSegment_uncut hdecode ht (ha s (List.mem_cons_self ..)) hprev
    · refine ih (fun q hq => ha q (List.mem_cons_of_mem _ hq)) (fun q hq => ?_) hc
      obtain rfl := Option.some.inj hq
      obtain ⟨hown, hloc, _⟩ := ofSegment_spec (w := w) (i := i) ht hprev
      have hstop : (ofSegment tok src w i previous s).own.stop = s.stop := by rw [hown]
      exact ⟨hloc, Nat.le_of_eq hstop⟩

end Chunk

/-- **No code point is cut.** Where neither the source nor what the tokenizer reads back has half of a
pair alone, every chunk begins and ends at a boundary and so does what it repeats, and no text of a
chunk has half of a pair alone. -/
theorem split_between_codePoints (tok : Tokenizer) (w : Window) (src : Text) (hsrc : src.Paired)
    (hdecode : ∀ tokens, (tok.decode tokens).Paired) :
    ∃ chunks, splitWatched? .never tok w src = some chunks ∧
      ∀ c ∈ chunks, src.Boundary c.start ∧ src.Boundary (c.start + c.overlap) ∧
        src.Boundary c.stop ∧ c.text.Paired ∧ c.ownText.Paired := by
  refine ⟨split tok w src, splitWatched?_never tok w src, ?_⟩
  intro c hc
  have hloc := (split_inRow tok w src).located_of_mem hc
  rw [split_eq] at hc
  have huncut : c.Uncut src := Chunk.ofSegments_uncut hdecode (Span.segmentsOf_tiling tok w src)
    (fun s hs => Span.segmentsOf_aligned hs) (fun p hp => by cases hp) hc
  refine ⟨huncut.start, huncut.own.start, huncut.own.stop, ?_, ?_⟩
  · rw [hloc.text_eq]
    exact hsrc.slice huncut.start huncut.own.stop
  · rw [hloc.ownText_eq]
    exact hsrc.slice huncut.own.start huncut.own.stop

/-- Nine bytes to a chunk, five of which may repeat: the last five bytes of `"😀é"` cut the first
character, and so only the second is repeated. -/
theorem split_between_codePoints_byte :
    (Text.ofCodePoints [0x1F600, 0xE9, 0x20, 0x1F600, 0x61, 0x1F600]).Paired ∧
      (∀ tokens, (Tokenizer.byte.decode tokens).Paired) ∧
      ∃ chunks, splitWatched? .never .byte ⟨9, 5, by decide⟩
          (Text.ofCodePoints [0x1F600, 0xE9, 0x20, 0x1F600, 0x61, 0x1F600]) = some chunks ∧
        ∀ c ∈ chunks, c.text.Paired ∧ c.ownText.Paired := by
  have hsrc : (Text.ofCodePoints [0x1F600, 0xE9, 0x20, 0x1F600, 0x61, 0x1F600]).Paired :=
    Text.paired_ofCodePoints (by decide)
  have hdecode := Tokenizer.paired_decode_byte
  obtain ⟨chunks, heq, hchunks⟩ := split_between_codePoints .byte ⟨9, 5, by decide⟩ _ hsrc hdecode
  refine ⟨hsrc, hdecode, chunks, heq, fun c hc => ?_⟩
  obtain ⟨_, _, _, htext, hown⟩ := hchunks c hc
  exact ⟨htext, hown⟩

end Retrieval
