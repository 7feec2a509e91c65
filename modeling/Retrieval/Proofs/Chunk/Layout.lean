import Retrieval.Proofs.Chunk.Regions

/-!
# How chunks lie in their source

`split_layout`: whatever the tokenizer does, every chunk is a trimmed slice of the source with its
exact cost, starts never go back and ends always go on, and what a chunk repeats is a tail of the
chunk before it. Splitting the text of a chunk again gives that chunk alone.
-/

namespace Retrieval

namespace Chunk

/-- What holds of the chunk at position `i` by itself. -/
structure Sound (tok : Tokenizer) (src : Text) (i : Nat) (c : Chunk) : Prop where
  index_eq : c.index = i
  start_lt : c.start < c.stop
  stop_le : c.stop ≤ src.size
  text_eq : c.text = src.slice c.start c.stop
  tokenCount_eq : c.tokenCount = tok.count c.text
  text_tight : c.text.Tight
  ownText_tight : c.ownText.Tight

theorem Located.sound {tok : Tokenizer} {src : Text} {i : Nat} {c : Chunk}
    (h : c.Located tok src) (hi : c.index = i) : c.Sound tok src i := by
  refine ⟨hi, h.lt, h.own_tight.stop_le, h.text_eq, h.tokenCount_eq, h.text_tight, ?_⟩
  rw [h.ownText_eq]
  exact h.own_tight.text

/-- The front of `c` up to the end of `p` is a tail of `p` that is not empty. -/
structure Repeats (src : Text) (p c : Chunk) : Prop where
  start_le : p.start ≤ c.start
  lt_stop : c.start < p.stop
  stop_le : p.stop ≤ c.ownStart
  tail : ∃ front, p.text = front ++ src.slice c.start p.stop

theorem Follows.repeats {tok : Tokenizer} {src : Text} {p c : Chunk} (h : p.Follows c)
    (hp : p.Located tok src) (hpos : 0 < c.overlap) : Repeats src p c := by
  have hlt := h.lt_stop hpos
  refine ⟨h.start_le, hlt, h.stop_le, src.slice p.start c.start, ?_⟩
  rw [hp.text_eq, Text.slice_append h.start_le (Nat.le_of_lt hlt)]

end Chunk

/-- How the chunks of a text lie in it. -/
structure Layout (tok : Tokenizer) (w : Window) (src : Text) (chunks : List Chunk) : Prop where
  sound : ∀ (i : Nat) (c : Chunk), chunks[i]? = some c → c.Sound tok src i
  /-- the start of a chunk and its overlap add up to the start of its segment -/
  own_eq : chunks.map Chunk.own = Span.segmentsOf tok w src
  ordered : chunks.Pairwise fun p c => p.start ≤ c.start ∧ p.stop < c.stop
  first : ∀ c, chunks[0]? = some c → c.overlap = 0
  without : w.overlap = 0 → ∀ c ∈ chunks, c.overlap = 0
  repeats : ∀ (i : Nat) (p c : Chunk), chunks[i]? = some p → chunks[i + 1]? = some c →
    0 < c.overlap → Chunk.Repeats src p c
  /-- the text of a chunk fits any window of the chunk's cost -/
  again : ∀ c ∈ chunks, ∀ w' : Window, c.tokenCount ≤ w'.size →
    splitWatched? .never tok w' c.text = some [⟨0, c.text, c.tokenCount, 0, c.text.size, 0⟩]

/-- A text without blanks at its ends that fits is one chunk. -/
theorem split_of_tight {tok : Tokenizer} {w : Window} {t : Text} (ht : t.Tight)
    (hfits : tok.count t ≤ w.size) : split tok w t = [⟨0, t, tok.count t, 0, t.size, 0⟩] := by
  have htext : (Span.whole t).text t = t := Text.slice_all
  have htight : (Span.whole t).Tight t := Span.Tight.of_text (htext.symm ▸ ht) (Nat.le_refl _)
  have hcost : (Span.whole t).cost tok t = tok.count t := by rw [Span.cost, htext]
  rw [split_eq, Span.segmentsOf, Span.trimmed_of_tight htight, List.flatMap_singleton,
    if_pos (by rw [hcost]; exact hfits)]
  simp only [Chunk.ofSegments, Chunk.ofSegment, Chunk.extended, htext, hcost, Nat.sub_self]
  rfl

/-- **The chunks of a text lie in it in order**, for every text, tokenizer and window. -/
theorem split_layout (tok : Tokenizer) (w : Window) (src : Text) :
    ∃ chunks, splitWatched? .never tok w src = some chunks ∧ Layout tok w src chunks := by
  have hrow := split_inRow tok w src
  refine ⟨split tok w src, splitWatched?_never tok w src, ?_⟩
  have hloc : ∀ c ∈ split tok w src, c.Located tok src := fun c hc => hrow.located_of_mem hc
  constructor
  case sound =>
    intro i c hc
    have hindex := hrow.index_eq hc
    exact (hloc c (List.mem_of_getElem? hc)).sound (by omega)
  case own_eq => exact hrow.map_own
  case ordered => exact hrow.pairwise
  case first =>
    intro c hc
    exact hrow.first_overlap hc
  case without =>
    intro hw c hc
    rcases Nat.eq_zero_or_pos c.overlap with hzero | hpos
    · exact hzero
    · have := (hrow.of_overlap_pos hc hpos).1
      omega
  case repeats =>
    intro i p c hp hc hpos
    exact (hrow.follows hp hc).repeats (hloc p (List.mem_of_getElem? hp)) hpos
  case again =>
    intro c hc w' hfits
    have hsound := hloc c hc
    rw [hsound.tokenCount_eq] at hfits ⊢
    rw [splitWatched?_never, split_of_tight hsound.text_tight hfits]

end Retrieval
