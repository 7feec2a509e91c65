import Retrieval.Proofs.Chunk.Regions

/-!
# Splitting loses nothing but blanks

`split_lossless`: whatever the tokenizer does, the own regions of the chunks of a text are disjoint
intervals of it in increasing order, and every unit that is not blank lies in exactly one of them.
-/

namespace Retrieval

/-- The unit at `i` lies in the chunk's own region. -/
def Chunk.owns (c : Chunk) (i : Nat) : Bool := c.ownStart ≤ i && i < c.stop

/-- The own regions of the chunks hold all of the source but blanks, and each unit once. -/
structure Lossless (src : Text) (chunks : List Chunk) : Prop where
  /-- no own region is empty, and each lies in the text -/
  region : ∀ c ∈ chunks, c.ownStart < c.stop ∧ c.stop ≤ src.size
  /-- each ends before the later ones begin -/
  ordered : chunks.Pairwise fun p c => p.stop ≤ c.ownStart
  /-- the own text is the source over the own region -/
  ownText_eq : ∀ c ∈ chunks, c.ownText = src.slice c.ownStart c.stop
  /-- a unit that is not blank belongs to exactly one chunk -/
  once : ∀ i, i < src.size → src.blankAt i = false → chunks.countP (·.owns i) = 1
  /-- before, between and after the own regions there are only blanks -/
  gaps : ∀ i, i < src.size → (∀ c ∈ chunks, c.owns i = false) → src.blankAt i = true
  /-- without blanks, the own texts together are the text -/
  visible_eq : chunks.flatMap (fun c => c.ownText.visible) = src.visible

/-- Located chunks whose own regions tile a text lose nothing of it. -/
theorem Lossless.of_tiling {tok : Tokenizer} {src : Text} {chunks : List Chunk}
    (hloc : ∀ c ∈ chunks, c.Located tok src)
    (h : Span.Tiling src 0 (chunks.map Chunk.own) src.size) : Lossless src chunks := by
  have once : ∀ i, i < src.size → src.blankAt i = false → chunks.countP (·.owns i) = 1 := by
    intro i hi hblank
    rw [← h.countP_has (Nat.zero_le i) hi hblank, List.countP_map]
    rfl
  refine ⟨?_, ?_, ?_, once, ?_, ?_⟩
  · intro c hc
    have htight := (hloc c hc).own_tight
    exact ⟨htight.lt, htight.stop_le⟩
  · exact List.pairwise_map.mp h.pairwise
  · intro c hc
    exact (hloc c hc).ownText_eq
  · intro i hi hnone
    cases hblank : src.blankAt i with
    | true => rfl
    | false =>
      have hcount := once i hi hblank
      rw [List.countP_eq_zero.mpr (fun c hc => by simp [hnone c hc])] at hcount
      cases hcount
  · have hown : chunks.map (fun c => c.ownText.visible) =
        chunks.map (fun c => (c.own.text src).visible) := by
      apply List.map_congr_left
      intro c hc
      rw [(hloc c hc).ownText_eq]
    have hvisible := h.visible
    rw [Text.slice_all, List.flatMap_map, List.flatMap_def] at hvisible
    rw [List.flatMap_def, hown, hvisible]

/-- **Splitting is lossless**, for every text, tokenizer and window. -/
theorem split_lossless (tok : Tokenizer) (w : Window) (src : Text) :
    ∃ chunks, splitWatched? .never tok w src = some chunks ∧ Lossless src chunks := by
  have hrow := split_inRow tok w src
  refine ⟨split tok w src, splitWatched?_never tok w src, ?_⟩
  have hloc : ∀ c ∈ split tok w src, c.Located tok src := fun c hc => hrow.located_of_mem hc
  apply Lossless.of_tiling hloc
  rw [hrow.map_own]
  exact Span.segmentsOf_tiling tok w src

end Retrieval
