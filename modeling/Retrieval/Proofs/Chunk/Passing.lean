import Mathlib.Order.Bounds.Basic
import Retrieval.Proofs.Chunk.Boundaries
import Retrieval.Proofs.Chunk.Carry

/-!
# What is carried over may be passed on

The tail that is put in front of a chunk is taken from all of the chunk before, so it can reach back
over the own region of that chunk into what that chunk repeats itself. `split_passes_on` says when
this happens and where repeated units come from: each belongs to one chunk, and every chunk from there
to the one at hand repeats it. With one token for each code point, a chunk whose own region has as
many code points as the overlap passes nothing on.
-/

namespace Retrieval
namespace Chunk

variable {tok : Tokenizer} {src : Text} {w : Window} {p c : Chunk} {previous : Option Chunk}
variable {segments : List Span} {chunks : List Chunk} {i j k x : Nat}

/-! ## One step back -/

theorem Located.size_ownText (h : c.Located tok src) : c.ownText.size = c.stop - c.ownStart := by
  rw [h.ownText_eq]
  exact Text.size_slice h.own_tight.stop_le

/-- A chunk starts in the own region of the chunk before or behind it, unless the tail that is put in
front of it is longer than that region. -/
theorem CarriesMost.ownStart_le_iff (h : CarriesMost tok src w p c) (hp : p.Located tok src)
    (hf : p.Follows c) :
    p.ownStart ≤ c.start ↔
      ∀ k, IsGreatest {k | Admits tok src w p c k} k → (p.tail tok k).size ≤ p.ownText.size := by
  have hown : p.ownStart < p.stop := hp.own_tight.lt
  have hstop := hf.stop_le
  rw [hp.size_ownText]
  rcases h with ⟨k, hk, hstart⟩ | ⟨hnone, hstart⟩
  · have hsize := (hp.slice_tail hk.1.suffix).1
    constructor
    · intro hle j hj
      obtain rfl := IsGreatest.unique hj hk
      omega
    · intro hall
      have := hall k hk
      omega
  · constructor
    · intro _ j hj
      exact absurd hj.1 (hnone j)
    · intro _
      omega

/-- From in front of the own region there are more code points to the end than that region has. -/
theorem Located.length_ownText_lt (h : p.Located tok src) (hb : src.Boundary p.ownStart)
    (hx : x < p.ownStart) :
    p.ownText.codePoints.length < (src.slice x p.stop).codePoints.length := by
  have hstop : p.ownStart < p.stop := h.own_tight.lt
  rw [← hb.codePoints_slice (Nat.le_of_lt hx) (Nat.le_of_lt hstop), List.length_append, h.ownText_eq]
  have hpos : 0 < (src.slice x p.ownStart).codePoints.length := by
    apply Text.length_codePoints_pos
    rw [Text.size_slice hb.le_size]
    omega
  exact Nat.lt_add_of_pos_left hpos

/-- Nothing is passed on over an own region that has as many code points as the overlap. -/
theorem StartsFirst.ownStart_le (h : StartsFirst src w p c) (hp : p.Located .codePoint src)
    (hb : src.Boundary p.ownStart) (hf : p.Follows c)
    (hlong : w.overlap ≤ p.ownText.codePoints.length) : p.ownStart ≤ c.start := by
  rcases h with ⟨hmay, -⟩ | ⟨-, hstart⟩
  · rcases Nat.lt_or_ge c.start p.ownStart with hlt | hge
    · have hfew := hmay.overlap
      have hmore := hp.length_ownText_lt hb hlt
      omega
    · exact hge
  · have hown : p.ownStart < p.stop := hp.own_tight.lt
    have hstop := hf.stop_le
    omega

/-! ## All the way back -/

/-- The unit at `x` belongs to the chunk at `j`, and every chunk behind that one up to the chunk at `i`
has it in the part that it repeats. -/
structure PassedOn (chunks : List Chunk) (x j i : Nat) : Prop where
  le : j ≤ i
  owner : ∃ o, chunks[j]? = some o ∧ o.ownStart ≤ x ∧ x < o.stop
  repeated : ∀ k q, j < k → k ≤ i → chunks[k]? = some q → q.start ≤ x ∧ x < q.ownStart

/-- Own regions stand one behind the other. -/
theorem stop_le_ownStart (h : (chunks.map own).Pairwise fun s p => s.stop ≤ p.start)
    (hjk : j < k) (hp : chunks[j]? = some p) (hc : chunks[k]? = some c) : p.stop ≤ c.ownStart := by
  obtain ⟨hj, rfl⟩ := List.getElem?_eq_some_iff.mp hp
  obtain ⟨hk, rfl⟩ := List.getElem?_eq_some_iff.mp hc
  have hrel := List.pairwise_iff_getElem.mp h j k (by simpa using hj) (by simpa using hk) hjk
  simpa [own] using hrel

theorem InRow.start_le (h : InRow tok src w i previous segments chunks) (hjk : j ≤ k)
    (hp : chunks[j]? = some p) (hc : chunks[k]? = some c) : p.start ≤ c.start := by
  obtain ⟨hj, rfl⟩ := List.getElem?_eq_some_iff.mp hp
  obtain ⟨hk, rfl⟩ := List.getElem?_eq_some_iff.mp hc
  rcases Nat.eq_or_lt_of_le hjk with rfl | hlt
  · exact Nat.le_refl _
  · exact (List.pairwise_iff_getElem.mp h.pairwise j k hj hk hlt).1

theorem PassedOn.le_of_passedOn (h : PassedOn chunks x j i) (h' : PassedOn chunks x k i) : k ≤ j := by
  obtain ⟨o, ho, hstart, -⟩ := h'.owner
  rcases Nat.lt_or_ge j k with hlt | hge
  · have hrepeated := (h.repeated k o hlt h'.le ho).2
    omega
  · exact hge

/-- A visible unit of a chunk belongs to one chunk, which is the same or an earlier one, and is
repeated from that one on. -/
theorem split_passedOn (hc : (split tok w src)[i]? = some c) (hstart : c.start ≤ x)
    (hstop : x < c.stop) (hx : src.blankAt x = false) :
    ∃! j, PassedOn (split tok w src) x j i := by
  have hrow := split_inRow tok w src
  have htiling := Span.segmentsOf_tiling tok w src
  have hloc := hrow.located_of_mem (List.mem_of_getElem? hc)
  have hbound : c.stop ≤ src.size := hloc.own_tight.stop_le
  rw [← hrow.map_own] at htiling
  have hregions := htiling.pairwise
  -- exactly one own region has the unit
  have hone := htiling.countP_has (Nat.zero_le x) (Nat.lt_of_lt_of_le hstop hbound) hx
  obtain ⟨region, hregion, hhas⟩ := List.countP_pos_iff.mp (by rw [hone]; exact Nat.one_pos)
  obtain ⟨o, ho, rfl⟩ := List.mem_map.mp hregion
  obtain ⟨j, hj⟩ := List.getElem?_of_mem ho
  have howner : o.ownStart ≤ x ∧ x < o.stop := Span.has_iff.mp hhas
  have hpassed : PassedOn (split tok w src) x j i := by
    refine ⟨?_, ⟨o, hj, howner⟩, fun k q hjk hki hq => ⟨?_, ?_⟩⟩
    · rcases Nat.lt_or_ge i j with hij | hle
      · have := stop_le_ownStart hregions hij hc hj
        omega
      · exact hle
    · exact Nat.le_trans (hrow.start_le hki hq hc) hstart
    · exact Nat.lt_of_lt_of_le howner.2 (stop_le_ownStart hregions hjk hj hq)
  exact ⟨j, hpassed, fun k hk => Nat.le_antisymm (hpassed.le_of_passedOn hk)
    (hk.le_of_passedOn hpassed)⟩

end Chunk

/-- **Where repeated units come from**, for every text and window: a chunk starts in the own region of
the chunk before or behind it exactly where the tail that is put in front of it is no longer than that
region, and each visible unit of a chunk belongs to one chunk up to it and is repeated from there on.
With one token for each code point, nothing is passed on over an own region as long as the overlap. -/
theorem split_passes_on (w : Window) (src : Text) :
    (∀ tok : Tokenizer, ∃ chunks, splitWatched? .never tok w src = some chunks ∧
      (∀ (i : Nat) (p c : Chunk), chunks[i]? = some p → chunks[i + 1]? = some c →
        (p.ownStart ≤ c.start ↔ ∀ k, IsGreatest {k | Chunk.Admits tok src w p c k} k →
          (p.tail tok k).size ≤ p.ownText.size)) ∧
      ∀ (i : Nat) (c : Chunk) (x : Nat), chunks[i]? = some c → c.start ≤ x → x < c.stop →
        src.blankAt x = false → ∃! j, Chunk.PassedOn chunks x j i) ∧
    ∃ chunks, splitWatched? .never .codePoint w src = some chunks ∧
      ∀ (i : Nat) (p c : Chunk), chunks[i]? = some p → chunks[i + 1]? = some c →
        w.overlap ≤ p.ownText.codePoints.length → p.ownStart ≤ c.start := by
  constructor
  · intro tok
    have hrow := split_inRow tok w src
    refine ⟨split tok w src, splitWatched?_never tok w src, fun i p c hp hc => ?_,
      fun i c x hc hstart hstop hx => Chunk.split_passedOn hc hstart hstop hx⟩
    exact (Chunk.split_carriesMost hp hc).ownStart_le_iff
      (hrow.located_of_mem (List.mem_of_getElem? hp)) (hrow.follows hp hc)
  · have hrow := split_inRow .codePoint w src
    refine ⟨split .codePoint w src, splitWatched?_never .codePoint w src,
      fun i p c hp hc hlong => ?_⟩
    have hmem := List.mem_of_getElem? hp
    have hloc := hrow.located_of_mem hmem
    have hlt : c.ownStart < c.stop := (hrow.located_of_mem (List.mem_of_getElem? hc)).own_tight.lt
    exact ((Chunk.split_carriesMost hp hc).startsFirst hloc
      (Nat.lt_of_le_of_lt (hrow.follows hp hc).stop_le hlt)).ownStart_le hloc
      (Span.segmentsOf_aligned (own_mem_segmentsOf hmem)).start (hrow.follows hp hc) hlong

/-- Six code points to a chunk, three of which may repeat: the `b` of `"ab c de"` belongs to the first
chunk and is repeated by both others. -/
theorem split_passes_on_twice :
    ∃ o p c : Chunk,
      splitWatched? .never .codePoint ⟨6, 3, by decide⟩ #[97, 98, 32, 99, 32, 100, 101] =
        some [o, p, c] ∧ Chunk.PassedOn [o, p, c] 1 0 2 ∧
      ∃ k, IsGreatest {k | Chunk.Admits .codePoint #[97, 98, 32, 99, 32, 100, 101]
        ⟨6, 3, by decide⟩ p c k} k ∧ p.ownText.size < (p.tail .codePoint k).size := by
  obtain ⟨hany, -⟩ := split_passes_on ⟨6, 3, by decide⟩ #[97, 98, 32, 99, 32, 100, 101]
  obtain ⟨chunks, heq, hstarts, hpassed⟩ := hany .codePoint
  have hsplit : splitWatched? .never .codePoint ⟨6, 3, by decide⟩
      #[97, 98, 32, 99, 32, 100, 101] =
        some [⟨0, #[97, 98], 2, 0, 2, 0⟩, ⟨1, #[97, 98, 32, 99], 4, 0, 4, 3⟩,
          ⟨2, #[98, 32, 99, 32, 100, 101], 6, 1, 7, 4⟩] := by
    decide +kernel
  rw [hsplit, Option.some.injEq] at heq
  subst heq
  refine ⟨_, _, _, hsplit, ?_, ?_⟩
  · -- only the first chunk has the unit in its own region
    obtain ⟨j, hj, -⟩ := hpassed 2 _ 1 rfl (by decide) (by decide) (by decide)
    obtain ⟨o, ho, hstart, hstop⟩ := hj.owner
    obtain rfl : j = 0 := by
      rcases j with _ | _ | _ | j
      · rfl
      · cases ho
        exact absurd hstart (by decide)
      · cases ho
        exact absurd hstart (by decide)
      · cases ho
    exact hj
  · have hnot := (hstarts 1 _ _ rfl rfl).not.mp (by decide)
    push Not at hnot
    exact hnot

/-- **Overlaps are not all taken from own regions**: the third chunk of `"ab c de"` starts in front of
the own region of the second. -/
theorem split_passes_on_carried :
    ¬ ∀ (tok : Tokenizer) (w : Window) (src : Text) (chunks : List Chunk),
      splitWatched? .never tok w src = some chunks →
        ∀ (i : Nat) (p c : Chunk), chunks[i]? = some p → chunks[i + 1]? = some c →
          p.ownStart ≤ c.start := by
  intro h
  have hsplit : splitWatched? .never .codePoint ⟨6, 3, by decide⟩
      #[97, 98, 32, 99, 32, 100, 101] =
        some [⟨0, #[97, 98], 2, 0, 2, 0⟩, ⟨1, #[97, 98, 32, 99], 4, 0, 4, 3⟩,
          ⟨2, #[98, 32, 99, 32, 100, 101], 6, 1, 7, 4⟩] := by
    decide +kernel
  exact absurd (h _ _ _ _ hsplit 1 _ _ rfl rfl) (by decide)

end Retrieval
