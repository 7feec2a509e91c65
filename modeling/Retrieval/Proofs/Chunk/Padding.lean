import Mathlib.Data.List.Basic
import Retrieval.Proofs.Chunk.Fields
import Retrieval.Proofs.Chunk.Watching

/-!
# Blanks around a text

`splitWatched?_pad`: blanks in front of a text and behind it move its chunks and change nothing else
of them. Each step of splitting is compared on the text `t` and on `u ++ t ++ v`: inside `t` it sees
the same units, so what it finds is moved by the length of `u`. That the two ends are blank is used
once, where the whole text is trimmed.
-/

namespace Retrieval

/-! ## Moved spans and chunks -/

def Span.shift (n : Nat) (s : Span) : Span := ⟨s.start + n, s.stop + n⟩

@[simp] theorem Span.shift_start (n : Nat) (s : Span) : (s.shift n).start = s.start + n := rfl

@[simp] theorem Span.shift_stop (n : Nat) (s : Span) : (s.shift n).stop = s.stop + n := rfl

def Chunk.shift (n : Nat) (c : Chunk) : Chunk := { c with start := c.start + n, stop := c.stop + n }

variable {u t v : Text}

/-! ## Units inside the text -/

namespace Text

variable {a b i : Nat}

theorem size_pad (u t v : Text) : (u ++ t ++ v).size = u.size + t.size + v.size := by
  simp [Nat.add_assoc]

theorem getElem?_pad (h : i < t.size) : (u ++ t ++ v)[i + u.size]? = t[i]? := by
  have hlt : i + u.size < (u ++ t).size := by simp; omega
  rw [Array.getElem?_append_left hlt, Array.getElem?_append_right (by omega), Nat.add_sub_cancel]

theorem slice_pad (h : b ≤ t.size) :
    (u ++ t ++ v).slice (a + u.size) (b + u.size) = t.slice a b := by
  simp only [slice, Array.extract_append]
  have hfront : u.extract (a + u.size) (b + u.size) = #[] := by simp
  have hback : v.extract (a + u.size - (u ++ t).size) (b + u.size - (u ++ t).size) = #[] := by
    simp
    omega
  rw [hfront, hback]
  simp

theorem blankAt_pad (h : i < t.size) : (u ++ t ++ v).blankAt (i + u.size) = t.blankAt i := by
  rw [blankAt, blankAt, getElem?_pad h]

theorem BlankOn.pad (hb : b ≤ t.size) (h : t.BlankOn a b) :
    (u ++ t ++ v).BlankOn (a + u.size) (b + u.size) := by
  intro i ha hi
  have hat := h (i - u.size) (by omega) (by omega)
  rw [← blankAt_pad (u := u) (v := v) (by omega), show i - u.size + u.size = i by omega] at hat
  exact hat

end Text

namespace Span

variable {tok : Tokenizer} {sep : Separator} {s p : Span} {a b n : Nat}

theorem shift_le (h : s.start ≤ s.stop) : (s.shift n).start ≤ (s.shift n).stop :=
  Nat.add_le_add_right h n

theorem shift_le_size (h : s.stop ≤ t.size) : (s.shift u.size).stop ≤ (u ++ t ++ v).size := by
  rw [Text.size_pad, shift_stop]
  omega

theorem text_pad (h : s.stop ≤ t.size) : (s.shift u.size).text (u ++ t ++ v) = s.text t :=
  Text.slice_pad h

theorem cost_pad (tok : Tokenizer) (h : s.stop ≤ t.size) :
    (s.shift u.size).cost tok (u ++ t ++ v) = s.cost tok t := by
  rw [cost, cost, text_pad h]

/-! ## Trimming -/

theorem Tight.pad (h : s.Tight t) : (s.shift u.size).Tight (u ++ t ++ v) := by
  have hlt := h.lt
  have hle := h.stop_le
  refine ⟨?_, ?_, ?_, ?_⟩
  · simp only [shift_start, shift_stop]
    omega
  · exact shift_le_size hle
  · rw [shift_start, Text.blankAt_pad (by omega)]
    exact h.first
  · rw [shift_stop, show s.stop + u.size - 1 = s.stop - 1 + u.size by omega,
      Text.blankAt_pad (by omega)]
    exact h.last

theorem TrimOf.pad (h : p.TrimOf t s) : (p.shift u.size).TrimOf (u ++ t ++ v) (s.shift u.size) := by
  have hstart := h.start_le
  have hstop := h.le_stop
  have hlt := h.tight.lt
  have hle := h.stop_le_size
  refine ⟨h.tight.pad, ?_, ?_, ?_, ?_⟩
  · simp only [shift_start]
    omega
  · simp only [shift_stop]
    omega
  · exact h.before.pad (by omega)
  · exact h.after.pad hle

theorem trimmed_pad (h : s.start ≤ s.stop) (hb : s.stop ≤ t.size) :
    trimmed (u ++ t ++ v) (s.shift u.size) = (trimmed t s).map (shift u.size) := by
  rcases trimmed_cases h hb with ⟨hnil, hblank⟩ | ⟨p, hp, htrim⟩
  · rw [hnil, List.map_nil, trimmed_eq_nil (shift_le h) (shift_le_size hb) (hblank.pad hb)]
  · rw [hp, List.map_singleton, trimmed_of_trimOf htrim.pad]

/-! ## Parts between separators -/

theorem fieldsFrom_shift (sep : List UInt16) (start pos : Nat) (units : List UInt16) :
    fieldsFrom sep (start + n) (pos + n) units =
      (fieldsFrom sep start pos units).map (shift n) := by
  fun_induction fieldsFrom sep start pos units with
  | case1 start pos =>
    rw [fieldsFrom]
    rfl
  | case2 start pos x rest hsep ih =>
    rw [fieldsFrom, if_pos hsep, List.map_cons, ← ih,
      show pos + n + sep.length = pos + sep.length + n by omega]
    rfl
  | case3 start pos x rest hsep ih =>
    rw [fieldsFrom, if_neg hsep, ← ih, show pos + n + 1 = pos + 1 + n by omega]

theorem fields_pad (h : s.stop ≤ t.size) :
    fields (u ++ t ++ v) sep (s.shift u.size) = (fields t sep s).map (shift u.size) := by
  rw [fields, fields, text_pad h]
  exact fieldsFrom_shift sep.units s.start s.start _

theorem parts_pad (h : s.start ≤ s.stop) (hb : s.stop ≤ t.size) :
    parts (u ++ t ++ v) sep (s.shift u.size) = (parts t sep s).map (shift u.size) := by
  rw [parts_eq (shift_le h) (shift_le_size hb), parts_eq h hb, fields_pad hb, List.flatMap_map,
    List.map_flatMap]
  -- every field lies inside the text, where trimming is moved along
  apply List.flatMap_congr
  intro f hf
  have hbounds := fields_bounds hf h hb
  exact trimmed_pad hbounds.2.1 (Nat.le_trans hbounds.2.2 hb)

theorem contains_pad (h : s.start ≤ s.stop) (hb : s.stop ≤ t.size) :
    (s.shift u.size).contains (u ++ t ++ v) sep = s.contains t sep := by
  rw [Bool.eq_iff_iff, contains_iff (shift_le h) (shift_le_size hb),
    contains_iff h hb, fields_pad hb, List.length_map]

/-! ## Cuts between code points -/

theorem codePointEnds_shift (pos : Nat) (units : List UInt16) :
    codePointEnds (pos + n) units = (codePointEnds pos units).map (· + n) := by
  fun_induction codePointEnds pos units with
  | case1 => rfl
  | case2 =>
    rw [codePointEnds, List.map_singleton, Nat.add_right_comm]
  | case3 pos x y rest hpair ih =>
    rw [codePointEnds, if_pos hpair, Nat.add_right_comm, ih, List.map_cons]
  | case4 pos x y rest hpair ih =>
    rw [codePointEnds, if_neg hpair, Nat.add_right_comm, ih, List.map_cons]

theorem boundaries_pad (h : s.stop ≤ t.size) :
    boundaries (u ++ t ++ v) (s.shift u.size) = (boundaries t s).map (· + u.size) := by
  rw [boundaries, boundaries, text_pad h, shift_start, codePointEnds_shift]
  simp

theorem between_shift {bounds : Array Nat} {i j : Nat} (hi : i < bounds.size)
    (hj : j < bounds.size) : between (bounds.map (· + n)) i j = (between bounds i j).shift n := by
  simp [between, shift, hi, hj]

theorem lastFit_congr {fits fits' : Nat → Bool} {low high best : Nat}
    (h : ∀ j, low ≤ j → j < high → fits' j = fits j) :
    lastFit fits' low high best = lastFit fits low high best := by
  fun_induction lastFit fits low high best with
  | case1 low high best hlt mid hfit ih =>
    have hmid : fits' mid = true := (h mid (by omega) (by omega)).trans hfit
    rw [lastFit, if_pos hlt]
    simp only [mid] at hmid ih
    simp only [hmid, if_true]
    exact ih fun j hl hh => h j (by omega) hh
  | case2 low high best hlt mid hfit ih =>
    have hmid : ¬ fits' mid = true := by rwa [h mid (by omega) (by omega)]
    rw [lastFit, if_pos hlt]
    simp only [mid] at hmid ih
    simp only [hmid]
    exact ih fun j hl hh => h j hl (by omega)
  | case3 low high best hge =>
    rw [lastFit, if_neg hge]

theorem cutEnd_pad {budget i : Nat} {bounds : Array Nat}
    (hmono : ∀ i j, i ≤ j → j < bounds.size → bounds.getD i 0 ≤ bounds.getD j 0)
    (hlast : bounds.getD (bounds.size - 1) 0 ≤ t.size) (hi : i < bounds.size) :
    cutEnd tok (u ++ t ++ v) budget (bounds.map (· + u.size)) i = cutEnd tok t budget bounds i := by
  unfold cutEnd
  rw [Array.size_map]
  apply lastFit_congr
  intro j hj hlt
  have hstop : (between bounds i j).stop ≤ t.size :=
    Nat.le_trans (hmono j (bounds.size - 1) (by omega) (by omega)) hlast
  rw [between_shift hi hlt, cost_pad tok hstop]

theorem cutsFrom_pad {budget i : Nat} {bounds : Array Nat}
    (hmono : ∀ i j, i ≤ j → j < bounds.size → bounds.getD i 0 ≤ bounds.getD j 0)
    (hlast : bounds.getD (bounds.size - 1) 0 ≤ t.size) :
    cutsFrom tok (u ++ t ++ v) budget (bounds.map (· + u.size)) i =
      (cutsFrom tok t budget bounds i).map (shift u.size) := by
  fun_induction cutsFrom tok t budget bounds i with
  | case1 i hlt next ih =>
    have hi : i < bounds.size := by omega
    have hnext : next < bounds.size := cutEnd_lt_size hlt
    have hle : (between bounds i next).start ≤ (between bounds i next).stop :=
      hmono i next (Nat.le_of_lt (lt_cutEnd ..)) hnext
    have hstop : (between bounds i next).stop ≤ t.size :=
      Nat.le_trans (hmono next (bounds.size - 1) (by omega) (by omega)) hlast
    rw [cutsFrom, Array.size_map, if_pos hlt]
    simp only [cutEnd_pad hmono hlast hi]
    rw [between_shift hi hnext, trimmed_pad hle hstop, ih, List.map_append]
  | case2 i hge =>
    rw [cutsFrom, Array.size_map, if_neg hge, List.map_nil]

theorem cuts_pad {budget : Nat} (h : s.Tight t) :
    cuts tok (u ++ t ++ v) budget (s.shift u.size) = (cuts tok t budget s).map (shift u.size) := by
  have hlt := h.lt
  have hle := h.stop_le
  have hlast : (boundaries t s).getD ((boundaries t s).size - 1) 0 ≤ t.size := by
    rw [boundaries_last, text, Text.size_slice hle]
    omega
  rw [cuts, cuts, boundaries_pad hle]
  exact cutsFrom_pad (fun _ _ hij hj => boundaries_le t s hij hj) hlast

/-! ## Merged runs -/

def Run.shift (n : Nat) (r : Run) : Run := { r with span := r.span.shift n }

section
variable {budget : Nat} {finer finer' : Span → List Span} {parts : List Span} {r : Run}
  {part : Span}

theorem settle_pad
    (hfiner : ∀ s : Span, s.Tight t → finer' (s.shift u.size) = (finer s).map (Span.shift u.size))
    (h : r.span.Tight t) :
    settle tok (u ++ t ++ v) budget finer' (some (r.shift u.size)) =
      (settle tok t budget finer (some r)).map (Span.shift u.size) := by
  have hcost : (r.shift u.size).span.cost tok (u ++ t ++ v) = r.span.cost tok t :=
    cost_pad tok h.stop_le
  rw [settle, settle, hcost]
  split
  · exact hfiner r.span h
  · rfl

theorem extend?_pad (h : part.stop ≤ t.size) :
    extend? tok (u ++ t ++ v) budget (r.shift u.size) (part.shift u.size) =
      (extend? tok t budget r part).map (Run.shift u.size) := by
  have hpart : cost tok (u ++ t ++ v) ⟨r.span.stop + u.size, part.stop + u.size⟩ =
      cost tok t ⟨r.span.stop, part.stop⟩ := cost_pad (s := ⟨r.span.stop, part.stop⟩) tok h
  have hgrown : cost tok (u ++ t ++ v) ⟨r.span.start + u.size, part.stop + u.size⟩ =
      cost tok t ⟨r.span.start, part.stop⟩ := cost_pad (s := ⟨r.span.start, part.stop⟩) tok h
  simp only [extend?, Run.shift, shift_start, shift_stop, hpart, hgrown]
  generalize (if r.estimate + _ ≤ budget then _ else _) = merged
  by_cases hfits : merged ≤ budget
  · rw [if_pos hfits, if_pos hfits]
    rfl
  · rw [if_neg hfits, if_neg hfits]
    rfl

/-- Merging moved parts moves what comes of it, where the finer cuts do. -/
theorem merge_pad {a b : Nat} (run : Option Run)
    (hfiner : ∀ s : Span, s.Tight t → finer' (s.shift u.size) = (finer s).map (Span.shift u.size))
    (h : Tiling t a ((run.map Run.span).toList ++ parts) b) :
    merge tok (u ++ t ++ v) budget finer' (run.map (Run.shift u.size))
        (parts.map (Span.shift u.size)) =
      (merge tok t budget finer run parts).map (Span.shift u.size) := by
  induction parts generalizing a run with
  | nil =>
    cases run with
    | none => rfl
    | some r => exact settle_pad hfiner h.head_tight
  | cons part rest ih =>
    cases run with
    | none =>
      have htight := h.head_tight
      have hstart := ih (some ⟨part, part.cost tok t⟩) h
      have hnext := ih none h.tail
      simp only [Option.map_none, List.map_cons, merge, cost_pad tok htight.stop_le]
      split
      · rw [hfiner part htight, List.map_append, List.map_append, ← hnext]
        rfl
      · exact hstart
    | some r =>
      have htight := h.tail.head_tight
      have hsettle : settle tok (u ++ t ++ v) budget finer' (some (r.shift u.size)) =
          (settle tok t budget finer (some r)).map (Span.shift u.size) :=
        settle_pad hfiner h.head_tight
      have hstart := ih (some ⟨part, part.cost tok t⟩) h.tail
      have hnext := ih none h.tail.tail
      simp only [Option.map_some, List.map_cons, merge, cost_pad tok htight.stop_le,
        extend?_pad htight.stop_le]
      split
      · rw [hsettle, hfiner part htight, List.map_append, List.map_append, ← hnext]
        rfl
      · cases hext : extend? tok t budget r part with
        | some grown => exact ih (some grown) (h.extend hext)
        | none =>
          simp only [Option.map_none, List.map_append]
          rw [hsettle, ← hstart]
          rfl

end

theorem segments_pad {budget : Nat} (separators : List Separator) (h : s.Tight t) :
    segments tok (u ++ t ++ v) budget separators (s.shift u.size) =
      (segments tok t budget separators s).map (shift u.size) := by
  have hlt := Nat.le_of_lt h.lt
  induction separators generalizing s with
  | nil =>
    rw [segments, segments, cost_pad tok h.stop_le]
    split
    · rfl
    · exact cuts_pad h
  | cons sep finer ih =>
    rw [segments, segments, cost_pad tok h.stop_le, contains_pad hlt h.stop_le]
    split
    · rfl
    · split
      · rw [parts_pad hlt h.stop_le]
        exact merge_pad none (fun p hp => ih hp (Nat.le_of_lt hp.lt)) (parts_tiling h)
      · exact ih h hlt

end Span

/-! ## Chunks -/

namespace Chunk

variable {tok : Tokenizer} {w : Window} {p : Chunk} {previous : Option Chunk} {segment : Span}
  {segments : List Span} {i : Nat}

/-- What is carried over is found in the chunk before, which is moved as a whole. -/
theorem carried?_pad (tokens : List tok.Token) (size take : Nat) (hp : p.Located tok t)
    (h : segment.stop ≤ t.size) :
    carried? tok (u ++ t ++ v) size (p.shift u.size) tokens (segment.shift u.size) take =
      (carried? tok t size p tokens segment take).map (Span.shift u.size) := by
  induction take with
  | zero => rfl
  | succ take ih =>
    rw [carried?, carried?, ih]
    generalize (tok.decode (tokens.drop (tokens.length - (take + 1)))).trimStart = tail
    have htext : (p.shift u.size).text = p.text := rfl
    rw [htext]
    by_cases hends : p.text.endsWith tail = true
    · have hle := (Text.endsWith_iff.mp hends).1
      have hsize := hp.size_text
      have hstart : (p.shift u.size).stop - tail.size = p.stop - tail.size + u.size := by
        simp only [shift]
        omega
      have hcost := Span.cost_pad (u := u) (v := v) (s := ⟨p.stop - tail.size, segment.stop⟩) tok h
      simp only [hstart, Span.shift_stop]
      simp only [Span.shift] at hcost
      rw [hcost]
      split
      · rfl
      · rfl
    · simp [hends]

theorem extended_pad (hp : ∀ p, previous = some p → p.Located tok t) (h : segment.stop ≤ t.size) :
    extended tok (u ++ t ++ v) w (previous.map (shift u.size)) (segment.shift u.size) =
      (extended tok t w previous segment).shift u.size := by
  cases previous with
  | none => rfl
  | some p =>
    have htext : (p.shift u.size).text = p.text := rfl
    rw [Option.map_some, extended, extended, htext]
    by_cases hw : w.overlap = 0
    · simp only [hw, if_true]
    · simp only [hw, if_false]
      rw [carried?_pad _ _ _ (hp p rfl) h]
      cases carried? tok t w.size p (tok.encode p.text) segment _ <;> rfl

theorem ofSegment_pad (hs : segment.Tight t)
    (hp : ∀ p, previous = some p → p.Located tok t ∧ p.stop ≤ segment.start) :
    ofSegment tok (u ++ t ++ v) w i (previous.map (shift u.size)) (segment.shift u.size) =
      (ofSegment tok t w i previous segment).shift u.size := by
  have hown := (ofSegment_spec (w := w) (i := i) hs hp).1
  have hstop : (ofSegment tok t w i previous segment).own.stop = segment.stop := by rw [hown]
  have hle : (extended tok t w previous segment).stop ≤ t.size := hstop ▸ hs.stop_le
  simp only [ofSegment, extended_pad (fun p hprev => (hp p hprev).1) hs.stop_le,
    Span.text_pad hle, Span.cost_pad tok hle, shift, Span.shift_start, Span.shift_stop,
    Nat.add_sub_add_right]

theorem ofSegments_pad {a b : Nat} (previous : Option Chunk) (h : Span.Tiling t a segments b)
    (hp : ∀ p, previous = some p → p.Located tok t ∧ p.stop ≤ a) :
    ofSegments tok (u ++ t ++ v) w i (previous.map (shift u.size))
        (segments.map (Span.shift u.size)) =
      (ofSegments tok t w i previous segments).map (shift u.size) := by
  induction h generalizing i previous with
  | blank => rfl
  | @span a b s rest hle _ ht hrest ih =>
    have hbefore : ∀ p, previous = some p → p.Located tok t ∧ p.stop ≤ s.start :=
      fun p hprev => ⟨(hp p hprev).1, Nat.le_trans (hp p hprev).2 hle⟩
    obtain ⟨hown, hloc, -, -⟩ := ofSegment_spec (w := w) (i := i) ht hbefore
    have hnext : ∀ q, some (ofSegment tok t w i previous s) = some q →
        q.Located tok t ∧ q.stop ≤ s.stop := by
      intro q hq
      cases hq
      have hstop : (ofSegment tok t w i previous s).own.stop = s.stop := by rw [hown]
      exact ⟨hloc, Nat.le_of_eq hstop⟩
    rw [List.map_cons, ofSegments, ofSegments, List.map_cons, ofSegment_pad ht hbefore]
    congr 1
    exact ih _ hnext

end Chunk

/-! ## The whole text -/

theorem Text.blankAt_of_allBlank {i : Nat} (h : u.allBlank = true) (hi : i < u.size) :
    u.blankAt i = true := by
  have hunit := Array.all_eq_true.mp h i hi
  rw [blankAt, Array.getElem?_eq_getElem hi]
  exact hunit

theorem Text.blankOn_front (h : u.allBlank = true) : (u ++ t ++ v).BlankOn 0 u.size := by
  intro i _ hi
  rw [blankAt, Array.append_assoc, Array.getElem?_append_left hi]
  exact blankAt_of_allBlank h hi

theorem Text.blankOn_back (h : v.allBlank = true) :
    (u ++ t ++ v).BlankOn (t.size + u.size) (u ++ t ++ v).size := by
  intro i hle hi
  rw [size_pad] at hi
  rw [blankAt, Array.getElem?_append_right (by simp; omega)]
  exact blankAt_of_allBlank h (by simp; omega)

/-- Only here it matters that what stands around the text is blank. -/
theorem Span.trimmed_whole_pad (hu : u.allBlank = true) (hv : v.allBlank = true) :
    trimmed (u ++ t ++ v) (whole (u ++ t ++ v)) = (trimmed t (whole t)).map (shift u.size) := by
  have hfront := Text.blankOn_front (t := t) (v := v) hu
  have hback := Text.blankOn_back (t := t) (u := u) hv
  have hwhole : (whole t).stop ≤ t.size := Nat.le_refl _
  rcases trimmed_cases (Nat.zero_le _) hwhole with
    ⟨hnil, hblank⟩ | ⟨p, hp, htrim⟩
  · have hinner := hblank.pad (u := u) (v := v) (Nat.le_refl _)
    rw [whole, Nat.zero_add] at hinner
    have hall := (hfront.trans hinner).trans hback
    rw [hnil, trimmed_eq_nil (Nat.zero_le _) (Nat.le_refl _) hall, List.map_nil]
  · have hstop := htrim.le_stop
    have hinner := htrim.pad (u := u) (v := v)
    have hbefore := hinner.before
    simp only [whole, shift_start, Nat.zero_add] at hbefore
    have houter : (p.shift u.size).TrimOf (u ++ t ++ v) (whole (u ++ t ++ v)) := by
      refine ⟨hinner.tight, Nat.zero_le _, hinner.tight.stop_le, hfront.trans hbefore, ?_⟩
      exact hinner.after.trans hback
    rw [hp, trimmed_of_trimOf houter, List.map_singleton]

variable {tok : Tokenizer} {w : Window}

theorem split_pad (hu : u.allBlank = true) (hv : v.allBlank = true) :
    split tok w (u ++ t ++ v) = (split tok w t).map (Chunk.shift u.size) := by
  have hwhole : (Span.whole t).stop ≤ t.size := Nat.le_refl _
  have hsegments : Span.segmentsOf tok w (u ++ t ++ v) =
      (Span.segmentsOf tok w t).map (Span.shift u.size) := by
    unfold Span.segmentsOf
    rw [Span.trimmed_whole_pad hu hv]
    rcases Span.trimmed_cases (Nat.zero_le _) hwhole with
      ⟨hnil, -⟩ | ⟨s, hs, htrim⟩
    · rw [hnil]
      rfl
    · rw [hs, List.map_singleton, List.flatMap_singleton, List.flatMap_singleton,
        Span.cost_pad tok htrim.tight.stop_le]
      split
      · rfl
      · exact Span.segments_pad _ htrim.tight
  rw [split_eq, split_eq, hsegments]
  exact Chunk.ofSegments_pad none (Span.segmentsOf_tiling tok w t) nofun

theorem signalReads_pad (hu : u.allBlank = true) (hv : v.allBlank = true) :
    signalReads tok w (u ++ t ++ v) = signalReads tok w t := by
  have hwhole : (Span.whole t).stop ≤ t.size := Nat.le_refl _
  have htrim := Span.trimmed_whole_pad (t := t) hu hv
  rcases Span.trimmed_cases (Nat.zero_le _) hwhole with ⟨hnil, -⟩ | ⟨s, hs, hspan⟩
  · rw [hnil, List.map_nil] at htrim
    rw [signalReads_of_blank htrim, signalReads_of_blank hnil]
  · rw [hs, List.map_singleton] at htrim
    have hle := Nat.le_of_lt hspan.tight.lt
    have hb := hspan.tight.stop_le
    rw [signalReads_of_trimmed htrim, signalReads_of_trimmed hs, Span.cost_pad tok hb,
      Span.contains_pad hle hb, Span.parts_pad hle hb, List.length_map]

/-- **Blanks around a text move its chunks** and change nothing else, whatever the tokenizer, the
window and the signal. -/
theorem splitWatched?_pad (tok : Tokenizer) (w : Window) (u t v : Text)
    (hu : u.allBlank = true) (hv : v.allBlank = true) :
    (∃ chunks, splitWatched? .never tok w t = some chunks ∧
      splitWatched? .never tok w (u ++ t ++ v) = some (chunks.map (Chunk.shift u.size))) ∧
    ∀ watch, splitWatched? watch tok w (u ++ t ++ v) =
      (splitWatched? watch tok w t).map (List.map (Chunk.shift u.size)) := by
  refine ⟨⟨split tok w t, splitWatched?_never tok w t, ?_⟩, fun watch => ?_⟩
  · rw [splitWatched?_never, split_pad hu hv]
  · rw [splitWatched?_eq, splitWatched?_eq, signalReads_pad hu hv, split_pad hu hv]
    split <;> rfl

/-- A blank and a line feed in front of `"a b"`, and a tabulation behind it. -/
theorem splitWatched?_pad_codePoint :
    Text.allBlank #[32, 10] = true ∧ Text.allBlank #[9] = true ∧
      splitWatched? .never .codePoint ⟨2, 1, by decide⟩ (#[32, 10] ++ #[97, 32, 98] ++ #[9]) =
        some [⟨0, #[97], 1, 2, 3, 0⟩, ⟨1, #[98], 1, 4, 5, 0⟩] := by
  have hu : Text.allBlank #[32, 10] = true := by decide +kernel
  have hv : Text.allBlank #[9] = true := by decide +kernel
  obtain ⟨⟨chunks, hchunks, hpad⟩, -⟩ :=
    splitWatched?_pad .codePoint ⟨2, 1, by decide⟩ #[32, 10] #[97, 32, 98] #[9] hu hv
  have hplain : splitWatched? .never .codePoint ⟨2, 1, by decide⟩ #[97, 32, 98] =
      some [⟨0, #[97], 1, 0, 1, 0⟩, ⟨1, #[98], 1, 2, 3, 0⟩] := by decide +kernel
  obtain rfl := Option.some.inj (hchunks.symm.trans hplain)
  exact ⟨hu, hv, hpad⟩

end Retrieval
