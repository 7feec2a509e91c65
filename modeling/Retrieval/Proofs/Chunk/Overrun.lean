import Retrieval.Proofs.Chunk.Levels
import Retrieval.Proofs.Tokenizer.Greedy

/-!
# Chunks of greedy tokenizers

A cut is measured before it is trimmed, and for a greedy tokenizer the text without a leading blank
can cost more than the text with it. `split_greedy_bounded` says that a chunk overruns the size of the
window in no other way, and that none does where the words of the vocabulary that stand in the text
have blanks in front only, with a space or a line feed among them where something follows. With such
words no merged run is cut again (`greedy_breaksAtBlanks`), so that neither a space nor a line feed is
left in a span that is cut, and trimming a cut saves tokens (`TrimOf.cost_greedy_le`).
-/

namespace Retrieval

/-! ## Words that begin with a space -/

/-- In the word, blanks stand in front only, and if something follows them, a space or a line feed is
among them. -/
structure SpaceLed (v : Text) : Prop where
  led : ∀ i < v.size - 1, v.blankAt (i + 1) = true → v.blankAt i = true
  spaced : ∀ i < v.size - 1, v.blankAt i = true → v.blankAt (i + 1) = false →
    (32 : UInt16) ∈ v ∨ (10 : UInt16) ∈ v

instance (v : Text) : Decidable (SpaceLed v) :=
  decidable_of_iff ((∀ i < v.size - 1, v.blankAt (i + 1) = true → v.blankAt i = true) ∧
      ∀ i < v.size - 1, v.blankAt i = true → v.blankAt (i + 1) = false →
        (32 : UInt16) ∈ v ∨ (10 : UInt16) ∈ v)
    ⟨fun ⟨hled, hspaced⟩ => ⟨hled, hspaced⟩, fun ⟨hled, hspaced⟩ => ⟨hled, hspaced⟩⟩

section SpaceLed

variable {src : Text} {x y m : Nat}

/-- Where such a word stands, a blank inside it follows a blank. -/
theorem SpaceLed.blankAt_pred (h : SpaceLed (src.slice x y)) (hx : x < m) (hy : m < y)
    (hm : src.blankAt m = true) : src.blankAt (m - 1) = true := by
  have hlt := Text.lt_size_of_blankAt hm
  have hled := h.led (m - 1 - x) (by rw [Text.slice, Array.size_extract]; omega)
  rw [Text.blankAt_slice (by omega), Text.blankAt_slice (by omega),
    show x + (m - 1 - x + 1) = m by omega, show x + (m - 1 - x) = m - 1 by omega] at hled
  exact hled hm

/-- Where such a word goes on behind a blank, it has a space or a line feed. -/
theorem SpaceLed.space_or_feed (h : SpaceLed (src.slice x y)) (hx : x < m) (hy : m < y)
    (hlt : m < src.size) (hblank : src.blankAt (m - 1) = true) (hm : src.blankAt m = false) :
    ∃ i, x ≤ i ∧ i < y ∧ (src[i]? = some 32 ∨ src[i]? = some 10) := by
  have hspaced := h.spaced (m - 1 - x) (by rw [Text.slice, Array.size_extract]; omega)
  rw [Text.blankAt_slice (by omega), Text.blankAt_slice (by omega),
    show x + (m - 1 - x + 1) = m by omega, show x + (m - 1 - x) = m - 1 by omega] at hspaced
  have hfound : ∀ u : UInt16, u ∈ src.slice x y → ∃ i, x ≤ i ∧ i < y ∧ src[i]? = some u := by
    intro u hu
    obtain ⟨k, hk⟩ := Array.mem_iff_getElem?.mp hu
    have hlt := (Array.getElem?_eq_some_iff.mp hk).1
    rw [Text.slice, Array.size_extract] at hlt
    rw [Text.getElem?_slice (by omega)] at hk
    exact ⟨x + k, by omega, by omega, hk⟩
  rcases hspaced hblank hm with hspace | hfeed
  · obtain ⟨i, hxi, hiy, hget⟩ := hfound 32 hspace
    exact ⟨i, hxi, hiy, Or.inl hget⟩
  · obtain ⟨i, hxi, hiy, hget⟩ := hfound 10 hfeed
    exact ⟨i, hxi, hiy, Or.inr hget⟩

end SpaceLed

/-- Every word of the vocabulary that stands in the text is space-led. -/
def WordsSpaceLed (vocabulary : List Text) (src : Text) : Prop :=
  ∀ v ∈ vocabulary, v.toList <:+: src.toList → SpaceLed v

variable {vocabulary : List Text} {src : Text} {w : Window} {budget : Nat}

theorem Text.slice_isInfix (src : Text) (x y : Nat) : (src.slice x y).toList <:+: src.toList := by
  rw [Text.slice, Array.toList_extract, List.extract_eq_take_drop]
  exact (List.take_prefix _ _).isInfix.trans (List.drop_suffix _ _).isInfix

theorem WordsSpaceLed.slice (h : WordsSpaceLed vocabulary src) {v : Text} {x y : Nat}
    (hv : v ∈ vocabulary) (hslice : src.slice x y = v) : SpaceLed (src.slice x y) := by
  rw [hslice]
  exact h v hv (hslice ▸ Text.slice_isInfix src x y)

/-- With space-led words, tokens end where a blank follows something visible. -/
theorem greedy_breaksAtBlanks (h : WordsSpaceLed vocabulary src) :
    (Tokenizer.greedy vocabulary).BreaksAtBlanks src := by
  intro a m b ha hb hlast hblank
  refine Nat.le_of_eq (Tokenizer.count_greedy_slice vocabulary (Text.boundary_of_blankAt hblank) ha hb ?_)
  intro v hv x y _ hxm hmy _ hslice
  have hpred := (h.slice hv hslice).blankAt_pred hxm hmy hblank
  rw [hlast] at hpred
  cases hpred

namespace Span

variable {s t p q : Span} {separators : List Separator}

/-! ## Trimmed cuts -/

/-- A word of the vocabulary stands in `q` and reaches over an end of `p`. -/
def WordOver (vocabulary : List Text) (src : Text) (p q : Span) : Prop :=
  ∃ v ∈ vocabulary, ∃ x y, q.start ≤ x ∧ y ≤ q.stop ∧ src.slice x y = v ∧
    (x < p.start ∧ p.start < y ∨ x < p.stop ∧ p.stop < y)

/-- Trimming saves tokens where no word reaches over an end of what is left. -/
theorem TrimOf.cost_greedy_le (hp : p.TrimOf src q) (hno : ¬ WordOver vocabulary src p q) :
    p.cost (.greedy vocabulary) src ≤ q.cost (.greedy vocabulary) src := by
  have hlt := hp.tight.lt
  have hstart := hp.start_le
  have hstop := hp.le_stop
  have hback : cost (.greedy vocabulary) src ⟨q.start, p.stop⟩ ≤ q.cost (.greedy vocabulary) src := by
    rcases Nat.eq_or_lt_of_le hstop with heq | hafter
    · rw [heq]
    · have hboundary := Text.boundary_of_blankAt (hp.after p.stop (Nat.le_refl _) hafter)
      have hsum := Tokenizer.count_greedy_slice vocabulary (a := q.start)
        (b := q.stop) hboundary (by omega) hstop fun v hv x y hx hxm hmy hy hslice =>
          hno ⟨v, hv, x, y, hx, hy, hslice, Or.inr ⟨hxm, hmy⟩⟩
      simp only [cost, Span.text]
      omega
  have hfront : p.cost (.greedy vocabulary) src ≤ cost (.greedy vocabulary) src ⟨q.start, p.stop⟩ := by
    rcases Nat.eq_or_lt_of_le hstart with heq | hbefore
    · rw [heq]
    · have hboundary :=
        Text.boundary_succ_of_blankAt (hp.before (p.start - 1) (by omega) (by omega))
      rw [Nat.sub_add_cancel (by omega)] at hboundary
      have hsum := Tokenizer.count_greedy_slice vocabulary (a := q.start)
        (b := p.stop) hboundary hstart (Nat.le_of_lt hlt) fun v hv x y hx hxm hmy hy hslice =>
          hno ⟨v, hv, x, y, hx, Nat.le_trans hy hstop, hslice, Or.inl ⟨hxm, hmy⟩⟩
      simp only [cost, Span.text]
      omega
  exact Nat.le_trans hfront hback

/-- In a span without spaces and line feeds, space-led words do not reach over the ends of what trimming
leaves. -/
theorem TrimOf.not_wordOver (h : WordsSpaceLed vocabulary src) (hp : p.TrimOf src q)
    (hspace : Lacks src q 32) (hfeed : Lacks src q 10) : ¬ WordOver vocabulary src p q := by
  have hlt := hp.tight.lt
  have hbound := hp.tight.stop_le
  rintro ⟨v, hv, x, y, hx, hy, hslice, ⟨hxm, hmy⟩ | ⟨hxm, hmy⟩⟩
  · have hblank := hp.before (p.start - 1) (by omega) (by omega)
    obtain ⟨i, hxi, hiy, hget⟩ := (h.slice hv hslice).space_or_feed hxm hmy (by omega) hblank
      hp.tight.first
    rcases hget with hget | hget
    · exact hspace i (by omega) (by omega) hget
    · exact hfeed i (by omega) (by omega) hget
  · have hblank := hp.after p.stop (Nat.le_refl _) (by omega)
    have hpred := (h.slice hv hslice).blankAt_pred hxm hmy hblank
    rw [hp.tight.last] at hpred
    cases hpred

/-- Boundaries of a span lie in it. -/
theorem within_between (hs : s.Tight src) {i j : Nat} (hij : i ≤ j)
    (hj : j < (boundaries src s).size) : (between (boundaries src s) i j).Within s := by
  have hfirst := boundaries_le src s (Nat.zero_le i) (by omega)
  have hlast := boundaries_le src s (show j ≤ (boundaries src s).size - 1 by omega) (by omega)
  have hlt := hs.lt
  rw [boundaries_first] at hfirst
  rw [boundaries_last, Span.text, Text.size_slice hs.stop_le] at hlast
  exact ⟨hfirst, by simp only [between]; omega⟩

/-- A cut of a span without spaces and line feeds fits. -/
theorem cost_greedy_le_of_mem_cuts (h : WordsSpaceLed vocabulary src) (hbudget : 0 < budget)
    (hs : s.Tight src) (hspace : Lacks src s 32) (hfeed : Lacks src s 10)
    (hp : p ∈ cuts (.greedy vocabulary) src budget s) :
    p.cost (.greedy vocabulary) src ≤ budget := by
  obtain ⟨k, next, hlt, hnext, htrim, hwhy⟩ := trimOf_of_mem_cuts hp
  have hin := within_between hs (Nat.le_of_lt hlt) hnext
  have hle := htrim.cost_greedy_le (htrim.not_wordOver h (hspace.within hin) (hfeed.within hin))
  rcases hwhy with rfl | hfits
  · have hone : (between (boundaries src s) k (k + 1)).cost (.greedy vocabulary) src = 1 :=
      Tokenizer.count_greedy_point vocabulary (boundaries_pointAt hnext).codePoints
    omega
  · exact Nat.le_trans hle hfits

/-- **Every segment fits.** -/
theorem cost_greedy_le_of_mem_segments (h : WordsSpaceLed vocabulary src) (hbudget : 0 < budget)
    (hs : s.Tight src) (hp : p ∈ segments (.greedy vocabulary) src budget Separator.all s) :
    p.cost (.greedy vocabulary) src ≤ budget := by
  rcases fits_or_cut_of_mem_segments (greedy_breaksAtBlanks h) hs hp with
    hfits | ⟨t, ht, _, hlacks, hcut⟩
  · exact hfits
  · exact cost_greedy_le_of_mem_cuts h hbudget ht
      (hlacks .word (by decide) 32 rfl) (hlacks .line (by decide) 10 rfl) hcut

theorem cost_greedy_le_of_mem_segmentsOf (h : WordsSpaceLed vocabulary src)
    (hp : p ∈ segmentsOf (.greedy vocabulary) w src) :
    p.cost (.greedy vocabulary) src ≤ w.size := by
  obtain ⟨s, hs, hp⟩ := List.mem_flatMap.mp hp
  have htrim := (mem_trimmed_iff (Nat.zero_le _) (Nat.le_refl _)).mp hs
  have hoverlap := w.overlap_lt
  split at hp
  · next hfits =>
    obtain rfl := List.mem_singleton.mp hp
    exact hfits
  · have hle := cost_greedy_le_of_mem_segments h (by rw [Window.budget]; omega) htrim.tight hp
    exact Nat.le_trans hle (Nat.sub_le ..)

end Span

/-! ## Chunks -/

/-- The chunk repeats nothing and is what trimming left of a span within the budget, and a word that
stands in that span reaches over one of its ends. -/
def Chunk.Overrun (vocabulary : List Text) (w : Window) (src : Text) (c : Chunk) : Prop :=
  c.overlap = 0 ∧ ∃ t : Span, c.own.TrimOf src t ∧
    t.cost (.greedy vocabulary) src ≤ w.size - w.overlap ∧ Span.WordOver vocabulary src c.own t

theorem fits_or_overrun {c : Chunk} (hc : c ∈ split (.greedy vocabulary) w src) :
    c.tokenCount ≤ w.size ∨ c.Overrun vocabulary w src := by
  rcases fits_or_segment hc with hfits | ⟨hzero, -, hmem, hcost⟩
  · exact Or.inl hfits
  have hoverlap := w.overlap_lt
  have hbudget : w.budget ≤ w.size := Nat.sub_le ..
  rcases Span.fits_or_allowed_of_mem_segmentsOf hmem with
    hfits | hfits | hpoint | ⟨t, _, htrim, hfits⟩
  · exact Or.inl (by omega)
  · exact Or.inl (by omega)
  · have hone : c.own.cost (.greedy vocabulary) src = 1 :=
      Tokenizer.count_greedy_point vocabulary hpoint.codePoints
    exact Or.inl (by omega)
  · by_cases hword : Span.WordOver vocabulary src c.own t
    · exact Or.inr ⟨hzero, t, htrim, hfits, hword⟩
    · have hle := htrim.cost_greedy_le hword
      exact Or.inl (by omega)

/-- **The bound for greedy tokenizers and its only exceptions**, for every vocabulary, text and window:
a chunk is too large only where a word of the vocabulary reaches over one of its ends into blanks that
trimming took away; and none is where the words that stand in the text have blanks in front only, with
a space or a line feed among them where something follows. -/
theorem split_greedy_bounded (vocabulary : List Text) (w : Window) (src : Text) :
    ∃ chunks, splitWatched? .never (.greedy vocabulary) w src = some chunks ∧
      (∀ c ∈ chunks, c.tokenCount ≤ w.size ∨ c.Overrun vocabulary w src) ∧
      (WordsSpaceLed vocabulary src → ∀ c ∈ chunks, c.tokenCount ≤ w.size) := by
  refine ⟨split (.greedy vocabulary) w src, splitWatched?_never _ w src,
    fun c hc => fits_or_overrun hc, fun hwords c hc => ?_⟩
  rcases fits_or_segment hc with hfits | ⟨-, -, hmem, hcost⟩
  · exact hfits
  · rw [← hcost]
    exact Span.cost_greedy_le_of_mem_segmentsOf hwords hmem

/-- Two tokens to a chunk, one of which may repeat: of `"the cat	sat"`, with the words `"the"`,
`" cat"` and `"
"`, no chunk has more. -/
theorem split_greedy_bounded_spaceLed :
    WordsSpaceLed [#[116, 104, 101], #[32, 99, 97, 116], #[10]]
      #[116, 104, 101, 32, 99, 97, 116, 9, 115, 97, 116] ∧
    ∃ chunks, splitWatched? .never (.greedy [#[116, 104, 101], #[32, 99, 97, 116], #[10]])
        ⟨2, 1, by decide⟩ #[116, 104, 101, 32, 99, 97, 116, 9, 115, 97, 116] = some chunks ∧
      ∀ c ∈ chunks, c.tokenCount ≤ 2 := by
  have hall : ∀ v ∈ [#[116, 104, 101], #[32, 99, 97, 116], #[10]], SpaceLed v := by decide +kernel
  have hwords : WordsSpaceLed [#[116, 104, 101], #[32, 99, 97, 116], #[10]]
      #[116, 104, 101, 32, 99, 97, 116, 9, 115, 97, 116] := fun v hv _ => hall v hv
  obtain ⟨chunks, heq, -, hbound⟩ :=
    split_greedy_bounded [#[116, 104, 101], #[32, 99, 97, 116], #[10]] ⟨2, 1, by decide⟩
      #[116, 104, 101, 32, 99, 97, 116, 9, 115, 97, 116]
  exact ⟨hwords, chunks, heq, hbound hwords⟩

/-- **Chunks of greedy tokenizers can be too large**: with the words `"	ab"` and `"	a"`, the last
chunk of `"x	ab"` has two tokens where one is allowed. -/
theorem split_greedy_bounded_tab :
    ¬ ∀ (vocabulary : List Text) (w : Window) (src : Text) (chunks : List Chunk),
      splitWatched? .never (.greedy vocabulary) w src = some chunks →
        ∀ c ∈ chunks, c.tokenCount ≤ w.size := by
  intro h
  have hsplit : splitWatched? .never (.greedy [#[9, 97, 98], #[9, 97]]) ⟨1, 0, by decide⟩
      #[120, 9, 97, 98] = some [⟨0, #[120], 1, 0, 1, 0⟩, ⟨1, #[97, 98], 2, 2, 4, 0⟩] := by
    decide +kernel
  exact absurd (h _ _ _ _ hsplit ⟨1, #[97, 98], 2, 2, 4, 0⟩ (by simp)) (by decide)

end Retrieval
