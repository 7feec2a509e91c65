import Retrieval.Proofs.Chunk.Fields
import Retrieval.Proofs.Chunk.Regions
import Retrieval.Proofs.Text.CodePoint

/-!
# Units that fit are not cut

A paragraph, line or word is cut only when it alone is too large: `split_keeps_units`. This holds of
tokenizers that charge no text more than two texts that make it up. For them the estimate of a run
is never below its cost (`Run.Sound`), so that no merged run is cut again when it is measured.
-/

namespace Retrieval

/-- No text costs more than two texts that make it up. -/
def Tokenizer.Subadditive (tok : Tokenizer) : Prop :=
  ∀ x y : Text, tok.count (x ++ y) ≤ tok.count x + tok.count y

theorem Tokenizer.codePoint_subadditive : Tokenizer.codePoint.Subadditive := by
  intro x y
  rw [Tokenizer.count_codePoint, Tokenizer.count_codePoint, Tokenizer.count_codePoint]
  exact Text.length_codePoints_append x y

namespace Span

variable {tok : Tokenizer} {src : Text} {budget : Nat} {sep : Separator}
variable {s t p q : Span} {l l' ps out : List Span} {finer : Span → List Span} {a b c : Nat}
variable {run : Option Run} {r grown : Run}

/-! ## Spans inside spans -/

/-- `p` lies in `t`. -/
def Within (p t : Span) : Prop := t.start ≤ p.start ∧ p.stop ≤ t.stop

theorem Within.refl (p : Span) : p.Within p := ⟨Nat.le_refl _, Nat.le_refl _⟩

theorem Within.trans (h : p.Within q) (h' : q.Within t) : p.Within t :=
  ⟨Nat.le_trans h'.1 h.1, Nat.le_trans h.2 h'.2⟩

/-- One of the spans holds all of `p`. -/
def Kept (l : List Span) (p : Span) : Prop := ∃ t ∈ l, p.Within t

theorem Kept.mono (h : Kept l p) (hsub : ∀ t ∈ l, t ∈ l') : Kept l' p := by
  obtain ⟨t, ht, hp⟩ := h
  exact ⟨t, hsub t ht, hp⟩

theorem Kept.within (h : Kept l q) (hp : p.Within q) : Kept l p := by
  obtain ⟨t, ht, hq⟩ := h
  exact ⟨t, ht, hp.trans hq⟩

theorem FieldOf.within (h : p.FieldOf src sep s) (hs : s.Tight src) : p.Within s := by
  obtain ⟨f, hf, hp⟩ := h
  obtain ⟨hstart, _, hstop⟩ := fields_bounds hf (Nat.le_of_lt hs.lt) hs.stop_le
  exact ⟨Nat.le_trans hstart hp.start_le, Nat.le_trans hp.le_stop hstop⟩

theorem FieldOf.tight (h : p.FieldOf src sep s) : p.Tight src := by
  obtain ⟨f, _, hp⟩ := h
  exact hp.tight

/-! ## Runs under a subadditive count -/

theorem cost_le_add (src : Text) (hsub : tok.Subadditive) (hab : a ≤ b) (hbc : b ≤ c) :
    cost tok src ⟨a, c⟩ ≤ cost tok src ⟨a, b⟩ + cost tok src ⟨b, c⟩ := by
  simp only [cost, Span.text]
  rw [← Text.slice_append hab hbc]
  exact hsub _ _

/-- The run costs no more than estimated, and the estimate is within the budget. -/
structure Run.Sound (tok : Tokenizer) (src : Text) (budget : Nat) (r : Run) : Prop where
  cost_le : r.span.cost tok src ≤ r.estimate
  estimate_le : r.estimate ≤ budget

theorem Run.Sound.fits (h : r.Sound tok src budget) : r.span.cost tok src ≤ budget :=
  Nat.le_trans h.cost_le h.estimate_le

theorem Run.Sound.settle_eq (h : r.Sound tok src budget) :
    settle tok src budget finer (some r) = [r.span] := by
  have hle := h.estimate_le
  have hfits := h.fits
  rw [settle, if_neg (by omega)]

/-- The estimate of an extended run is no less than its cost, and within the budget, where the run and
what follows it cost no less by themselves than together. -/
theorem Run.Sound.grow_of_cost_le (hr : r.Sound tok src budget)
    (hadd : cost tok src ⟨r.span.start, p.stop⟩ ≤
      cost tok src r.span + cost tok src ⟨r.span.stop, p.stop⟩)
    (hext : extend? tok src budget r p = some grown) : grown.Sound tok src budget := by
  obtain ⟨hspan, hle, hestimate⟩ := extend?_eq_some hext
  refine ⟨?_, hle⟩
  rcases hestimate with hsum | hwhole
  · rw [hspan, hsum]
    exact Nat.le_trans hadd (Nat.add_le_add_right hr.cost_le _)
  · exact Nat.le_of_eq hwhole.symm

theorem Run.Sound.grow (hsub : tok.Subadditive) (hr : r.Sound tok src budget)
    (hrun : r.span.start ≤ r.span.stop) (hgap : r.span.stop ≤ p.stop)
    (hext : extend? tok src budget r p = some grown) : grown.Sound tok src budget :=
  hr.grow_of_cost_le (cost_le_add src hsub hrun hgap) hext

/-- An extended run holds the run and the part. -/
theorem Run.Sound.extend (hsub : tok.Subadditive) (hr : r.Sound tok src budget)
    (h : Tiling src a (r.span :: p :: ps) b) (hext : extend? tok src budget r p = some grown) :
    grown.Sound tok src budget ∧ r.span.Within grown.span ∧ p.Within grown.span := by
  have hrun := h.head_tight.lt
  have hgap := h.tail.start_le_of_mem (List.mem_cons_self ..)
  have hpart := h.tail.head_tight.lt
  have hspan := (extend?_eq_some hext).1
  refine ⟨hr.grow hsub (Nat.le_of_lt hrun) (by omega) hext, ?_, ?_⟩
  · rw [hspan]
    exact ⟨Nat.le_refl _, by simp only; omega⟩
  · rw [hspan]
    exact ⟨by simp only; omega, Nat.le_refl _⟩

/-- What becomes of a part: it is kept whole if it fits, and else cut with the finer separators. -/
structure Handled (tok : Tokenizer) (src : Text) (budget : Nat) (finer : Span → List Span)
    (out : List Span) (p : Span) : Prop where
  kept : p.cost tok src ≤ budget → Kept out p
  cut : budget < p.cost tok src → ∀ t ∈ finer p, t ∈ out

theorem Handled.append (l : List Span) (h : Handled tok src budget finer out p) :
    Handled tok src budget finer (l ++ out) p :=
  ⟨fun hfits => (h.kept hfits).mono fun _ ht => List.mem_append_right _ ht,
    fun hlarge t ht => List.mem_append_right _ (h.cut hlarge t ht)⟩

theorem handled_of_kept (hfits : p.cost tok src ≤ budget) (h : Kept out p) :
    Handled tok src budget finer out p :=
  ⟨fun _ => h, fun hlarge => absurd hfits (Nat.not_le_of_lt hlarge)⟩

/-- **A merge handles** the run that it begins with and every part. -/
theorem Merges.handled (hm : Merges tok src budget finer run ps out)
    (hsub : tok.Subadditive) (h : Tiling src a ((run.map Run.span).toList ++ ps) b)
    (hrun : ∀ r, run = some r → r.Sound tok src budget)
    (hp : p ∈ (run.map Run.span).toList ++ ps) : Handled tok src budget finer out p := by
  induction hm generalizing a p with
  | done => cases hp
  | @settle r _ out _ ih =>
    have hsound := hrun r rfl
    rw [hsound.settle_eq]
    rcases List.mem_cons.mp hp with rfl | hp
    · exact handled_of_kept hsound.fits ⟨r.span, List.mem_cons_self .., Within.refl _⟩
    · exact (ih h.tail (fun r hr => by cases hr) hp).append [r.span]
  | @large part _ out hlarge _ ih =>
    rcases List.mem_cons.mp hp with rfl | hp
    · exact ⟨fun hfits => absurd hfits (Nat.not_le_of_lt hlarge),
        fun _ t ht => List.mem_append_left _ ht⟩
    · exact (ih h.tail (fun r hr => by cases hr) hp).append (finer part)
  | @start part _ _ hfits _ ih =>
    refine ih h (fun r hr => ?_) hp
    cases hr
    exact ⟨Nat.le_refl _, hfits⟩
  | @extend r grown part rest out hfits hext _ ih =>
    -- the run and the part lie in the grown run, and the induction keeps that whole
    have hsound := hrun r rfl
    obtain ⟨hgrown, hrunIn, hpartIn⟩ := hsound.extend hsub h hext
    have hnext : ∀ q ∈ grown.span :: rest, Handled tok src budget finer out q := fun q hq =>
      ih (h.extend hext) (fun r hr => by cases hr; exact hgrown) hq
    have hwhole : Kept out grown.span := (hnext _ (List.mem_cons_self ..)).kept hgrown.fits
    rcases List.mem_cons.mp hp with rfl | hp
    · exact handled_of_kept hsound.fits (hwhole.within hrunIn)
    · rcases List.mem_cons.mp hp with rfl | hp
      · exact handled_of_kept hfits (hwhole.within hpartIn)
      · exact hnext p (List.mem_cons_of_mem _ hp)

/-! ## Segments -/

theorem parts_of_not_contains (hs : s.Tight src) (h : ¬ s.contains src sep = true) :
    parts src sep s = [s] := by
  have hend : partEnd src sep s.stop s.start = s.stop := by
    rw [contains] at h
    rw [partEnd]
    cases hfind : src.find? sep.units s.start with
    | none => rfl
    | some found =>
      rw [hfind] at h
      simp only [decide_eq_true_eq] at h
      simp only
      rw [if_pos (by omega)]
  rw [parts, partsFrom, if_pos (Nat.le_of_lt hs.lt)]
  simp only [hend, if_pos]
  exact trimmed_of_tight hs

/-- **One level of separators**: a field of a span that is too large is kept whole if it fits, and
else its segments are among those of the span. -/
theorem segments_handled {finer : List Separator} (hsub : tok.Subadditive) (hs : s.Tight src)
    (hlarge : budget < s.cost tok src) (hp : p.FieldOf src sep s) :
    Handled tok src budget (segments tok src budget finer)
      (segments tok src budget (sep :: finer) s) p := by
  have hmem : p ∈ parts src sep s := (mem_parts_iff (Nat.le_of_lt hs.lt) hs.stop_le).mpr hp
  rw [segments, if_neg (Nat.not_le_of_lt hlarge)]
  split
  · exact (merges_merge tok src budget _ none _).handled hsub (parts_tiling hs)
      (fun r hr => by cases hr) hmem
  · next hnot =>
    rw [parts_of_not_contains hs hnot, List.mem_singleton] at hmem
    subst hmem
    exact ⟨fun hfits => absurd hfits (Nat.not_le_of_lt hlarge), fun _ t ht => ht⟩

theorem kept_self_of_fits {separators : List Separator} (h : s.cost tok src ≤ budget) :
    Kept (segments tok src budget separators s) s := by
  have heq : segments tok src budget separators s = [s] := by
    cases separators <;> rw [segments, if_pos h]
  rw [heq]
  exact ⟨s, List.mem_singleton_self s, Within.refl s⟩

/-- A field that fits lies in one segment, whether or not the span itself fits. -/
theorem kept_of_fieldOf {finer : List Separator} (hsub : tok.Subadditive) (hs : s.Tight src)
    (hp : p.FieldOf src sep s) (hfits : p.cost tok src ≤ budget) :
    Kept (segments tok src budget (sep :: finer) s) p := by
  rcases Nat.lt_or_ge budget (s.cost tok src) with hlarge | hsmall
  · exact (segments_handled hsub hs hlarge hp).kept hfits
  · exact (kept_self_of_fits hsmall).within (hp.within hs)

/-- What is kept of a field is kept of the span. -/
theorem kept_of_kept_fieldOf {finer : List Separator} (hsub : tok.Subadditive) (hs : s.Tight src)
    (hp : p.FieldOf src sep s) (hq : q.Within p)
    (h : Kept (segments tok src budget finer p) q) :
    Kept (segments tok src budget (sep :: finer) s) q := by
  rcases Nat.lt_or_ge budget (p.cost tok src) with hlarge | hsmall
  · rcases Nat.lt_or_ge budget (s.cost tok src) with hlarge' | hsmall'
    · exact h.mono ((segments_handled hsub hs hlarge' hp).cut hlarge)
    · exact (kept_self_of_fits hsmall').within (hq.trans (hp.within hs))
  · exact (kept_of_fieldOf hsub hs hp hsmall).within hq

end Span

/-- The span lies in the own region of one chunk. -/
def OwnedWhole (chunks : List Chunk) (s : Span) : Prop :=
  ∃ c ∈ chunks, c.ownStart ≤ s.start ∧ s.stop ≤ c.stop

theorem ownedWhole_of_kept {tok : Tokenizer} {w : Window} {src : Text} {p : Span}
    (h : Span.Kept (Span.segmentsOf tok w src) p) : OwnedWhole (split tok w src) p := by
  obtain ⟨t, ht, hp⟩ := h
  rw [← map_own_split] at ht
  obtain ⟨c, hc, rfl⟩ := List.mem_map.mp ht
  exact ⟨c, hc, hp⟩

/-- What is kept of the trimmed text is kept of the text. -/
theorem kept_segmentsOf {tok : Tokenizer} {w : Window} {src : Text} {whole p : Span}
    (hwhole : whole.TrimOf src (Span.whole src)) (hp : p.Within whole)
    (h : Span.Kept (Span.segments tok src w.budget Separator.all whole) p) :
    Span.Kept (Span.segmentsOf tok w src) p := by
  rw [Span.segmentsOf, Span.trimmed_of_trimOf hwhole, List.flatMap_singleton]
  split
  · exact ⟨whole, List.mem_singleton_self whole, hp⟩
  · exact h

/-- **A unit is cut only when it alone is too large.** With a subadditive tokenizer, each paragraph,
line and word of the text that fits the budget lies in the own region of one chunk. -/
theorem split_keeps_units (tok : Tokenizer) (w : Window) (src : Text) (hsub : tok.Subadditive) :
    ∃ chunks, splitWatched? .never tok w src = some chunks ∧
      ∀ whole paragraph : Span, whole.TrimOf src (Span.whole src) →
        paragraph.FieldOf src .paragraph whole →
          (paragraph.cost tok src ≤ w.size - w.overlap → OwnedWhole chunks paragraph) ∧
          ∀ line : Span, line.FieldOf src .line paragraph →
            (line.cost tok src ≤ w.size - w.overlap → OwnedWhole chunks line) ∧
            ∀ word : Span, word.FieldOf src .word line →
              word.cost tok src ≤ w.size - w.overlap → OwnedWhole chunks word := by
  refine ⟨split tok w src, splitWatched?_never tok w src, ?_⟩
  intro whole paragraph hwhole hpar
  have hparIn := hpar.within hwhole.tight
  refine ⟨fun hfits => ?_, fun line hline => ?_⟩
  · exact ownedWhole_of_kept (kept_segmentsOf hwhole hparIn
      (Span.kept_of_fieldOf hsub hwhole.tight hpar hfits))
  have hlineIn := hline.within hpar.tight
  refine ⟨fun hfits => ?_, fun word hword hfits => ?_⟩
  · have inPar : Span.Kept (Span.segments tok src w.budget [.line, .word] paragraph) line :=
      Span.kept_of_fieldOf hsub hpar.tight hline hfits
    exact ownedWhole_of_kept (kept_segmentsOf hwhole (hlineIn.trans hparIn)
      (Span.kept_of_kept_fieldOf hsub hwhole.tight hpar hlineIn inPar))
  · have hwordIn := hword.within hline.tight
    have inLine : Span.Kept (Span.segments tok src w.budget [.word] line) word :=
      Span.kept_of_fieldOf hsub hline.tight hword hfits
    have inPar : Span.Kept (Span.segments tok src w.budget [.line, .word] paragraph) word :=
      Span.kept_of_kept_fieldOf hsub hpar.tight hline hwordIn inLine
    exact ownedWhole_of_kept (kept_segmentsOf hwhole (hwordIn.trans (hlineIn.trans hparIn))
      (Span.kept_of_kept_fieldOf hsub hwhole.tight hpar (hwordIn.trans hlineIn) inPar))

/-- With four code points to a segment, the word `"ef"` of `"ab cd\n\nef ghijkl\nmn"` and the line
`"mn"` are whole, although their paragraph is cut. -/
theorem split_keeps_units_codePoint :
    Tokenizer.codePoint.Subadditive ∧
      ∃ chunks, splitWatched? .never .codePoint ⟨6, 2, by decide⟩
          #[97, 98, 32, 99, 100, 10, 10, 101, 102, 32, 103, 104, 105, 106, 107, 108, 10, 109, 110]
          = some chunks ∧
        OwnedWhole chunks ⟨7, 9⟩ ∧ OwnedWhole chunks ⟨17, 19⟩ := by
  have hsub := Tokenizer.codePoint_subadditive
  obtain ⟨chunks, heq, hunits⟩ := split_keeps_units .codePoint ⟨6, 2, by decide⟩
    #[97, 98, 32, 99, 100, 10, 10, 101, 102, 32, 103, 104, 105, 106, 107, 108, 10, 109, 110] hsub
  have hlines := (hunits ⟨0, 19⟩ ⟨7, 19⟩ (by decide +kernel) (by decide +kernel)).2
  have hword := (hlines ⟨7, 16⟩ (by decide +kernel)).2 ⟨7, 9⟩ (by decide +kernel)
    (by decide +kernel)
  have hline := (hlines ⟨17, 19⟩ (by decide +kernel)).1 (by decide +kernel)
  exact ⟨hsub, chunks, heq, hword, hline⟩

end Retrieval
