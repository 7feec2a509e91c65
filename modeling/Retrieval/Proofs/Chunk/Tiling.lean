import Retrieval.Chunk.Basic
import Retrieval.Proofs.Text.Blank

/-!
# Tilings of a text

A list of spans tiles `[a, b)` when the spans stand there in order, none of them is empty or has a
blank at an end, and only blanks are left out. Tilings can be put together (`Tiling.append`), a span
of one can be tiled again (`Tiling.refine`), and two neighbours can be made one (`Tiling.join`).
`Tiling.visible` says that a tiling loses nothing but blanks.
-/

namespace Retrieval.Span

variable {src : Text} {s p q : Span} {rest l l' : List Span} {a b c i : Nat}

/-! ## Spans without blanks at their ends -/

/-- The span lies in the text, is not empty and has no blank at either end. -/
structure Tight (src : Text) (s : Span) : Prop where
  lt : s.start < s.stop
  stop_le : s.stop ≤ src.size
  first : src.blankAt s.start = false
  last : src.blankAt (s.stop - 1) = false

instance (src : Text) (s : Span) : Decidable (s.Tight src) :=
  decidable_of_iff (s.start < s.stop ∧ s.stop ≤ src.size ∧ src.blankAt s.start = false ∧
      src.blankAt (s.stop - 1) = false)
    ⟨fun ⟨hlt, hle, hf, hl⟩ => ⟨hlt, hle, hf, hl⟩, fun ⟨hlt, hle, hf, hl⟩ => ⟨hlt, hle, hf, hl⟩⟩

theorem Tight.text (h : s.Tight src) : (s.text src).Tight := by
  have hlt := h.lt
  have hsize : (s.text src).size = s.stop - s.start := Text.size_slice h.stop_le
  refine ⟨by omega, ?_, ?_⟩
  · rw [Span.text, Text.blankAt_slice (by omega)]
    exact h.first
  · rw [hsize, Span.text, Text.blankAt_slice (by omega)]
    rw [show s.start + (s.stop - s.start - 1) = s.stop - 1 by omega]
    exact h.last

/-- A slice without blanks at its ends lies over a tight span. -/
theorem Tight.of_text (h : (s.text src).Tight) (hb : s.stop ≤ src.size) : s.Tight src := by
  have hsize : (s.text src).size = s.stop - s.start := Text.size_slice hb
  have hpos := h.size_pos
  have hfirst := h.first
  have hlast := h.last
  rw [Span.text, Text.blankAt_slice (by omega), Nat.add_zero] at hfirst
  rw [hsize, Span.text, Text.blankAt_slice (by omega),
    show s.start + (s.stop - s.start - 1) = s.stop - 1 by omega] at hlast
  exact ⟨by omega, hb, hfirst, hlast⟩

/-- `p` is what is left of `s` without the blanks at either end. -/
structure TrimOf (src : Text) (p s : Span) : Prop where
  tight : p.Tight src
  start_le : s.start ≤ p.start
  le_stop : p.stop ≤ s.stop
  before : src.BlankOn s.start p.start
  after : src.BlankOn p.stop s.stop

instance (src : Text) (p s : Span) : Decidable (p.TrimOf src s) :=
  decidable_of_iff (p.Tight src ∧ s.start ≤ p.start ∧ p.stop ≤ s.stop ∧
      src.BlankOn s.start p.start ∧ src.BlankOn p.stop s.stop)
    ⟨fun ⟨ht, hs, he, hb, ha⟩ => ⟨ht, hs, he, hb, ha⟩,
      fun ⟨ht, hs, he, hb, ha⟩ => ⟨ht, hs, he, hb, ha⟩⟩

theorem Tight.trimOf_self (h : s.Tight src) : s.TrimOf src s :=
  ⟨h, Nat.le_refl _, Nat.le_refl _, Text.BlankOn.of_le (Nat.le_refl _),
    Text.BlankOn.of_le (Nat.le_refl _)⟩

theorem TrimOf.unique (hp : p.TrimOf src s) (hq : q.TrimOf src s) : p = q := by
  -- an end of the one inside the blanks beside the other would be blank
  have start_le : ∀ {p q : Span}, p.TrimOf src s → q.TrimOf src s → p.start ≤ q.start := by
    intro p q hp hq
    rcases Nat.lt_or_ge q.start p.start with hlt | hle
    · have hb := hp.before _ hq.start_le hlt
      rw [hq.tight.first] at hb
      cases hb
    · exact hle
  have stop_le : ∀ {p q : Span}, p.TrimOf src s → q.TrimOf src s → q.stop ≤ p.stop := by
    intro p q hp hq
    rcases Nat.lt_or_ge p.stop q.stop with hlt | hle
    · have hb := hp.after (q.stop - 1) (by omega) (by have := hq.le_stop; omega)
      rw [hq.tight.last] at hb
      cases hb
    · exact hle
  have hstart := Nat.le_antisymm (start_le hp hq) (start_le hq hp)
  have hstop := Nat.le_antisymm (stop_le hq hp) (stop_le hp hq)
  cases p
  cases q
  simp_all

/-- The text of what is left is the trimmed text. -/
theorem TrimOf.text_eq (h : p.TrimOf src s) : p.text src = (s.text src).trim := by
  have hlt := Nat.le_of_lt h.tight.lt
  rw [Span.text, Span.text, ← Text.slice_append (Nat.le_trans h.start_le hlt) h.le_stop,
    ← Text.slice_append h.start_le hlt]
  exact (Text.trim_pad (fun _ hx => h.before.isBlank_of_mem hx)
    (fun _ hx => h.after.isBlank_of_mem hx) h.tight.text).symm

/-- What is left is the span itself, or it is shorter. -/
theorem TrimOf.eq_or_shorter (h : p.TrimOf src s) :
    p = s ∨ p.stop - p.start < s.stop - s.start := by
  have hlt := h.tight.lt
  have hstart := h.start_le
  have hstop := h.le_stop
  by_cases heq : s.start = p.start ∧ p.stop = s.stop
  · left
    cases p
    cases s
    simp_all
  · right
    omega

/-- Trimming either leaves a trimmed span, or there was nothing but blanks. -/
theorem trimmed_cases (h : s.start ≤ s.stop) (hb : s.stop ≤ src.size) :
    (trimmed src s = [] ∧ src.BlankOn s.start s.stop) ∨
      ∃ p, trimmed src s = [p] ∧ p.TrimOf src s := by
  have hskip := Text.skipBlank_le (t := src) h
  have hfront := Text.blankOn_skipBlank src s.start s.stop
  have hback := Text.blankOn_dropBlank src (src.skipBlank s.start s.stop) s.stop
  have hstop := Text.dropBlank_le src (src.skipBlank s.start s.stop) s.stop
  by_cases hlt : (s.trim src).start < (s.trim src).stop
  · have htight : (s.trim src).Tight src :=
      ⟨hlt, Nat.le_trans hstop hb, Text.blankAt_skipBlank (Nat.lt_of_lt_of_le hlt hstop),
        Text.blankAt_dropBlank hlt⟩
    exact Or.inr ⟨s.trim src, by simp [trimmed, hlt], htight, Text.le_skipBlank .., hstop, hfront,
      hback⟩
  · refine Or.inl ⟨by simp [trimmed, hlt], fun i hi his => ?_⟩
    by_cases hmid : i < src.skipBlank s.start s.stop
    · exact hfront i hi hmid
    · simp only [trim] at hlt
      exact hback i (by omega) his

theorem TrimOf.stop_le_size (h : p.TrimOf src s) : s.stop ≤ src.size := by
  rcases Nat.eq_or_lt_of_le h.le_stop with heq | hlt
  · rw [← heq]
    exact h.tight.stop_le
  · exact h.after.le_size hlt

theorem trimmed_of_trimOf (h : p.TrimOf src s) : trimmed src s = [p] := by
  have hlt := Nat.lt_of_lt_of_le h.tight.lt h.le_stop
  rcases trimmed_cases (Nat.le_trans h.start_le (Nat.le_of_lt hlt)) h.stop_le_size with
    ⟨_, hblank⟩ | ⟨q, hq, hqs⟩
  · have hfirst := hblank p.start h.start_le hlt
    rw [h.tight.first] at hfirst
    cases hfirst
  · rw [hq, hqs.unique h]

/-- A span without blanks at its ends is left as it is. -/
theorem trimmed_of_tight (h : s.Tight src) : trimmed src s = [s] :=
  trimmed_of_trimOf h.trimOf_self

theorem trimmed_eq_nil (h : s.start ≤ s.stop) (hb : s.stop ≤ src.size)
    (hblank : src.BlankOn s.start s.stop) : trimmed src s = [] := by
  rcases trimmed_cases h hb with ⟨hnil, _⟩ | ⟨p, _, htrim⟩
  · exact hnil
  · -- the first unit of what is left would be blank
    have hfirst := hblank p.start htrim.start_le (Nat.lt_of_lt_of_le htrim.tight.lt htrim.le_stop)
    rw [htrim.tight.first] at hfirst
    cases hfirst

theorem mem_trimmed_iff (h : s.start ≤ s.stop) (hb : s.stop ≤ src.size) :
    p ∈ trimmed src s ↔ p.TrimOf src s := by
  constructor
  · intro hp
    rcases trimmed_cases h hb with ⟨hnil, _⟩ | ⟨q, hq, hqs⟩
    · rw [hnil] at hp
      cases hp
    · rw [hq, List.mem_singleton] at hp
      exact hp ▸ hqs
  · intro hp
    rw [trimmed_of_trimOf hp]
    exact List.mem_singleton_self p

/-! ## Tilings -/

/-- The unit at `i` lies in the span. -/
def has (s : Span) (i : Nat) : Bool := s.start ≤ i && i < s.stop

theorem has_iff : s.has i = true ↔ s.start ≤ i ∧ i < s.stop := by
  simp [has]

/-- The spans stand in order in `[a, b)`, are tight, and leave out nothing but blanks. -/
inductive Tiling (src : Text) : Nat → List Span → Nat → Prop
  | blank {a b : Nat} : a ≤ b → src.BlankOn a b → Tiling src a [] b
  | span {a b : Nat} {s : Span} {rest : List Span} :
      a ≤ s.start → src.BlankOn a s.start → s.Tight src → Tiling src s.stop rest b →
        Tiling src a (s :: rest) b

namespace Tiling

theorem single (h : s.Tight src) : Tiling src s.start [s] s.stop :=
  .span (Nat.le_refl _) (Text.BlankOn.of_le (Nat.le_refl _)) h
    (.blank (Nat.le_refl _) (Text.BlankOn.of_le (Nat.le_refl _)))

theorem pad_left (h : Tiling src b l c) (hab : a ≤ b) (hblank : src.BlankOn a b) :
    Tiling src a l c := by
  cases h with
  | blank hbc hrest => exact .blank (Nat.le_trans hab hbc) (hblank.trans hrest)
  | span hs hgap ht hrest => exact .span (Nat.le_trans hab hs) (hblank.trans hgap) ht hrest

theorem pad_right (h : Tiling src a l b) (hbc : b ≤ c) (hblank : src.BlankOn b c) :
    Tiling src a l c := by
  induction h with
  | blank hab hgap => exact .blank (Nat.le_trans hab hbc) (hgap.trans hblank)
  | span hs hgap ht _ ih => exact .span hs hgap ht (ih hbc hblank)

theorem append (h : Tiling src a l b) (h' : Tiling src b l' c) : Tiling src a (l ++ l') c := by
  induction h with
  | blank hab hgap => exact h'.pad_left hab hgap
  | span hs hgap ht _ ih => exact .span hs hgap ht (ih h')

theorem head_tight (h : Tiling src a (s :: rest) b) : s.Tight src := by
  cases h with
  | span _ _ ht _ => exact ht

theorem tail (h : Tiling src a (s :: rest) b) : Tiling src s.stop rest b := by
  cases h with
  | span _ _ _ hrest => exact hrest

/-- The first span is tiled again, and so is what follows it. -/
theorem refine (h : Tiling src a (s :: rest) b) (hl : Tiling src s.start l s.stop)
    (hl' : Tiling src s.stop l' b) : Tiling src a (l ++ l') b := by
  cases h with
  | span hs hgap _ _ => exact (hl.pad_left hs hgap).append hl'

/-- The first two spans are made one. -/
theorem join (h : Tiling src a (s :: p :: rest) b) :
    Tiling src a (⟨s.start, p.stop⟩ :: rest) b := by
  cases h with
  | span hs hgap ht hrest =>
    cases hrest with
    | span hp _ htp hrest =>
      have hlt := ht.lt
      have hltp := htp.lt
      exact .span hs hgap ⟨by simp only; omega, htp.stop_le, ht.first, htp.last⟩ hrest

theorem of_trimOf (h : p.TrimOf src s) : Tiling src s.start [p] s.stop :=
  ((single h.tight).pad_left h.start_le h.before).pad_right h.le_stop h.after

theorem of_trimmed (h : s.start ≤ s.stop) (hb : s.stop ≤ src.size) :
    Tiling src s.start (trimmed src s) s.stop := by
  rcases trimmed_cases h hb with ⟨hnil, hblank⟩ | ⟨p, hp, hps⟩
  · rw [hnil]
    exact .blank h hblank
  · rw [hp]
    exact of_trimOf hps

/-! ## What a tiling says of its spans -/

theorem le (h : Tiling src a l b) : a ≤ b := by
  induction h with
  | blank hab _ => exact hab
  | span hs _ ht _ ih =>
    have := ht.lt
    omega

theorem start_le_of_mem (h : Tiling src a l b) (hs : s ∈ l) : a ≤ s.start := by
  induction h with
  | blank => cases hs
  | span hle _ ht _ ih =>
    rcases List.mem_cons.mp hs with rfl | hs
    · exact hle
    · have := ih hs
      have := ht.lt
      omega

/-- The spans are disjoint and in increasing order. -/
theorem pairwise (h : Tiling src a l b) : l.Pairwise fun s p => s.stop ≤ p.start := by
  induction h with
  | blank => exact List.Pairwise.nil
  | span _ _ _ hrest ih => exact List.Pairwise.cons (fun _ hp => hrest.start_le_of_mem hp) ih

theorem countP_has_eq_zero (h : Tiling src a l b) (hi : i < a) : l.countP (has · i) = 0 := by
  rw [List.countP_eq_zero]
  intro s hs
  have := h.start_le_of_mem hs
  simp only [has, Bool.and_eq_true, decide_eq_true_eq]
  omega

/-- A unit that is not blank lies in exactly one of the spans. -/
theorem countP_has (h : Tiling src a l b) (ha : a ≤ i) (hb : i < b)
    (hi : src.blankAt i = false) : l.countP (has · i) = 1 := by
  induction h with
  | blank _ hblank =>
    rw [hblank i ha hb] at hi
    cases hi
  | @span a b s rest hs hgap ht hrest ih =>
    have hstart : s.start ≤ i := by
      rcases Nat.lt_or_ge i s.start with hlt | hle
      · rw [hgap i ha hlt] at hi
        cases hi
      · exact hle
    by_cases hstop : i < s.stop
    · have hhere : has s i = true := by simp [has, hstart, hstop]
      rw [List.countP_cons, hrest.countP_has_eq_zero hstop, if_pos hhere]
    · have hhere : ¬ has s i = true := by simp [has, hstop]
      rw [List.countP_cons, ih (by omega) hb, if_neg hhere]

/-- Nothing but blanks is lost. -/
theorem visible (h : Tiling src a l b) :
    l.flatMap (fun s => (s.text src).visible) = (src.slice a b).visible := by
  induction h with
  | blank _ hblank => exact hblank.visible_slice.symm
  | @span a b s rest hs hgap ht hrest ih =>
    have hmid : a ≤ s.stop := Nat.le_trans hs (Nat.le_of_lt ht.lt)
    rw [List.flatMap_cons, ih, ← Text.slice_append hmid hrest.le,
      ← Text.slice_append hs (Nat.le_of_lt ht.lt), Text.visible_append, Text.visible_append,
      hgap.visible_slice, List.nil_append, Span.text]

end Tiling
end Retrieval.Span
