import Mathlib.Data.List.Basic
import Retrieval.Proofs.Chunk.Bound
import Retrieval.Proofs.Chunk.Units

/-!
# What is left to be cut between code points

With a tokenizer whose tokens end where words end, no merged run is cut again: the parts of a run are
apart by blanks, and so its estimate is never below its cost. Every segment that was not measured is
then cut from a span in which no separator of a single unit stands (`fits_or_cut_of_mem_segments`).
-/

namespace Retrieval

/-- Where a blank follows something visible, the text in front of it and the text from it on cost no
less by themselves than together. -/
def Tokenizer.BreaksAtBlanks (tok : Tokenizer) (src : Text) : Prop :=
  ∀ a m b, a ≤ m → m ≤ b → src.blankAt (m - 1) = false → src.blankAt m = true →
    tok.count (src.slice a b) ≤ tok.count (src.slice a m) + tok.count (src.slice m b)

namespace Span

variable {tok : Tokenizer} {src : Text} {budget : Nat} {sep : Separator} {u : UInt16}
variable {s p part : Span} {parts out rest : List Span} {finer : Span → List Span}
variable {run : Option Run} {r grown : Run} {start stop a b i : Nat}

/-! ## Parts are apart -/

theorem trimmed_pairwise {R : Span → Span → Prop} : (trimmed src s).Pairwise R := by
  unfold trimmed
  dsimp only
  split
  · exact List.pairwise_singleton R _
  · exact List.Pairwise.nil

/-- Between two parts there is at least one unit, that of a separator. -/
theorem partsFrom_apart (h : start ≤ stop) (hb : stop ≤ src.size) :
    (partsFrom src sep stop start).Pairwise fun s p => s.stop < p.start := by
  fun_induction partsFrom src sep stop start with
  | case1 => exact trimmed_pairwise
  | case2 start _ next here hnext ih =>
    rcases partEnd_cases src sep stop start with hend | ⟨-, hle⟩
    · exact absurd hend hnext
    · refine List.pairwise_append.mpr ⟨trimmed_pairwise, ih hle, fun p hp q hq => ?_⟩
      have hpos := sep.units_length_pos
      have hnext : next ≤ src.size := Nat.le_trans (Nat.le_add_right ..) (Nat.le_trans hle hb)
      have hstop : p.stop ≤ next := ((mem_trimmed_iff (le_partEnd h) hnext).mp hp).le_stop
      have hstart := (partsFrom_tiling hle hb).start_le_of_mem hq
      omega
  | case3 start hstart => exact absurd h hstart

/-- Behind a span that stands apart from the next there is a blank. -/
theorem Tiling.blankAt_stop (h : Tiling src a (s :: p :: rest) b) (hlt : s.stop < p.start) :
    src.blankAt s.stop = true := by
  cases h.tail with
  | span _ hgap _ _ => exact hgap s.stop (Nat.le_refl _) hlt

/-! ## Runs that are not cut again -/

/-- A run of parts that are apart stays sound when it is extended. -/
theorem Run.Sound.grow_apart (hbreaks : tok.BreaksAtBlanks src) (hr : r.Sound tok src budget)
    (h : Tiling src a (r.span :: part :: rest) b) (hlt : r.span.stop < part.start)
    (hext : extend? tok src budget r part = some grown) : grown.Sound tok src budget := by
  have hpart := h.tail.head_tight.lt
  have hadd := hbreaks r.span.start r.span.stop part.stop (Nat.le_of_lt h.head_tight.lt) (by omega)
    h.head_tight.last (h.blankAt_stop hlt)
  exact hr.grow_of_cost_le hadd hext

/-- What comes out of a merge of parts that are apart fits, or was made of one part that does not. -/
theorem Merges.fits_or_part (hbreaks : tok.BreaksAtBlanks src)
    (hm : Merges tok src budget finer run parts out)
    (h : Tiling src a ((run.map Run.span).toList ++ parts) b)
    (hapart : ((run.map Run.span).toList ++ parts).Pairwise fun s p => s.stop < p.start)
    (hrun : ∀ r, run = some r → r.Sound tok src budget) (hp : p ∈ out) :
    p.cost tok src ≤ budget ∨ ∃ part ∈ parts, p ∈ finer part := by
  induction hm generalizing a with
  | done => cases hp
  | @settle r parts out _ ih =>
    have hsound := hrun r rfl
    rw [hsound.settle_eq] at hp
    rcases List.mem_cons.mp hp with rfl | hp
    · exact Or.inl hsound.fits
    · exact ih h.tail (List.Pairwise.of_cons hapart) (fun r hr => by cases hr) hp
  | @large part rest out _ _ ih =>
    rcases List.mem_append.mp hp with hp | hp
    · exact Or.inr ⟨part, List.mem_cons_self .., hp⟩
    · exact (ih h.tail (List.Pairwise.of_cons hapart) (fun r hr => by cases hr) hp).imp_right
        List.exists_mem_cons_of_exists
  | @start part rest out hfits _ ih =>
    have hsound : Run.Sound tok src budget ⟨part, part.cost tok src⟩ := ⟨Nat.le_refl _, hfits⟩
    exact (ih h hapart (fun r hr => by cases hr; exact hsound) hp).imp_right
      List.exists_mem_cons_of_exists
  | @extend r grown part rest out _ hext _ ih =>
    obtain ⟨hfirst, hothers⟩ := List.pairwise_cons.mp hapart
    have hsound := (hrun r rfl).grow_apart hbreaks h (hfirst part (List.mem_cons_self ..)) hext
    -- the grown run ends where the part does, and so stays apart from what follows
    have hgrown : (grown.span :: rest).Pairwise fun s p => s.stop < p.start := by
      obtain ⟨hpart, hrest⟩ := List.pairwise_cons.mp hothers
      rw [(extend?_eq_some hext).1]
      exact List.Pairwise.cons hpart hrest
    exact (ih (h.extend hext) hgrown (fun r hr => by cases hr; exact hsound) hp).imp_right
      List.exists_mem_cons_of_exists

/-! ## Levels of separators -/

/-- The unit does not stand in the span. -/
def Lacks (src : Text) (s : Span) (u : UInt16) : Prop :=
  ∀ i, s.start ≤ i → i < s.stop → src[i]? ≠ some u

theorem Lacks.within (h : Lacks src s u) (hp : p.Within s) : Lacks src p u :=
  fun i hi his => h i (Nat.le_trans hp.1 hi) (Nat.lt_of_lt_of_le his hp.2)

theorem partEnd_le_of_stands (hi : start ≤ i) (h : Stands src sep stop i) (hb : stop ≤ src.size) :
    partEnd src sep stop start ≤ i := by
  induction hgap : i - start generalizing start with
  | zero =>
    obtain rfl : start = i := by omega
    exact Nat.le_of_eq (partEnd_of_stands h)
  | succ gap ih =>
    by_cases hstart : Stands src sep stop start
    · rw [partEnd_of_stands hstart]
      exact hi
    · have hle := h.2
      rw [partEnd_succ hstart (by omega) hb]
      exact ih (by omega) (by omega)

theorem stands_of_getElem? (hsep : sep.units = [u]) (hi : i < stop) (h : src[i]? = some u) :
    Stands src sep stop i := by
  rw [Stands, hsep]
  exact ⟨by simp [Text.startsAt, h], hi⟩

/-- In a part the separator does not stand. -/
theorem lacks_of_mem_partsFrom (hsep : sep.units = [u]) (h : start ≤ stop) (hb : stop ≤ src.size)
    (hp : p ∈ partsFrom src sep stop start) : Lacks src p u := by
  have lacks_here : ∀ {start : Nat}, start ≤ stop →
      p ∈ trimmed src ⟨start, partEnd src sep stop start⟩ → Lacks src p u := by
    intro start hle hp i hi his hget
    have hend : partEnd src sep stop start ≤ stop := by
      rcases partEnd_cases src sep stop start with heq | ⟨-, hle⟩ <;> omega
    have htrim := (mem_trimmed_iff (le_partEnd hle) (Nat.le_trans hend hb)).mp hp
    have hstart : start ≤ p.start := htrim.start_le
    have hstop : p.stop ≤ partEnd src sep stop start := htrim.le_stop
    have hstands : Stands src sep stop i := stands_of_getElem? hsep (by omega) hget
    have hfound := partEnd_le_of_stands (Nat.le_trans hstart hi) hstands hb
    omega
  fun_induction partsFrom src sep stop start with
  | case1 start hle next here _ => exact lacks_here hle hp
  | case2 start hle next here hnext ih =>
    rcases partEnd_cases src sep stop start with hend | ⟨-, hend⟩
    · exact absurd hend hnext
    · rcases List.mem_append.mp hp with hp | hp
      · exact lacks_here hle hp
      · exact ih hend hp
  | case3 start hstart => exact absurd h hstart

/-- **One level of separators**: a segment fits, or it is one of a part of the span. -/
theorem fits_or_part_of_mem_segments {finer : List Separator} (hbreaks : tok.BreaksAtBlanks src)
    (hs : s.Tight src) (h : p ∈ segments tok src budget (sep :: finer) s) :
    p.cost tok src ≤ budget ∨ ∃ part ∈ s.parts src sep, p ∈ segments tok src budget finer part := by
  rw [segments] at h
  split at h
  · next hfits =>
    obtain rfl := List.mem_singleton.mp h
    exact Or.inl hfits
  · split at h
    · exact (merges_merge tok src budget _ none _).fits_or_part hbreaks (parts_tiling hs)
        (partsFrom_apart (Nat.le_of_lt hs.lt) hs.stop_le) (fun r hr => by cases hr) h
    · next hnot =>
      refine Or.inr ⟨s, ?_, h⟩
      rw [parts_of_not_contains hs hnot]
      exact List.mem_singleton_self s

/-- **All levels**: a segment fits, or it is cut from a span without the separators. -/
theorem fits_or_cut_of_mem_segments {separators : List Separator}
    (hbreaks : tok.BreaksAtBlanks src) (hs : s.Tight src)
    (h : p ∈ segments tok src budget separators s) :
    p.cost tok src ≤ budget ∨ ∃ t : Span, t.Tight src ∧ t.Within s ∧
      (∀ sep ∈ separators, ∀ u, sep.units = [u] → Lacks src t u) ∧ p ∈ cuts tok src budget t := by
  induction separators generalizing s with
  | nil =>
    rw [segments] at h
    split at h
    · next hfits =>
      obtain rfl := List.mem_singleton.mp h
      exact Or.inl hfits
    · exact Or.inr ⟨s, hs, Within.refl s, (fun sep hsep => by cases hsep), h⟩
  | cons sep finer ih =>
    rcases fits_or_part_of_mem_segments hbreaks hs h with hfits | ⟨part, hpart, hp⟩
    · exact Or.inl hfits
    · have hfield := (mem_parts_iff (Nat.le_of_lt hs.lt) hs.stop_le).mp hpart
      rcases ih hfield.tight hp with hfits | ⟨t, ht, hin, hlacks, hcut⟩
      · exact Or.inl hfits
      · refine Or.inr ⟨t, ht, hin.trans (hfield.within hs), fun sep' hsep' u hu => ?_, hcut⟩
        rcases List.mem_cons.mp hsep' with rfl | hmem
        · exact (lacks_of_mem_partsFrom hu (Nat.le_of_lt hs.lt) hs.stop_le hpart).within hin
        · exact hlacks sep' hmem u hu

end Span
end Retrieval
