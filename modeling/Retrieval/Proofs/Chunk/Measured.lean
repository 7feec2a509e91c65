import Retrieval.Proofs.Chunk.Units

/-!
# Estimates decide as measuring does

`Span.measured` is the plain way to cut a span: every merged run is measured as a whole, and a run
that was merged is never cut again. With a subadditive tokenizer the segments are the same, for every
span and whatever separators are left (`segments_measured`): the estimate of a run may be above its
cost, but then the run is measured before it is given up. That much holds of any tokenizer
(`merge_cons_of_fits`).
-/

namespace Retrieval

/-! ## Measuring every run -/

namespace Span

/-- The span from the front of one span to the end of another. -/
def upTo (s p : Span) : Span := ⟨s.start, p.stop⟩

/-- Merges neighbouring parts while the whole of them, measured, fits, and hands parts that are too
large to `finer`. A run is kept as it was merged. -/
def mergeMeasured (tok : Tokenizer) (src : Text) (budget : Nat) (finer : Span → List Span) :
    Option Span → List Span → List Span
  | run, [] => run.toList
  | run, part :: rest =>
    if budget < part.cost tok src then
      run.toList ++ finer part ++ mergeMeasured tok src budget finer none rest
    else
      match run with
      | none => mergeMeasured tok src budget finer (some part) rest
      | some r =>
        if (r.upTo part).cost tok src ≤ budget then
          mergeMeasured tok src budget finer (some (r.upTo part)) rest
        else r :: mergeMeasured tok src budget finer (some part) rest

/-- The segments of a span, with every merged run measured as a whole. -/
def measured (tok : Tokenizer) (src : Text) (budget : Nat) : List Separator → Span → List Span
  | separators, s =>
    if s.cost tok src ≤ budget then [s]
    else
      match separators with
      | [] => cuts tok src budget s
      | sep :: finer =>
        if s.contains src sep then
          mergeMeasured tok src budget (measured tok src budget finer) none (parts src sep s)
        else measured tok src budget finer s

variable {tok : Tokenizer} {src : Text} {budget : Nat} {sep : Separator}
variable {s p part : Span} {l rest : List Span} {finer : Span → List Span} {a b : Nat}
variable {run : Option Run} {r grown : Run}

/-! ## Parts in order -/

/-- The spans stand in order from `a` on, none of them reversed. -/
def InOrder (a : Nat) : List Span → Prop
  | [] => True
  | p :: rest => a ≤ p.start ∧ p.start ≤ p.stop ∧ InOrder p.stop rest

theorem InOrder.mono (h : InOrder b l) (hab : a ≤ b) : InOrder a l := by
  cases l with
  | nil => trivial
  | cons p rest => exact ⟨Nat.le_trans hab h.1, h.2⟩

theorem InOrder.join (h : InOrder a (s :: p :: rest)) : InOrder a (s.upTo p :: rest) := by
  obtain ⟨hs, hslt, hp, hplt, hrest⟩ := h
  exact ⟨hs, Nat.le_trans hslt (Nat.le_trans hp hplt), hrest⟩

theorem inOrder_trimmed_append (h : s.stop ≤ b) (hl : InOrder b l) (hs : s.start ≤ b) :
    InOrder s.start (trimmed src s ++ l) := by
  have hstart := Text.le_skipBlank src s.start s.stop
  have hstop := Text.dropBlank_le src (src.skipBlank s.start s.stop) s.stop
  unfold trimmed
  dsimp only
  split
  · next hlt => exact ⟨hstart, Nat.le_of_lt hlt, hl.mono (Nat.le_trans hstop h)⟩
  · exact hl.mono hs

/-- The parts of any span stand in order, whether or not it lies in the text. -/
theorem inOrder_partsFrom (src : Text) (sep : Separator) (stop start : Nat) :
    InOrder start (partsFrom src sep stop start) := by
  fun_induction partsFrom src sep stop start with
  | case1 start hle next here _ =>
    have hnone : InOrder next [] := trivial
    have hhere : InOrder start (trimmed src ⟨start, next⟩ ++ []) :=
      inOrder_trimmed_append (s := ⟨start, next⟩) (Nat.le_refl next) hnone (le_partEnd hle)
    rwa [List.append_nil] at hhere
  | case2 start hle next here _ ih =>
    have hnext : start ≤ next + sep.units.length :=
      Nat.le_trans (le_partEnd hle) (Nat.le_add_right ..)
    exact inOrder_trimmed_append (s := ⟨start, next⟩) (Nat.le_add_right ..) ih hnext
  | case3 => trivial

/-! ## Single steps -/

/-- An extension is refused only if the run and the part cost too much when measured together. -/
theorem lt_cost_of_extend? (h : extend? tok src budget r part = none) :
    budget < (r.span.upTo part).cost tok src := by
  unfold extend? at h
  dsimp only at h
  split at h
  · cases h
  · split at h
    · cases h
    · next hwhole => exact Nat.lt_of_not_le hwhole

/-- What a merge does with a part that fits, for any tokenizer: it extends the run, or it ends the
run and begins another, and then the run and the part measured together exceed the budget. -/
theorem merge_cons_of_fits (hfits : part.cost tok src ≤ budget) :
    (∃ estimate, estimate ≤ budget ∧
      merge tok src budget finer (some r) (part :: rest) =
        merge tok src budget finer (some ⟨r.span.upTo part, estimate⟩) rest) ∨
    budget < (r.span.upTo part).cost tok src ∧
      merge tok src budget finer (some r) (part :: rest) =
        settle tok src budget finer (some r) ++
          merge tok src budget finer (some ⟨part, part.cost tok src⟩) rest := by
  rw [merge, if_neg (Nat.not_lt_of_le hfits)]
  cases hext : extend? tok src budget r part with
  | none => exact .inr ⟨lt_cost_of_extend? hext, rfl⟩
  | some grown =>
    obtain ⟨hspan, hle, -⟩ := extend?_eq_some hext
    refine .inl ⟨grown.estimate, hle, ?_⟩
    rw [show r.span.upTo part = grown.span from hspan.symm]

theorem Run.Sound.grow_inOrder (hsub : tok.Subadditive) (hr : r.Sound tok src budget)
    (h : InOrder a (r.span :: part :: rest)) (hext : extend? tok src budget r part = some grown) :
    grown.Sound tok src budget := by
  obtain ⟨-, hrun, hgap, hpart, -⟩ := h
  exact hr.grow hsub hrun (Nat.le_trans hgap hpart) hext

/-- Whether a run is extended can be told by measuring. -/
theorem Run.Sound.extend?_isSome (hsub : tok.Subadditive) (hr : r.Sound tok src budget)
    (h : InOrder a (r.span :: part :: rest)) :
    (extend? tok src budget r part).isSome = true ↔ (r.span.upTo part).cost tok src ≤ budget := by
  cases hext : extend? tok src budget r part with
  | none => simpa using lt_cost_of_extend? hext
  | some grown =>
    have hfits := (hr.grow_inOrder hsub h hext).fits
    rw [(extend?_eq_some hext).1] at hfits
    exact ⟨fun _ => hfits, fun _ => rfl⟩

/-! ## Runs and levels -/

/-- **Merging by estimates is merging by measuring**: along the parts the estimate of the run stays
between its cost and the budget, so that the two runs differ in it alone. -/
theorem merge_eq_mergeMeasured (hsub : tok.Subadditive) (finer : Span → List Span)
    (run : Option Run) {l : List Span} (h : InOrder a ((run.map Run.span).toList ++ l))
    (hrun : run.elim True (Run.Sound tok src budget)) :
    merge tok src budget finer run l =
      mergeMeasured tok src budget finer (run.map Run.span) l := by
  induction l generalizing run a with
  | nil =>
    cases run with
    | none => rfl
    | some r => exact hrun.settle_eq
  | cons part rest ih =>
    -- a run that begins with the part is measured when it begins
    have begun {a : Nat} (hfits : part.cost tok src ≤ budget) (h : InOrder a (part :: rest)) :
        merge tok src budget finer (some ⟨part, part.cost tok src⟩) rest =
          mergeMeasured tok src budget finer (some part) rest :=
      ih (some ⟨part, part.cost tok src⟩) h ⟨Nat.le_refl _, hfits⟩
    cases run with
    | none =>
      rw [merge, Option.map_none, mergeMeasured]
      split
      · rw [ih none h.2.2 trivial]
        rfl
      · next hlarge => exact begun (Nat.le_of_not_lt hlarge) h
    | some r =>
      have hsound : r.Sound tok src budget := hrun
      rw [merge, Option.map_some, mergeMeasured, hsound.settle_eq]
      split
      · rw [ih none h.2.2.2.2 trivial]
        rfl
      · next hlarge =>
        have hdecides := hsound.extend?_isSome hsub h
        cases hext : extend? tok src budget r part with
        | none =>
          rw [hext] at hdecides
          rw [if_neg fun hle => Bool.noConfusion (hdecides.mpr hle)]
          exact congrArg (r.span :: ·) (begun (Nat.le_of_not_lt hlarge) h.2.2)
        | some grown =>
          rw [hext] at hdecides
          have hspan : grown.span = r.span.upTo part := (extend?_eq_some hext).1
          rw [if_pos (hdecides.mp rfl), ← hspan]
          refine ih (a := a) (some grown) ?_ (hsound.grow_inOrder hsub h hext)
          rw [Option.map_some, hspan]
          exact h.join

theorem segments_eq_measured (hsub : tok.Subadditive) (separators : List Separator) (s : Span) :
    segments tok src budget separators s = measured tok src budget separators s := by
  induction separators generalizing s with
  | nil => rw [segments, measured]
  | cons sep finer ih =>
    rw [segments, measured]
    have same : segments tok src budget finer = measured tok src budget finer := funext ih
    rw [same]
    split
    · rfl
    · split
      · exact merge_eq_mergeMeasured hsub _ none (inOrder_partsFrom src sep s.stop s.start) trivial
      · rfl

/-- **Estimating decides as measuring does.** With a subadditive tokenizer the segments of a span are
those of the plain way, in which every merged run is measured and none is cut again. With any
tokenizer, a part that fits is refused only if the run and the part, measured together, are too
large. -/
theorem segments_measured (tok : Tokenizer) (src : Text) (budget : Nat) :
    (tok.Subadditive → ∀ (separators : List Separator) (s : Span),
      segments tok src budget separators s = measured tok src budget separators s) ∧
    ∀ (finer : Span → List Span) (r : Run) (part : Span) (rest : List Span),
      part.cost tok src ≤ budget →
      (∃ estimate, estimate ≤ budget ∧
        merge tok src budget finer (some r) (part :: rest) =
          merge tok src budget finer (some ⟨r.span.upTo part, estimate⟩) rest) ∨
      budget < (r.span.upTo part).cost tok src ∧
        merge tok src budget finer (some r) (part :: rest) =
          settle tok src budget finer (some r) ++
            merge tok src budget finer (some ⟨part, part.cost tok src⟩) rest :=
  ⟨fun hsub separators s => segments_eq_measured hsub separators s,
    fun _ _ _ _ hfits => merge_cons_of_fits hfits⟩

end Span

/-! ## Blocks of code points -/

theorem length_groupsOf_succ {α : Type} (n : Nat) (l : List α) :
    (groupsOf (n + 1) l).length = (l.length + n) / (n + 1) := by
  fun_induction groupsOf (n + 1) l with
  | case1 => exact (Nat.div_eq_of_lt (by simp)).symm
  | case2 a rest ih =>
    rw [List.length_cons, ih, List.length_drop, List.length_cons, Nat.add_sub_cancel,
      show rest.length + 1 + n = rest.length + (n + 1) by omega,
      Nat.add_div_right _ (Nat.succ_pos n)]
    rcases Nat.lt_or_ge rest.length n with hlt | hge
    · rw [Nat.div_eq_of_lt (by omega), Nat.div_eq_of_lt (by omega)]
    · rw [show rest.length - n + n = rest.length by omega]

/-- Two texts together need no more blocks than each by itself. -/
theorem Tokenizer.block_subadditive (n : Nat) : (Tokenizer.block (n + 1)).Subadditive := by
  have count_eq (t : Text) :
      (Tokenizer.block (n + 1)).count t = (t.codePoints.length + n) / (n + 1) := by
    rw [Tokenizer.count]
    split
    · next hempty =>
      have hnil : t = #[] := by simpa using hempty
      rw [hnil]
      exact (Nat.div_eq_of_lt (by simp [Text.codePoints, Text.codePointsOnto])).symm
    · exact length_groupsOf_succ n t.codePoints
  intro x y
  have hlength := Text.length_codePoints_append x y
  have hx := Nat.lt_mul_div_succ (x.codePoints.length + n) (Nat.succ_pos n)
  have hy := Nat.lt_mul_div_succ (y.codePoints.length + n) (Nat.succ_pos n)
  rw [count_eq, count_eq, count_eq, ← Nat.lt_succ_iff, Nat.div_lt_iff_lt_mul (Nat.succ_pos n)]
  simp only [Nat.mul_add, Nat.add_mul, Nat.succ_eq_add_one, Nat.mul_one, Nat.one_mul] at hx hy ⊢
  generalize (x.codePoints.length + n) / (n + 1) = i at hx ⊢
  generalize (y.codePoints.length + n) / (n + 1) = j at hy ⊢
  rw [Nat.mul_comm n i] at hx
  rw [Nat.mul_comm n j] at hy
  omega

namespace Span

/-- Of `"a bb c"`, with two code points to a token and two tokens to a segment, `"a"` and `"bb"` are
estimated at three tokens, and merged all the same because together they cost two. -/
theorem segments_measured_block :
    (Tokenizer.block 2).Subadditive ∧
      segments (.block 2) #[97, 32, 98, 98, 32, 99] 2 [.word] ⟨0, 6⟩ =
        measured (.block 2) #[97, 32, 98, 98, 32, 99] 2 [.word] ⟨0, 6⟩ ∧
      measured (.block 2) #[97, 32, 98, 98, 32, 99] 2 [.word] ⟨0, 6⟩ = [⟨0, 4⟩, ⟨5, 6⟩] ∧
      merge (.block 2) #[97, 32, 98, 98, 32, 99] 2 (fun s => [s]) (some ⟨⟨0, 4⟩, 2⟩) [⟨5, 6⟩] =
        [⟨0, 4⟩, ⟨5, 6⟩] := by
  have hsub := Tokenizer.block_subadditive 1
  obtain ⟨hsegments, hmerge⟩ := segments_measured (.block 2) #[97, 32, 98, 98, 32, 99] 2
  refine ⟨hsub, hsegments hsub [.word] ⟨0, 6⟩, by decide +kernel, ?_⟩
  rcases hmerge (fun s => [s]) ⟨⟨0, 4⟩, 2⟩ ⟨5, 6⟩ [] (by decide +kernel) with
    ⟨estimate, hle, heq⟩ | ⟨-, heq⟩
  · decide +kernel
  · rw [heq]
    decide +kernel

end Span
end Retrieval
