import Mathlib.Data.List.Pairwise
import Retrieval.Chunk.Split
import Retrieval.Proofs.Chunk.Tiling

/-!
# Segments tile the span they come from

Each way of cutting a span leaves out nothing but blanks: the parts between separators, because
separators are blanks themselves; the cuts between code points, because they follow each other;
and the merged runs, because merging keeps a tiling a tiling. Nothing is asked of the tokenizer.
-/

namespace Retrieval

/-! ## Searching a text -/

namespace Text

variable {t : Text} {pattern : List UInt16} {i j k : Nat}

theorem getElem?_of_startsAt (h : t.startsAt pattern i = true) (hk : k < pattern.length) :
    t[i + k]? = pattern[k]? := by
  induction pattern generalizing i k with
  | nil => exact absurd hk (Nat.not_lt_zero k)
  | cons u rest ih =>
    simp only [startsAt, Bool.and_eq_true, beq_iff_eq] at h
    cases k with
    | zero => exact h.1
    | succ k =>
      have hrest := ih h.2 (Nat.lt_of_succ_lt_succ hk)
      rw [List.getElem?_cons_succ, ← hrest, show i + 1 + k = i + (k + 1) by omega]

theorem startsAt_of_find? (h : t.find? pattern i = some j) : t.startsAt pattern j = true := by
  fun_induction find? t pattern i with
  | case1 i hi =>
    cases h
    exact hi
  | case2 _ _ _ ih => exact ih h
  | case3 => cases h

end Text

theorem Separator.isBlank_of_mem (sep : Separator) {u : UInt16} (h : u ∈ sep.units) :
    isBlank u = true := by
  cases sep <;> simp only [units, List.mem_cons, List.not_mem_nil, or_false, or_self] at h <;>
    subst h <;> decide

/-- Where a separator stands there are blanks. -/
theorem Separator.blankOn {src : Text} {sep : Separator} {i : Nat}
    (h : src.startsAt sep.units i = true) : src.BlankOn i (i + sep.units.length) := by
  intro j hij hj
  have hk : j - i < sep.units.length := by omega
  have hget := Text.getElem?_of_startsAt h hk
  rw [show i + (j - i) = j by omega, List.getElem?_eq_getElem hk] at hget
  rw [Text.blankAt, hget]
  exact sep.isBlank_of_mem (List.getElem_mem hk)

namespace Span

variable {tok : Tokenizer} {src : Text} {budget : Nat} {sep : Separator}
variable {s : Span} {start stop a b i : Nat} {bounds : Array Nat}

/-! ## Parts between separators -/

/-- A part ends where the span does, or before a separator that lies within the span. -/
theorem partEnd_cases (src : Text) (sep : Separator) (stop start : Nat) :
    partEnd src sep stop start = stop ∨
      (src.startsAt sep.units (partEnd src sep stop start) = true ∧
        partEnd src sep stop start + sep.units.length ≤ stop) := by
  unfold partEnd
  split
  · next found hfound =>
    split
    · exact Or.inl rfl
    · exact Or.inr ⟨Text.startsAt_of_find? hfound, by omega⟩
  · exact Or.inl rfl

theorem partsFrom_tiling (h : start ≤ stop) (hb : stop ≤ src.size) :
    Tiling src start (partsFrom src sep stop start) stop := by
  fun_induction partsFrom src sep stop start with
  | case1 start _ next here hnext =>
    have hhere : Tiling src start here next :=
      Tiling.of_trimmed (s := ⟨start, next⟩) (le_partEnd h) (by simp only; omega)
    rwa [hnext] at hhere
  | case2 start _ next here hnext ih =>
    rcases partEnd_cases src sep stop start with hend | ⟨hsep, hle⟩
    · exact absurd hend hnext
    · have hnext : next ≤ src.size := Nat.le_trans (Nat.le_add_right ..) (Nat.le_trans hle hb)
      have hhere : Tiling src start here next :=
        Tiling.of_trimmed (s := ⟨start, next⟩) (le_partEnd h) hnext
      have hrest := (ih hle).pad_left (Nat.le_add_right ..) (Separator.blankOn hsep)
      exact hhere.append hrest
  | case3 start hstart => exact absurd h hstart

theorem parts_tiling (h : s.Tight src) : Tiling src s.start (parts src sep s) s.stop :=
  partsFrom_tiling (Nat.le_of_lt h.lt) h.stop_le

/-! ## Cuts between code points -/

theorem codePointEnds_pairwise (pos : Nat) (units : List UInt16) :
    (pos :: codePointEnds pos units).Pairwise (· < ·) := by
  fun_induction codePointEnds pos units with
  | case1 => simp
  | case2 => simp
  | case3 pos u v rest _ ih => exact ih.cons_cons_of_trans (Nat.lt_add_of_pos_right (by decide))
  | case4 pos u v rest _ ih => exact ih.cons_cons_of_trans (Nat.lt_succ_self pos)

theorem codePointEnds_getLast (pos : Nat) (units : List UInt16) :
    (pos :: codePointEnds pos units).getLast? = some (pos + units.length) := by
  fun_induction codePointEnds pos units with
  | case1 => simp
  | case2 => simp
  | case3 pos u v rest _ ih =>
    rw [List.getLast?_cons_cons, ih]
    simp only [List.length_cons]
    congr 1
    omega
  | case4 pos u v rest _ ih =>
    rw [List.getLast?_cons_cons, ih]
    simp only [List.length_cons]
    congr 1
    omega

theorem boundaries_le (src : Text) (s : Span) {i j : Nat} (hij : i ≤ j)
    (hj : j < (boundaries src s).size) : (boundaries src s).getD i 0 ≤ (boundaries src s).getD j 0 := by
  rcases Nat.eq_or_lt_of_le hij with rfl | hlt
  · exact Nat.le_refl _
  · have hpair := codePointEnds_pairwise s.start (s.text src).toList
    have hget := List.pairwise_iff_getElem.mp hpair i j (by simp [boundaries] at hj ⊢; omega)
      (by simpa [boundaries] using hj) hlt
    rw [Array.getD_eq_getD_getElem?, Array.getD_eq_getD_getElem?,
      Array.getElem?_eq_getElem (by omega), Array.getElem?_eq_getElem hj]
    simpa [boundaries] using Nat.le_of_lt hget

theorem boundaries_first : (boundaries src s).getD 0 0 = s.start := by
  simp [boundaries]

theorem boundaries_last :
    (boundaries src s).getD ((boundaries src s).size - 1) 0 = s.start + (s.text src).size := by
  have hlast := codePointEnds_getLast s.start (s.text src).toList
  rw [List.getLast?_eq_getElem?] at hlast
  rw [Array.getD_eq_getD_getElem?, boundaries, List.getElem?_toArray, List.size_toArray, hlast,
    Option.getD_some, Array.length_toList]

/-- The search gives back the index that it began with, or one inside its range that fits. -/
theorem lastFit_cases (fits : Nat → Bool) (low high best : Nat) :
    lastFit fits low high best = best ∨
      (low ≤ lastFit fits low high best ∧ lastFit fits low high best < high ∧
        fits (lastFit fits low high best) = true) := by
  fun_induction lastFit fits low high best with
  | case1 low high best hlt mid hfit ih =>
    rcases ih with heq | ⟨hlow, hhigh, hfits⟩
    · rw [heq]
      exact Or.inr ⟨by omega, by omega, hfit⟩
    · exact Or.inr ⟨by omega, hhigh, hfits⟩
  | case2 low high best hlt mid _ ih =>
    rcases ih with heq | ⟨hlow, hhigh, hfits⟩
    · exact Or.inl heq
    · exact Or.inr ⟨hlow, by omega, hfits⟩
  | case3 => exact Or.inl rfl

/-- A cut covers one code point, or several that fit the budget. -/
theorem cutEnd_cases (tok : Tokenizer) (src : Text) (budget : Nat) (bounds : Array Nat) (i : Nat) :
    cutEnd tok src budget bounds i = i + 1 ∨
      (cutEnd tok src budget bounds i < bounds.size ∧
        (between bounds i (cutEnd tok src budget bounds i)).cost tok src ≤ budget) := by
  rcases lastFit_cases (fun j => decide ((between bounds i j).cost tok src ≤ budget)) (i + 1)
    bounds.size (i + 1) with heq | ⟨_, hlt, hfits⟩
  · exact Or.inl heq
  · exact Or.inr ⟨hlt, of_decide_eq_true hfits⟩

theorem cutEnd_lt_size (h : i + 1 < bounds.size) : cutEnd tok src budget bounds i < bounds.size := by
  rcases cutEnd_cases tok src budget bounds i with heq | ⟨hlt, _⟩
  · omega
  · exact hlt

theorem cutsFrom_tiling (tok : Tokenizer) (budget : Nat)
    (hmono : ∀ i j, i ≤ j → j < bounds.size → bounds.getD i 0 ≤ bounds.getD j 0)
    (hlast : bounds.getD (bounds.size - 1) 0 ≤ src.size) (hi : i < bounds.size) :
    Tiling src (bounds.getD i 0) (cutsFrom tok src budget bounds i)
      (bounds.getD (bounds.size - 1) 0) := by
  fun_induction cutsFrom tok src budget bounds i with
  | case1 i hlt next ih =>
    have hnext : next < bounds.size := cutEnd_lt_size hlt
    have hle := hmono i next (Nat.le_of_lt (lt_cutEnd ..)) hnext
    have hstop := hmono next (bounds.size - 1) (by omega) (by omega)
    exact (Tiling.of_trimmed (s := between bounds i next) hle (Nat.le_trans hstop hlast)).append
      (ih hnext)
  | case2 i hge =>
    rw [show i = bounds.size - 1 by omega]
    exact .blank (Nat.le_refl _) (Text.BlankOn.of_le (Nat.le_refl _))

theorem cuts_tiling (h : s.Tight src) : Tiling src s.start (cuts tok src budget s) s.stop := by
  have hlast : (boundaries src s).getD ((boundaries src s).size - 1) 0 = s.stop := by
    have hlt := h.lt
    rw [boundaries_last, Span.text, Text.size_slice h.stop_le]
    omega
  have htiling := cutsFrom_tiling tok budget (fun _ _ hij hj => boundaries_le src s hij hj)
    (hlast.symm ▸ h.stop_le) (Nat.succ_pos (codePointEnds s.start (s.text src).toList).length)
  rwa [hlast, boundaries_first] at htiling

/-! ## Merged runs -/

/-- An extended run reaches to the end of the part. Its estimate is within the budget, and is the
sum of the two costs or the cost of the whole. -/
theorem extend?_eq_some {r grown : Run} {part : Span}
    (h : extend? tok src budget r part = some grown) :
    grown.span = ⟨r.span.start, part.stop⟩ ∧ grown.estimate ≤ budget ∧
      (grown.estimate = r.estimate + cost tok src ⟨r.span.stop, part.stop⟩ ∨
        grown.estimate = grown.span.cost tok src) := by
  simp only [extend?, Option.ite_none_right_eq_some, Option.some.injEq] at h
  obtain ⟨hle, rfl⟩ := h
  refine ⟨rfl, hle, ?_⟩
  by_cases hsum : r.estimate + cost tok src ⟨r.span.stop, part.stop⟩ ≤ budget
  · exact Or.inl (if_pos hsum)
  · exact Or.inr (if_neg hsum)

variable {finer : Span → List Span} {run : Option Run} {parts out : List Span}

/-- The rules of merging: a run is settled before the parts that follow it, a part that is too large
is handed to `finer`, and a part that fits begins a run or extends the one at hand. -/
inductive Merges (tok : Tokenizer) (src : Text) (budget : Nat) (finer : Span → List Span) :
    Option Run → List Span → List Span → Prop
  | done : Merges tok src budget finer none [] []
  | settle {r : Run} {parts out : List Span} : Merges tok src budget finer none parts out →
      Merges tok src budget finer (some r) parts (settle tok src budget finer (some r) ++ out)
  | large {part : Span} {rest out : List Span} : budget < part.cost tok src →
      Merges tok src budget finer none rest out →
        Merges tok src budget finer none (part :: rest) (finer part ++ out)
  | start {part : Span} {rest out : List Span} : part.cost tok src ≤ budget →
      Merges tok src budget finer (some ⟨part, part.cost tok src⟩) rest out →
        Merges tok src budget finer none (part :: rest) out
  | extend {r grown : Run} {part : Span} {rest out : List Span} : part.cost tok src ≤ budget →
      extend? tok src budget r part = some grown →
        Merges tok src budget finer (some grown) rest out →
          Merges tok src budget finer (some r) (part :: rest) out

/-- Merging follows the rules. -/
theorem merges_merge (tok : Tokenizer) (src : Text) (budget : Nat) (finer : Span → List Span)
    (run : Option Run) (parts : List Span) :
    Merges tok src budget finer run parts (merge tok src budget finer run parts) := by
  induction parts generalizing run with
  | nil =>
    rw [merge]
    cases run with
    | none => exact .done
    | some r =>
      have hdone : Merges tok src budget finer none [] [] := .done
      have hsettle := hdone.settle (r := r)
      rwa [List.append_nil] at hsettle
  | cons part rest ih =>
    have hnone : Merges tok src budget finer none (part :: rest)
        (merge tok src budget finer none (part :: rest)) := by
      rw [merge]
      split
      · next hlarge => exact .large hlarge (ih none)
      · next hfits => exact .start (by omega) (ih _)
    cases run with
    | none => exact hnone
    | some r =>
      have hsettle := hnone.settle (r := r)
      rw [merge] at hsettle
      rw [merge]
      split
      · next hlarge =>
        rw [if_pos hlarge] at hsettle
        rw [List.append_assoc]
        exact hsettle
      · next hfits =>
        rw [if_neg hfits] at hsettle
        cases hext : extend? tok src budget r part with
        | some grown => exact .extend (by omega) hext (ih (some grown))
        | none => exact hsettle

/-- What is settled of a run tiles the run. -/
theorem settle_tiling (tok : Tokenizer) (budget : Nat)
    (hfiner : ∀ t : Span, t.Tight src → Tiling src t.start (finer t) t.stop)
    {r : Run} (h : r.span.Tight src) :
    Tiling src r.span.start (settle tok src budget finer (some r)) r.span.stop := by
  rw [settle]
  split
  · exact hfiner _ h
  · exact Tiling.single h

/-- A run that is extended by the part behind it stands for both. -/
theorem Tiling.extend {r grown : Run} {part : Span} (h : Tiling src a (r.span :: part :: parts) b)
    (hext : extend? tok src budget r part = some grown) : Tiling src a (grown.span :: parts) b := by
  rw [(extend?_eq_some hext).1]
  exact h.join

/-- Merging keeps a tiling a tiling: a run is the first parts made one. -/
theorem Merges.tiling (hfiner : ∀ t : Span, t.Tight src → Tiling src t.start (finer t) t.stop)
    (hm : Merges tok src budget finer run parts out)
    (h : Tiling src a ((run.map Run.span).toList ++ parts) b) : Tiling src a out b := by
  induction hm generalizing a with
  | done => exact h
  | settle _ ih => exact h.refine (settle_tiling tok budget hfiner h.head_tight) (ih h.tail)
  | @large part _ _ _ _ ih => exact h.refine (hfiner part h.head_tight) (ih h.tail)
  | start _ _ ih => exact ih h
  | extend _ hext _ ih => exact ih (h.extend hext)

/-- **Segments tile the span they come from.** -/
theorem segments_tiling (separators : List Separator) (h : s.Tight src) :
    Tiling src s.start (segments tok src budget separators s) s.stop := by
  induction separators generalizing s with
  | nil =>
    rw [segments]
    split
    · exact Tiling.single h
    · exact cuts_tiling h
  | cons sep finer ih =>
    rw [segments]
    split
    · exact Tiling.single h
    · split
      · exact (merges_merge tok src budget _ none _).tiling (fun _ ht => ih ht) (parts_tiling h)
      · exact ih h

end Span
end Retrieval
