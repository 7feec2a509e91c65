import Mathlib.Data.List.TakeWhile
import Retrieval.Proofs.Chunk.Padding

/-!
# Parts are what splitting and trimming leave

`Splits` says what it is to split units at a separator, and `Field.trimmed` where a field stands
without the blanks at its ends; both look at nothing but units. `parts_split` says that the parts of
a span are the trimmed fields of its text, although the scan for them searches the whole source
behind the start of the span, and that the scan ends after one round for each field.
-/

namespace Retrieval

/-! ## Splitting units -/

/-- The fields of units between the occurrences of a separator from left to right: the first
occurrence ends the first field, and what is behind it is split in the same way. -/
inductive Splits (sep : List UInt16) : List UInt16 → List (List UInt16) → Prop
  | last {units : List UInt16} : (∀ i, ¬ sep <+: units.drop i) → Splits sep units [units]
  | cut {units field rest : List UInt16} {fs : List (List UInt16)} :
      units = field ++ sep ++ rest → (∀ i < field.length, ¬ sep <+: units.drop i) →
        Splits sep rest fs → Splits sep units (field :: fs)

namespace Splits

variable {sep units field rest : List UInt16} {fs fs' : List (List UInt16)}

theorem prefix_drop (h : units = field ++ sep ++ rest) : sep <+: units.drop field.length := by
  rw [h, List.append_assoc, List.drop_left]
  exact List.prefix_append sep rest

/-- Units are split in one way only. -/
theorem unique (h : Splits sep units fs) (h' : Splits sep units fs') : fs = fs' := by
  induction h generalizing fs' with
  | last hnone =>
    cases h' with
    | last => rfl
    | cut heq' => exact absurd (prefix_drop heq') (hnone _)
  | @cut units field rest fs heq hfirst _ ih =>
    cases h' with
    | last hnone => exact absurd (prefix_drop heq) (hnone _)
    | @cut _ field' rest' fs' heq' hfirst' hrest' =>
      have hle : field'.length ≤ field.length :=
        Nat.le_of_not_lt fun hlt => hfirst' _ hlt (prefix_drop heq)
      have hge : field.length ≤ field'.length :=
        Nat.le_of_not_lt fun hlt => hfirst _ hlt (prefix_drop heq')
      have hboth := heq.symm.trans heq'
      rw [List.append_assoc, List.append_assoc] at hboth
      obtain ⟨rfl, hrests⟩ := List.append_inj hboth (Nat.le_antisymm hge hle)
      rw [List.append_cancel_left hrests] at ih
      rw [ih hrest']

end Splits

/-! ## Slices -/

namespace Text

variable {t : Text} {a b i : Nat}

/-- A slice that is made of two fields with a separator between them, in its parts. -/
theorem slice_cut {field sep rest : List UInt16} (hab : a ≤ b) (hb : b ≤ t.size)
    (h : (t.slice a b).toList = field ++ sep ++ rest) :
    a + field.length + sep.length ≤ b ∧ (t.slice a (a + field.length)).toList = field ∧
      (t.slice (a + field.length + sep.length) b).toList = rest := by
  have hlength := congrArg List.length h
  rw [Array.length_toList, size_slice hb, List.length_append, List.length_append] at hlength
  refine ⟨by omega, ?_, ?_⟩
  · have happend : t.slice a b = field.toArray ++ (sep ++ rest).toArray := by
      rw [← Array.toList_inj, h, Array.toList_append, List.append_assoc]
    exact congrArg Array.toList (slice_front hab happend)
  · have happend : t.slice a b = (field ++ sep).toArray ++ rest.toArray := by
      rw [← Array.toList_inj, h, Array.toList_append]
    have hback := congrArg Array.toList (slice_back hab hb happend)
    rwa [List.size_toArray, show b - rest.length = a + field.length + sep.length by omega] at hback

theorem trim_of_blank (h : ∀ x ∈ t.toList, isBlank x = true) : t.trim = #[] := by
  have hfront : t.toList.dropWhile isBlank = [] := List.dropWhile_eq_nil_iff.mpr h
  rw [trim, hfront]
  rfl

/-- The blanks at the front of a slice reach to the first unit that is not blank. -/
theorem takeWhile_slice (ha : a ≤ i) (hi : i < b) (hb : b ≤ t.size) (hblank : t.BlankOn a i)
    (hfirst : t.blankAt i = false) : ((t.slice a b).toList.takeWhile isBlank).length = i - a := by
  have hhead : (t.slice i b).toList.head?.any isBlank = false := by
    rw [List.head?_eq_getElem?, Array.getElem?_toList, getElem?_slice hi]
    exact hfirst
  have hnone : (t.slice i b).toList.takeWhile isBlank = [] := by
    cases hl : (t.slice i b).toList with
    | nil => rfl
    | cons x l =>
      rw [hl] at hhead
      exact List.takeWhile_cons_of_neg (by simpa using hhead)
  rw [← slice_append ha (Nat.le_of_lt hi), Array.toList_append,
    List.takeWhile_append_of_pos fun _ hx => hblank.isBlank_of_mem hx, hnone, List.append_nil,
    Array.length_toList, size_slice (by omega)]

end Text

namespace Span

variable {src : Text} {sep : Separator} {s : Span} {start stop : Nat}

/-! ## Fields in a source -/

structure Field where
  start : Nat
  units : List UInt16

/-- The fields with their positions, the first of which begins at `start`. Between two fields there
is a gap of so many units. -/
def located (gap start : Nat) : List (List UInt16) → List Field
  | [] => []
  | units :: fs => ⟨start, units⟩ :: located gap (start + units.length + gap) fs

theorem map_units_located (gap start : Nat) (fs : List (List UInt16)) :
    (located gap start fs).map Field.units = fs := by
  induction fs generalizing start with
  | nil => rfl
  | cons units fs ih => rw [located, List.map_cons, ih]

namespace Field

variable {f : Field}

def span (f : Field) : Span := ⟨f.start, f.start + f.units.length⟩

/-- Where the field stands without the blanks at either end; nowhere if it is blank. -/
def trimmed (f : Field) : List Span :=
  let start := f.start + (f.units.takeWhile isBlank).length
  let kept := Text.trim f.units.toArray
  if kept.isEmpty then [] else [⟨start, start + kept.size⟩]

/-- The field stands in the source. -/
structure In (src : Text) (f : Field) : Prop where
  stop_le : f.start + f.units.length ≤ src.size
  text : f.span.text src = f.units.toArray

theorem In.trimmed_span (h : f.In src) : Span.trimmed src f.span = f.trimmed := by
  rcases trimmed_cases (s := f.span) (Nat.le_add_right ..) h.stop_le with
    ⟨hnil, hblank⟩ | ⟨p, hp, htrim⟩
  · have hkept : Text.trim f.units.toArray = #[] := by
      rw [← h.text]
      exact Text.trim_of_blank fun _ hx => hblank.isBlank_of_mem hx
    simp [hnil, trimmed, hkept]
  · have hlt := htrim.tight.lt
    have hstart : f.start ≤ p.start := htrim.start_le
    have hunits : f.units = (f.span.text src).toList := by rw [h.text]
    have hfront : (f.units.takeWhile isBlank).length = p.start - f.start := by
      rw [hunits]
      exact Text.takeWhile_slice hstart (Nat.lt_of_lt_of_le hlt htrim.le_stop) h.stop_le
        htrim.before htrim.tight.first
    have hsize : (Text.trim f.units.toArray).size = p.stop - p.start := by
      rw [← h.text, ← htrim.text_eq]
      exact Text.size_slice htrim.tight.stop_le
    have hne : ¬ (Text.trim f.units.toArray).isEmpty = true := by
      rw [Array.isEmpty_iff_size_eq_zero]
      omega
    rw [hp, trimmed, if_neg hne, hfront, hsize, Nat.add_sub_of_le hstart,
      Nat.add_sub_of_le (Nat.le_of_lt hlt)]

theorem In.map_text_trimmed (h : f.In src) :
    f.trimmed.map (Span.text src) = [Text.trim f.units.toArray].filter (0 < ·.size) := by
  rw [← h.trimmed_span, ← h.text]
  rcases trimmed_cases (s := f.span) (Nat.le_add_right ..) h.stop_le with
    ⟨hnil, hblank⟩ | ⟨p, hp, htrim⟩
  · have hkept : (f.span.text src).trim = #[] :=
      Text.trim_of_blank fun _ hx => hblank.isBlank_of_mem hx
    rw [hnil, hkept]
    rfl
  · have hpos := htrim.tight.text.size_pos
    simp [hp, ← htrim.text_eq, hpos]

end Field

/-- The fields of a slice stand in the source, one behind the other. -/
theorem in_of_mem_located {sep : List UInt16} {fs : List (List UInt16)} {f : Field}
    (hsplits : Splits sep (src.slice start stop).toList fs) (h : start ≤ stop)
    (hb : stop ≤ src.size) (hf : f ∈ located sep.length start fs) : f.In src := by
  generalize hunits : (src.slice start stop).toList = units at hsplits
  induction hsplits generalizing start with
  | last =>
    subst hunits
    obtain rfl := List.mem_singleton.mp hf
    have hstop : start + (src.slice start stop).toList.length = stop := by
      rw [Array.length_toList, Text.size_slice hb]
      omega
    exact ⟨by simp only [hstop, hb], by simp only [Field.span, hstop, text]⟩
  | @cut units field rest fs heq _ _ ih =>
    subst hunits
    obtain ⟨hle, hfield, hrest⟩ := Text.slice_cut h hb heq
    rcases List.mem_cons.mp hf with rfl | hf
    · exact ⟨by simp only; omega, by rw [← Array.toList_inj]; exact hfield⟩
    · exact ih hle hf hrest

/-- Trimmed fields hold what trimming leaves of their units; the blank ones are left out. -/
theorem map_text_trimmed_located {gap : Nat} {fs : List (List UInt16)}
    (hin : ∀ f ∈ located gap start fs, f.In src) :
    ((located gap start fs).flatMap Field.trimmed).map (text src) =
      (fs.map fun units => Text.trim units.toArray).filter (0 < ·.size) :=
  calc ((located gap start fs).flatMap Field.trimmed).map (text src)
    _ = (located gap start fs).flatMap fun f =>
          [Text.trim f.units.toArray].filter (0 < ·.size) := by
        rw [List.map_flatMap]
        exact List.flatMap_congr fun f hf => (hin f hf).map_text_trimmed
    _ = (((located gap start fs).map Field.units).map fun units =>
          Text.trim units.toArray).filter (0 < ·.size) := by
        rw [List.map_map, List.map_eq_flatMap, List.filter_flatMap]
        rfl
    _ = (fs.map fun units => Text.trim units.toArray).filter (0 < ·.size) := by
        rw [map_units_located]

/-- The fields that the scan goes by are those of a splitting. What has been seen of the first of
them holds no occurrence. -/
theorem fieldsFrom_splits {sep units : List UInt16} (seen : List UInt16) (hsep : 0 < sep.length)
    (hseen : ∀ i < seen.length, ¬ sep <+: (seen ++ units).drop i) :
    ∃ fs, Splits sep (seen ++ units) fs ∧
      fieldsFrom sep start (start + seen.length) units =
        (located sep.length start fs).map Field.span := by
  generalize hpos : start + seen.length = pos
  fun_induction fieldsFrom sep start pos units generalizing seen with
  | case1 start pos =>
    subst hpos
    rw [List.append_nil] at hseen ⊢
    refine ⟨[seen], .last fun i hi => ?_, rfl⟩
    by_cases hlt : i < seen.length
    · exact hseen i hlt hi
    · have hlength := hi.length_le
      rw [List.length_drop] at hlength
      omega
  | case2 start pos u rest hhere ih =>
    subst hpos
    obtain ⟨back, hback⟩ := List.isPrefixOf_iff_prefix.mp hhere
    have hrest : rest.drop (sep.length - 1) = back := by
      have hdrop := congrArg (List.drop sep.length) hback
      rw [List.drop_left] at hdrop
      rw [hdrop, show sep.length = sep.length - 1 + 1 by omega, List.drop_succ_cons,
        Nat.add_sub_cancel]
    obtain ⟨fs, hfs, hfields⟩ := ih [] (by simp) (Nat.add_zero _)
    rw [List.nil_append, hrest] at hfs
    refine ⟨seen :: fs, .cut ?_ hseen hfs, ?_⟩
    · rw [← hback, List.append_assoc]
    · rw [hfields, located, List.map_cons]
      rfl
  | case3 start pos u rest hnot ih =>
    subst hpos
    have happend : seen ++ u :: rest = seen ++ [u] ++ rest := by simp
    rw [happend] at hseen ⊢
    refine ih _ (fun i hi => ?_) (by simp; omega)
    rcases Nat.lt_or_ge i seen.length with hlt | hge
    · exact hseen i hlt
    · -- the unit that has just been passed does not begin an occurrence
      obtain rfl : i = seen.length := by simp at hi; omega
      rw [← happend, List.drop_left, ← List.isPrefixOf_iff_prefix]
      exact hnot

theorem fields_splits (src : Text) (sep : Separator) (s : Span) :
    ∃ fs, Splits sep.units (s.text src).toList fs ∧
      fields src sep s = (located sep.units.length s.start fs).map Field.span :=
  fieldsFrom_splits [] sep.units_length_pos (by simp)

/-! ## The scan -/

/-- A scan for parts between two rounds: where the next field begins, and the parts found so far. -/
structure Scan where
  start : Nat
  found : List Span

namespace Scan

/-- One round: the scan ends with the parts that were found, or it goes on behind a separator. -/
def round (src : Text) (sep : Separator) (stop : Nat) (c : Scan) : List Span ⊕ Scan :=
  if c.start ≤ stop then
    let next := partEnd src sep stop c.start
    let found := c.found ++ trimmed src ⟨c.start, next⟩
    if next = stop then .inl found else .inr ⟨next + sep.units.length, found⟩
  else .inl c.found

def run (src : Text) (sep : Separator) (stop : Nat) : Nat → Scan → Option (List Span)
  | 0, _ => none
  | rounds + 1, c => (c.round src sep stop).elim some (run src sep stop rounds)

/-- The scan takes one round for each field, and ends with the parts. -/
theorem run_eq (h : start ≤ stop) (hb : stop ≤ src.size) (found : List Span) (rounds : Nat) :
    run src sep stop rounds ⟨start, found⟩ =
      if (fieldsFrom sep.units start start (src.slice start stop).toList).length ≤ rounds then
        some (found ++ partsFrom src sep stop start)
      else none := by
  fun_induction partsFrom src sep stop start generalizing found rounds with
  | case1 start hle next here hnext =>
    rw [fieldsFrom_slice h hb, if_pos hnext]
    cases rounds with
    | zero => rfl
    | succ rounds => simp [run, round, hle, next, here, hnext]
  | case2 start hle next here hnext ih =>
    rcases partEnd_cases src sep stop start with hend | ⟨-, hstop⟩
    · exact absurd hend hnext
    rw [fieldsFrom_slice h hb, if_neg hnext, List.length_cons]
    cases rounds with
    | zero => rfl
    | succ rounds => simp [run, round, hle, next, here, hnext, ih hstop]
  | case3 start hstart => exact absurd h hstart

end Scan

def scan? (src : Text) (sep : Separator) (s : Span) (rounds : Nat) : Option (List Span) :=
  Scan.run src sep s.stop rounds ⟨s.start, []⟩

theorem scan?_eq (h : s.start ≤ s.stop) (hb : s.stop ≤ src.size) (rounds : Nat) :
    scan? src sep s rounds =
      if (fields src sep s).length ≤ rounds then some (s.parts src sep) else none :=
  Scan.run_eq h hb [] rounds

/-! ## Parts -/

/-- The parts of a span are those of its text, moved to where the span begins. -/
theorem parts_eq_shift (h : s.start ≤ s.stop) (hb : s.stop ≤ src.size) :
    s.parts src sep = ((whole (s.text src)).parts (s.text src) sep).map (shift s.start) := by
  have hfront : (src.slice 0 s.start).size = s.start := by
    rw [Text.size_slice (Nat.le_trans h hb), Nat.sub_zero]
  have hsize : (s.text src).size = s.stop - s.start := Text.size_slice hb
  have hsrc : src.slice 0 s.start ++ s.text src ++ src.slice s.stop src.size = src := by
    rw [Span.text, Text.slice_append (Nat.zero_le _) h, Text.slice_append (Nat.zero_le _) hb,
      Text.slice_all]
  have hspan : (whole (s.text src)).shift s.start = s := by
    cases s
    simp only [shift, whole, hsize, mk.injEq] at *
    omega
  have hmoved : ((whole (s.text src)).shift (src.slice 0 s.start).size).parts
      (src.slice 0 s.start ++ s.text src ++ src.slice s.stop src.size) sep =
        ((whole (s.text src)).parts (s.text src) sep).map (shift (src.slice 0 s.start).size) :=
    parts_pad (Nat.zero_le _) (Nat.le_refl _)
  rwa [hsrc, hfront, hspan] at hmoved

/-- **Parts are what splitting and trimming leave.** The text of a span has one splitting at a
separator. The parts hold its fields without the blanks at either end, those that are not blank, and
lie where these lie in the source. The scan finds them in as many rounds as there are fields. And
what lies outside the span does not matter: they are the parts of its text, moved to its start. -/
theorem parts_split (src : Text) (sep : Separator) (s : Span) (h : s.start ≤ s.stop)
    (hb : s.stop ≤ src.size) :
    ∃ fs, (∀ l, Splits sep.units (s.text src).toList l ↔ l = fs) ∧
      (s.parts src sep).map (text src) =
        (fs.map fun units => Text.trim units.toArray).filter (0 < ·.size) ∧
      s.parts src sep = (located sep.units.length s.start fs).flatMap Field.trimmed ∧
      (∀ rounds, scan? src sep s rounds =
        if fs.length ≤ rounds then some (s.parts src sep) else none) ∧
      s.parts src sep = ((whole (s.text src)).parts (s.text src) sep).map (shift s.start) := by
  obtain ⟨fs, hsplits, hfields⟩ := fields_splits src sep s
  have hin : ∀ f ∈ located sep.units.length s.start fs, f.In src := fun f hf =>
    in_of_mem_located hsplits h hb hf
  have hparts : s.parts src sep = (located sep.units.length s.start fs).flatMap Field.trimmed := by
    rw [parts_eq h hb, hfields, List.flatMap_map]
    exact List.flatMap_congr fun f hf => (hin f hf).trimmed_span
  have htexts : (s.parts src sep).map (text src) =
      (fs.map fun units => Text.trim units.toArray).filter (0 < ·.size) := by
    rw [hparts]
    exact map_text_trimmed_located hin
  have hlength : (fields src sep s).length = fs.length := by
    rw [hfields, List.length_map, ← List.length_map Field.units, map_units_located]
  refine ⟨fs, fun l => ⟨fun hl => hl.unique hsplits, fun hl => hl ▸ hsplits⟩, htexts, hparts,
    fun rounds => ?_, parts_eq_shift h hb⟩
  rw [scan?_eq h hb, hlength]

/-- In `"ab\n\n\nc\n\n \n\nd"` inside a longer source, the third line break begins the second field,
and the third field is blank. -/
theorem parts_split_breaks :
    ∃ src : Text, src = #[32, 97, 98, 10, 10, 10, 99, 10, 10, 32, 10, 10, 100, 10, 10] ∧
      1 ≤ 13 ∧ 13 ≤ src.size ∧
      parts src .paragraph ⟨1, 13⟩ = [⟨1, 3⟩, ⟨6, 7⟩, ⟨12, 13⟩] ∧
      scan? src .paragraph ⟨1, 13⟩ 4 = some [⟨1, 3⟩, ⟨6, 7⟩, ⟨12, 13⟩] ∧
      scan? src .paragraph ⟨1, 13⟩ 3 = none := by
  refine ⟨_, rfl, by decide, by decide, ?_⟩
  obtain ⟨fs, hsplits, -, hparts, hscan, -⟩ :=
    parts_split #[32, 97, 98, 10, 10, 10, 99, 10, 10, 32, 10, 10, 100, 10, 10] .paragraph ⟨1, 13⟩
      (by decide) (by decide)
  have hlast : Splits Separator.paragraph.units [100] [[100]] := by
    refine .last fun i hi => ?_
    have hlength := hi.length_le
    simp only [Separator.units, List.length_cons, List.length_nil, List.length_drop] at hlength
    omega
  obtain rfl : [[97, 98], [10, 99], [32], [100]] = fs := (hsplits _).mp
    (.cut rfl (by decide) (.cut rfl (by decide) (.cut rfl (by decide) hlast)))
  have htrimmed : (located Separator.paragraph.units.length 1
      [[97, 98], [10, 99], [32], [100]]).flatMap Field.trimmed =
        [⟨1, 3⟩, ⟨6, 7⟩, ⟨12, 13⟩] := by decide
  rw [hscan, hscan, hparts, htrimmed]
  exact ⟨rfl, rfl, rfl⟩

end Span
end Retrieval
