import Retrieval.Proofs.Chunk.Segments

/-!
# Parts are trimmed fields

`Span.fields` cuts the units of a span at the occurrences of a separator, from left to right and
without overlap, and looks at nothing else. `parts_eq` says that the parts of a span are its fields,
trimmed and without the blank ones, although the scan for them searches the whole source and
clamps what it finds at the end of the span.
-/

namespace Retrieval

/-! ## Searching forward -/

namespace Text

variable {t : Text} {pattern : List UInt16} {i : Nat}

theorem startsAt_eq_isPrefixOf (t : Text) (pattern : List UInt16) (i : Nat) :
    t.startsAt pattern i = pattern.isPrefixOf (t.toList.drop i) := by
  induction pattern generalizing i with
  | nil => simp [startsAt]
  | cons u rest ih =>
    rw [startsAt, ih]
    by_cases hi : i < t.size
    · have hdrop : t.toList.drop i = t[i] :: t.toList.drop (i + 1) :=
        List.drop_eq_getElem_cons (by simpa using hi)
      have hhead : (some t[i] == some u) = (u == t[i]) := by
        rw [Option.some_beq_some, Bool.beq_comm]
      rw [hdrop, List.isPrefixOf_cons_cons, Array.getElem?_eq_getElem hi, hhead]
    · have hdrop : t.toList.drop i = [] := List.drop_eq_nil_of_le (by simpa using hi)
      rw [hdrop, Array.getElem?_eq_none (by omega)]
      simp

theorem find?_of_startsAt (h : t.startsAt pattern i = true) : t.find? pattern i = some i := by
  rw [find?, if_pos h]

theorem find?_succ (h : ¬ t.startsAt pattern i = true) (hi : i < t.size) :
    t.find? pattern i = t.find? pattern (i + 1) := by
  rw [find?, if_neg h, if_pos hi]

end Text

namespace Span

variable {src : Text} {sep : Separator} {s p f : Span} {start stop pos : Nat}

/-! ## Fields -/

/-- The fields of units that begin at `pos`, between the occurrences of a separator from left to
right; the first of the fields has begun at `start`. -/
def fieldsFrom (sep : List UInt16) (start pos : Nat) : List UInt16 → List Span
  | [] => [⟨start, pos⟩]
  | u :: rest =>
    if sep.isPrefixOf (u :: rest) then
      ⟨start, pos⟩ ::
        fieldsFrom sep (pos + sep.length) (pos + sep.length) (rest.drop (sep.length - 1))
    else fieldsFrom sep start (pos + 1) rest
termination_by units => units.length
decreasing_by
  · simp only [List.length_drop, List.length_cons]
    omega
  · simp

/-- The fields of a span between the occurrences of a separator in it. -/
def fields (src : Text) (sep : Separator) (s : Span) : List Span :=
  fieldsFrom sep.units s.start s.start (s.text src).toList

theorem fieldsFrom_bounds {sep units : List UInt16} (hf : f ∈ fieldsFrom sep start pos units)
    (h : start ≤ pos) : start ≤ f.start ∧ f.start ≤ f.stop ∧ f.stop ≤ pos + units.length := by
  fun_induction fieldsFrom sep start pos units with
  | case1 start pos =>
    cases List.mem_singleton.mp hf
    exact ⟨Nat.le_refl _, h, Nat.le_refl _⟩
  | case2 start pos u rest hsep ih =>
    have hlen := (List.isPrefixOf_iff_prefix.mp hsep).length_le
    simp only [List.length_cons] at hlen ⊢
    rcases List.mem_cons.mp hf with rfl | hf
    · exact ⟨Nat.le_refl _, h, by simp only; omega⟩
    · have hrest := ih hf (Nat.le_refl _)
      simp only [List.length_drop] at hrest
      omega
  | case3 start pos u rest _ ih =>
    have hrest := ih hf (by omega)
    simp only [List.length_cons]
    omega

theorem fields_bounds (hf : f ∈ fields src sep s) (h : s.start ≤ s.stop) (hb : s.stop ≤ src.size) :
    s.start ≤ f.start ∧ f.start ≤ f.stop ∧ f.stop ≤ s.stop := by
  have hbounds := fieldsFrom_bounds hf (Nat.le_refl _)
  rw [Array.length_toList, Span.text, Text.size_slice hb] at hbounds
  omega

/-! ## Where the scan ends a part -/

/-- The separator stands at `i` and ends within `stop`. -/
def Stands (src : Text) (sep : Separator) (stop i : Nat) : Prop :=
  src.startsAt sep.units i = true ∧ i + sep.units.length ≤ stop

/-- Whether a separator stands at `pos` can be seen on the units up to `stop`. -/
theorem isPrefixOf_slice_iff (h : pos ≤ stop) :
    sep.units.isPrefixOf (src.slice pos stop).toList = true ↔ Stands src sep stop pos := by
  have hslice : (src.slice pos stop).toList = (src.toList.drop pos).take (stop - pos) := by
    rw [Text.slice, Array.toList_extract, List.extract_eq_take_drop]
  rw [hslice, List.isPrefixOf_iff_prefix, List.prefix_take_iff, ← List.isPrefixOf_iff_prefix,
    ← Text.startsAt_eq_isPrefixOf, Stands]
  constructor
  · rintro ⟨hstarts, hlen⟩
    exact ⟨hstarts, by omega⟩
  · rintro ⟨hstarts, hlen⟩
    exact ⟨hstarts, by omega⟩

theorem partEnd_of_stands (h : Stands src sep stop pos) : partEnd src sep stop pos = pos := by
  have hle := h.2
  rw [partEnd, Text.find?_of_startsAt h.1]
  simp only
  rw [if_neg (by omega)]

theorem partEnd_stop (h : stop ≤ pos) : partEnd src sep stop pos = stop := by
  rcases partEnd_cases src sep stop pos with heq | ⟨hsep, hle⟩
  · exact heq
  · have hpos := sep.units_length_pos
    unfold partEnd at hsep hle ⊢
    split
    · next found hfound =>
      have := Text.le_of_find? hfound
      rw [if_pos (by omega)]
    · rfl

/-- Where no separator stands the scan goes on to the next unit. -/
theorem partEnd_succ (h : ¬ Stands src sep stop pos) (hpos : pos < stop) (hb : stop ≤ src.size) :
    partEnd src sep stop pos = partEnd src sep stop (pos + 1) := by
  by_cases hstarts : src.startsAt sep.units pos = true
  · -- it stands there but passes the end, and so does every later one
    have hlen : stop < pos + sep.units.length := by
      rcases Nat.lt_or_ge stop (pos + sep.units.length) with hlt | hge
      · exact hlt
      · exact absurd ⟨hstarts, hge⟩ h
    have hhere : partEnd src sep stop pos = stop := by
      rw [partEnd, Text.find?_of_startsAt hstarts]
      simp only
      rw [if_pos hlen]
    have hnext : pos + 1 ≤ partEnd src sep stop (pos + 1) := le_partEnd hpos
    rcases partEnd_cases src sep stop (pos + 1) with heq | ⟨_, hle⟩
    · rw [hhere, heq]
    · omega
  · rw [partEnd, partEnd, Text.find?_succ hstarts (by omega)]

/-- The fields from `pos` on: one that ends where the scan does, and those behind the separator. -/
theorem fieldsFrom_slice (h : pos ≤ stop) (hb : stop ≤ src.size) :
    fieldsFrom sep.units start pos (src.slice pos stop).toList =
      if partEnd src sep stop pos = stop then [⟨start, stop⟩]
      else ⟨start, partEnd src sep stop pos⟩ ::
        fieldsFrom sep.units (partEnd src sep stop pos + sep.units.length)
          (partEnd src sep stop pos + sep.units.length)
          (src.slice (partEnd src sep stop pos + sep.units.length) stop).toList := by
  have hslice : ∀ i, (src.slice i stop).toList = (src.toList.drop i).take (stop - i) := by
    intro i
    rw [Text.slice, Array.toList_extract, List.extract_eq_take_drop]
  induction hgap : stop - pos generalizing pos with
  | zero =>
    have heq : pos = stop := by omega
    subst heq
    have hnil : (src.slice pos pos).toList = [] := by simp [hslice]
    rw [hnil, partEnd_stop (Nat.le_refl _), if_pos rfl, fieldsFrom]
  | succ gap ih =>
    have hlt : pos < stop := by omega
    have hcons : (src.slice pos stop).toList = src[pos] :: (src.slice (pos + 1) stop).toList := by
      rw [hslice, hslice, List.drop_eq_getElem_cons (by simp; omega),
        show stop - pos = stop - (pos + 1) + 1 by omega, List.take_succ_cons, Array.getElem_toList]
    rw [hcons, fieldsFrom, ← hcons]
    by_cases hstands : Stands src sep stop pos
    · have hle := hstands.2
      have hlen := sep.units_length_pos
      rw [if_pos ((isPrefixOf_slice_iff h).mpr hstands), partEnd_of_stands hstands,
        if_neg (by omega), hslice, hslice, List.drop_take, List.drop_drop,
        show pos + 1 + (sep.units.length - 1) = pos + sep.units.length by omega,
        show stop - (pos + 1) - (sep.units.length - 1) = stop - (pos + sep.units.length) by omega]
    · rw [if_neg (fun hp => hstands ((isPrefixOf_slice_iff h).mp hp)), ih hlt (by omega),
        partEnd_succ hstands hlt hb]

theorem fieldsFrom_ne_nil (sep : List UInt16) (start pos : Nat) (units : List UInt16) :
    fieldsFrom sep start pos units ≠ [] := by
  fun_induction fieldsFrom sep start pos units <;> simp_all

/-- A separator stands inside a span that has several fields. -/
theorem contains_iff (h : s.start ≤ s.stop) (hb : s.stop ≤ src.size) :
    s.contains src sep = true ↔ 1 < (fields src sep s).length := by
  have hlen := sep.units_length_pos
  rw [fields, text, fieldsFrom_slice h hb]
  unfold contains partEnd
  cases hfind : src.find? sep.units s.start with
  | none => simp
  | some found =>
    by_cases hle : found + sep.units.length ≤ s.stop
    · have hpos := List.length_pos_iff.mpr (fieldsFrom_ne_nil sep.units
        (found + sep.units.length) (found + sep.units.length)
        (src.slice (found + sep.units.length) s.stop).toList)
      have hne : found ≠ s.stop := by omega
      have hnot : ¬ s.stop < found + sep.units.length := by omega
      simp [hle, hne, hnot, hpos]
    · have hlt : s.stop < found + sep.units.length := by omega
      simp [hle, hlt]

theorem partsFrom_eq (h : start ≤ stop) (hb : stop ≤ src.size) :
    partsFrom src sep stop start =
      (fieldsFrom sep.units start start (src.slice start stop).toList).flatMap (trimmed src) := by
  fun_induction partsFrom src sep stop start with
  | case1 start _ next here hnext =>
    rw [fieldsFrom_slice h hb, if_pos hnext, List.flatMap_singleton, ← hnext]
  | case2 start _ next here hnext ih =>
    rcases partEnd_cases src sep stop start with hend | ⟨_, hle⟩
    · exact absurd hend hnext
    · rw [fieldsFrom_slice h hb, if_neg hnext, List.flatMap_cons, ih hle]
  | case3 start hstart => exact absurd h hstart

/-- **Parts are trimmed fields**, blank ones left out. -/
theorem parts_eq (h : s.start ≤ s.stop) (hb : s.stop ≤ src.size) :
    parts src sep s = (fields src sep s).flatMap (trimmed src) := partsFrom_eq h hb

/-- `p` is a field of `s` without the blanks at either end. -/
def FieldOf (src : Text) (sep : Separator) (p s : Span) : Prop :=
  ∃ f ∈ fields src sep s, p.TrimOf src f

instance (src : Text) (sep : Separator) (p s : Span) : Decidable (p.FieldOf src sep s) :=
  inferInstanceAs (Decidable (∃ f ∈ fields src sep s, p.TrimOf src f))

theorem mem_parts_iff (h : s.start ≤ s.stop) (hb : s.stop ≤ src.size) :
    p ∈ parts src sep s ↔ p.FieldOf src sep s := by
  rw [parts_eq h hb, List.mem_flatMap]
  constructor
  · rintro ⟨f, hf, hp⟩
    obtain ⟨_, hle, hstop⟩ := fields_bounds hf h hb
    exact ⟨f, hf, (mem_trimmed_iff hle (Nat.le_trans hstop hb)).mp hp⟩
  · rintro ⟨f, hf, hp⟩
    obtain ⟨_, hle, hstop⟩ := fields_bounds hf h hb
    exact ⟨f, hf, (mem_trimmed_iff hle (Nat.le_trans hstop hb)).mpr hp⟩

end Span
end Retrieval
