import Retrieval.Proofs.Number.Written
import Retrieval.Proofs.Schema.Settled
import Retrieval.Proofs.Search.Ranking

/-!
# The check of the filter against the database

The conditions of a lookup compare the text that the database shows of a member, the check of what
comes back compares the text that the member has here. `recheck_agrees`: the two texts are the same
for all that metadata may hold but for numbers that are written with an exponent. The database shows
these in plain notation, so that a filter on such a member is never met by both.
-/

namespace Retrieval

/-- The number is so great, or so close to zero, that its text has an exponent. -/
def Decimal.Extreme (d : Decimal) : Prop :=
  10 ^ (21 : Int) ≤ d.value ∨ 0 < d.value ∧ d.value < 10 ^ (-6 : Int)

theorem Decimal.value_pos {d : Decimal} (hd : 0 < d.digits) : 0 < d.value :=
  mul_pos (by exact_mod_cast hd) (zpow_pos (by norm_num) _)

theorem Decimal.plain_text_iff_not_extreme {d : Decimal} (hd : 0 < d.digits) :
    d.Plain d.text ↔ ¬ d.Extreme := by
  rw [plain_text_iff hd, Extreme, not_or, not_le, not_and, not_lt]
  exact ⟨fun h => ⟨h.2, fun _ => h.1⟩, fun h => ⟨h.2 (value_pos hd), h.1⟩⟩

/-! ## The text of a number -/

namespace Number

variable {x : Float} {negative : Bool} {m : Nat} {e : Int}

theorem text_zero (hx : Exact.of x = .finite negative 0 e) : text x = "0" := by
  rw [text, hx]
  rfl

theorem text_finite (hx : Exact.of x = .finite negative m e) (hm : m ≠ 0) :
    text x = (if negative then "-" else "") ++ (Neighbourhood.of m e).shortest.text := by
  rw [text, hx]
  exact if_neg (by simpa using hm)

end Number

namespace Value

theorem toJson_number {x : Float} {negative : Bool} {m : Nat} {e : Int}
    (hx : Exact.of x = .finite negative m e) :
    (Value.number x).toJson = Number.text x := by
  rw [toJson, write, numberText, hx, String.empty_append]

theorem stored_number {x : Float} {negative : Bool} {m : Nat} {e : Int}
    (hx : Exact.of x = .finite negative m e) (hm : m ≠ 0) :
    (Value.number x).stored = .number x := by
  rw [stored, hx]
  exact if_neg (by simpa using hm)

/-- The decimal that the JSON text of a number writes, and whether it is negative. -/
def Writes (x : Float) (negative : Bool) (d : Decimal) : Prop :=
  Number.signed? (Value.number x).toJson.toList = some (negative, d)

/-- What the database shows of a value that it keeps (`->>`): a text as it is, a truth by its name,
and a number in plain notation. Of null, and of what is absent, it shows nothing. -/
inductive Shown : Value → Option String → Prop where
  | absent : Shown .absent none
  | null : Shown .null none
  | text (s : String) : Shown (.text s) (some s)
  | flag (b : Bool) : Shown (.flag b) (some (if b then "true" else "false"))
  | number {x : Float} {negative : Bool} {d : Decimal} {s : String}
    (hwrites : Writes x negative d) (hplain : d.Plain s) :
    Shown (.number x) (some ((if negative then "-" else "") ++ s))

/-- The value is a number whose text has an exponent. -/
inductive Exponential : Value → Prop where
  | number {x : Float} {negative : Bool} {d : Decimal} (hwrites : Writes x negative d)
    (hextreme : d.Extreme) : Exponential (.number x)

variable {v : Value} {t : Option String} {x : Float} {negative : Bool} {d : Decimal} {s : String}

/-- No value has two texts. -/
theorem Shown.unique {t' : Option String} (h : v.Shown t) (h' : v.Shown t') : t = t' := by
  cases h with
  | absent => cases h'; rfl
  | null => cases h'; rfl
  | text s => cases h'; rfl
  | flag b => cases h'; rfl
  | number hwrites hplain =>
    cases h' with
    | number hwrites' hplain' =>
      cases hwrites.symm.trans hwrites'
      rw [hplain.unique hplain']

theorem Writes.exponential_iff (hwrites : Writes x negative d) :
    (Value.number x).Exponential ↔ d.Extreme := by
  constructor
  · intro h
    cases h with
    | number hwrites' hextreme =>
      cases hwrites.symm.trans hwrites'
      exact hextreme
  · exact .number hwrites

/-! ## Both texts of a value -/

/-- One text is shown of the value, and it is the one that the check compares unless that one has an
exponent. -/
def Agrees (v : Value) : Prop :=
  ∃ t, (∀ t', v.Shown t' ↔ t' = t) ∧ (v.filterText? = t ↔ ¬ v.Exponential)

theorem Agrees.shown_iff (h : v.Agrees) (hv : ¬ v.Exponential) :
    v.Shown t ↔ v.filterText? = t := by
  obtain ⟨shown, hshown, htext⟩ := h
  rw [hshown, htext.mpr hv, eq_comm]

theorem Agrees.shown_filterText?_iff (h : v.Agrees) :
    v.Shown v.filterText? ↔ ¬ v.Exponential := by
  obtain ⟨shown, hshown, htext⟩ := h
  rw [hshown, htext]

theorem Exponential.filterText?_eq (h : v.Exponential) : ∃ s, v.filterText? = some s := by
  cases h
  exact ⟨_, rfl⟩

theorem agrees_of_shown (h : v.Shown v.filterText?) (hv : ¬ v.Exponential) : v.Agrees :=
  ⟨_, fun _ => ⟨fun h' => h'.unique h, fun heq => heq ▸ h⟩, iff_of_true rfl hv⟩

theorem agrees_absent : Value.absent.Agrees := agrees_of_shown .absent (by rintro ⟨⟩)

theorem agrees_null : Value.null.Agrees := agrees_of_shown .null (by rintro ⟨⟩)

theorem agrees_zero {e : Int} (hx : Exact.of x = .finite negative 0 e) :
    (Value.number x).Agrees := by
  have hwrites : Writes x false ⟨0, 0⟩ := by
    rw [Writes, toJson_number hx, Number.text_zero hx]
    decide +kernel
  have hmild : ¬ Decimal.Extreme ⟨0, 0⟩ := by
    norm_num [Decimal.Extreme, Decimal.value]
  refine agrees_of_shown ?_ (hwrites.exponential_iff.not.mpr hmild)
  rw [filterText?, Number.text_zero hx]
  exact .number hwrites Decimal.plain_zero

/-- The texts of a number are the same if its text is plain notation. -/
theorem agrees_number {m : Nat} {e : Int} (hx : Exact.of x = .finite negative m e) (hm : m ≠ 0) :
    (Value.number x).Agrees := by
  have hd := Neighbourhood.digits_pos_shortest (x := .of m e) (Nat.pos_of_ne_zero hm)
  obtain ⟨d, hread, hplain, hvalue⟩ := Decimal.written?_text hd
  have hwrites : Writes x negative d := by
    rw [Writes, toJson_number hx, Number.text_finite hx hm, String.toList_append,
      ← Number.signed?_of_written? negative hread]
    cases negative <;> rfl
  have hpositional := Decimal.plain_positional hd
  have hshown := Shown.number hwrites ((hplain _).mpr hpositional)
  refine ⟨_, fun t' => ⟨fun h => h.unique hshown, fun heq => heq ▸ hshown⟩, ?_⟩
  rw [hwrites.exponential_iff, Decimal.Extreme, hvalue, ← Decimal.Extreme,
    ← Decimal.plain_text_iff_not_extreme hd, filterText?, Number.text_finite hx hm]
  constructor
  · intro h
    rw [(String.append_right_inj _).mp (Option.some.inj h)]
    exact hpositional
  · intro h
    rw [h.unique hpositional]

/-- **Both texts of what is kept of a value are the same, or it is a number with an exponent.** -/
theorem Plain.agrees (h : v.Plain) : v.stored.Agrees := by
  cases h with
  | text s => exact agrees_of_shown (.text s) (by rintro ⟨⟩)
  | flag b => exact agrees_of_shown (.flag b) (by rintro ⟨⟩)
  | null => exact agrees_null
  | @number x hx =>
    cases hexact : Exact.of x with
    | nan =>
      rw [stored, hexact]
      exact agrees_null
    | infinite negative =>
      rw [stored, hexact]
      exact agrees_null
    | finite negative m e =>
      by_cases hm : m = 0
      · have hzero : Exact.of 0 = .finite false 0 (-1074) := by decide +kernel
        rw [stored, hexact, hm]
        exact agrees_zero hzero
      · rw [stored_number hexact hm]
        exact agrees_number hexact hm

end Value

/-! ## Chunks -/

theorem Metadata.Sound.storedMembers_eq {m : Metadata} (h : m.Sound) :
    Value.storedMembers m = m.map fun e => (e.1, e.2.stored) := by
  induction m with
  | nil => rfl
  | cons entry rest ih =>
    obtain ⟨n, v⟩ := entry
    obtain ⟨⟨-, hv⟩, hrest⟩ := List.forall_mem_cons.mp h
    have hstored : Value.storedMembers ((n, v) :: rest) =
        (n, v.stored) :: Value.storedMembers rest := by
      cases hv <;> rfl
    rw [hstored, ih hrest, List.map_cons]

theorem Metadata.Sound.find?_stored {m : Metadata} (h : m.Sound) (name : String) :
    Value.find? name (Value.storedMembers m) = (Value.find? name m).map Value.stored := by
  rw [h.storedMembers_eq, Value.find?, Value.find?, List.find?_map, Option.map_map, Option.map_map]
  rfl

theorem Metadata.Sound.plain_find? {m : Metadata} (h : m.Sound) {name : String} {v : Value}
    (hv : Value.find? name m = some v) : v.Plain := by
  obtain ⟨entry, hentry, rfl⟩ := Option.map_eq_some_iff.mp hv
  exact (h entry (List.mem_of_find?_eq_some hentry)).2

theorem Metadata.Sound.find?_prototypeName {m : Metadata} (h : m.Sound) :
    Value.find? Value.prototypeName m = none := by
  rw [Value.find?, Option.map_eq_none_iff, List.find?_eq_none]
  exact fun entry hentry heq => (h entry hentry).1 (eq_of_beq heq)

namespace ChunkRow

variable {δ : Type} {row : ChunkRow δ}

/-- What the row has under a name; metadata that are null have nothing. -/
def member (row : ChunkRow δ) (name : String) : Value :=
  row.metadata.elim .absent (Value.lookup name)

/-- The metadata of the row are what is kept of metadata that were accepted. -/
def Accepted (row : ChunkRow δ) : Prop :=
  ∀ kept, row.metadata = some kept → ∃ path given m,
    (Check.metadata path given).toExcept = .ok m ∧ kept = Value.storedMembers m

/-- The row meets the conditions of a filter: under each name the database shows the text. -/
def Meets (row : ChunkRow δ) (filter : List (String × String)) : Prop :=
  ∀ e ∈ filter, (row.member e.1).Shown (some e.2)

theorem Accepted.sound (h : row.Accepted) {kept : Metadata} (hkept : row.metadata = some kept) :
    ∃ m : Metadata, m.Sound ∧ kept = Value.storedMembers m := by
  obtain ⟨path, given, m, haccepted, hstored⟩ := h kept hkept
  exact ⟨m, Check.settles_entries.ensures _ _ _ haccepted, hstored⟩

theorem Accepted.agrees (h : row.Accepted) (name : String) : (row.member name).Agrees := by
  unfold member
  cases hmetadata : row.metadata with
  | none => exact Value.agrees_absent
  | some kept =>
    obtain ⟨m, hsound, rfl⟩ := h.sound hmetadata
    rw [Option.elim_some, Value.lookup, hsound.find?_stored]
    cases hfound : Value.find? name m with
    | none => exact Value.agrees_absent
    | some v => exact (hsound.plain_find? hfound).agrees

/-- No row has a member under the name that all records answer to. -/
theorem Accepted.find?_prototypeName (h : row.Accepted) :
    Value.find? Value.prototypeName (row.metadata.getD []) = none := by
  cases hmetadata : row.metadata with
  | none => rfl
  | some kept =>
    obtain ⟨m, hsound, rfl⟩ := h.sound hmetadata
    rw [Option.getD_some, hsound.find?_stored, hsound.find?_prototypeName, Option.map_none]

theorem member_eq (row : ChunkRow δ) (name : String) :
    row.member name = Value.lookup name (row.metadata.getD []) := by
  unfold member
  cases row.metadata <;> rfl

theorem Accepted.member_prototypeName (h : row.Accepted) :
    row.member Value.prototypeName = .absent := by
  rw [member_eq, Value.lookup, h.find?_prototypeName]
  rfl

end ChunkRow

namespace Search

variable {δ : Type} {row : ChunkRow δ}

/-- The entry of a filter that every record passes without a member of that name. -/
def inheritedEntry : String × String := (Value.prototypeName, "\x7b\x7d")

/-- The entry finds the text of a member, or it is the one that all records pass. -/
theorem entry_found_iff (hrow : row.Accepted) (e : String × String) :
    (Value.memberOf (row.metadata.getD []) e.1).filterText? = some e.2 ↔
      e = inheritedEntry ∨ (row.member e.1).filterText? = some e.2 := by
  obtain ⟨name, text⟩ := e
  dsimp only
  by_cases hname : name = Value.prototypeName
  · subst hname
    have hnone := hrow.find?_prototypeName
    rw [Value.filterText?_memberOf_prototypeName hnone, hrow.member_prototypeName]
    simp [inheritedEntry, Value.filterText?, eq_comm]
  · rw [Value.filterText?_memberOf _ hname, ← row.member_eq]
    simp [inheritedEntry, hname]

theorem not_meets_of_inheritedEntry (hrow : row.Accepted) {filter : List (String × String)}
    (he : inheritedEntry ∈ filter) : ¬ row.Meets filter := by
  intro hmeets
  have hshown := hmeets _ he
  rw [inheritedEntry, hrow.member_prototypeName] at hshown
  cases hshown

/-- The check of a row that is handed out looks each entry up among the members of the row. -/
theorem matchesFilter_candidate (table : ChunkTable δ) (metric : List δ → List δ → δ)
    (vector : List δ) (row : ChunkRow δ) (filter : List (String × String)) :
    matchesFilter (table.candidate metric vector row).metadata filter =
      .ok (filter.all fun e =>
        (Value.memberOf (row.metadata.getD []) e.1).filterText? == some e.2) :=
  matchesFilter_record _ _

variable (table : ChunkTable δ) (metric : List δ → List δ → δ) (vector : List δ)

section

variable {table metric vector} {filter : List (String × String)} {passes : Bool}

theorem passes_iff (hrow : row.Accepted)
    (h : matchesFilter (table.candidate metric vector row).metadata filter = .ok passes) :
    passes = true ↔
      ∀ e ∈ filter, e = inheritedEntry ∨ (row.member e.1).filterText? = some e.2 := by
  rw [matchesFilter_candidate] at h
  cases h
  simp only [List.all_eq_true, beq_iff_eq, entry_found_iff hrow]

/-- The check and the database differ about an entry: all records pass it here, or it names a number
with an exponent. -/
def Disputed (row : ChunkRow δ) (e : String × String) : Prop :=
  e = inheritedEntry ∨ (row.member e.1).Exponential

/-- A filter without such entries is met for both or for neither. -/
theorem passes_iff_meets (hrow : row.Accepted)
    (h : matchesFilter (table.candidate metric vector row).metadata filter = .ok passes)
    (hmild : ∀ e ∈ filter, ¬ Disputed row e) : passes = true ↔ row.Meets filter := by
  rw [passes_iff hrow h]
  refine forall₂_congr fun e he => ?_
  obtain ⟨hown, hexp⟩ := not_or.mp (hmild e he)
  rw [or_iff_right hown]
  exact ((hrow.agrees e.1).shown_iff hexp).symm

/-- One with such an entry is not met for both. -/
theorem not_passes_and_meets (hrow : row.Accepted)
    (h : matchesFilter (table.candidate metric vector row).metadata filter = .ok passes)
    {e : String × String} (he : e ∈ filter) (hdisputed : Disputed row e) :
    ¬ (passes = true ∧ row.Meets filter) := by
  rintro ⟨hpass, hmeets⟩
  have hown : e ≠ inheritedEntry := by
    rintro rfl
    exact not_meets_of_inheritedEntry hrow he hmeets
  have hshown := hmeets e he
  rw [← ((passes_iff hrow h).mp hpass e he).resolve_left hown] at hshown
  exact (hrow.agrees e.1).shown_filterText?_iff.mp hshown (hdisputed.resolve_left hown)

theorem passes_inheritedEntry (hrow : row.Accepted) :
    matchesFilter (table.candidate metric vector row).metadata [inheritedEntry] = .ok true := by
  have hpasses := matchesFilter_candidate table metric vector row [inheritedEntry]
  rw [hpasses, Except.ok.injEq, passes_iff hrow hpasses]
  exact fun e he => .inl (List.mem_singleton.mp he)

end

/-- **The check of the filter accepts what the database accepts, but for members that are numbers
with an exponent, and but for one entry that all records pass.** Of what is kept of a value one text
is shown, and it is the text that the check compares exactly if it has no exponent. So a filter
without such entries is met by a chunk for both or for neither, and one with such an entry is never
met for both. Apart from the entry that all records pass, all filters are met for both or for neither
exactly by the chunks without such numbers; and that entry passes the check of every chunk, while no
chunk meets it in the database. -/
theorem recheck_agrees :
    (∀ path given v, (Check.metadataValue path given).toExcept = .ok v →
      ∃ t, (∀ t', v.stored.Shown t' ↔ t' = t) ∧
        (v.stored.filterText? = t ↔ ¬ v.stored.Exponential)) ∧
    ∀ row : ChunkRow δ, row.Accepted →
      (∀ filter, ∃ passes,
        matchesFilter (table.candidate metric vector row).metadata filter = .ok passes ∧
        ((∀ e ∈ filter, ¬ Disputed row e) → (passes = true ↔ row.Meets filter)) ∧
        ∀ e ∈ filter, Disputed row e → ¬ (passes = true ∧ row.Meets filter)) ∧
      ((∀ filter, inheritedEntry ∉ filter →
        (matchesFilter (table.candidate metric vector row).metadata filter = .ok true ↔
          row.Meets filter)) ↔ ∀ name, ¬ (row.member name).Exponential) ∧
      matchesFilter (table.candidate metric vector row).metadata [inheritedEntry] = .ok true ∧
      ¬ row.Meets [inheritedEntry] := by
  refine ⟨fun path given v h => (Check.settles_metadataValue.ensures path given v h).agrees,
    fun row hrow => ⟨fun filter => ?_, ⟨fun hall name hexp => ?_, fun hmild filter hown => ?_⟩,
      passes_inheritedEntry hrow, not_meets_of_inheritedEntry hrow List.mem_cons_self⟩⟩
  · have hpasses := matchesFilter_candidate table metric vector row filter
    exact ⟨_, hpasses, passes_iff_meets hrow hpasses,
      fun e he => not_passes_and_meets hrow hpasses he⟩
  · -- the text that the check compares is a filter which the chunk passes
    obtain ⟨s, hs⟩ := hexp.filterText?_eq
    have hpasses := matchesFilter_candidate table metric vector row [(name, s)]
    have hpass := (passes_iff hrow hpasses).mpr fun e he =>
      .inr (by rw [List.mem_singleton.mp he]; exact hs)
    have hname : inheritedEntry ∉ [(name, s)] := by
      intro hmem
      obtain ⟨rfl, -⟩ := Prod.mk.inj (List.mem_singleton.mp hmem)
      rw [hrow.member_prototypeName] at hexp
      cases hexp
    refine not_passes_and_meets hrow hpasses List.mem_cons_self (.inr hexp) ⟨hpass, ?_⟩
    exact (hall _ hname).mp (hpasses.trans (congrArg Except.ok hpass))
  · have hpasses := matchesFilter_candidate table metric vector row filter
    rw [hpasses, Except.ok.injEq]
    refine passes_iff_meets hrow hpasses fun e he => ?_
    rintro (rfl | hexp)
    · exact hown he
    · exact hmild e.1 hexp

def chunkWith (name : String) (v : Value) : ChunkRow ℚ :=
  ⟨"c", "f", "s", 0, .ofString "text", none, some [(name, v)]⟩

theorem accepted_chunkWith {name : String} {v : Value} (hname : Value.Keeps name) (h : v.Plain)
    (hkept : v.stored = v) : (chunkWith name v).Accepted := by
  have hsound : Metadata.Sound [(name, v)] := by
    rintro entry hentry
    rw [List.mem_singleton.mp hentry]
    exact ⟨hname, h⟩
  rintro kept ⟨⟩
  refine ⟨[], _, _, Check.settles_entries.again [] _ hsound, ?_⟩
  rw [hsound.storedMembers_eq, List.map_singleton, hkept]

/-- The greatest power of ten that is written without an exponent is found. -/
theorem recheck_agrees_large :
    (Check.metadataValue [] (.number 1e20)).toExcept = .ok (.number 1e20) ∧
      (Value.number 1e20).Shown (Value.number 1e20).filterText? ∧
      (chunkWith "n" (.number 1e20)).Accepted ∧
      (chunkWith "n" (.number 1e20)).Meets [("n", "100000000000000000000")] := by
  have hplain : (Value.number 1e20).Plain := .number (by decide +kernel)
  have hkept : (Value.number 1e20).stored = .number 1e20 := by
    have hexact : Exact.of 1e20 = .finite false 6103515625000000 14 := by decide +kernel
    exact Value.stored_number hexact (by decide)
  have hmild : ¬ (Value.number 1e20).Exponential := by
    have hwrites : Value.Writes 1e20 false ⟨10 ^ 20, 0⟩ := by
      rw [Value.Writes]
      decide +kernel
    have hpositive : 0 < Decimal.digits ⟨10 ^ 20, 0⟩ := Nat.pow_pos (by decide)
    have htext : Decimal.text ⟨10 ^ 20, 0⟩ = Decimal.positional ⟨10 ^ 20, 0⟩ := by decide +kernel
    rw [hwrites.exponential_iff, ← Decimal.plain_text_iff_not_extreme hpositive, htext]
    exact Decimal.plain_positional hpositive
  have haccepted : (chunkWith "n" (.number 1e20)).Accepted :=
    accepted_chunkWith (by decide) hplain hkept
  obtain ⟨hvalue, hchunk⟩ := recheck_agrees ⟨[], fun _ => none⟩ (fun _ _ => (0 : ℚ)) []
  have hchecked := Check.settles_metadataValue.again [] _ hplain
  obtain ⟨t, hshown, htext⟩ := hvalue [] _ _ hchecked
  rw [hkept] at htext
  obtain ⟨passes, hpasses, hmet, -⟩ := (hchunk _ haccepted).1 [("n", "100000000000000000000")]
  have hpass : passes = true := by
    rw [passes_iff haccepted hpasses]
    rintro e he
    obtain rfl := List.mem_singleton.mp he
    exact .inr (by decide +kernel)
  refine ⟨hchecked, ?_, haccepted, (hmet ?_).mp hpass⟩
  · rw [← hkept, hshown, hkept]
    exact htext.mpr hmild
  · rintro e he
    obtain rfl := List.mem_singleton.mp he
    exact not_or.mpr ⟨by decide, hmild⟩

/-- The database shows `1e21` in full, the check writes it with an exponent, and the filter by which
the database finds it does not pass. -/
theorem recheck_misses_sextillion :
    (Value.number 1e21).Shown (some "1000000000000000000000") ∧
      (Value.number 1e21).filterText? = some "1e+21" ∧
      (chunkWith "n" (.number 1e21)).Accepted ∧
      (chunkWith "n" (.number 1e21)).Meets [("n", "1000000000000000000000")] ∧
      matchesFilter (.record [("n", .number 1e21)]) [("n", "1000000000000000000000")] =
        .ok false := by
  have hkept : (Value.number 1e21).stored = .number 1e21 := by
    have hexact : Exact.of 1e21 = .finite false 7629394531250000 17 := by decide +kernel
    exact Value.stored_number hexact (by decide)
  have hshown : (Value.number 1e21).Shown (some "1000000000000000000000") := by
    have hwrites : Value.Writes 1e21 false ⟨1, 21⟩ := by
      rw [Value.Writes]
      decide +kernel
    have hpositive : 0 < Decimal.digits ⟨1, 21⟩ := Nat.one_pos
    exact .number hwrites (Decimal.plain_positional hpositive)
  have htext : (Value.number 1e21).filterText? = some "1e+21" := by decide +kernel
  have hname : Value.Keeps "n" := by decide
  refine ⟨hshown, htext, accepted_chunkWith hname (.number (by decide +kernel)) hkept, ?_, ?_⟩
  · rintro e he
    obtain rfl := List.mem_singleton.mp he
    exact hshown
  · rw [matchesFilter_record, List.all_cons, matchesEntry]
    refine congrArg Except.ok ?_
    decide +kernel

end Search
end Retrieval
