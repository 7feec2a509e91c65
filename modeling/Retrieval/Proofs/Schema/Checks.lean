import Retrieval.Schema.Check
import Retrieval.Proofs.Number.Order

/-!
# Checks of texts

Which texts a check accepts (`Enforces`): those are read without an issue, and all others have one,
at the path of the check. Rules that are added to a check narrow what it accepts
(`Enforces.and`); the rules on numbers bound the whole numbers that texts write
(`enforces_number`).
-/

namespace Retrieval

namespace Outcome

variable {α : Type} {o : Outcome α}

theorem toExcept_ok {a : α} (hread : o.textless = false) (hvalue : o.value = some a)
    (hissues : o.issues = []) : o.toExcept = .ok a := by
  unfold toExcept
  rw [hread, hvalue, hissues]
  rfl

theorem toExcept_issues (hread : o.textless = false) (hissues : o.issues ≠ []) :
    o.toExcept = .error (.issues o.issues) := by
  unfold toExcept
  rw [hread, if_neg Bool.false_ne_true]
  split
  · next hnil => exact absurd hnil hissues
  · rfl

theorem toExcept_map {β : Type} (f : α → β) (o : Outcome α) :
    (o.map f).toExcept = o.toExcept.map f := by
  obtain ⟨value, issues, textless⟩ := o
  cases textless <;> cases value <;> cases issues <;> rfl

end Outcome

namespace Check

variable {α : Type} {c : Check α} {accepts accepts' : String → Prop} {read : String → α}

/-! ## Added rules -/

section

variable {rules : List (α → Option (Finding × Option String))} {path : List String} {v : Value}

/-- The issues of the rules that a value breaks. -/
def found (rules : List (α → Option (Finding × Option String))) (path : List String) (a : α) :
    List Issue :=
  rules.filterMap fun rule => (rule a).map fun f => ⟨path, f.1, f.2⟩

theorem found_eq_nil {a : α} : found rules path a = [] ↔ ∀ rule ∈ rules, rule a = none := by
  simp [found, List.filterMap_eq_nil_iff]

theorem path_of_mem_found {a : α} {i : Issue} (h : i ∈ found rules path a) : i.path = path := by
  obtain ⟨rule, -, hrule⟩ := List.mem_filterMap.mp h
  obtain ⟨f, -, rfl⟩ := Option.map_eq_some_iff.mp hrule
  rfl

/-- Rules add their issues, where there is a value to try them on. -/
theorem and_eq : c.and rules path v =
    { c path v with issues := (c path v).issues ++ (c path v).value.elim [] (found rules path) } := by
  unfold Check.and
  generalize c path v = o
  obtain ⟨value, issues, textless⟩ := o
  cases value with
  | none => simp
  | some a => rfl

end

/-! ## Accepted texts -/

/-- The check reads the texts that are accepted, and has an issue with any other one. -/
structure Enforces (c : Check α) (accepts : String → Prop) (read : String → α) : Prop where
  readable : ∀ path s, (c path (.text s)).textless = false
  accepted : ∀ path s, accepts s → c path (.text s) = yield (read s)
  refused : ∀ path s, ¬ accepts s → (c path (.text s)).issues ≠ []
  placed : ∀ path s, ∀ i ∈ (c path (.text s)).issues, i.path = path

/-- Rules narrow what a check accepts. -/
theorem Enforces.and {rules : List (α → Option (Finding × Option String))}
    (hc : Enforces c accepts read)
    (h : ∀ s, accepts' s ↔ accepts s ∧ ∀ rule ∈ rules, rule (read s) = none) :
    Enforces (c.and rules) accepts' read := by
  refine ⟨fun path s => ?_, fun path s hs => ?_, fun path s hs => ?_, fun path s i hi => ?_⟩
  · rw [and_eq]
    exact hc.readable path s
  · obtain ⟨haccepts, hrules⟩ := (h s).mp hs
    rw [and_eq, hc.accepted path s haccepts]
    simp only [yield, Option.elim_some, found_eq_nil.mpr hrules, List.append_nil]
  · intro hnil
    rw [and_eq, List.append_eq_nil_iff] at hnil
    by_cases haccepts : accepts s
    · have hfound := hnil.2
      rw [hc.accepted path s haccepts] at hfound
      exact hs ((h s).mpr ⟨haccepts, found_eq_nil.mp hfound⟩)
    · exact hc.refused path s haccepts hnil.1
  · rw [and_eq] at hi
    rcases List.mem_append.mp hi with hi | hi
    · exact hc.placed path s i hi
    · cases hv : (c path (.text s)).value with
      | none =>
        rw [hv] at hi
        cases hi
      | some a =>
        rw [hv] at hi
        exact path_of_mem_found hi

theorem enforces_text : Enforces text (fun _ => True) id :=
  ⟨fun _ _ => rfl, fun _ _ _ => rfl, fun _ _ h => absurd trivial h, fun _ _ _ hi => nomatch hi⟩

/-- Every character takes a unit. -/
theorem length_le_unitCount (s : String) : s.length ≤ unitCount s := by
  have hfold (l : List Char) (n : Nat) :
      n + l.length ≤ l.foldl (fun n c => n + if c.toNat < 0x10000 then 1 else 2) n := by
    induction l generalizing n with
    | nil => exact Nat.le_refl n
    | cons c rest ih =>
      refine Nat.le_trans ?_ (ih _)
      dsimp only [List.length_cons]
      split <;> omega
  have hle := hfold s.toList 0
  rwa [Nat.zero_add, String.length_toList, ← String.foldl_eq_foldl_toList] at hle

theorem unitCount_eq_zero {s : String} : unitCount s = 0 ↔ s = "" := by
  constructor
  · intro h
    exact String.length_eq_zero_iff.mp (Nat.le_zero.mp (h ▸ length_le_unitCount s))
  · rintro rfl
    rw [unitCount, String.foldl_eq_foldl_toList]
    rfl

theorem enforces_nonempty (words : Option String) :
    Enforces (text.and [minLength 1 words]) (· ≠ "") id := by
  refine enforces_text.and fun s => ?_
  simp [minLength, ← unitCount_eq_zero]

theorem enforces_form (f : Form) (p : String → Bool) (words : Option String) :
    Enforces (text.and [form f p words]) (p · = true) id := by
  refine enforces_text.and fun s => ?_
  simp [form]

theorem enforces_oneOf (options : List String) : Enforces (oneOf options) (· ∈ options) id := by
  have hiff (s : String) : options.contains s = true ↔ s ∈ options := List.contains_iff_mem
  refine ⟨fun path s => ?_, fun path s hs => ?_, fun path s hs => ?_, fun path s i hi => ?_⟩
  · unfold oneOf
    dsimp only
    split <;> rfl
  · unfold oneOf
    dsimp only
    rw [if_pos ((hiff s).mpr hs)]
    rfl
  · unfold oneOf
    dsimp only
    rw [if_neg (fun h => hs ((hiff s).mp h))]
    exact List.cons_ne_nil _ _
  · unfold oneOf at hi
    dsimp only at hi
    split at hi
    · cases hi
    · rw [List.mem_singleton.mp hi]

/-! ## Texts that write numbers -/

theorem enforces_coerced : Enforces (coerced .common)
    (fun s => Number.isNan (Number.ofText s) = false) Number.ofText := by
  have happly (path : List String) (s : String) :
      coerced .common path (.text s) = number path (.number (Number.ofText s)) := rfl
  refine ⟨fun path s => ?_, fun path s hs => ?_, fun path s hs => ?_, fun path s i hi => ?_⟩
  · rw [happly]
    unfold number
    dsimp only
    split <;> rfl
  · rw [happly]
    unfold number
    dsimp only
    rw [hs]
    rfl
  · rw [happly]
    unfold number
    dsimp only
    rw [if_pos (by simpa using hs)]
    exact List.cons_ne_nil _ _
  · rw [happly] at hi
    unfold number at hi
    dsimp only at hi
    split at hi
    · rw [List.mem_singleton.mp hi]
    · cases hi

variable {x : Float} {k : Int}

theorem not_isNan_of_whole (h : Number.whole? x = some k) : Number.isNan x = false := by
  unfold Number.isNan
  cases hx : Exact.of x with
  | nan =>
    rw [Number.whole?, hx] at h
    cases h
  | infinite => rfl
  | finite => rfl

theorem above_of_whole (h : Number.whole? x = some k) (m : Int) :
    Number.above x m = decide (m < k) := by
  rw [Number.above, Exact.compareTo_of_whole h, Bool.eq_iff_iff]
  simp [Int.compare_eq_gt]

theorem below_of_whole (h : Number.whole? x = some k) (m : Int) :
    Number.below x m = decide (k < m) := by
  rw [Number.below, Exact.compareTo_of_whole h, Bool.eq_iff_iff]
  simp [Int.compare_eq_lt]

theorem positive_of_whole (h : Number.whole? x = some k) : positive x = none ↔ 1 ≤ k := by
  simp only [positive, above_of_whole h, decide_eq_true_eq, ite_eq_left_iff, reduceCtorEq, imp_false]
  omega

theorem atLeast_of_whole (h : Number.whole? x = some k) (m : Int) : atLeast m x = none ↔ m ≤ k := by
  simp only [atLeast, below_of_whole h, decide_eq_true_eq, ite_eq_right_iff, reduceCtorEq, imp_false]
  omega

theorem atMost_of_whole (h : Number.whole? x = some k) (m : Int) : atMost m x = none ↔ k ≤ m := by
  simp only [atMost, above_of_whole h, decide_eq_true_eq, ite_eq_right_iff, reduceCtorEq, imp_false]
  omega

/-- The double is a whole number that satisfies `p`. -/
def Whole (p : Int → Prop) (x : Float) : Prop := ∃ k, Number.whole? x = some k ∧ p k

/-- Rules on whole numbers as conditions on integers. -/
theorem enforces_number {rules : List (Float → Option (Finding × Option String))} {p : Int → Prop}
    (h : ∀ x k, Number.whole? x = some k → ((∀ rule ∈ rules, rule x = none) ↔ p k)) :
    Enforces ((coerced .common).and (whole :: rules)) (fun s => Whole p (Number.ofText s))
      Number.ofText := by
  refine enforces_coerced.and fun s => ?_
  rw [List.forall_mem_cons]
  constructor
  · rintro ⟨k, hk, hp⟩
    refine ⟨not_isNan_of_whole hk, ?_, (h _ k hk).mpr hp⟩
    rw [whole, hk]
    rfl
  · rintro ⟨-, hwhole, hrules⟩
    cases hk : Number.whole? (Number.ofText s) with
    | none =>
      rw [whole, hk] at hwhole
      cases hwhole
    | some k => exact ⟨k, hk, (h _ k hk).mp hrules⟩

/-! ## Values that have a text -/

/-- The check comes across no value that has no text where one is needed. -/
def Readable (c : Check α) : Prop := ∀ path v, (c path v).textless = false

theorem Readable.optional (hc : Readable c) : Readable (optional c) := by
  intro path v
  cases v with
  | absent => rfl
  | _ => exact hc path _

theorem Readable.members (hc : Readable c) : Readable (members c) := by
  intro path v
  cases v with
  | record ms =>
    unfold Check.members
    dsimp only
    induction ms with
    | nil => rfl
    | cons m rest ih =>
      rw [List.foldr_cons, Outcome.both, hc, ih]
      rfl
  | _ => rfl

/-- Only a value without a text cannot be read as a number. -/
theorem coerced_textless {kind : Value.RecordKind} (path : List String) (v : Value) :
    (coerced kind path v).textless = (v.toNumber? kind).isNone := by
  unfold coerced
  cases v.toNumber? kind with
  | none => rfl
  | some x =>
    unfold number
    dsimp only
    split <;> rfl

end Check
end Retrieval
