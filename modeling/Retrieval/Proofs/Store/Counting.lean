import Mathlib.Algebra.BigOperators.Group.List.Basic
import Mathlib.Algebra.GroupWithZero.Nat
import Retrieval.Proofs.Number.Naturals
import Retrieval.Store.Database

/-!
# Counts of files add up

The rows of the counting statement come in any order, and a store may have several of them. Adding a
row changes the counts of its own store alone (`found_addGroup`), and in these the figures that the
row goes into (`Figure.of_add`). So each figure of a store is the sum over its own rows
(`found_countsOf_some`). The sums are sums of doubles, which are exact up to `2 ^ 53`.
-/

namespace Retrieval.Database

/-! ## Sessions with a database that does not change -/

section

variable {α β : Type} (db : Statement → Except Fault (List Row))

/-- What comes of a session with a database that answers each statement in one way. -/
def outcome (session : Session α) : Except Fault α :=
  (session.run.run (fun s _ => (db s, ())) ()).1

@[simp] theorem outcome_pure (a : α) : outcome db (pure a) = .ok a := rfl

theorem outcome_bind_ok {session : Session α} {next : α → Session β} {a : α}
    (h : outcome db session = .ok a) : outcome db (session >>= next) = outcome db (next a) := by
  have hrun := Program.run_bind (fun s (_ : Unit) => (db s, ())) session.run
    (ExceptT.bindCont next) ()
  refine (congrArg Prod.fst hrun).trans ?_
  dsimp only
  rw [outcome] at h
  rw [h]
  rfl

end

/-! ## The rows of the counting statement -/

/-- Files of a store that are counted together: the name of their status, how many they are, and
whether that comes as decimal digits or as a number. -/
structure Tally where
  storeId : String
  status : String
  count : Nat
  digits : Bool := false

namespace Tally

/-- The row in which the files are counted. -/
def row (t : Tally) : Row :=
  [.text t.storeId, .text t.status,
    if t.digits then .text (Nat.repr t.count) else .number (Float.ofNat t.count)]

def inStore (ts : List Tally) (id : String) : List Tally := ts.filter (·.storeId == id)

variable {t : Tally}

theorem toNumber_digits {n : Nat} (hn : n ≤ 2 ^ 53) :
    (Value.text (Nat.repr n)).toNumber = Float.ofNat n :=
  Number.ofText_repr (Nat.lt_of_le_of_lt hn (by decide))

@[simp] theorem groupOf_row_status : (groupOf t.row).status = .ofName t.status := rfl

/-- The count of a row is read as what it was written from. -/
theorem groupOf_row_count (hcount : t.count ≤ 2 ^ 53) :
    (groupOf t.row).count = Float.ofNat t.count := by
  show (if t.digits then Value.text (Nat.repr t.count) else .number (Float.ofNat t.count)).toNumber
    = _
  split
  · exact toNumber_digits hcount
  · rfl

end Tally

/-! ## Figures -/

/-- The figures among the counts of a store. -/
inductive Figure where
  | inProgress
  | completed
  | failed
  | total

namespace Figure

def of : Figure → FileCounts → Float
  | inProgress => FileCounts.inProgress
  | completed => FileCounts.completed
  | failed => FileCounts.failed
  | total => FileCounts.total

/-- Counts are their figures. -/
theorem ext {c c' : FileCounts} (h : ∀ f : Figure, f.of c = f.of c') : c = c' := by
  cases c
  cases c'
  rw [FileCounts.mk.injEq]
  exact ⟨h .inProgress, h .completed, h .failed, h .total⟩

def Includes (status : FileStatus) : Figure → Prop
  | inProgress => status = .inProgress
  | completed => status = .completed
  | failed => status = .failed
  | total => True

instance decidableIncludes (status : FileStatus) : (f : Figure) → Decidable (f.Includes status)
  | inProgress => inferInstanceAs (Decidable (status = .inProgress))
  | completed => inferInstanceAs (Decidable (status = .completed))
  | failed => inferInstanceAs (Decidable (status = .failed))
  | total => inferInstanceAs (Decidable True)

/-- What rows add up to in a figure. -/
def sum (f : Figure) (ts : List Tally) : Nat :=
  ((ts.filter fun t => f.Includes (.ofName t.status)).map Tally.count).sum

variable {f : Figure} {t : Tally} {ts ts' : List Tally}

theorem sum_cons :
    f.sum (t :: ts) = (if f.Includes (.ofName t.status) then t.count else 0) + f.sum ts := by
  unfold sum
  rw [List.filter_cons]
  by_cases h : f.Includes (.ofName t.status)
  · rw [if_pos (by simpa using h), if_pos h, List.map_cons, List.sum_cons]
  · rw [if_neg (by simpa using h), if_neg h, Nat.zero_add]

theorem sum_perm (h : ts.Perm ts') : f.sum ts = f.sum ts' := ((h.filter _).map Tally.count).sum_eq

/-- No figure is more than the total. -/
theorem sum_le_total : f.sum ts ≤ total.sum ts := by
  induction ts with
  | nil => exact Nat.le_refl 0
  | cons t rest ih =>
    rw [sum_cons, sum_cons, if_pos (show total.Includes (.ofName t.status) from trivial)]
    split <;> omega

/-- Where all statuses are known, their figures make up the total. -/
theorem sum_total (h : ∀ t ∈ ts, FileStatus.ofName t.status ∈
    [FileStatus.inProgress, .completed, .failed]) :
    total.sum ts = inProgress.sum ts + completed.sum ts + failed.sum ts := by
  induction ts with
  | nil => rfl
  | cons t rest ih =>
    obtain ⟨ht, hrest⟩ := List.forall_mem_cons.mp h
    rw [sum_cons, sum_cons, sum_cons, sum_cons, ih hrest]
    simp only [List.mem_cons, List.not_mem_nil, or_false] at ht
    rcases ht with ht | ht | ht <;> simp [Includes, ht] <;> omega

/-- **Adding files** of a status adds to the figures they go into, and to no other one. -/
theorem of_add {c : FileCounts} {s : FileStatus} {x : Float} :
    f.of (c.add s x) = if f.Includes s then f.of c + x else f.of c := by
  cases f <;> cases s <;> rfl

/-- A figure that is a natural number stays one, as long as it does not go beyond `2 ^ 53`. -/
theorem of_foldl (ts : List Tally) {c : FileCounts} {n : Nat} (hc : f.of c = Float.ofNat n)
    (hn : n + f.sum ts ≤ 2 ^ 53) :
    f.of ((ts.map fun t => groupOf t.row).foldl
        (fun (c : FileCounts) g => c.add g.status g.count) c) = Float.ofNat (n + f.sum ts) := by
  induction ts generalizing c n with
  | nil => exact hc
  | cons t rest ih =>
    rw [sum_cons] at hn
    rw [List.map_cons, List.foldl_cons, sum_cons]
    by_cases ht : f.Includes (.ofName t.status)
    · rw [if_pos ht] at hn ⊢
      have hadd : f.of (c.add (groupOf t.row).status (groupOf t.row).count) =
          Float.ofNat (n + t.count) := by
        rw [of_add, Tally.groupOf_row_status, if_pos ht, Tally.groupOf_row_count (by omega), hc,
          Number.ofNat_add_ofNat (by omega)]
      rw [ih hadd (by omega), Nat.add_assoc]
    · rw [if_neg ht, Nat.zero_add] at hn ⊢
      have hkeep : f.of (c.add (groupOf t.row).status (groupOf t.row).count) = Float.ofNat n := by
        rw [of_add, Tally.groupOf_row_status, if_neg ht, hc]
      exact ih hkeep hn

end Figure

/-! ## Counts of separate stores -/

/-- The counts that were found for a store, if any. -/
def found (counts : List (String × FileCounts)) (id : String) : Option FileCounts :=
  (counts.find? (·.1 == id)).map (·.2)

/-- One more group in the counts of a store. -/
def tallied (c : Option FileCounts) (g : StatusGroup) : Option FileCounts :=
  some ((c.getD .zero).add g.status g.count)

variable {counts : List (String × FileCounts)} {g : StatusGroup} {id : String}

/-- **Adding a group** changes the counts of its own store, and of no other one. -/
theorem found_addGroup : found (addGroup counts g) id =
    if g.storeId = id then tallied (found counts id) g else found counts id := by
  have hcons (k : String) (c : FileCounts) (rest : List (String × FileCounts)) :
      found ((k, c) :: rest) id = if k = id then some c else found rest id := by
    unfold found
    rw [List.find?_cons]
    by_cases hk : k = id
    · rw [if_pos hk, beq_iff_eq.mpr hk]
      rfl
    · rw [if_neg hk, beq_eq_false_iff_ne.mpr hk]
  induction counts with
  | nil => exact hcons g.storeId _ []
  | cons entry rest ih =>
    obtain ⟨k, c⟩ := entry
    rw [addGroup]
    by_cases hk : k = g.storeId
    · rw [if_pos (beq_iff_eq.mpr hk), hcons, hcons, hk]
      by_cases hid : g.storeId = id
      · rw [if_pos hid, if_pos hid, if_pos hid]
        rfl
      · rw [if_neg hid, if_neg hid, if_neg hid]
    · rw [if_neg (by simpa using hk), hcons, hcons, ih]
      by_cases hid : k = id
      · have hne : ¬ g.storeId = id := fun h => hk (hid.trans h.symm)
        rw [if_pos hid, if_pos hid, if_neg hne]
      · rw [if_neg hid, if_neg hid]

/-- The counts of a store are those of its own groups, in their order. -/
theorem found_foldl_addGroup (groups : List StatusGroup) (counts : List (String × FileCounts))
    (id : String) :
    found (groups.foldl addGroup counts) id =
      (groups.filter (·.storeId = id)).foldl tallied (found counts id) := by
  induction groups generalizing counts with
  | nil => rfl
  | cons g rest ih =>
    rw [List.foldl_cons, ih, found_addGroup, List.filter_cons]
    by_cases hid : g.storeId = id
    · rw [if_pos hid, if_pos (by simpa using hid), List.foldl_cons]
    · rw [if_neg hid, if_neg (by simpa using hid)]

theorem foldl_tallied {groups : List StatusGroup} (hne : groups ≠ []) (c : Option FileCounts) :
    groups.foldl tallied c =
      some (groups.foldl (fun (c : FileCounts) g => c.add g.status g.count) (c.getD .zero)) := by
  induction groups generalizing c with
  | nil => exact absurd rfl hne
  | cons g rest ih =>
    rw [List.foldl_cons, List.foldl_cons]
    by_cases hrest : rest = []
    · rw [hrest]
      rfl
    · rw [ih hrest]
      rfl

/-! ## Sums -/

variable {ts ts' : List Tally}

theorem filter_groupOf : (ts.map fun t => groupOf t.row).filter (·.storeId = id) =
    (Tally.inStore ts id).map fun t => groupOf t.row := by
  rw [List.filter_map, Tally.inStore]
  rfl

/-- A store without rows has no counts. -/
theorem found_countsOf_none (h : Tally.inStore ts id = []) :
    found (countsOf (ts.map fun t => groupOf t.row)) id = none := by
  rw [countsOf, found_foldl_addGroup, filter_groupOf, h]
  rfl

/-- **The counts of a store** with rows are the sums over them. -/
theorem found_countsOf_some (h : Tally.inStore ts id ≠ []) :
    ∃ c, found (countsOf (ts.map fun t => groupOf t.row)) id = some c ∧
      ∀ f : Figure, f.sum (Tally.inStore ts id) ≤ 2 ^ 53 →
        f.of c = Float.ofNat (f.sum (Tally.inStore ts id)) := by
  rw [countsOf, found_foldl_addGroup, filter_groupOf, foldl_tallied (by simpa using h)]
  refine ⟨_, rfl, fun f hf => ?_⟩
  have hzero : f.of FileCounts.zero = Float.ofNat 0 := by cases f <;> rfl
  rw [← Nat.zero_add (f.sum _)] at hf ⊢
  exact Figure.of_foldl _ hzero hf

/-- The counting session adds up the rows that are answered. -/
theorem outcome_fileCounts {db : Statement → Except Fault (List Row)} {ids : List String}
    (hids : ids ≠ []) (hrows : db (countFiles ids) = .ok (ts.map Tally.row)) :
    outcome db (fileCounts ids) = .ok (countsOf (ts.map fun t => groupOf t.row)) := by
  have hne : ids.isEmpty = false := by simpa using hids
  have hsend : outcome db (send (countFiles ids)) = .ok (ts.map Tally.row) := hrows
  rw [fileCounts, hne, if_neg Bool.false_ne_true, outcome_bind_ok db hsend, List.map_map]
  rfl

/-- Without files of its own a store has no counts; with some, each figure is the sum over the rows
of the store, in whatever order these come. All of it holds up to `2 ^ 53`, behind which doubles do
not tell all natural numbers apart; that there are no counts holds without that bound. -/
theorem fileCounts_add_up {db : Statement → Except Fault (List Row)} {ids : List String}
    (hids : ids ≠ []) (hrows : db (countFiles ids) = .ok (ts.map Tally.row)) :
    ∃ counts, outcome db (fileCounts ids) = .ok counts ∧
      (∀ id, Tally.inStore ts id = [] → found counts id = none) ∧
      (∀ id, Tally.inStore ts id ≠ [] → ∃ c, found counts id = some c ∧
        (∀ f : Figure, f.sum (Tally.inStore ts id) ≤ 2 ^ 53 →
          f.of c = Float.ofNat (f.sum (Tally.inStore ts id)) ∧
          Number.natural? (f.of c) = some (f.sum (Tally.inStore ts id))) ∧
        (Figure.total.sum (Tally.inStore ts id) ≤ 2 ^ 53 →
          (∀ t ∈ Tally.inStore ts id, FileStatus.ofName t.status ∈
            [FileStatus.inProgress, .completed, .failed]) →
          c.total = c.inProgress + c.completed + c.failed)) ∧
      ∀ db' ts', ts.Perm ts' → db' (countFiles ids) = .ok (ts'.map Tally.row) →
        ∃ counts', outcome db' (fileCounts ids) = .ok counts' ∧
          ∀ id (f : Figure), f.sum (Tally.inStore ts id) ≤ 2 ^ 53 →
            (found counts' id).map f.of = (found counts id).map f.of := by
  refine ⟨_, outcome_fileCounts hids hrows, fun id => found_countsOf_none, fun id hid => ?_,
    fun db' ts' hperm hrows' => ⟨_, outcome_fileCounts hids hrows', fun id f hf => ?_⟩⟩
  · obtain ⟨c, hc, hfigures⟩ := found_countsOf_some hid
    refine ⟨c, hc, fun f hf => ⟨hfigures f hf, ?_⟩, fun htotal hlisted => ?_⟩
    · rw [hfigures f hf, Number.natural?_ofNat hf]
    · have hsum := Figure.sum_total hlisted
      have hle (f : Figure) : f.sum (Tally.inStore ts id) ≤ 2 ^ 53 :=
        Nat.le_trans Figure.sum_le_total htotal
      calc c.total = Float.ofNat (Figure.total.sum (Tally.inStore ts id)) := hfigures .total htotal
        _ = Float.ofNat (Figure.inProgress.sum (Tally.inStore ts id)) +
              Float.ofNat (Figure.completed.sum (Tally.inStore ts id)) +
              Float.ofNat (Figure.failed.sum (Tally.inStore ts id)) := by
            rw [Number.ofNat_add_ofNat (by omega), Number.ofNat_add_ofNat (by omega), hsum]
        _ = c.inProgress + c.completed + c.failed := by
            rw [← hfigures .inProgress (hle _), ← hfigures .completed (hle _),
              ← hfigures .failed (hle _)]
            rfl
  · have hown : (Tally.inStore ts id).Perm (Tally.inStore ts' id) := hperm.filter _
    by_cases hid : Tally.inStore ts id = []
    · rw [found_countsOf_none hid, found_countsOf_none (List.nil_perm.mp (hid ▸ hown))]
    · obtain ⟨c, hc, hfigures⟩ := found_countsOf_some hid
      obtain ⟨c', hc', hfigures'⟩ := found_countsOf_some
        (show Tally.inStore ts' id ≠ [] from fun h => hid (List.perm_nil.mp (h ▸ hown)))
      have hsum : f.sum (Tally.inStore ts' id) = f.sum (Tally.inStore ts id) :=
        (Figure.sum_perm hown).symm
      rw [hc, hc', Option.map_some, Option.map_some, hfigures f hf, hfigures' f (hsum ▸ hf), hsum]

/-- Rows of two stores that come mixed, one of them for a status that a store has already. -/
theorem fileCounts_add_up_mixed :
    let ts : List Tally := [⟨"a", "completed", 2, false⟩, ⟨"b", "failed", 4, true⟩,
      ⟨"a", "in_progress", 1, false⟩, ⟨"a", "completed", 3, true⟩]
    let db : Statement → Except Fault (List Row) := fun _ => .ok (ts.map Tally.row)
    ["a", "b", "c"] ≠ [] ∧ db (countFiles ["a", "b", "c"]) = .ok (ts.map Tally.row) ∧
      ∃ counts, outcome db (fileCounts ["a", "b", "c"]) = .ok counts ∧ found counts "c" = none ∧
        ∃ c, found counts "a" = some c ∧ Number.natural? c.completed = some 5 ∧
          Number.natural? c.total = some 6 := by
  intro ts db
  have hrows : db (countFiles ["a", "b", "c"]) = .ok (ts.map Tally.row) := rfl
  obtain ⟨counts, hcounts, hnone, hsome, -⟩ :=
    fileCounts_add_up (List.cons_ne_nil "a" ["b", "c"]) hrows
  obtain ⟨c, hc, hfigures, -⟩ := hsome "a" (by decide)
  exact ⟨List.cons_ne_nil _ _, hrows, counts, hcounts, hnone "c" (by decide), c, hc,
    (hfigures .completed (by decide)).2, (hfigures .total (by decide)).2⟩

/-- Beyond `2 ^ 53` a sum is rounded, and the order of the rows tells how. -/
theorem fileCounts_rounded :
    let ts : List Tally := [⟨"s", "completed", 2 ^ 53, false⟩, ⟨"s", "completed", 1, false⟩,
      ⟨"s", "completed", 1, false⟩]
    let read (ts : List Tally) : Option Nat :=
      (outcome (fun _ => .ok (ts.map Tally.row)) (fileCounts ["s"])).toOption.bind fun counts =>
        (found counts "s").bind fun c => Number.natural? c.completed
    Figure.completed.sum ts = 2 ^ 53 + 2 ∧ read ts = some (2 ^ 53) ∧
      read ts.reverse = some (2 ^ 53 + 2) := by
  decide +kernel

end Retrieval.Database
