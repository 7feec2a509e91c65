import Mathlib.Algebra.BigOperators.Group.List.Lemmas
import Retrieval.Proofs.Store.Counting
import Retrieval.Proofs.Store.Placeholders

/-!
# Pages of stores

A page asks for one store more than it shows. Over tables that do not change it therefore shows the
stores at its offset and tells whether there are more behind them (`outcome_list`). Going on from
page to page (`Walk`) comes to an end (`Shelf.Answers.exists_walk`) and shows every store once, in
order and with the counts of its own files (`Shelf.Answers.paged`).
-/

namespace Retrieval.Database

/-! ## The tables -/

/-- The rows of the table of stores in the order of the list, and the files. -/
structure Shelf where
  stores : List Row
  files : List StoredFile
  /-- no other status is ever written -/
  listed : ∀ file ∈ files, file.status ∈ [FileStatus.inProgress, .completed, .failed]

/-- What files are grouped by when they are counted. -/
@[ext]
structure GroupKey where
  storeId : String
  status : FileStatus
deriving DecidableEq

def Tally.key (t : Tally) : GroupKey := ⟨t.storeId, .ofName t.status⟩

namespace Shelf

variable (shelf : Shelf) (id : String)

def number (f : Figure) : Nat :=
  shelf.files.countP fun file => file.storeId = id ∧ f.Includes file.status

def counts : FileCounts :=
  ⟨shelf.number id .inProgress, shelf.number id .completed, shelf.number id .failed,
    shelf.number id .total⟩

/-- A store as it is handed out. -/
def entity (row : Row) : VectorStore := storeOf (shelf.counts (textColumn row 0)) row

def keys : List GroupKey := shelf.files.map fun file => ⟨file.storeId, file.status⟩

/-- An answer to the counting statement: one row for each group of files of the stores, in any
order. The counts are cast to `int`, so a greater one is never answered. -/
structure Counts (ids : List String) (ts : List Tally) : Prop where
  once : (ts.map Tally.key).Nodup
  covers : ∀ k, k ∈ ts.map Tally.key ↔ k.storeId ∈ ids ∧ k ∈ shelf.keys
  counted : ∀ t ∈ ts, t.count = shelf.keys.count t.key
  fits : ∀ t ∈ ts, t.count < 2 ^ 31

/-- The database answers from the tables what the pages of a list ask for. -/
structure Answers (order : Order) (limit : Nat) (db : Statement → Except Fault (List Row)) :
    Prop where
  page : ∀ offset ≤ shelf.stores.length,
    db (selectStores order (limit + 1) offset) = .ok ((shelf.stores.drop offset).take (limit + 1))
  counting : ∀ ids ≠ [], ids ⊆ shelf.stores.map (textColumn · 0) →
    ∃ ts, shelf.Counts ids ts ∧ db (countFiles ids) = .ok (ts.map Tally.row)

variable {shelf id} {ids : List String} {ts : List Tally} {f : Figure}

theorem of_counts : f.of (shelf.counts id) = Float.ofNat (shelf.number id f) := by cases f <;> rfl

theorem number_keys :
    shelf.number id f = shelf.keys.countP fun k => k.storeId = id ∧ f.Includes k.status := by
  rw [keys, List.countP_map]
  rfl

theorem counts_eq_zero (h : ∀ f, shelf.number id f = 0) : shelf.counts id = .zero := by
  rw [counts, h, h, h, h]
  rfl

/-- Without files all counts are zero. -/
theorem counts_of_no_files (h : ∀ file ∈ shelf.files, file.storeId ≠ id) :
    shelf.counts id = .zero := by
  refine counts_eq_zero fun f => List.countP_eq_zero.mpr fun file hfile => ?_
  simp [h file hfile]

namespace Counts

/-- The rows of a store add up to its files. -/
theorem sum_inStore (h : shelf.Counts ids ts) (hid : id ∈ ids) :
    f.sum (Tally.inStore ts id) = shelf.number id f := by
  let p (k : GroupKey) : Bool := k.storeId = id ∧ f.Includes k.status
  have hrows : f.sum (Tally.inStore ts id) =
      (((ts.map Tally.key).filter p).map fun k => shelf.keys.count k).sum := by
    have hfilter : ts.filter (fun t => f.Includes (.ofName t.status) && t.storeId == id) =
        ts.filter (p ∘ Tally.key) := by
      refine List.filter_congr fun t _ => ?_
      show _ = decide (t.storeId = id ∧ f.Includes (.ofName t.status))
      rw [Bool.decide_and, Bool.and_comm]
      rfl
    unfold Figure.sum Tally.inStore
    rw [List.filter_filter, List.filter_map, List.map_map, hfilter]
    exact congrArg List.sum
      (List.map_congr_left fun t ht => h.counted t (List.mem_of_mem_filter ht))
  -- the rows of a store are its groups, each once
  have hperm : ((ts.map Tally.key).filter p).Perm (shelf.keys.dedup.filter p) := by
    refine (List.perm_ext_iff_of_nodup (h.once.filter _) ((List.nodup_dedup _).filter _)).mpr
      fun k => ?_
    rw [List.mem_filter, List.mem_filter, h.covers, List.mem_dedup]
    constructor
    · exact fun h => ⟨h.1.2, h.2⟩
    · rintro ⟨hk, hp⟩
      have hstore : k.storeId = id := (of_decide_eq_true hp).1
      exact ⟨⟨hstore ▸ hid, hk⟩, hp⟩
  rw [hrows, (hperm.map _).sum_eq, List.sum_map_count_dedup_filter_eq_countP, number_keys]

/-- A store has no more files of one status than a row can count. -/
theorem number_lt (h : shelf.Counts ids ts) (hid : id ∈ ids) {s : FileStatus}
    (hf : ∀ s', f.Includes s' ↔ s' = s) : shelf.number id f < 2 ^ 31 := by
  have hnumber : shelf.number id f = shelf.keys.count ⟨id, s⟩ := by
    rw [number_keys, List.count]
    refine List.countP_congr fun k _ => ?_
    simp [hf, GroupKey.ext_iff]
  rw [hnumber]
  by_cases hk : ⟨id, s⟩ ∈ shelf.keys
  · obtain ⟨t, ht, hkey⟩ := List.mem_map.mp ((h.covers ⟨id, s⟩).mpr ⟨hid, hk⟩)
    rw [← hkey, ← h.counted t ht]
    exact h.fits t ht
  · rw [List.count_eq_zero.mpr hk]
    decide

/-- The figures of a store are small enough to be added up exactly. -/
theorem sum_le (h : shelf.Counts ids ts) (hid : id ∈ ids) :
    f.sum (Tally.inStore ts id) ≤ 2 ^ 53 := by
  have hlisted : ∀ t ∈ Tally.inStore ts id, FileStatus.ofName t.status ∈
      [FileStatus.inProgress, .completed, .failed] := by
    intro t ht
    have hkey := ((h.covers t.key).mp (List.mem_map_of_mem (List.mem_of_mem_filter ht))).2
    obtain ⟨file, hfile, hfileKey⟩ := List.mem_map.mp hkey
    have hstatus : file.status = FileStatus.ofName t.status := congrArg GroupKey.status hfileKey
    exact hstatus ▸ shelf.listed file hfile
  have hle : f.sum (Tally.inStore ts id) ≤ Figure.total.sum (Tally.inStore ts id) :=
    Figure.sum_le_total
  have htotal := Figure.sum_total hlisted
  have hin : shelf.number id .inProgress < 2 ^ 31 := h.number_lt hid fun _ => Iff.rfl
  have hcompleted : shelf.number id .completed < 2 ^ 31 := h.number_lt hid fun _ => Iff.rfl
  have hfailed : shelf.number id .failed < 2 ^ 31 := h.number_lt hid fun _ => Iff.rfl
  rw [← h.sum_inStore hid] at hin hcompleted hfailed
  omega

/-- **The counts of a store** are found among the rows of all stores of a page. -/
theorem countsFor_eq (h : shelf.Counts ids ts) (hid : id ∈ ids) :
    countsFor (countsOf (ts.map fun t => groupOf t.row)) id = shelf.counts id := by
  show (found _ id).getD .zero = _
  by_cases hown : Tally.inStore ts id = []
  · have hzero (f : Figure) : shelf.number id f = 0 := by
      rw [← h.sum_inStore hid, hown]
      rfl
    rw [found_countsOf_none hown, counts_eq_zero hzero, Option.getD_none]
  · obtain ⟨c, hc, hfigures⟩ := found_countsOf_some hown
    have hof (f : Figure) : f.of c = f.of (shelf.counts id) := by
      rw [hfigures f (h.sum_le hid), h.sum_inStore hid, of_counts]
    rw [hc]
    exact Figure.ext hof

end Counts

/-! ## One page -/

variable {order : Order} {limit offset : Nat} {db : Statement → Except Fault (List Row)}

/-- The counts of the stores of a page are those of their files. -/
theorem Answers.outcome_fileCounts_of_subset (h : shelf.Answers order limit db)
    (hids : ids ⊆ shelf.stores.map (textColumn · 0)) :
    ∃ counts, outcome db (fileCounts ids) = .ok counts ∧
      ∀ id ∈ ids, countsFor counts id = shelf.counts id := by
  by_cases hne : ids = []
  · subst hne
    exact ⟨[], rfl, fun id hid => absurd hid List.not_mem_nil⟩
  · obtain ⟨ts, hts, hrows⟩ := h.counting ids hne hids
    exact ⟨_, outcome_fileCounts hne hrows, fun id hid => hts.countsFor_eq hid⟩

/-- **A page** shows the stores at its offset with the counts of their own files, and tells whether
there are more behind them. -/
theorem Answers.outcome_list (h : shelf.Answers order limit db)
    (hoffset : offset ≤ shelf.stores.length) :
    outcome db (callStores (.list ⟨limit, offset, order⟩)) =
      .ok ⟨((shelf.stores.drop offset).take limit).map shelf.entity,
        decide (offset + limit < shelf.stores.length)⟩ := by
  have hrows : outcome db (send (selectStores order (limit + 1) offset)) =
      .ok ((shelf.stores.drop offset).take (limit + 1)) := h.page offset hoffset
  -- the row that is asked for in excess is cut off again
  have hshown : ((shelf.stores.drop offset).take (limit + 1)).take limit =
      (shelf.stores.drop offset).take limit := by
    rw [List.take_take, Nat.min_eq_left (Nat.le_succ limit)]
  have hmore : limit < ((shelf.stores.drop offset).take (limit + 1)).length ↔
      offset + limit < shelf.stores.length := by
    rw [List.length_take, List.length_drop]
    omega
  have hsubset : (shelf.stores.drop offset).take limit ⊆ shelf.stores :=
    List.Subset.trans (List.take_subset limit _) (List.drop_subset offset _)
  obtain ⟨counts, hcounts, hfor⟩ :=
    h.outcome_fileCounts_of_subset (List.map_subset (textColumn · 0) hsubset)
  unfold callStores
  rw [outcome_bind_ok db hrows]
  dsimp only
  rw [hshown, outcome_bind_ok db hcounts, outcome_pure, decide_eq_decide.mpr hmore]
  have hentities : ((shelf.stores.drop offset).take limit).map
      (fun row => storeOf (countsFor counts (textColumn row 0)) row) =
        ((shelf.stores.drop offset).take limit).map shelf.entity := by
    refine List.map_congr_left fun row hrow => ?_
    rw [hfor _ (List.mem_map_of_mem hrow), entity]
  rw [hentities]

end Shelf

/-! ## From page to page -/

/-- The pages that are read one after another from an offset on, as long as there are more. -/
inductive Walk (db : Statement → Except Fault (List Row)) (order : Order) (limit : Nat) :
    Nat → List StorePage → Prop
  | last {offset : Nat} {page : StorePage}
      (read : outcome db (callStores (.list ⟨limit, offset, order⟩)) = .ok page)
      (done : page.hasMore = false) : Walk db order limit offset [page]
  | more {offset : Nat} {page : StorePage} {rest : List StorePage}
      (read : outcome db (callStores (.list ⟨limit, offset, order⟩)) = .ok page)
      (more : page.hasMore = true) (next : Walk db order limit (offset + limit) rest) :
      Walk db order limit offset (page :: rest)

/-- Pages that show stores in order, each of them once. All pages but the last are full and tell
that there are more; the last one tells that there are none, and shows some if there are any. -/
structure Paged (limit : Nat) (stores : List VectorStore) (pages : List StorePage) : Prop where
  shown : pages.flatMap (·.stores) = stores
  full : ∀ page ∈ pages.dropLast, page.stores.length = limit ∧ page.hasMore = true
  last : ∃ page, pages.getLast? = some page ∧ page.hasMore = false ∧ page.stores.length ≤ limit ∧
    (stores ≠ [] → page.stores ≠ [])

section

variable {shelf : Shelf} {order : Order} {limit offset : Nat}
  {db : Statement → Except Fault (List Row)} {page : StorePage} {stores : List VectorStore}
  {pages pages' rest : List StorePage}

theorem Paged.single (hmore : page.hasMore = false) (hlength : page.stores.length ≤ limit) :
    Paged limit page.stores [page] where
  shown := List.append_nil _
  full _ h := absurd h List.not_mem_nil
  last := ⟨page, rfl, hmore, hlength, id⟩

theorem Paged.cons (hlength : page.stores.length = limit) (hmore : page.hasMore = true)
    (hstores : stores ≠ []) (h : Paged limit stores rest) :
    Paged limit (page.stores ++ stores) (page :: rest) := by
  obtain ⟨last, hlast, hdone, hle, hsome⟩ := h.last
  have hrest : rest ≠ [] := by
    rintro rfl
    cases hlast
  refine ⟨congrArg (page.stores ++ ·) h.shown, fun p hp => ?_,
    last, ?_, hdone, hle, fun _ => hsome hstores⟩
  · rw [List.dropLast_cons_of_ne_nil hrest, List.mem_cons] at hp
    rcases hp with rfl | hp
    · exact ⟨hlength, hmore⟩
    · exact h.full p hp
  · rw [List.getLast?_cons, hlast]
    rfl

/-- The pages follow from where the walk starts. -/
theorem Walk.unique (h : Walk db order limit offset pages)
    (h' : Walk db order limit offset pages') : pages = pages' := by
  induction h generalizing pages' with
  | last read done =>
    cases h' with
    | last read' _ => rw [Except.ok.inj (read.symm.trans read')]
    | more read' more _ =>
      rw [Except.ok.inj (read.symm.trans read'), more] at done
      exact Bool.noConfusion done
  | more read more _ ih =>
    cases h' with
    | last read' done =>
      rw [Except.ok.inj (read.symm.trans read'), done] at more
      exact Bool.noConfusion more
    | more read' _ next => rw [Except.ok.inj (read.symm.trans read'), ih next]

/-- **A walk ends**: each page that is not the last leaves fewer stores for the next one. -/
theorem Shelf.Answers.exists_walk (h : shelf.Answers order limit db) (hlimit : 1 ≤ limit)
    (hoffset : offset ≤ shelf.stores.length) : ∃ pages, Walk db order limit offset pages := by
  induction hleft : shelf.stores.length - offset using Nat.strongRecOn generalizing offset with
  | ind left ih =>
    by_cases hmore : offset + limit < shelf.stores.length
    · obtain ⟨rest, hrest⟩ := ih (shelf.stores.length - (offset + limit)) (by omega)
        (Nat.le_of_lt hmore) rfl
      exact ⟨_, .more (h.outcome_list hoffset) (decide_eq_true hmore) hrest⟩
    · exact ⟨_, .last (h.outcome_list hoffset) (decide_eq_false hmore)⟩

/-- **A walk shows** the stores from its offset on. -/
theorem Shelf.Answers.paged (h : shelf.Answers order limit db)
    (hoffset : offset ≤ shelf.stores.length) (walk : Walk db order limit offset pages) :
    Paged limit ((shelf.stores.drop offset).map shelf.entity) pages := by
  induction walk with
  | @last offset page read done =>
    obtain rfl := Except.ok.inj ((h.outcome_list hoffset).symm.trans read)
    have hlength : (((shelf.stores.drop offset).take limit).map shelf.entity).length ≤ limit := by
      rw [List.length_map]
      exact List.length_take_le _ _
    have hall : ((shelf.stores.drop offset).take limit).map shelf.entity =
        (shelf.stores.drop offset).map shelf.entity := by
      have hdone := of_decide_eq_false done
      rw [List.take_of_length_le (by rw [List.length_drop]; omega)]
    rw [← hall]
    exact .single done hlength
  | @more offset page rest read more next ih =>
    obtain rfl := Except.ok.inj ((h.outcome_list hoffset).symm.trans read)
    have hmore := of_decide_eq_true more
    have hsplit : (shelf.stores.drop offset).map shelf.entity =
        ((shelf.stores.drop offset).take limit).map shelf.entity ++
          (shelf.stores.drop (offset + limit)).map shelf.entity := by
      rw [← List.map_append, ← List.drop_drop, List.take_append_drop]
    rw [hsplit]
    refine .cons ?_ more ?_ (ih (Nat.le_of_lt hmore))
    · rw [List.length_map, List.length_take, List.length_drop]
      omega
    · rw [Ne, List.map_eq_nil_iff, List.drop_eq_nil_iff]
      omega

end

/-! ## A database that answers -/

namespace Shelf

variable (shelf : Shelf)

def keysIn (ids : List String) : List GroupKey := shelf.keys.dedup.filter (·.storeId ∈ ids)

def tally (k : GroupKey) : Tally := ⟨k.storeId, k.status.name, shelf.keys.count k, false⟩

/-- Answers from the tables. A page binds its limit and then its offset, if it has one; counting
binds the identifiers of stores. -/
def answer (s : Statement) : Except Fault (List Row) :=
  match s.params with
  | .number n :: rest =>
    let offset := (rest.head?.bind fun v => Number.natural? v.toNumber).getD 0
    .ok ((shelf.stores.drop offset).take ((Number.natural? n).getD 0))
  | ids => .ok (((shelf.keysIn (ids.map Value.display)).map shelf.tally).map Tally.row)

variable {shelf} {order : Order} {limit : Nat}

theorem key_tally {k : GroupKey} (hk : k ∈ shelf.keys) : (shelf.tally k).key = k := by
  obtain ⟨file, hfile, rfl⟩ := List.mem_map.mp hk
  have hname : FileStatus.ofName file.status.name = file.status := by
    have hlisted := shelf.listed file hfile
    simp only [List.mem_cons, List.not_mem_nil, or_false] at hlisted
    rcases hlisted with h | h | h <;> rw [h] <;> decide
  exact GroupKey.ext rfl hname

theorem counts_tally (hfits : ∀ k ∈ shelf.keys, shelf.keys.count k < 2 ^ 31) (ids : List String) :
    shelf.Counts ids ((shelf.keysIn ids).map shelf.tally) := by
  have hmem {k : GroupKey} (hk : k ∈ shelf.keysIn ids) : k ∈ shelf.keys :=
    List.mem_dedup.mp (List.mem_of_mem_filter hk)
  have hkeys : ((shelf.keysIn ids).map shelf.tally).map Tally.key = shelf.keysIn ids := by
    rw [List.map_map]
    exact (List.map_congr_left fun k hk => key_tally (hmem hk)).trans (List.map_id _)
  refine ⟨?_, fun k => ?_, fun t ht => ?_, fun t ht => ?_⟩
  · rw [hkeys]
    exact (List.nodup_dedup _).filter _
  · rw [hkeys, keysIn, List.mem_filter, List.mem_dedup, decide_eq_true_iff, and_comm]
  · obtain ⟨k, hk, rfl⟩ := List.mem_map.mp ht
    rw [key_tally (hmem hk)]
    rfl
  · obtain ⟨k, hk, rfl⟩ := List.mem_map.mp ht
    exact hfits k (hmem hk)

theorem params_countFiles (ids : List String) : (countFiles ids).params = ids.map .text := by
  show Statement.valuesOf _ = _
  rw [Statement.valuesOf_append, Statement.valuesOf_append, Statement.valuesOf_joined]
  induction ids with
  | nil => rfl
  | cons id rest ih => exact congrArg (Value.text id :: ·) ih

/-- **Every table** of a size that can be counted has a database that answers from it. -/
theorem answers_answer (hstores : shelf.stores.length ≤ 2 ^ 53) (hlimit : limit < 2 ^ 53)
    (hfits : ∀ k ∈ shelf.keys, shelf.keys.count k < 2 ^ 31) :
    shelf.Answers order limit shelf.answer where
  page offset hoffset := by
    have hnatural {n : Nat} (hn : n ≤ 2 ^ 53) : (Number.natural? (Float.ofNat n)).getD 0 = n := by
      rw [Number.natural?_ofNat hn, Option.getD_some]
    have hlimit' := hnatural hlimit
    by_cases hzero : offset = 0
    · subst hzero
      show Except.ok ((shelf.stores.drop 0).take
        ((Number.natural? (Float.ofNat (limit + 1))).getD 0)) = _
      rw [hlimit']
    · have hparams : (selectStores order (limit + 1) offset).params =
          [.ofNat (limit + 1), .ofNat offset] := by
        rw [selectStores, if_neg hzero]
        rfl
      unfold answer
      rw [hparams]
      show Except.ok ((shelf.stores.drop ((Number.natural? (Float.ofNat offset)).getD 0)).take
        ((Number.natural? (Float.ofNat (limit + 1))).getD 0)) = _
      rw [hlimit', hnatural (Nat.le_trans hoffset hstores)]
  counting ids hne _ := by
    refine ⟨_, counts_tally hfits ids, ?_⟩
    have hdisplay : (ids.map Value.text).map Value.display = ids := by
      rw [List.map_map]
      exact List.map_id ids
    have hanswer : shelf.answer (countFiles ids) =
        .ok (((shelf.keysIn ((ids.map Value.text).map Value.display)).map shelf.tally).map
          Tally.row) := by
      unfold answer
      rw [params_countFiles]
      obtain ⟨id, rest, rfl⟩ := List.exists_cons_of_ne_nil hne
      rfl
    rw [hanswer, hdisplay]

end Shelf

/-! ## All pages -/

/-- Over tables that do not change, going on from page to page ends, and in one way only. The pages
show each store of the table once, in its order and with the counts of its own files, which are zero
where there are none. -/
theorem walk_paged {shelf : Shelf} {order : Order} {limit : Nat}
    {db : Statement → Except Fault (List Row)} (h : shelf.Answers order limit db)
    (hlimit : 1 ≤ limit) :
    ∃ pages, Walk db order limit 0 pages ∧
      (∀ pages', Walk db order limit 0 pages' → pages' = pages) ∧
      Paged limit (shelf.stores.map shelf.entity) pages ∧
      ∀ row ∈ shelf.stores, (∀ file ∈ shelf.files, file.storeId ≠ (shelf.entity row).id) →
        (shelf.entity row).fileCounts = .zero := by
  obtain ⟨pages, walk⟩ := h.exists_walk hlimit (Nat.zero_le _)
  exact ⟨pages, walk, fun pages' walk' => walk'.unique walk, h.paged (Nat.zero_le _) walk,
    fun row _ hfiles => Shelf.counts_of_no_files hfiles⟩

def fourStores : Shelf where
  stores := ["d", "c", "b", "a"].map fun id => [.text id, .text "docs", .null, .text "", .text ""]
  files := [("c", FileStatus.completed), ("a", .failed), ("c", .completed), ("c", .inProgress)].map
    fun file => ⟨"f", file.1, "f.txt", file.2, 0, .null, none, 0⟩
  listed := by decide

/-- Twice two stores are two pages; nobody asks for a third one. -/
theorem walk_paged_four :
    fourStores.Answers .descending 2 fourStores.answer ∧ 1 ≤ 2 ∧
      ∃ pages, Walk fourStores.answer .descending 2 0 pages ∧
        Paged 2 (fourStores.stores.map fourStores.entity) pages ∧
        pages.map (fun page => page.stores.map (·.id)) = [["d", "c"], ["b", "a"]] := by
  have answers : fourStores.Answers .descending 2 fourStores.answer :=
    Shelf.answers_answer (by decide) (by decide) (by decide)
  obtain ⟨pages, walk, only, paged, -⟩ := walk_paged answers (by decide)
  have first := answers.outcome_list (Nat.zero_le _)
  have second := answers.outcome_list (show 2 ≤ fourStores.stores.length by decide)
  refine ⟨answers, by decide, pages, walk, paged, ?_⟩
  rw [← only _ (.more first rfl (.last second rfl))]
  rfl

end Retrieval.Database
