import Mathlib.Algebra.Order.Ring.Rat
import Mathlib.Algebra.Order.Group.Defs
import Retrieval.Proofs.Embedding.Alignment
import Retrieval.Proofs.Number.Order
import Retrieval.Proofs.Store.Nearest
import Retrieval.Proofs.Value.Members
import Retrieval.Search

/-!
# A search ranks what qualifies

`serve_ranked`: over exact scalars, a search of a store delivers the first rows, by ascending
distance, among those of the store that have a vector, match the filter and are similar enough. The
limits that go into the lookup hide no such row, and the check of what comes back removes none. And
whatever a lookup answers, the results are the first of the candidates that pass the check.
-/

namespace Retrieval.Search

open Database (Condition Delivers Ranking selected)

/-! ## The check of what comes back -/

/-- What is found under that name has that text. -/
def matchesEntry (metadata : Value) (e : String × String) : Bool :=
  (metadata.property e.1).toOption.bind (·.filterText?) == some e.2

theorem matchesFilter_record (members : List (String × Value)) (filter : List (String × String)) :
    matchesFilter (.record members) filter =
      .ok (filter.all (matchesEntry (.record members))) := by
  induction filter with
  | nil => rfl
  | cons e rest ih =>
    change (if matchesEntry (.record members) e then matchesFilter (.record members) rest
      else pure false) = _
    rw [ih, List.all_cons]
    cases matchesEntry (.record members) e <;> rfl

theorem filtered_records {δ : Type} (filter : List (String × String))
    (candidates : List (Candidate δ))
    (hmeta : ∀ c ∈ candidates, ∃ members, c.metadata = .record members) :
    filtered filter candidates =
      .ok (candidates.filter fun c => filter.all (matchesEntry c.metadata)) := by
  induction candidates with
  | nil => rfl
  | cons c rest ih =>
    obtain ⟨members, hc⟩ := hmeta c List.mem_cons_self
    have hrest := ih fun c hc => hmeta c (List.mem_cons_of_mem _ hc)
    rw [filtered, hrest, hc, matchesFilter_record, List.filter_cons, hc]
    rfl

theorem play_lookUp {δ : Type} {w : Surroundings δ} {q : NeighborQuery δ} {past : History δ}
    {candidates : List (Candidate δ)}
    (h : w (.chunks (.nearestNeighbors q)) past = .ok candidates) :
    Task.play w (lookUp q) past =
      (.ok candidates, past ++ [⟨.chunks (.nearestNeighbors q), .ok candidates⟩]) := by
  have hcall : Task.play w (Task.chunks (.nearestNeighbors q)).outcome past =
      (.ok (.ok candidates), past ++ [⟨.chunks (.nearestNeighbors q), .ok candidates⟩]) := by
    rw [Task.play_outcome, ← h]
    rfl
  rw [lookUp, Task.play_bind_ok w past hcall]
  rfl

section

variable {δ : Type} [Sub δ] [OfNat δ 1] [LE δ] [DecidableLE δ]

/-- The candidate is similar enough and matches the filter. -/
def Plan.passes (p : Plan δ) (c : Candidate δ) : Bool :=
  (p.filter.getD []).all (matchesEntry c.metadata) && meetsThreshold p.threshold c

theorem Plan.results_eq (p : Plan δ) (candidates : List (Candidate δ))
    (hmeta : ∀ c ∈ candidates, ∃ members, c.metadata = .record members) :
    p.results candidates = .ok (((candidates.filter p.passes).take p.limit).map resultOf) := by
  unfold Plan.results
  rw [filtered_records _ _ fun c hc => hmeta c (List.mem_filter.mp hc).1]
  simp only [List.filter_filter]
  rfl

/-- A search whose query is embedded and whose lookup is answered has the results of the answer. -/
theorem Plan.play_serve (p : Plan δ) (client : Embedding.Client) {w : Surroundings δ}
    {past embedded : History δ} {vector : List δ} {candidates : List (Candidate δ)}
    {results : List (SearchResult δ)} (hsignal : ∀ h, w .signal h = none)
    (hembed : Task.play w (client.embedOne p.query none) (past ++ [⟨.now, w .now past⟩]) =
      (.ok vector, embedded))
    (hlookup : w (.chunks (.nearestNeighbors (p.lookup vector))) embedded = .ok candidates)
    (hresults : p.results candidates = .ok results) :
    ∃ h, Task.play w (p.serve client) past = (.ok results, h) := by
  unfold Plan.serve
  rw [Task.now, Task.play_bind_ok w past (Task.play_ask w past _), Task.play_bind_ok w _ hembed,
    Task.play_bind_ok w _ (play_lookUp hlookup), Task.signal,
    Task.play_bind_ok w _ (Task.play_ask w _ _), hsignal]
  dsimp only
  rw [hresults, Task.play_bind_ok w _ (Task.play_lift w _ _),
    Task.play_bind_ok w _ (Task.play_ask w _ _), Task.play_bind_ok w _ (Task.play_log w _ _ _ _)]
  exact ⟨_, rfl⟩

end

/-! ## Exact scalars -/

/-- The number that a double stands for; zero where it is none. -/
def exactly (x : Float) : ℚ :=
  match Exact.of x with
  | .finite negative m e => (Exact.signed negative (m * twoTo e.toNat) : ℚ) / twoTo (-e).toNat
  | _ => 0

def Plan.exact (p : Plan Float) : Plan ℚ :=
  ⟨p.storeId, p.query, p.limit, p.filter, p.threshold.map exactly⟩

/-- The row belongs to the store, has a vector, matches the filter and is similar enough. -/
def Params.qualifies (p : Params) (metric : List ℚ → List ℚ → ℚ) (vector : List ℚ)
    (row : ChunkRow ℚ) : Bool :=
  row.storeId == p.storeId && row.embedding.isSome &&
    (p.filter.getD []).all (fun e => row.memberText? e.1 == some e.2) &&
    p.scoreThreshold.all fun t => exactly t ≤ 1 - row.distance metric vector

theorem natural?_of_limit? {x : Float} {n : Nat} (h : limit? x = some n) :
    Number.natural? x = some n := by
  unfold limit? at h
  split at h
  · next k hk =>
    simp only [Option.ite_none_right_eq_some, Option.some.injEq, Bool.and_eq_true,
      decide_eq_true_eq] at h
    obtain ⟨⟨hmin, -⟩, rfl⟩ := h
    exact Number.natural?_of_whole hk (le_trans (by decide) hmin)
  · cases h

/-- A search that is accepted asks for what the caller has asked for. -/
theorem Params.of_plan {p : Params} {plan : Plan Float} (h : p.plan = .ok plan) :
    plan.storeId = p.storeId ∧ plan.query = p.query ∧
      Number.natural? p.maxResults = some plan.limit ∧
      plan.filter.getD [] = p.filter.getD [] ∧ plan.threshold = p.scoreThreshold := by
  have hfilter : (p.filter.filter (!·.isEmpty)).getD [] = p.filter.getD [] := by
    cases p.filter with
    | none => rfl
    | some entries => cases entries <;> rfl
  unfold Params.plan at h
  split at h
  · cases h
  · split at h
    · cases h
    · next limit hlimit =>
      split at h
      · next hnone =>
        cases h
        exact ⟨rfl, rfl, natural?_of_limit? hlimit, hfilter, hnone.symm⟩
      · next t hsome =>
        split at h
        · cases h
          exact ⟨rfl, rfl, natural?_of_limit? hlimit, hfilter, hsome.symm⟩
        · cases h

variable {p : Params} {plan : Plan Float} {metric : List ℚ → List ℚ → ℚ} {vector : List ℚ}

/-- The lookup selects what qualifies: the greatest distance that it allows is that of a row which
is just similar enough. -/
theorem selected_lookup (hplan : p.plan = .ok plan) (table : ChunkTable ℚ) :
    selected metric table (plan.exact.lookup vector) =
      table.rows.filter (p.qualifies metric vector) := by
  obtain ⟨hstore, -, -, hfilter, hthreshold⟩ := Params.of_plan hplan
  unfold selected
  congr 1
  funext row
  rw [Database.all_conditions]
  simp only [Plan.lookup, Plan.exact, Params.qualifies, hstore, hfilter, hthreshold]
  congr 1
  cases p.scoreThreshold with
  | none => rfl
  | some t => exact decide_eq_decide.mpr le_sub_comm

/-- A member of the row that has the text is found, whatever all records have under its name. -/
theorem matchesEntry_candidate {δ : Type} {metric : List δ → List δ → δ} {vector : List δ}
    (table : ChunkTable δ) {row : ChunkRow δ} {e : String × String}
    (h : row.memberText? e.1 = some e.2) :
    matchesEntry (table.candidate metric vector row).metadata e = true := by
  obtain ⟨members, hmetadata, htext⟩ := Option.bind_eq_some_iff.mp h
  have hfound : Value.memberOf members e.1 = .value (Value.lookup e.1 members) :=
    Value.memberOf_of_text (by simp [htext])
  have hproperty : (table.candidate metric vector row).metadata.property e.1 =
      .ok (Value.memberOf members e.1) := by
    rw [ChunkTable.candidate, hmetadata]
    rfl
  rw [matchesEntry, hproperty, hfound]
  exact beq_iff_eq.mpr htext

/-- What qualifies passes the check. -/
theorem passes_of_qualifies (hplan : p.plan = .ok plan) (table : ChunkTable ℚ) {row : ChunkRow ℚ}
    (h : p.qualifies metric vector row = true) :
    plan.exact.passes (table.candidate metric vector row) = true := by
  obtain ⟨-, -, -, hfilter, hthreshold⟩ := Params.of_plan hplan
  simp only [Params.qualifies, Bool.and_eq_true] at h
  obtain ⟨⟨-, hentries⟩, hscore⟩ := h
  rw [Plan.passes, Bool.and_eq_true]
  constructor
  · rw [show plan.exact.filter = plan.filter from rfl, hfilter, List.all_eq_true]
    intro e he
    exact matchesEntry_candidate table (beq_iff_eq.mp (List.all_eq_true.mp hentries e he))
  · simp only [Plan.exact, meetsThreshold, hthreshold]
    cases ht : p.scoreThreshold with
    | none => rfl
    | some t =>
      rw [ht] at hscore
      exact hscore

/-- The check removes nothing from what the lookup delivers. -/
theorem results_of_ranking (hplan : p.plan = .ok plan) (table : ChunkTable ℚ)
    {ranked : List (ChunkRow ℚ)}
    (h : Ranking metric vector (table.rows.filter (p.qualifies metric vector)) ranked) :
    plan.exact.results ((ranked.take plan.limit).map (table.candidate metric vector)) =
      .ok (((ranked.take plan.limit).map (table.candidate metric vector)).map resultOf) := by
  have hpass : ∀ c ∈ (ranked.take plan.limit).map (table.candidate metric vector),
      plan.exact.passes c = true := by
    intro c hc
    obtain ⟨row, hrow, rfl⟩ := List.mem_map.mp hc
    have hmem := h.1.subset (List.mem_of_mem_take hrow)
    exact passes_of_qualifies hplan table (List.mem_filter.mp hmem).2
  have hmeta : ∀ c ∈ (ranked.take plan.limit).map (table.candidate metric vector),
      ∃ members, c.metadata = .record members := by
    intro c hc
    obtain ⟨row, -, rfl⟩ := List.mem_map.mp hc
    exact ⟨_, rfl⟩
  have hlength : ((ranked.take plan.limit).map (table.candidate metric vector)).length ≤
      plan.exact.limit := by
    rw [List.length_map, List.length_take]
    exact Nat.min_le_left _ _
  rw [Plan.results_eq _ _ hmeta, List.filter_eq_self.mpr hpass, List.take_of_length_le hlength]

/-- **Filter, rank, cap.** The conditions of the statement are these. Where a database answers by
them, the rows that a search delivers are the first ones, as many as were asked for, of those that
qualify by ascending distance; the check leaves them as they are, and each has one minus its
distance as its score. And over any scalars, whatever a lookup delivers, the results are the first
of the candidates that pass the check. -/
theorem serve_ranked (client : Embedding.Client) :
    (∀ q : NeighborQuery Float,
      Database.conditions q = (Condition.of q).map (Condition.pieces q.vector)) ∧
    (∀ (p : Params) (plan : Plan Float) (metric : List ℚ → List ℚ → ℚ) (table : ChunkTable ℚ)
      (w : Surroundings ℚ) (past embedded : History ℚ) (vector : List ℚ)
      (delivered : List (Candidate ℚ)),
      p.plan = .ok plan → (∀ h, w .signal h = none) →
      Task.play w (client.embedOne p.query none) (past ++ [⟨.now, w .now past⟩]) =
        (.ok vector, embedded) →
      w (.chunks (.nearestNeighbors (plan.exact.lookup vector))) embedded = .ok delivered →
      Delivers metric table (plan.exact.lookup vector) delivered →
      serve client p = plan.serve client ∧
      ∃ n ranked results h,
        Number.natural? p.maxResults = some n ∧
        Ranking metric vector (table.rows.filter (p.qualifies metric vector)) ranked ∧
        delivered = (ranked.take n).map (table.candidate metric vector) ∧
        results = delivered.map resultOf ∧ (∀ r ∈ results, r.score = 1 - r.distance) ∧
        Task.play w (plan.exact.serve client) past = (.ok results, h)) ∧
    (∀ {δ : Type} [Sub δ] [OfNat δ 1] [LE δ] [DecidableLE δ] (plan : Plan δ)
      (w : Surroundings δ) (past embedded : History δ) (vector : List δ)
      (candidates : List (Candidate δ)),
      (∀ h, w .signal h = none) →
      Task.play w (client.embedOne plan.query none) (past ++ [⟨.now, w .now past⟩]) =
        (.ok vector, embedded) →
      w (.chunks (.nearestNeighbors (plan.lookup vector))) embedded = .ok candidates →
      (∀ c ∈ candidates, ∃ members, c.metadata = .record members) →
      ∃ h, Task.play w (plan.serve client) past =
        (.ok (((candidates.filter plan.passes).take plan.limit).map resultOf), h)) := by
  refine ⟨Database.conditions_eq, ?_, ?_⟩
  · intro p plan metric table w past embedded vector delivered hplan hsignal hembed hlookup
    rintro ⟨ranked, hranked, rfl⟩
    obtain ⟨-, hquery, hlimit, -, -⟩ := Params.of_plan hplan
    rw [selected_lookup hplan] at hranked
    rw [← hquery] at hembed
    obtain ⟨h, hplay⟩ := plan.exact.play_serve client hsignal hembed hlookup
      (results_of_ranking hplan table hranked)
    refine ⟨by rw [serve, hplan], plan.limit, ranked, _, h, hlimit, hranked, rfl, rfl, ?_, hplay⟩
    intro r hr
    obtain ⟨c, -, rfl⟩ := List.mem_map.mp hr
    rfl
  · intro δ _ _ _ _ plan w past embedded vector candidates hsignal hembed hlookup hmeta
    exact plan.play_serve client hsignal hembed hlookup (plan.results_eq candidates hmeta)

def apart (v q : List ℚ) : ℚ := v.headD 0 - q.headD 0

def nearRow : ChunkRow ℚ := ⟨"near", "f", "s", 0, #[97], some [1 / 4], some [("k", .text "v")]⟩

/-- Beside it, a chunk that is too far away, one without a vector and one of another store. -/
def sampleTable : ChunkTable ℚ where
  rows := [⟨"far", "f", "s", 1, #[98], some [3 / 4], some [("k", .text "v")]⟩, nearRow,
    ⟨"bare", "f", "s", 2, #[99], none, some [("k", .text "v")]⟩,
    ⟨"other", "g", "t", 0, #[97], some [0], some [("k", .text "v")]⟩]
  filename _ := some "a.txt"

/-- Up to two chunks of a store that match a filter and are at least half similar. -/
def sampleParams : Params := ⟨"s", #[97], 2, some [("k", "v")], some 0.5⟩

/-- Every text has the vector zero, and every lookup finds the near chunk. -/
def sampleWorld : Surroundings ℚ
  | .chunks (.nearestNeighbors _), _ => .ok [sampleTable.candidate apart [0] nearRow]
  | e, h => Embedding.serving (fun texts _ => .ok (texts.map fun _ => [0])) e h

theorem sampleParams_plan :
    sampleParams.plan = .ok ⟨"s", #[97], 2, some [("k", "v")], some 0.5⟩ := by
  have hblank : Text.allBlank #[97] = false := by decide +kernel
  have hlimit : limit? 2 = some 2 := by decide +kernel
  have hthreshold : thresholdOk 0.5 = true := by decide +kernel
  simp [Params.plan, sampleParams, hblank, hlimit, hthreshold]

theorem sampleTable_qualifies :
    sampleTable.rows.filter (sampleParams.qualifies apart [0]) = [nearRow] := by
  unfold sampleTable
  rw [List.filter_cons_of_neg (by decide +kernel), List.filter_cons_of_pos (by decide +kernel),
    List.filter_cons_of_neg (by decide +kernel), List.filter_cons_of_neg (by decide +kernel)]
  rfl

theorem sampleWorld_serves :
    Embedding.Serves sampleWorld [⟨.now, 0⟩] Embedding.Policy.usual.attempts fun _ => [0] where
  calm := ⟨fun _ => rfl, fun _ _ => rfl⟩
  reply batch model new := by
    refine ⟨_, .items _ (List.Perm.refl _), ?_⟩
    rw [Embedding.received, Embedding.vectorsOf_perm (List.Perm.refl _)]
    rfl

/-- Of four chunks, the one that qualifies is the result. -/
theorem serve_ranked_sample :
    ∃ h, Task.play sampleWorld (Plan.serve
        ⟨"s", #[97], 2, some [("k", "v")], some (exactly 0.5)⟩ ⟨.usual, "m"⟩) [] =
      (.ok [resultOf (sampleTable.candidate apart [0] nearRow)], h) := by
  have hpos : 0 < Embedding.Policy.usual.attempts := by decide +kernel
  have hsize : 1 ≤ 2048 := by decide
  obtain ⟨new, hplay, -⟩ := Embedding.Client.play_embedAll_served ⟨.usual, "m"⟩ hsize
    (fun _ => rfl) sampleWorld_serves hpos [#[97]] none
  have hdelivers : Delivers apart sampleTable (Plan.lookup
      ⟨"s", #[97], 2, some [("k", "v")], some (exactly 0.5)⟩ [0])
      [sampleTable.candidate apart [0] nearRow] := by
    refine ⟨[nearRow], ⟨?_, List.pairwise_singleton _ _⟩, rfl⟩
    rw [← sampleTable_qualifies]
    exact List.Perm.of_eq (selected_lookup sampleParams_plan sampleTable).symm
  obtain ⟨-, n, ranked, results, h, -, -, -, rfl, -, hserve⟩ :=
    (serve_ranked ⟨.usual, "m"⟩).2.1 sampleParams _ apart sampleTable sampleWorld [] _ [0] _
      sampleParams_plan (fun _ => rfl) (Task.play_bind_ok _ _ hplay) rfl hdelivers
  exact ⟨h, hserve⟩

end Retrieval.Search
