import Retrieval.Proofs.Store.Nearest
import Retrieval.Proofs.Store.Placeholders

/-!
# The statement of a lookup

The conditions of a lookup take placeholder 2 for the store, two placeholders for each entry of the
filter and two for a greatest distance (`textsOf_conditions`), and each placeholder stands for its
own value (`value?_member`, `value?_cutoff`, `value?_end`).
-/

namespace Retrieval.Database

theorem conditions_split (q : NeighborQuery Float) :
    conditions q = [.inStore q.storeId, .embedded].map (Condition.pieces q.vector)
      ++ (q.filter.getD []).map (fun e => Condition.pieces q.vector (.member e.1 e.2))
      ++ q.maxDistance.toList.map (fun d => Condition.pieces q.vector (.within d)) := by
  rw [conditions_eq, Condition.of, List.map_append, List.map_append, List.map_map, List.map_map]
  rfl

theorem conditions_map (q q' : NeighborQuery Float)
    (entries : (q.filter.getD []).length = (q'.filter.getD []).length)
    (cutoff : q.maxDistance.isSome = q'.maxDistance.isSome) :
    (conditions q).map (List.map Piece.text?) = (conditions q').map (List.map Piece.text?) := by
  have members := Statement.map_made
    (fun e : String × String => Condition.pieces q.vector (.member e.1 e.2))
    (fun _ _ => rfl) entries
  simp only [conditions_split, List.map_append, members]
  cases hq : q.maxDistance <;> cases hq' : q'.maxDistance <;> simp [hq, hq'] at cutoff <;> rfl

theorem plain_conditions (q : NeighborQuery Float) :
    ∀ p ∈ conditions q, p.all Piece.plain := by
  rw [conditions_eq]
  refine List.forall_mem_map.mpr fun c _ => ?_
  cases c <;> exact rfl

theorem numbered_selectNearest (q : NeighborQuery Float) : (selectNearest q).Numbered := by
  have start : (Piece.text ("select \"file_chunks\".\"id\", \"file_chunks\".\"file_id\", "
      ++ "\"files\".\"filename\", \"file_chunks\".\"chunk_index\", \"file_chunks\".\"content\", "
      ++ "\"file_chunks\".\"metadata\", ")).plain := by decide +kernel
  have joins : (Piece.text (" from \"file_chunks\" left join \"files\" on \"files\".\"id\" = "
      ++ "\"file_chunks\".\"file_id\" where (")).plain := by decide +kernel
  apply Statement.numbered_of
  simp only [List.all_append, List.all_cons, start, joins,
    Statement.plain_joined " and " rfl (plain_conditions q)]
  rfl

/-! ## Texts -/

def place (k : Nat) : String := "$" ++ k.repr

def distanceText (k : Nat) : String := "\"file_chunks\".\"embedding\" <=> " ++ place k

/-- The conditions of a lookup with so many entries in its filter, and maybe with a greatest
distance. Placeholder 1 is the vector ahead of the conditions. -/
def conditionTexts (entries : Nat) (cutoff : Bool) : List String :=
  ["\"file_chunks\".\"vector_store_id\" = " ++ place 2,
    "\"file_chunks\".\"embedding\" is not null"]
  ++ (List.range entries).map (fun i =>
    "\"file_chunks\".\"metadata\" ->> " ++ place (2 * i + 3) ++ " = " ++ place (2 * i + 4))
  ++ if cutoff then
    [distanceText (2 * entries + 3) ++ " <= " ++ place (2 * entries + 4)]
  else []

/-- The text of a lookup ahead of its conditions. -/
def lookupStart : String :=
  "select \"file_chunks\".\"id\", \"file_chunks\".\"file_id\", "
    ++ "\"files\".\"filename\", \"file_chunks\".\"chunk_index\", \"file_chunks\".\"content\", "
    ++ "\"file_chunks\".\"metadata\", " ++ distanceText 1
    ++ " from \"file_chunks\" left join \"files\" on \"files\".\"id\" = "
    ++ "\"file_chunks\".\"file_id\" where ("

/-- The values of the entries of a filter: each name ahead of its text. -/
def memberValues (entries : List (String × String)) : List Value :=
  entries.flatMap fun e => [.text e.1, .text e.2]

theorem length_memberValues (entries : List (String × String)) :
    (memberValues entries).length = 2 * entries.length := by
  induction entries with
  | nil => rfl
  | cons e entries ih =>
    have rest : (memberValues (e :: entries)).length = (memberValues entries).length + 2 := rfl
    rw [rest, ih, List.length_cons, Nat.mul_succ]

theorem memberValues_get {entries : List (String × String)} {i : Nat} {e : String × String}
    (h : entries[i]? = some e) :
    (memberValues entries)[2 * i]? = some (.text e.1) ∧
      (memberValues entries)[2 * i + 1]? = some (.text e.2) := by
  induction entries generalizing i with
  | nil => simp at h
  | cons e' entries ih =>
    cases i with
    | zero =>
      obtain rfl : e' = e := by simpa using h
      exact ⟨rfl, rfl⟩
    | succ i => exact ih (by simpa using h)

theorem valuesOf_members (vector : List Float) (entries : List (String × String)) :
    (entries.map fun e => Condition.pieces vector (.member e.1 e.2)).flatMap Statement.valuesOf =
      memberValues entries := by
  rw [List.flatMap_map]
  rfl

theorem textsOf_members (vector : List Float) (entries : List (String × String)) (n : Nat) :
    Statement.textsOf n (entries.map fun e => Condition.pieces vector (.member e.1 e.2)) =
      (List.range entries.length).map fun i =>
        "\"file_chunks\".\"metadata\" ->> " ++ place (n + 2 * i) ++ " = "
          ++ place (n + 2 * i + 1) := by
  induction entries generalizing n with
  | nil => rfl
  | cons e entries ih =>
    rw [List.map_cons, Statement.textsOf, List.length_cons, List.range_succ_eq_map, List.map_cons,
      List.map_map]
    have rest := ih (n + 2)
    have shift (i : Nat) : n + 2 + 2 * i = n + 2 * (i + 1) := by omega
    simp only [shift] at rest
    refine List.cons_eq_cons.mpr ⟨?_, rest⟩
    simp [Condition.pieces, Statement.textOf, place, String.append_assoc]

/-- The values of a greatest distance: the vector that it is compared for, and the distance. -/
def cutoffValues (vector : List Float) (cutoff : Option Float) : List Value :=
  cutoff.toList.flatMap fun d => [vectorParam vector, .number d]

theorem valuesOf_conditions (q : NeighborQuery Float) :
    (conditions q).flatMap Statement.valuesOf =
      .text q.storeId :: memberValues (q.filter.getD [])
        ++ cutoffValues q.vector q.maxDistance := by
  rw [conditions_split, List.flatMap_append, List.flatMap_append, valuesOf_members]
  cases q.maxDistance <;> rfl

theorem textsOf_scope (vector : List Float) (storeId : String) :
    Statement.textsOf 2 ([.inStore storeId, .embedded].map (Condition.pieces vector)) =
      ["\"file_chunks\".\"vector_store_id\" = " ++ place 2,
        "\"file_chunks\".\"embedding\" is not null"] := by
  simp [Condition.pieces, Statement.textsOf, Statement.textOf, place]

theorem textOf_distanceTo (vector : List Float) (n : Nat) :
    Statement.textOf n (distanceTo vector) = distanceText n := by
  unfold distanceTo distanceText place
  simp only [Statement.textOf, String.append_empty]

theorem valuesOf_distanceTo (vector : List Float) :
    Statement.valuesOf (distanceTo vector) = [vectorParam vector] := rfl

theorem textsOf_cutoff (vector : List Float) (cutoff : Option Float) (n : Nat) :
    Statement.textsOf n (cutoff.toList.map fun d => Condition.pieces vector (.within d)) =
      if cutoff.isSome then [distanceText n ++ " <= " ++ place (n + 1)] else [] := by
  cases cutoff with
  | none => rfl
  | some d =>
    have within : Statement.textOf n (distanceTo vector ++ [.text " <= ", .bound (.number d)]) =
        distanceText n ++ " <= " ++ place (n + 1) := by
      rw [Statement.textOf_append, textOf_distanceTo, valuesOf_distanceTo, String.append_assoc]
      simp only [Statement.textOf, place, List.length_singleton, String.append_empty]
    exact congrArg (fun text => [text]) within

theorem textsOf_conditions (q : NeighborQuery Float) :
    Statement.textsOf 2 (conditions q) =
      conditionTexts (q.filter.getD []).length q.maxDistance.isSome := by
  have scope : 2 + (([.inStore q.storeId, .embedded].map (Condition.pieces q.vector)).flatMap
      Statement.valuesOf).length = 3 := rfl
  rw [conditions_split, List.append_assoc, Statement.textsOf_append, Statement.textsOf_append,
    scope, valuesOf_members, length_memberValues, textsOf_scope, textsOf_members, textsOf_cutoff,
    conditionTexts, List.append_assoc]
  simp only [Nat.add_comm 3, Nat.add_assoc]

theorem selectNearest_params (q : NeighborQuery Float) :
    (selectNearest q).params =
      [vectorParam q.vector, .text q.storeId] ++ memberValues (q.filter.getD [])
        ++ cutoffValues q.vector q.maxDistance ++ [vectorParam q.vector, .ofNat q.limit] := by
  have conditions :=
    (Statement.valuesOf_joined " and " (conditions q)).trans (valuesOf_conditions q)
  unfold selectNearest Statement.of
  simp [conditions, distanceTo]

theorem selectNearest_text (q : NeighborQuery Float) :
    (selectNearest q).sql = lookupStart
      ++ " and ".intercalate (conditionTexts (q.filter.getD []).length q.maxDistance.isSome)
      ++ ") order by " ++ distanceText ((selectNearest q).params.length - 1) ++ " limit "
      ++ place (selectNearest q).params.length := by
  have conditions :=
    (Statement.valuesOf_joined " and " (conditions q)).trans (valuesOf_conditions q)
  have length := congrArg List.length (selectNearest_params q)
  simp only [List.length_append, List.length_cons, List.length_nil] at length
  -- The vector comes once more behind the values of the conditions, then the limit.
  have vector : (selectNearest q).params.length - 1 =
      1 + (1 + ((memberValues (q.filter.getD [])).length + 1
        + (cutoffValues q.vector q.maxDistance).length)) := by
    rw [length]
    omega
  have limit : (selectNearest q).params.length =
      1 + (1 + ((memberValues (q.filter.getD [])).length + 1
        + (cutoffValues q.vector q.maxDistance).length) + 1) := by
    rw [length]
    omega
  rw [vector, limit]
  unfold selectNearest lookupStart place
  simp only [Statement.of_eq, Statement.textOf_append, Statement.textOf_joined, textOf_distanceTo,
    Statement.valuesOf_append, valuesOf_distanceTo, conditions, Statement.textOf,
    Statement.valuesOf_text, Statement.valuesOf_nil, List.length_append, List.length_cons,
    List.length_nil, Nat.zero_add, Nat.add_zero, Nat.reduceAdd, textsOf_conditions,
    String.append_assoc, String.append_empty, -String.reduceAppend]

theorem value?_member (q : NeighborQuery Float) {i : Nat} {e : String × String}
    (h : (q.filter.getD [])[i]? = some e) :
    (selectNearest q).value? (2 * i + 3) = some (.text e.1) ∧
      (selectNearest q).value? (2 * i + 4) = some (.text e.2) := by
  obtain ⟨name, text⟩ := memberValues_get h
  have params : (selectNearest q).params = [vectorParam q.vector, .text q.storeId]
      ++ (memberValues (q.filter.getD []) ++ (cutoffValues q.vector q.maxDistance
        ++ [vectorParam q.vector, .ofNat q.limit])) := by
    rw [selectNearest_params, List.append_assoc, List.append_assoc]
  unfold Statement.value?
  rw [params]
  exact ⟨(List.getElem?_append_left (List.getElem?_eq_some_iff.mp name).1).trans name,
    (List.getElem?_append_left (List.getElem?_eq_some_iff.mp text).1).trans text⟩

theorem value?_cutoff (q : NeighborQuery Float) {d : Float} (h : q.maxDistance = some d) :
    (selectNearest q).value? (2 * (q.filter.getD []).length + 3) = some (vectorParam q.vector) ∧
      (selectNearest q).value? (2 * (q.filter.getD []).length + 4) = some (.number d) := by
  have params : (selectNearest q).params = [vectorParam q.vector, .text q.storeId]
      ++ (memberValues (q.filter.getD []) ++ [vectorParam q.vector, .number d,
        vectorParam q.vector, .ofNat q.limit]) := by
    rw [selectNearest_params, h, List.append_assoc, List.append_assoc]
    rfl
  have behind (k : Nat) : (memberValues (q.filter.getD []) ++ [vectorParam q.vector, .number d,
      vectorParam q.vector, .ofNat q.limit])[2 * (q.filter.getD []).length + k]? =
      [vectorParam q.vector, .number d, vectorParam q.vector, .ofNat q.limit][k]? := by
    rw [← length_memberValues, List.getElem?_append_right (Nat.le_add_right _ k),
      Nat.add_sub_cancel_left]
  unfold Statement.value?
  rw [params]
  exact ⟨behind 0, behind 1⟩

theorem value?_end (q : NeighborQuery Float) :
    (selectNearest q).value? ((selectNearest q).params.length - 1) = some (vectorParam q.vector) ∧
      (selectNearest q).value? (selectNearest q).params.length = some (.ofNat q.limit) := by
  unfold Statement.value?
  generalize hp : [vectorParam q.vector, .text q.storeId] ++ memberValues (q.filter.getD [])
    ++ cutoffValues q.vector q.maxDistance = before
  have params : (selectNearest q).params = before ++ [vectorParam q.vector, .ofNat q.limit] := by
    rw [selectNearest_params, hp]
  rw [params]
  constructor <;> simp

end Retrieval.Database
