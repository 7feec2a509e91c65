import Retrieval.Value.Display

/-!
# What a record answers to a name

`lookup_ofMembers`: of the members that were written under one name the last one counts, wherever
the record puts it. Names that are written like array positions are set apart, and so left out here.
What all records have under a name is hidden by a member of that name (`memberOf_of_text`), and all
but one of these have no text (`filterText?_memberOf`).
-/

namespace Retrieval.Value

variable {name : String} {members : List (String × Value)}

theorem find?_cons (name : String) (m : String × Value) (rest : List (String × Value)) :
    find? name (m :: rest) = if m.1 == name then some m.2 else find? name rest := by
  rw [find?, List.find?_cons]
  cases m.1 == name <;> rfl

theorem lookup_cons (name : String) (m : String × Value) (rest : List (String × Value)) :
    lookup name (m :: rest) = if m.1 == name then m.2 else lookup name rest := by
  rw [lookup, find?_cons]
  cases m.1 == name <;> rfl

/-- Of a list in which no name is given twice, every member is found, and none that is absent is
missed where the absent ones are left out. -/
theorem lookup_filter_isPresent (hnodup : (members.map (·.1)).Nodup) {m : String × Value}
    (hm : m ∈ members) : lookup m.1 (members.filter (·.2.isPresent)) = m.2 := by
  induction members with
  | nil => cases hm
  | cons k rest ih =>
    rw [List.map_cons, List.nodup_cons] at hnodup
    have hfilter : (k :: rest).filter (·.2.isPresent) =
        if k.2.isPresent then k :: rest.filter (·.2.isPresent)
        else rest.filter (·.2.isPresent) := List.filter_cons ..
    rw [hfilter]
    rcases List.mem_cons.mp hm with rfl | hrest
    · cases hpresent : m.2.isPresent with
      | true => rw [if_pos rfl, lookup_cons, if_pos (beq_self_eq_true _)]
      | false =>
        have hnone : (rest.filter (·.2.isPresent)).find? (·.1 == m.1) = none := by
          rw [List.find?_eq_none]
          intro n hn heq
          refine hnodup.1 (List.mem_map.mpr ⟨n, (List.mem_filter.mp hn).1, ?_⟩)
          simpa using heq
        rw [if_neg Bool.false_ne_true, lookup, find?, hnone]
        cases hvalue : m.2 with
        | absent => rfl
        | _ => simp [hvalue, isPresent] at hpresent
    · have hne : (k.1 == m.1) = false := by
        rw [beq_eq_false_iff_ne]
        exact fun heq => hnodup.1 (List.mem_map.mpr ⟨m, hrest, heq.symm⟩)
      cases k.2.isPresent with
      | true => rw [if_pos rfl, lookup_cons, hne, if_neg Bool.false_ne_true, ih hnodup.2 hrest]
      | false => rw [if_neg Bool.false_ne_true, ih hnodup.2 hrest]

theorem lookup_setMember (name n : String) (v : Value) (members : List (String × Value)) :
    lookup name (setMember n v members) = if n == name then v else lookup name members := by
  induction members with
  | nil => rw [setMember, lookup_cons]
  | cons m rest ih =>
    obtain ⟨k, w⟩ := m
    rw [setMember]
    split
    · next hk =>
      rw [lookup_cons, lookup_cons, eq_of_beq hk]
      cases n == name <;> rfl
    · next hk =>
      rw [lookup_cons, lookup_cons, ih]
      by_cases hn : (k == name) = true
      · have hne : (n == name) = false := by
          rw [Bool.eq_false_iff]
          intro heq
          rw [eq_of_beq heq, ← eq_of_beq hn] at hk
          exact hk (beq_self_eq_true k)
        simp [hn, hne]
      · simp [hn]

/-- Setting members one after the other leaves the last one under each name. -/
theorem lookup_foldl_setMember (name : String) (members seen : List (String × Value)) :
    lookup name (members.foldl (fun acc m => setMember m.1 m.2 acc) seen) =
      lookup name (members.reverse ++ seen) := by
  induction members generalizing seen with
  | nil => rfl
  | cons m rest ih =>
    rw [List.foldl_cons, ih, List.reverse_cons, List.append_assoc, List.singleton_append]
    simp only [lookup, find?, List.find?_append]
    cases rest.reverse.find? (·.1 == name) with
    | some found => rfl
    | none => exact (lookup_setMember name m.1 m.2 seen).trans (lookup_cons name m seen).symm

/-! ## What all records have -/

/-- A member that has a text is what is found under its name. -/
theorem memberOf_of_text (h : (lookup name members).filterText? ≠ none) :
    memberOf members name = .value (lookup name members) := by
  unfold memberOf lookup at *
  cases hfound : find? name members with
  | none =>
    rw [hfound] at h
    exact absurd rfl h
  | some v => rfl

/-- What is found has the text of the member, or none where there is no member. -/
theorem filterText?_memberOf (members : List (String × Value)) (hname : name ≠ prototypeName) :
    (memberOf members name).filterText? = (lookup name members).filterText? := by
  unfold memberOf lookup
  cases find? name members with
  | none =>
    rw [Option.elim_none, inherited, if_neg hname]
    split <;> rfl
  | some v => rfl

theorem filterText?_memberOf_prototypeName (h : find? prototypeName members = none) :
    (memberOf members prototypeName).filterText? = some "\x7b\x7d" := by
  rw [memberOf, h, Option.elim_none, inherited, if_pos rfl]
  decide +kernel

/-! ## Array positions -/

theorem mem_insertPosition {n : Nat} {m : String × Value} {l : List (Nat × String × Value)}
    {x : Nat × String × Value} (h : x ∈ insertPosition n m l) : x = (n, m) ∨ x ∈ l := by
  induction l with
  | nil => exact Or.inl (List.mem_singleton.mp h)
  | cons k rest ih =>
    rw [insertPosition] at h
    split at h
    · exact List.mem_cons.mp h
    · rcases List.mem_cons.mp h with rfl | h
      · exact Or.inr (List.mem_cons_self ..)
      · exact (ih h).imp id (List.mem_cons_of_mem _)

/-- Only names that are written like positions are put first. -/
theorem position?_of_placed {placed : List (Nat × String × Value)} {x : Nat × String × Value}
    {place : List (Nat × String × Value) → String × Value → List (Nat × String × Value)}
    (hplace : ∀ acc m, place acc m = (position? m.1).elim acc fun n => insertPosition n m acc)
    (h : x ∈ members.foldl place placed) (hplaced : ∀ y ∈ placed, (position? y.2.1).isSome) :
    (position? x.2.1).isSome := by
  induction members generalizing placed with
  | nil => exact hplaced x h
  | cons m rest ih =>
    refine ih h fun y hy => ?_
    rw [hplace] at hy
    cases hm : position? m.1 with
    | none =>
      rw [hm] at hy
      exact hplaced y hy
    | some n =>
      rw [hm] at hy
      rcases mem_insertPosition hy with rfl | hy
      · rw [hm]
        rfl
      · exact hplaced y hy

theorem lookup_positionsFirst (members : List (String × Value)) (h : position? name = none) :
    lookup name (positionsFirst members) = lookup name members := by
  rw [positionsFirst]
  generalize hplaced : members.foldl _ [] = placed
  have hfront : ((placed.map (·.2)).find? (·.1 == name)) = none := by
    rw [List.find?_eq_none]
    intro m hm heq
    obtain ⟨x, hx, rfl⟩ := List.mem_map.mp hm
    rw [← hplaced] at hx
    have hsome := position?_of_placed (fun acc m => by cases position? m.1 <;> rfl) hx (by simp)
    rw [eq_of_beq heq, h] at hsome
    cases hsome
  have hback : ∀ m : String × Value, (m.1 == name) = true → (position? m.1).isNone = true := by
    intro m heq
    rw [eq_of_beq heq, h]
    rfl
  rw [lookup, lookup, find?, find?, List.find?_append, hfront, Option.none_or, List.find?_filter]
  congr 3
  funext m
  cases heq : m.1 == name with
  | false => simp
  | true => simp [hback m heq]

/-- **Of all that was written under a name the last one counts.** -/
theorem lookup_ofMembers (h : position? name = none) :
    (ofMembers members).get name = lookup name members.reverse := by
  rw [ofMembers, get, lookup_positionsFirst _ h, lookup_foldl_setMember, List.append_nil]

end Retrieval.Value
