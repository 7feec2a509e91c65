import Mathlib.Data.List.Induction
import Retrieval.Proofs.Text.Points
import Retrieval.Tokenizer.Basic

/-!
# Longest words

The greedy tokenizer takes the longest word of its vocabulary that stands at the front
(`longestMatch_longestAt`). Where no word stands across a place, what is in front of it and what is
behind are tokenized as if they were alone (`words_append`), and the counts add up
(`count_greedy_slice`).
-/

namespace Retrieval

namespace Text

theorem size_ofCodePoints_pos {cs : List Nat} (h : cs ≠ []) : 0 < (ofCodePoints cs).size := by
  cases cs with
  | nil => exact absurd rfl h
  | cons c cs =>
    have hunits : 0 < (unitsOf c).length := by
      unfold unitsOf
      split <;> simp
    rw [ofCodePoints_cons, Array.size_append, List.size_toArray]
    omega

end Text

namespace Tokenizer

variable {vocabulary : List (List Nat)} {c : Nat} {cs rest xs ys v word : List Nat}

/-! ## The longest word -/

/-- The word stands at the front of the code points, no word of the vocabulary that does so is
longer, and it is one of them or a single code point. -/
structure LongestAt (vocabulary : List (List Nat)) (cs word : List Nat) : Prop where
  pos : 0 < word.length
  front : word <+: cs
  longest : ∀ v ∈ vocabulary, v <+: cs → v.length ≤ word.length
  known : word.length = 1 ∨ word ∈ vocabulary

theorem longestMatch_longestAt (vocabulary : List (List Nat)) (c : Nat) (rest : List Nat) :
    LongestAt vocabulary (c :: rest) (longestMatch vocabulary c rest) := by
  -- the fold goes through the words from the left, so the last one is looked at last
  induction vocabulary using List.reverseRecOn with
  | nil =>
    exact ⟨Nat.one_pos, ⟨rest, rfl⟩, (fun v hv => by cases hv), Or.inl rfl⟩
  | append_singleton vocabulary v ih =>
    obtain ⟨word, hword⟩ : ∃ word, word = longestMatch vocabulary c rest := ⟨_, rfl⟩
    have hstep : longestMatch (vocabulary ++ [v]) c rest =
        if word.length < v.length && v.isPrefixOf (c :: rest) then v else word := by
      rw [hword, longestMatch, List.foldl_append]
      rfl
    rw [← hword] at ih
    rw [hstep]
    split
    · next hv =>
      rw [Bool.and_eq_true, decide_eq_true_eq, List.isPrefixOf_iff_prefix] at hv
      obtain ⟨hlong, hfront⟩ := hv
      refine ⟨Nat.zero_lt_of_lt hlong, hfront, fun u hu hucs => ?_,
        Or.inr (List.mem_append_right _ (List.mem_singleton_self v))⟩
      rcases List.mem_append.mp hu with hu | hu
      · exact Nat.le_trans (ih.longest u hu hucs) (Nat.le_of_lt hlong)
      · rw [List.mem_singleton.mp hu]
    · next hv =>
      rw [Bool.and_eq_true, decide_eq_true_eq, List.isPrefixOf_iff_prefix] at hv
      refine ⟨ih.pos, ih.front, fun u hu hucs => ?_, ih.known.imp_right (List.mem_append_left _)⟩
      rcases List.mem_append.mp hu with hu | hu
      · exact ih.longest u hu hucs
      · obtain rfl := List.mem_singleton.mp hu
        exact Nat.le_of_not_lt fun hlong => hv ⟨hlong, hucs⟩

/-- There is one longest word at the front. -/
theorem LongestAt.unique (h : LongestAt vocabulary cs word) (h' : LongestAt vocabulary cs v) :
    word = v := by
  have hle : ∀ {u w : List Nat}, LongestAt vocabulary cs u → LongestAt vocabulary cs w →
      u.length ≤ w.length := by
    intro u w hu hw
    rcases hu.known with hone | hmem
    · have := hw.pos
      omega
    · exact hw.longest u hmem hu.front
  exact (List.prefix_of_prefix_length_le h.front h'.front (hle h h')).eq_of_length
    (Nat.le_antisymm (hle h h') (hle h' h))

/-! ## Places that no word stands across -/

/-- The word is made of an end of `xs` and a beginning of `ys`, and of something of both. -/
def Across (v xs ys : List Nat) : Prop :=
  ∃ v₁ v₂, v = v₁ ++ v₂ ∧ v₁ ≠ [] ∧ v₂ ≠ [] ∧ v₁ <:+ xs ∧ v₂ <+: ys

/-- A word at the front that does not reach across the end of `xs` is at the front of `xs`. -/
theorem front_of_append (hv : v <+: xs ++ ys) (hxs : xs ≠ []) (h : ¬ Across v xs ys) : v <+: xs := by
  rcases List.prefix_or_prefix_of_prefix hv (List.prefix_append xs ys) with hle | ⟨v₂, rfl⟩
  · exact hle
  · by_cases hne : v₂ = []
    · exact ⟨[], by rw [hne, List.append_nil, List.append_nil]⟩
    · exact absurd ⟨xs, v₂, rfl, hxs, hne, List.suffix_refl xs,
        (List.prefix_append_right_inj xs).mp hv⟩ h

theorem LongestAt.of_append (h : LongestAt vocabulary (xs ++ ys) word) (hxs : xs ≠ [])
    (hacross : ∀ v ∈ vocabulary, ¬ Across v xs ys) : LongestAt vocabulary xs word := by
  refine ⟨h.pos, ?_, fun v hv hvxs => h.longest v hv (hvxs.trans (List.prefix_append xs ys)),
    h.known⟩
  rcases h.known with hone | hmem
  · refine List.prefix_of_prefix_length_le h.front (List.prefix_append xs ys) ?_
    rw [hone]
    exact List.length_pos_iff.mpr hxs
  · exact front_of_append h.front hxs (hacross word hmem)

/-- **Both sides of a place that no word stands across are tokenized alone.** -/
theorem words_append (h : ∀ v ∈ vocabulary, ¬ Across v xs ys) :
    words vocabulary (xs ++ ys) = words vocabulary xs ++ words vocabulary ys := by
  fun_induction words vocabulary xs with
  | case1 => rfl
  | case2 c rest word ih =>
    have hword : LongestAt vocabulary (c :: rest) word := longestMatch_longestAt vocabulary c rest
    have hsame : longestMatch vocabulary c (rest ++ ys) = word :=
      ((longestMatch_longestAt vocabulary c (rest ++ ys)).of_append (List.cons_ne_nil c rest)
        h).unique hword
    have hlen := hword.front.length_le
    rw [List.length_cons] at hlen
    rw [List.cons_append, words, hsame, List.drop_append_of_le_length (by omega), ih, List.cons_append]
    intro v hv hacross
    obtain ⟨v₁, v₂, heq, hne₁, hne₂, hback, hfront⟩ := hacross
    exact h v hv ⟨v₁, v₂, heq, hne₁, hne₂,
      hback.trans ((List.drop_suffix _ rest).trans (List.suffix_cons c rest)), hfront⟩

/-! ## Counts -/

section Greedy

variable {vocabulary : List Text} {src t : Text} {a b m : Nat}

theorem count_greedy (vocabulary : List Text) (t : Text) :
    (greedy vocabulary).count t =
      (words (vocabulary.map Text.codePoints) t.codePoints).length := by
  rw [count]
  split
  · next hempty =>
    rw [show t = #[] by simpa using hempty]
    simp [Text.codePoints, Text.codePointsOnto, words]
  · rfl

/-- A single code point is one token. -/
theorem count_greedy_point (vocabulary : List Text) (h : t.codePoints.length = 1) :
    (greedy vocabulary).count t = 1 := by
  obtain ⟨c, hc⟩ := List.length_eq_one_iff.mp h
  rw [count_greedy, hc, words, List.drop_nil, words]
  rfl

/-- A word that stands across a place in a slice lies in the source around that place. -/
theorem Across.slice {v : Text} (h : Across v.codePoints (src.slice a m).codePoints
    (src.slice m b).codePoints) (ha : a ≤ m) (hm : m ≤ src.size) (hb : m ≤ b) :
    ∃ x y, a ≤ x ∧ x < m ∧ m < y ∧ y ≤ b ∧ src.slice x y = v := by
  obtain ⟨v₁, v₂, heq, hne₁, hne₂, ⟨front, hback⟩, ⟨back, hfront⟩⟩ := h
  have hv : v = Text.ofCodePoints v₁ ++ Text.ofCodePoints v₂ := by
    rw [← Text.ofCodePoints_append, ← heq, Text.ofCodePoints_codePoints]
  have hleft : src.slice a m = Text.ofCodePoints front ++ Text.ofCodePoints v₁ := by
    rw [← Text.ofCodePoints_append, hback, Text.ofCodePoints_codePoints]
  have hright : src.slice m b = Text.ofCodePoints v₂ ++ Text.ofCodePoints back := by
    rw [← Text.ofCodePoints_append, hfront, Text.ofCodePoints_codePoints]
  have hpos₁ := Text.size_ofCodePoints_pos hne₁
  have hpos₂ := Text.size_ofCodePoints_pos hne₂
  have hsize₁ := congrArg Array.size hleft
  have hsize₂ := congrArg Array.size hright
  rw [Array.size_append, Text.size_slice hm] at hsize₁
  rw [Array.size_append, Text.slice, Array.size_extract] at hsize₂
  refine ⟨m - (Text.ofCodePoints v₁).size, m + (Text.ofCodePoints v₂).size, by omega, by omega,
    by omega, by omega, ?_⟩
  rw [← Text.slice_append (b := m) (Nat.sub_le ..) (Nat.le_add_right ..),
    Text.slice_back ha hm hleft, Text.slice_front hb hright, hv]

/-- **Counts add up** at a boundary that no word stands across. -/
theorem count_greedy_slice (vocabulary : List Text) (hm : src.Boundary m) (ha : a ≤ m)
    (hb : m ≤ b)
    (h : ∀ v ∈ vocabulary, ∀ x y, a ≤ x → x < m → m < y → y ≤ b → src.slice x y ≠ v) :
    (greedy vocabulary).count (src.slice a b) =
      (greedy vocabulary).count (src.slice a m) + (greedy vocabulary).count (src.slice m b) := by
  rw [count_greedy, count_greedy, count_greedy, ← hm.codePoints_slice ha hb, words_append,
    List.length_append]
  intro v hv hacross
  obtain ⟨v, hmem, rfl⟩ := List.mem_map.mp hv
  obtain ⟨x, y, hax, hxm, hmy, hyb, hslice⟩ := hacross.slice ha hm.le_size hb
  exact h v hmem x y hax hxm hmy hyb hslice

end Greedy

end Tokenizer
end Retrieval
