import Retrieval.Store.Statement

/-!
# The text of a statement

The text of a statement is fixed by the texts among its pieces and by where values stand between
them (`of_sql_congr`), and its placeholders count the values in order (`numbered_of`).
-/

namespace Retrieval

namespace Piece

/-- What a piece adds to the text by itself; a value adds nothing. -/
def text? : Piece → Option String
  | .text s => some s
  | .bound _ => none

/-- A piece whose text holds no dollar sign and cannot be read on behind a number. -/
def plain : Piece → Bool
  | .text s => !s.toList.contains '$' && !s.toList.head?.any Char.isDigit
  | .bound _ => true

@[simp] theorem plain_bound (v : Value) : (bound v).plain = true := rfl

end Piece

/-- The digits behind each dollar sign of a text. -/
def placeholders : List Char → List String
  | [] => []
  | c :: cs =>
    if c = '$' then .ofList (cs.takeWhile Char.isDigit) :: placeholders cs else placeholders cs

theorem placeholders_append {l : List Char} (h : '$' ∉ l) (rest : List Char) :
    placeholders (l ++ rest) = placeholders rest := by
  induction l with
  | nil => rfl
  | cons c l ih =>
    have hc : c ≠ '$' := fun e => h (e ▸ List.mem_cons_self)
    have hl : '$' ∉ l := fun m => h (List.mem_cons_of_mem c m)
    simp [placeholders, hc, ih hl]

namespace Statement

@[simp] theorem valuesOf_nil : valuesOf [] = [] := rfl

@[simp] theorem valuesOf_text (s : String) (p : List Piece) :
    valuesOf (.text s :: p) = valuesOf p := rfl

@[simp] theorem valuesOf_bound (v : Value) (p : List Piece) :
    valuesOf (.bound v :: p) = v :: valuesOf p := rfl

@[simp] theorem valuesOf_append (p q : List Piece) : valuesOf (p ++ q) = valuesOf p ++ valuesOf q :=
  List.filterMap_append

theorem textOf_append (n : Nat) (p q : List Piece) :
    textOf n (p ++ q) = textOf n p ++ textOf (n + (valuesOf p).length) q := by
  induction p generalizing n with
  | nil => simp [textOf]
  | cons a p ih =>
    cases a with
    | text s => simp [textOf, ih, String.append_assoc]
    | bound v =>
      have shift : n + ((valuesOf p).length + 1) = n + 1 + (valuesOf p).length := by omega
      simp [textOf, ih, shift, String.append_assoc]

theorem textOf_congr {p q : List Piece} (h : p.map Piece.text? = q.map Piece.text?) (n : Nat) :
    textOf n p = textOf n q := by
  induction p generalizing q n with
  | nil =>
    cases q with
    | nil => rfl
    | cons b q => simp at h
  | cons a p ih =>
    cases q with
    | nil => simp at h
    | cons b q =>
      obtain ⟨head, tail⟩ := List.cons.inj h
      cases a <;> cases b <;> simp only [Piece.text?, Option.some.injEq, reduceCtorEq] at head
      · simp [textOf, head, ih tail]
      · simp [textOf, ih tail]

theorem of_sql_congr {p q : List Piece} (h : p.map Piece.text? = q.map Piece.text?) :
    (of p).sql = (of q).sql := by
  rw [of_eq, of_eq]
  exact textOf_congr h 1

/-! ## Numbers -/

theorem textOf_head {p : List Piece} (h : p.all Piece.plain) (n : Nat) :
    (textOf n p).toList.head?.any Char.isDigit = false := by
  induction p with
  | nil => rfl
  | cons a p ih =>
    obtain ⟨ha, hp⟩ : a.plain ∧ p.all Piece.plain := by simpa using h
    cases a with
    | bound v => simp [textOf, String.toList_append]
    | text s =>
      have hs : s.toList.head?.any Char.isDigit = false := by
        simpa using ((Bool.and_eq_true _ _).mp ha).2
      cases hl : s.toList with
      | nil => simpa [textOf, hl] using ih hp
      | cons c cs =>
        rw [hl] at hs
        simpa [textOf, hl] using hs

theorem placeholders_repr (n : Nat) {rest : List Char} (h : rest.head?.any Char.isDigit = false) :
    placeholders ('$' :: (n.repr.toList ++ rest)) = n.repr :: placeholders rest := by
  have digits : ∀ c ∈ n.repr.toList, c.isDigit := fun c hc => by
    rw [Nat.toList_repr] at hc
    exact Nat.isDigit_of_mem_toDigits (by decide) (by decide) hc
  have noDollar : '$' ∉ n.repr.toList := fun m => absurd (digits _ m) (by decide)
  have stop : rest.takeWhile Char.isDigit = [] := by
    cases rest with
    | nil => rfl
    | cons c rest => exact List.takeWhile_cons_of_neg (by simpa using h)
  rw [placeholders, if_pos rfl, placeholders_append noDollar, List.takeWhile_append_of_pos digits,
    stop, List.append_nil, String.ofList_toList]

theorem placeholders_textOf {p : List Piece} (h : p.all Piece.plain) (n : Nat) :
    placeholders (textOf n p).toList = (List.range' n (valuesOf p).length).map Nat.repr := by
  induction p generalizing n with
  | nil => rfl
  | cons a p ih =>
    obtain ⟨ha, hp⟩ : a.plain ∧ p.all Piece.plain := by simpa using h
    cases a with
    | text s =>
      have hs : '$' ∉ s.toList := by simpa using ((Bool.and_eq_true _ _).mp ha).1
      rw [textOf, String.toList_append, placeholders_append hs, ih hp, valuesOf_text]
    | bound v =>
      have start : ("$" ++ n.repr ++ textOf (n + 1) p).toList
          = '$' :: (n.repr.toList ++ (textOf (n + 1) p).toList) := by simp
      rw [textOf, start, placeholders_repr n (textOf_head hp (n + 1)), ih hp]
      rw [valuesOf_bound, List.length_cons, List.range'_succ, List.map_cons]

/-- The placeholders are `$1`, `$2` and so on, as many as there are values. -/
def Numbered (s : Statement) : Prop :=
  placeholders s.sql.toList = (List.range' 1 s.params.length).map Nat.repr

theorem numbered_of {p : List Piece} (h : p.all Piece.plain) : (of p).Numbered := by
  rw [of_eq]
  exact placeholders_textOf h 1

/-- The value that placeholder `k` stands for. -/
def value? (s : Statement) (k : Nat) : Option Value := s.params[k - 1]?

/-! ## Lists of pieces with a text between them -/

theorem map_joined (separator : String) (parts : List (List Piece)) :
    (joined separator parts).map Piece.text? =
      [some separator].intercalate (parts.map (List.map Piece.text?)) := by
  fun_induction joined separator parts with
  | case1 => rfl
  | case2 p => simp
  | case3 p rest more ih =>
    cases rest with
    | nil => exact absurd rfl more
    | cons q rest => simp [ih, Piece.text?]

theorem joined_congr (separator : String) {parts parts' : List (List Piece)}
    (h : parts.map (List.map Piece.text?) = parts'.map (List.map Piece.text?)) :
    (joined separator parts).map Piece.text? = (joined separator parts').map Piece.text? := by
  rw [map_joined, map_joined, h]

/-- Parts that are made alike say no more than how many there are. -/
theorem map_made {α : Type} (make : α → List Piece)
    (h : ∀ a b, (make a).map Piece.text? = (make b).map Piece.text?) {l l' : List α}
    (hl : l.length = l'.length) :
    (l.map make).map (List.map Piece.text?) = (l'.map make).map (List.map Piece.text?) := by
  induction l generalizing l' with
  | nil =>
    cases l' with
    | nil => rfl
    | cons b l' => simp at hl
  | cons a l ih =>
    cases l' with
    | nil => simp at hl
    | cons b l' =>
      have rest := ih (Nat.succ.inj hl)
      simp only [List.map_cons, h a b, rest]

theorem plain_joined (separator : String) (hs : (Piece.text separator).plain)
    {parts : List (List Piece)} (h : ∀ p ∈ parts, p.all Piece.plain) :
    (joined separator parts).all Piece.plain := by
  fun_induction joined separator parts with
  | case1 => rfl
  | case2 p => exact h p List.mem_cons_self
  | case3 p rest more ih =>
    have hp := h p List.mem_cons_self
    have hrest := ih fun q hq => h q (List.mem_cons_of_mem p hq)
    simp [hp, hs, hrest]

/-- The text of each part, numbered on from the parts before it. -/
def textsOf (n : Nat) : List (List Piece) → List String
  | [] => []
  | p :: rest => textOf n p :: textsOf (n + (valuesOf p).length) rest

theorem textOf_joined (separator : String) (n : Nat) (parts : List (List Piece)) :
    textOf n (joined separator parts) = separator.intercalate (textsOf n parts) := by
  fun_induction joined separator parts generalizing n with
  | case1 => rfl
  | case2 p => simp [textsOf]
  | case3 p rest more ih =>
    cases rest with
    | nil => exact absurd rfl more
    | cons q rest =>
      have hrest := ih (n + (valuesOf p).length)
      simp only [textsOf] at hrest ⊢
      simp [textOf_append, textOf, hrest, String.append_assoc]

theorem valuesOf_joined (separator : String) (parts : List (List Piece)) :
    valuesOf (joined separator parts) = parts.flatMap valuesOf := by
  fun_induction joined separator parts with
  | case1 => rfl
  | case2 p => simp
  | case3 p rest more ih =>
    rw [valuesOf_append, valuesOf_text, ih, List.flatMap_cons]

theorem textsOf_append (n : Nat) (p q : List (List Piece)) :
    textsOf n (p ++ q) = textsOf n p ++ textsOf (n + (p.flatMap valuesOf).length) q := by
  induction p generalizing n with
  | nil => rfl
  | cons a p ih => simp [textsOf, ih, Nat.add_assoc]

end Statement
end Retrieval
