import Retrieval.Number.Reading
import Retrieval.Proofs.Number.Plain

/-!
# The decimal that a text writes

A text of digits, maybe with a point and an exponent, writes a decimal. The text of a decimal writes
that decimal, whichever notation it is in (`written?_text`).
-/

namespace Retrieval

namespace Number

/-- The decimal that an unsigned text writes. It begins with a digit, and an exponent shifts the
digits behind the point. -/
def written? (cs : List Char) : Option Decimal :=
  let (front, rest) := spanDigits cs
  let (fraction, rest) :=
    match rest with
    | '.' :: more => spanDigits more
    | _ => ([], rest)
  if front.isEmpty then none
  else (exponent? rest).map fun e =>
    ⟨(natOfDigits? 10 (front ++ fraction)).getD 0, e - fraction.length⟩

/-- The decimal of a text that may have a minus in front, and whether it has one. -/
def signed? (cs : List Char) : Option (Bool × Decimal) :=
  if cs.head? = some '-' then (written? cs.tail).map (true, ·) else (written? cs).map (false, ·)

variable {cs front fraction tail : List Char}

/-- Digits end where something else begins. -/
theorem spanDigits_append (h : ∀ c ∈ cs, c.isDigit = true)
    (htail : ∀ c, tail.head? = some c → digit? 10 c = none) :
    spanDigits (cs ++ tail) = (cs, tail) := by
  have hall : ∀ c ∈ cs, (digit? 10 c).isSome = true := fun c hc => by
    rw [digit?_of_isDigit (h c hc)]
    rfl
  have hstop : tail.takeWhile (fun c => (digit? 10 c).isSome) = [] ∧
      tail.dropWhile (fun c => (digit? 10 c).isSome) = tail := by
    cases tail with
    | nil => exact ⟨rfl, rfl⟩
    | cons c rest =>
      have hc : ¬(digit? 10 c).isSome = true := by simp [htail c rfl]
      exact ⟨List.takeWhile_cons_of_neg hc, List.dropWhile_cons_of_neg hc⟩
  rw [spanDigits, List.span_eq_takeWhile_dropWhile, List.takeWhile_append_of_pos hall,
    List.dropWhile_append_of_pos hall, hstop.1, hstop.2, List.append_nil]

/-- Digits with a point, and maybe an exponent behind them. -/
theorem written?_pointed (hfront : ∀ c ∈ front, c.isDigit = true)
    (hfraction : ∀ c ∈ fraction, c.isDigit = true) (hne : front ≠ [])
    (htail : tail = [] ∨ ∃ rest, tail = 'e' :: rest) :
    written? (Decimal.pointed front fraction ++ tail) = (exponent? tail).map fun e =>
      ⟨Nat.ofDigitChars 10 (front ++ fraction) 0, e - fraction.length⟩ := by
  have hstop : ∀ c, tail.head? = some c → digit? 10 c = none := by
    rcases htail with rfl | ⟨rest, rfl⟩
    · rintro c ⟨⟩
    · rintro c ⟨⟩
      rfl
  have hnumber : natOfDigits? 10 (front ++ fraction) =
      some (Nat.ofDigitChars 10 (front ++ fraction) 0) :=
    natOfDigits?_digits (by simp [hne]) (List.forall_mem_append.mpr ⟨hfront, hfraction⟩)
  rw [written?, Decimal.pointed]
  cases fraction with
  | nil =>
    rw [List.append_nil] at hnumber
    rw [List.isEmpty_nil, if_pos rfl, List.append_nil, spanDigits_append hfront hstop]
    rcases htail with rfl | ⟨rest, rfl⟩ <;> simp [hnumber, hne]
  | cons c cs =>
    have hpoint : spanDigits (front ++ '.' :: (c :: cs ++ tail)) =
        (front, '.' :: (c :: cs ++ tail)) :=
      spanDigits_append hfront (by rintro _ ⟨⟩; decide)
    have hrest : spanDigits (c :: cs ++ tail) = (c :: cs, tail) := spanDigits_append hfraction hstop
    rw [List.isEmpty_cons, if_neg Bool.false_ne_true, List.append_assoc, List.cons_append, hpoint]
    simp only [hrest, hnumber, Option.getD_some]
    exact if_neg (by simp [hne])

theorem exponent?_signed (power : Int) :
    exponent? ('e' :: (if power < 0 then '-' else '+') :: Nat.toDigits 10 power.natAbs) =
      some power := by
  have hdigits : natOfDigits? 10 (Nat.toDigits 10 power.natAbs) = some power.natAbs := by
    rw [natOfDigits?_digits Nat.toDigits_ne_nil (isDigit_toDigits _),
      Nat.ofDigitChars_ten_toDigits]
  split
  · next hneg =>
    have hpower : -(power.natAbs : Int) = power := by omega
    rw [exponent?, if_pos (by decide), hdigits]
    exact congrArg some hpower
  · next hpos =>
    have hpower : (power.natAbs : Int) = power := by omega
    rw [exponent?, if_pos (by decide), hdigits]
    exact congrArg some hpower

/-- A minus in front is the sign of the decimal behind it. -/
theorem signed?_of_written? {d : Decimal} (negative : Bool) (h : written? cs = some d) :
    signed? ((if negative then ['-'] else []) ++ cs) = some (negative, d) := by
  cases negative with
  | true => exact congrArg (Option.map (true, ·)) h
  | false =>
    have hhead : ¬ cs.head? = some '-' := by
      intro hminus
      obtain ⟨rest, rfl⟩ := List.head?_eq_some_iff.mp hminus
      cases h
    exact (if_neg hhead).trans (congrArg (Option.map (false, ·)) h)

end Number

namespace Decimal

open Number

variable {d : Decimal} {s : String}

/-- The decimal with its digits in full, without zeros of a scale behind them. -/
def leveled (d : Decimal) : Decimal := ⟨d.digits * 10 ^ d.scale.toNat, -((-d.scale).toNat : Int)⟩

theorem split_leveled {front fraction : List Char} :
    d.leveled.Split front fraction ↔ d.Split front fraction := by
  have hplaces : (-d.leveled.scale).toNat = (-d.scale).toNat := by
    show (-(-((-d.scale).toNat : Int))).toNat = _
    omega
  have hvalue : d.leveled.digits * 10 ^ d.leveled.scale.toNat = d.digits * 10 ^ d.scale.toNat := by
    have hzero : d.leveled.scale.toNat = 0 := by
      show (-((-d.scale).toNat : Int)).toNat = 0
      omega
    rw [hzero, Nat.pow_zero, Nat.mul_one]
    rfl
  constructor
  · intro h
    exact ⟨h.digits, h.nonempty, h.lead, h.places.trans hplaces, h.value.trans hvalue⟩
  · intro h
    exact ⟨h.digits, h.nonempty, h.lead, h.places.trans hplaces.symm, h.value.trans hvalue.symm⟩

theorem plain_leveled : d.leveled.Plain s ↔ d.Plain s := by
  unfold Plain
  simp only [split_leveled]

theorem value_leveled : d.leveled.value = d.value := by
  have hten : (10 : ℚ) ≠ 0 := by norm_num
  have hscale : (d.scale.toNat : Int) + -((-d.scale).toNat : Int) = d.scale := by omega
  calc d.leveled.value
      = d.digits * (10 ^ (d.scale.toNat : Int) * 10 ^ (-((-d.scale).toNat : Int))) := by
        rw [value, leveled, zpow_natCast, ← mul_assoc]
        push_cast
        rfl
    _ = d.value := by rw [← zpow_add₀ hten, hscale, value]

/-- A text in plain notation writes its decimal. -/
theorem written?_of_plain (h : d.Plain s) : written? s.toList = some d.leveled := by
  obtain ⟨front, fraction, hsplit, rfl⟩ := h
  obtain ⟨hfront, hfraction⟩ := List.forall_mem_append.mp hsplit.digits
  have hread := @written?_pointed front fraction [] hfront hfraction hsplit.nonempty (.inl rfl)
  rw [List.append_nil] at hread
  rw [String.toList_ofList, hread, hsplit.value, hsplit.places]
  simp [exponent?, leveled]

/-- The exponent of a text in the other notation. -/
def power (d : Decimal) : Int := (Nat.toDigits 10 d.digits).length + d.scale - 1

theorem toList_scientific : d.scientific.toList =
    pointed ((Nat.toDigits 10 d.digits).take 1) ((Nat.toDigits 10 d.digits).drop 1) ++
      'e' :: (if d.power < 0 then '-' else '+') :: Nat.toDigits 10 d.power.natAbs := by
  have hsign : (if d.power < 0 then "-" else "+").toList = [if d.power < 0 then '-' else '+'] := by
    split <;> rfl
  unfold scientific
  dsimp only
  rw [length_repr, Nat.toList_repr]
  change (_ ++ (if d.power < 0 then "-" else "+") ++ Nat.repr d.power.natAbs).toList = _
  rw [String.toList_append, String.toList_append, hsign, Nat.toList_repr, pointed]
  cases (Nat.toDigits 10 d.digits).drop 1 <;> simp

/-- So does a text with an exponent. -/
theorem written?_scientific : written? d.scientific.toList = some d := by
  have hdigits := isDigit_toDigits d.digits
  have hlength : 0 < (Nat.toDigits 10 d.digits).length := Nat.length_toDigits_pos
  have hscale : d.power - ((Nat.toDigits 10 d.digits).length - 1 : Nat) = d.scale := by
    unfold power
    omega
  rw [toList_scientific, written?_pointed (fun c hc => hdigits c (List.mem_of_mem_take hc))
    (fun c hc => hdigits c (List.mem_of_mem_drop hc)) (by simp [Nat.toDigits_ne_nil])
    (.inr ⟨_, rfl⟩), exponent?_signed, List.take_append_drop, Nat.ofDigitChars_ten_toDigits,
    Option.map_some, List.length_drop, hscale]

/-- **The text of a decimal writes that decimal.** -/
theorem written?_text (hd : 0 < d.digits) :
    ∃ d', written? d.text.toList = some d' ∧ (∀ s, d'.Plain s ↔ d.Plain s) ∧
      d'.value = d.value := by
  unfold text
  dsimp only
  split
  · exact ⟨_, written?_of_plain (plain_positional hd), fun _ => plain_leveled, value_leveled⟩
  · exact ⟨d, written?_scientific, fun _ => Iff.rfl, rfl⟩

end Decimal
end Retrieval
