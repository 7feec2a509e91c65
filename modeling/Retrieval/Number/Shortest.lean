import Retrieval.Number.Exact

/-!
# The fewest digits that identify a double

Among the decimals that read back as a given double, the ones with the fewest digits are found by
trying the double's two neighbours on the decimal grids of one, two, … seventeen digits, in exact
arithmetic. Of two hits on a grid the nearer one is taken, and the even one when both are equally
near.
-/

namespace Retrieval

structure Decimal where
  digits : Nat
  scale : Int
deriving Repr, DecidableEq

/-- A positive double `mantissa · 2 ^ exponent` among its neighbours. -/
structure Neighbourhood where
  mantissa : Nat
  exponent : Int
  /-- the gap to the neighbour below is half the gap to the one above -/
  narrowBelow : Bool

namespace Neighbourhood

/-- The place of a double with that mantissa and exponent. -/
def of (mantissa : Nat) (exponent : Int) : Neighbourhood :=
  ⟨mantissa, exponent, mantissa == twoTo 52 && exponent > -1074⟩

def compareScaled (a : Nat) (i : Int) (b : Nat) (j : Int) : Ordering :=
  compare (a * tenTo i.toNat * twoTo (-j).toNat) (b * twoTo j.toNat * tenTo (-i).toNat)

/-- The decimal reads back as this double: it lies between the two midpoints to the neighbours,
ends included when the mantissa is even. -/
def readsBack (x : Neighbourhood) (d : Decimal) : Bool :=
  let lower := compareScaled d.digits d.scale
    (if x.narrowBelow then 4 * x.mantissa - 1 else 4 * x.mantissa - 2) (x.exponent - 2)
  let upper := compareScaled d.digits d.scale (4 * x.mantissa + 2) (x.exponent - 2)
  let ends := x.mantissa % 2 == 0
  (lower == .gt || (ends && lower == .eq)) && (upper == .lt || (ends && upper == .eq))

def steps (x : Neighbourhood) (scale : Int) : Nat :=
  x.mantissa * twoTo x.exponent.toNat * tenTo (-scale).toNat
    / (twoTo (-x.exponent).toNat * tenTo scale.toNat)

def digitCount (n : Nat) : Nat :=
  let e := n.log2 * 30103 / 100000
  if n < tenTo e then e else if n < tenTo (e + 1) then e + 1 else e + 2

/-- The least power of ten above the double. -/
def magnitude (x : Neighbourhood) : Int := (digitCount (x.steps (-350)) : Int) - 350

/-- The decimal on the grid `10 ^ scale` that reads back as the double, if there is one. -/
def onGrid? (x : Neighbourhood) (scale : Int) : Option Decimal :=
  let lower : Decimal := ⟨x.steps scale, scale⟩
  let upper : Decimal := ⟨lower.digits + 1, scale⟩
  match x.readsBack lower, x.readsBack upper with
  | true, false => some lower
  | false, true => some upper
  | false, false => none
  | true, true =>
    match compareScaled (lower.digits + upper.digits) scale (2 * x.mantissa) x.exponent with
    | .gt => some lower
    | .lt => some upper
    | .eq => some (if lower.digits % 2 == 0 then lower else upper)

/-- The first hit on the grids of `n`, `n + 1`, … digits, `count` of them. -/
def search (x : Neighbourhood) (top : Int) (n : Nat) : Nat → Option Decimal
  | 0 => none
  | count + 1 => (x.onGrid? (top - n)).orElse fun _ => search x top (n + 1) count

/-- The decimal without the zeros at its end, at most `count` of them. -/
def withoutZeros (d : Decimal) : Nat → Decimal
  | 0 => d
  | count + 1 =>
    if d.digits % 10 == 0 && d.digits != 0 then withoutZeros ⟨d.digits / 10, d.scale + 1⟩ count
    else d

/-- The decimal with the fewest digits that reads back as the double; the double's exact value
when seventeen digits are not enough. -/
def shortest (x : Neighbourhood) : Decimal :=
  let found := (x.search x.magnitude 1 17).getD
    (if 0 ≤ x.exponent then ⟨x.mantissa * twoTo x.exponent.toNat, 0⟩
     else ⟨x.mantissa * Nat.pow 5 (-x.exponent).toNat, x.exponent⟩)
  withoutZeros found (digitCount found.digits)

end Neighbourhood
end Retrieval
