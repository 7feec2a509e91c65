import Retrieval.Number.Exact
import Retrieval.Text.Blank

/-!
# Text read as a number

A number may be written in decimal with a sign, a point and an exponent, as the word `Infinity`, or
as a whole number in base two, eight or sixteen without a sign. Blanks around it do not count, and
blank text is zero. All other text is no number.
-/

namespace Retrieval.Number

def digit? (base : Nat) (c : Char) : Option Nat :=
  let n := c.toNat
  let value :=
    if 48 ≤ n && n ≤ 57 then n - 48
    else if 97 ≤ n && n ≤ 122 then n - 87
    else if 65 ≤ n && n ≤ 90 then n - 55
    else base
  if value < base then some value else none

/-- The natural number that the digits write, if there is at least one and nothing else. -/
def natOfDigits? (base : Nat) (cs : List Char) : Option Nat :=
  if cs.isEmpty then none
  else cs.foldl (fun n c => n.bind fun n => (digit? base c).map (base * n + ·)) (some 0)

def spanDigits (cs : List Char) : List Char × List Char := cs.span (digit? 10 · |>.isSome)

/-- The number of digits of a written number without its leading zeros. -/
def significant (digits : List Char) : Nat := (digits.dropWhile (· == '0')).length

/-- The double nearest to `digits · 10 ^ scale`. Beyond the range of doubles it is infinite or
zero. -/
def ofDecimal (digits : List Char) (scale : Int) : Float :=
  let n := (natOfDigits? 10 digits).getD 0
  let size : Int := significant digits + scale
  if n == 0 || size < -400 then 0
  else if 400 < size then infinity
  else Float.ofScientific n (scale < 0) scale.natAbs

/-- The exponent that a text writes: nothing at all, or a mark with a signed number. -/
def exponent? : List Char → Option Int
  | [] => some 0
  | mark :: rest =>
    if mark == 'e' || mark == 'E' then
      match rest with
      | '-' :: ds => (natOfDigits? 10 ds).map fun n => -(n : Int)
      | '+' :: ds => (natOfDigits? 10 ds).map Int.ofNat
      | ds => (natOfDigits? 10 ds).map Int.ofNat
    else none

def unsigned? (cs : List Char) : Option Float :=
  if cs == "Infinity".toList then some infinity
  else
    let (front, rest) := spanDigits cs
    let (fraction, rest) :=
      match rest with
      | '.' :: more => spanDigits more
      | _ => ([], rest)
    if front.isEmpty && fraction.isEmpty then none
    else (exponent? rest).map fun e => ofDecimal (front ++ fraction) (e - fraction.length)

def ofNat (n : Nat) : Float := ofDecimal (Nat.repr n).toList 0

def ofText (s : String) : Float :=
  let based (base : Nat) (cs : List Char) : Float :=
    ((natOfDigits? base cs).map ofNat).getD nan
  match trimBlank s.toList with
  | [] => 0
  | '0' :: 'x' :: cs | '0' :: 'X' :: cs => based 16 cs
  | '0' :: 'b' :: cs | '0' :: 'B' :: cs => based 2 cs
  | '0' :: 'o' :: cs | '0' :: 'O' :: cs => based 8 cs
  | '-' :: cs => ((unsigned? cs).map Float.neg).getD nan
  | '+' :: cs => (unsigned? cs).getD nan
  | cs => (unsigned? cs).getD nan

end Retrieval.Number
