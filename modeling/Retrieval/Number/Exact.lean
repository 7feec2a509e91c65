/-!
# What a double stands for

A double is not a number, an infinity, or a whole number of steps of a power of two. Everything a
check asks of a number (is it whole, where does it lie relative to a bound) is decided on that
exact value.
-/

namespace Retrieval

def twoTo (k : Nat) : Nat := Nat.pow 2 k

def tenTo (k : Nat) : Nat := Nat.pow 10 k

/-- The value of a double: `± mantissa · 2 ^ exponent` when it is finite. -/
inductive Exact where
  | nan
  | infinite (negative : Bool)
  | finite (negative : Bool) (mantissa : Nat) (exponent : Int)
deriving Repr, DecidableEq

namespace Exact

/-- The value of sixty-four bits: sign, eleven bits of exponent, fifty-two of fraction. -/
def ofBits (b : UInt64) : Exact :=
  let negative := b >>> 63 == 1
  let e := ((b >>> 52) &&& 0x7FF).toNat
  let f := (b &&& 0xFFFFFFFFFFFFF).toNat
  if e == 0x7FF then (if f == 0 then .infinite negative else .nan)
  else if e == 0 then .finite negative f (-1074)
  else .finite negative (twoTo 52 + f) ((e : Int) - 1075)

def of (x : Float) : Exact := ofBits x.toBits

def signed (negative : Bool) (n : Nat) : Int := if negative then -(n : Int) else n

def whole? : Exact → Option Int
  | .finite negative m e =>
    if 0 ≤ e then some (signed negative (m * twoTo e.toNat))
    else if m % twoTo (-e).toNat == 0 then some (signed negative (m / twoTo (-e).toNat))
    else none
  | _ => none

/-- Where the value lies relative to an integer; a value that is no number lies nowhere. -/
def compareTo (k : Int) : Exact → Option Ordering
  | .nan => none
  | .infinite negative => some (if negative then .lt else .gt)
  | .finite negative m e =>
    some (compare (signed negative (m * twoTo e.toNat)) (k * twoTo (-e).toNat))

end Exact

namespace Number

def nan : Float := 0.0 / 0.0

def infinity : Float := 1.0 / 0.0

/-- The integer that a double is, if it is one. -/
def whole? (x : Float) : Option Int := (Exact.of x).whole?

def natural? (x : Float) : Option Nat :=
  (whole? x).bind fun n => if 0 ≤ n then some n.toNat else none

def isNan (x : Float) : Bool := Exact.of x == .nan

def atLeast (x : Float) (k : Int) : Bool :=
  match (Exact.of x).compareTo k with
  | some .lt | none => false
  | _ => true

def atMost (x : Float) (k : Int) : Bool :=
  match (Exact.of x).compareTo k with
  | some .gt | none => false
  | _ => true

def above (x : Float) (k : Int) : Bool := (Exact.of x).compareTo k == some .gt

def below (x : Float) (k : Int) : Bool := (Exact.of x).compareTo k == some .lt

/-- The integer nearest to a finite double, the greater one of two that are equally near. The sign
of zero is that of the double; a double without a fraction stays as it is. -/
def round (x : Float) : Float :=
  match Exact.of x with
  | .finite negative m e =>
    if 0 ≤ e then x
    else
      let step := twoTo (-e).toNat
      if negative then -(Float.ofNat ((2 * m + step - 1) / (2 * step)))
      else Float.ofNat ((2 * m + step) / (2 * step))
  | _ => x

end Number
end Retrieval
