import Retrieval.Number.Shortest

/-!
# Numbers as text

A number is written with the fewest digits that identify it: in full from `1e-6` up to below
`1e21`, with a signed exponent outside. Zero has no sign.
-/

namespace Retrieval.Decimal

def zeros (n : Nat) : String := String.ofList (List.replicate n '0')

/-- The digits in full, with a point and zeros where the scale asks for them. -/
def positional (d : Decimal) : String :=
  let text := Nat.repr d.digits
  let point : Int := text.length + d.scale
  if 0 ≤ d.scale then text ++ zeros d.scale.toNat
  else if 0 < point then
    String.ofList (text.toList.take point.toNat) ++ "."
      ++ String.ofList (text.toList.drop point.toNat)
  else "0." ++ zeros (-point).toNat ++ text

def scientific (d : Decimal) : String :=
  let text := Nat.repr d.digits
  let power : Int := text.length + d.scale - 1
  let fraction := text.toList.drop 1
  String.ofList (text.toList.take 1)
    ++ (if fraction.isEmpty then "" else "." ++ String.ofList fraction)
    ++ "e" ++ (if power < 0 then "-" else "+") ++ Nat.repr power.natAbs

/-- Positional from `1e-6` up to below `1e21`, scientific outside. -/
def text (d : Decimal) : String :=
  let point : Int := (Nat.repr d.digits).length + d.scale
  if -6 < point && point ≤ 21 then d.positional else d.scientific

end Retrieval.Decimal

namespace Retrieval.Number

/-- The text of a number in messages and in filters. -/
def text (x : Float) : String :=
  match Exact.of x with
  | .nan => "NaN"
  | .infinite negative => if negative then "-Infinity" else "Infinity"
  | .finite negative m e =>
    if m == 0 then "0"
    else (if negative then "-" else "") ++ (Neighbourhood.of m e).shortest.text

def countText (n : Nat) : String := Nat.repr n

end Retrieval.Number
