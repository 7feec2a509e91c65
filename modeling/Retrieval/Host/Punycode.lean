import Retrieval.Number.Reading

/-!
# Labels in ASCII

A label with characters beyond ASCII is written in ASCII alone: first the characters of ASCII, then
behind a hyphen where the others go. Each of these is written as a distance from the one before, in
digits whose weight adapts to the distances seen so far.
-/

namespace Retrieval.Host.Punycode

def base : Nat := 36

/-- The greatest number that a distance may come to. -/
def maxNumber : Nat := 0x7FFFFFFF

def digit? (c : Char) : Option Nat :=
  if 'a' ≤ c && c ≤ 'z' then some (c.toNat - 97)
  else if 'A' ≤ c && c ≤ 'Z' then some (c.toNat - 65)
  else if '0' ≤ c && c ≤ '9' then some (c.toNat - 22)
  else none

/-- The least value with which a digit says that another one follows. -/
def threshold (k bias : Nat) : Nat :=
  if k ≤ bias then 1 else if bias + 26 ≤ k then 26 else k - bias

/-- A distance and the bias after it, divided until the distance is small. -/
def settled (delta k : Nat) : Nat :=
  if 455 < delta then settled (delta / 35) (k + base) else k + 36 * delta / (delta + 38)
termination_by delta

/-- The bias behind a distance, with so many characters in the label. -/
def adapted (delta count : Nat) (first : Bool) : Nat :=
  let delta := if first then delta / 700 else delta / 2
  settled (delta + delta / count) 0

def distance? (bias : Nat) (i weight k : Nat) : List Char → Option (Nat × List Char)
  | [] => none
  | c :: rest =>
    match digit? c with
    | none => none
    | some d =>
      let t := threshold k bias
      let i := i + d * weight
      if maxNumber < i then none
      else if d < t then some (i, rest)
      else if maxNumber / (base - t) < weight then none
      else distance? bias i (weight * (base - t)) (k + base) rest

/-- The characters of a label, given those before the digits, and how far the last one went in. -/
def insertions? (seen : List Nat) (n i bias : Nat) : Nat → List Char → Option (List Nat)
  | 0, _ => none
  | _, [] => some seen
  | fuel + 1, cs =>
    match distance? bias i 1 base cs with
    | none => none
    | some (next, rest) =>
      let count := seen.length + 1
      let n := n + next / count
      let place := next % count
      if n < 0x80 || 0x10FFFF < n then none
      else
        insertions? (seen.take place ++ n :: seen.drop place) n (place + 1)
          (adapted (next - i) count (i == 0)) fuel rest

def decode? (cs : List Char) : Option (List Nat) :=
  let digits := (cs.reverse.takeWhile (· != '-')).reverse
  let front := cs.take (cs.length - digits.length - 1)
  insertions? (front.map Char.toNat) 0x80 0 72 (digits.length + 1) digits

end Retrieval.Host.Punycode
