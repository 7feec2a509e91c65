import Retrieval.Number.Reading
import Retrieval.Number.Notation

/-!
# Instants

An instant counts milliseconds from the start of 1970 in universal time. It is written in the
extended calendar form with milliseconds, and read from that form, from its shorter variants, and
from the form in which the database reports instants.
-/

namespace Retrieval

/-- Milliseconds from the start of 1970. -/
abbrev Instant := Int

namespace Instant

structure Day where
  year : Int
  month : Nat
  day : Nat

/-- The calendar day with that number, counted from the start of 1970. -/
def dayOf (n : Int) : Day :=
  let z := n + 719468
  let era := z / 146097
  let doe := (z - era * 146097).toNat
  let yoe := (doe - doe / 1460 + doe / 36524 - doe / 146096) / 365
  let doy := doe - (365 * yoe + yoe / 4 - yoe / 100)
  let mp := (5 * doy + 2) / 153
  let month := if mp < 10 then mp + 3 else mp - 9
  ⟨yoe + era * 400 + (if month ≤ 2 then 1 else 0), month, doy - (153 * mp + 2) / 5 + 1⟩

def numberOf (d : Day) : Int :=
  let y := if d.month ≤ 2 then d.year - 1 else d.year
  let era := y / 400
  let yoe := y - era * 400
  let mp : Int := if d.month > 2 then d.month - 3 else d.month + 9
  let doy := (153 * mp + 2) / 5 + d.day - 1
  era * 146097 + (yoe * 365 + yoe / 4 - yoe / 100 + doy) - 719468

def padded (width n : Nat) : String :=
  let s := Nat.repr n
  Decimal.zeros (width - s.length) ++ s

/-- Years of four digits as they are, others with a sign and six digits. -/
def yearText (y : Int) : String :=
  if 0 ≤ y && y ≤ 9999 then padded 4 y.toNat
  else (if y < 0 then "-" else "+") ++ padded 6 y.natAbs

def text (t : Instant) : String :=
  let d := dayOf (t / 86400000)
  let ms := (t % 86400000).toNat
  yearText d.year ++ "-" ++ padded 2 d.month ++ "-" ++ padded 2 d.day ++ "T"
    ++ padded 2 (ms / 3600000) ++ ":" ++ padded 2 (ms / 60000 % 60) ++ ":"
    ++ padded 2 (ms / 1000 % 60) ++ "." ++ padded 3 (ms % 1000) ++ "Z"

/-- The furthest instant from 1970 that has a written form. -/
def limit : Int := 8640000000000000

def inRange? (t : Int) : Option Instant := if t.natAbs ≤ limit.natAbs then some t else none

/-- Exactly `n` decimal digits, and the rest. -/
def digits? (n : Nat) (cs : List Char) : Option (Nat × List Char) :=
  let front := cs.take n
  if front.length == n && front.all Char.isDigit then
    (Number.natOfDigits? 10 front).map (·, cs.drop n)
  else none

/-- A part that a mark introduces; `0` where the mark does not stand. -/
def markedPart? (mark : Char) (cs : List Char) : Option (Option Nat × List Char) :=
  match cs with
  | c :: rest =>
    if c == mark then (digits? 2 rest).map fun (n, r) => (some n, r) else some (none, cs)
  | [] => some (none, cs)

def year? (cs : List Char) : Option (Int × List Char) :=
  match cs with
  | '+' :: rest => (digits? 6 rest).map fun (n, r) => ((n : Int), r)
  | '-' :: rest =>
    (digits? 6 rest).bind fun (n, r) => if n == 0 then none else some (-(n : Int), r)
  | _ => (digits? 4 cs).map fun (n, r) => ((n : Int), r)

/-- The offset from universal time, in minutes, that ends a calendar text. -/
def offset? (cs : List Char) : Option Int :=
  let parts (sign : Int) (rest : List Char) : Option Int :=
    (digits? 2 rest).bind fun (h, r) =>
      let r := match r with | ':' :: more => more | _ => r
      if r.isEmpty then some (sign * (60 * h))
      else (digits? 2 r).bind fun (m, r) => if r.isEmpty then some (sign * (60 * h + m)) else none
  match cs with
  | [] => some 0
  | ['Z'] => some 0
  | '+' :: rest => parts 1 rest
  | '-' :: rest => parts (-1) rest
  | _ => none

def fraction? (cs : List Char) : Option (Nat × List Char) :=
  match cs with
  | '.' :: rest =>
    let (ds, r) := Number.spanDigits rest
    if ds.isEmpty then none
    else (Number.natOfDigits? 10 ((ds ++ ['0', '0', '0']).take 3)).map (·, r)
  | _ => some (0, cs)

def timeOf? (day : Int) (cs : List Char) : Option Int := do
  let (hour, cs) ← digits? 2 cs
  let (minute, cs) ← markedPart? ':' cs
  let minute ← minute
  let (second, cs) ← markedPart? ':' cs
  let (ms, cs) ← if second.isSome then fraction? cs else some (0, cs)
  let offset ← offset? cs
  let second := second.getD 0
  if minute > 59 || second > 59 then none
  else if hour > 24 || (hour == 24 && (minute != 0 || second != 0 || ms != 0)) then none
  else some (day * 86400000 + hour * 3600000 + minute * 60000 + second * 1000 + ms - offset * 60000)

def ofText? (s : String) : Option Instant := do
  let (year, cs) ← year? s.toList
  let (month, cs) ← markedPart? '-' cs
  let (day, cs) ← if month.isSome then markedPart? '-' cs else some (none, cs)
  let month := month.getD 1
  let day := day.getD 1
  if month < 1 || 12 < month || day < 1 || 31 < day then none
  else
    let number := numberOf ⟨year, month, day⟩
    match cs with
    | [] => inRange? (number * 86400000)
    | 'T' :: rest | ' ' :: rest => (timeOf? number rest).bind inRange?
    | _ => none

/-- The instant that a count of milliseconds names, cut to whole ones. -/
def ofNumber? (x : Float) : Option Instant :=
  match Exact.of x with
  | .finite negative m e =>
    inRange? (Exact.signed negative (m * twoTo e.toNat / twoTo (-e).toNat))
  | _ => none

end Instant
end Retrieval
