import Retrieval.Host.Table
import Retrieval.Number.Reading

/-!
# What is said of characters

The tables read as sets of characters, and as what they say of characters in a row.
-/

namespace Retrieval.Host

def entries (table : List String) : List (List Char) :=
  table.flatMap fun line => line.toList.splitOn ' '

def number (cs : List Char) : Nat := (Number.natOfDigits? 36 cs).getD 0

def sums (from_ : Nat) : List Nat → List Nat
  | [] => []
  | d :: rest => (from_ + d) :: sums (from_ + d) rest

/-! ## Sets -/

/-- The places where a set begins and ends. -/
def boundsOf (table : List String) : Array Nat := (sums 0 ((entries table).map number)).toArray

/-- How many of some ordered places are not behind a character. -/
def countUpTo (places : Array Nat) (c : Nat) : Nat := places.countP (· ≤ c)

def isWithin (bounds : Array Nat) (c : Nat) : Bool := countUpTo bounds c % 2 == 1

def disallowed : Array Nat := boundsOf Table.disallowed

def ignored : Array Nat := boundsOf Table.ignored

def recast : Array Nat := boundsOf Table.recast

def marks : Array Nat := boundsOf Table.marks

def viramas : Array Nat := boundsOf Table.viramas

def joiningBefore : Array Nat := boundsOf Table.joiningBefore

def joiningAfter : Array Nat := boundsOf Table.joiningAfter

/-! ## Characters in a row -/

structure Entry where
  first : Nat
  count : Nat
  said : List Nat

/-- An entry of a table, with the distance from the one before. -/
def entryOf (cs : List Char) : Entry :=
  match (cs.splitOn '.').map number with
  | distance :: count :: said => ⟨distance, count, said⟩
  | _ => ⟨0, 0, []⟩

def entriesOf (table : List String) : Array Entry :=
  let l := (entries table).map entryOf
  ((l.zip (sums 0 (l.map (·.first)))).map fun (e, first) => { e with first }).toArray

def entryAt? (table : Array Entry) (c : Nat) : Option Entry :=
  table.find? fun e => e.first ≤ c && c < e.first + e.count

def readings : Array Entry := entriesOf Table.plain

def reading? (c : Nat) : Option (List Nat) :=
  (entryAt? readings c).map fun e =>
    match e.said with
    | [target] => [target + (c - e.first)]
    | targets => targets

def directionPlaces : Array Nat :=
  (sums 0 ((entries Table.directions).map fun cs => number cs.dropLast)).toArray

/-- The directions from those places on. -/
def directionMarks : Array Char :=
  ((entries Table.directions).map fun cs => cs.getLast?.getD 'L').toArray

def direction (c : Nat) : Char :=
  if c < 0x80 then
    if 48 ≤ c && c ≤ 57 then 'E'
    else if (65 ≤ c && c ≤ 90) || (97 ≤ c && c ≤ 122) then 'L'
    else 'O'
  else
    match countUpTo directionPlaces c with
    | 0 => 'L'
    | n + 1 => directionMarks.getD n 'L'

end Retrieval.Host
