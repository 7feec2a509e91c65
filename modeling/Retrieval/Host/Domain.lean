import Retrieval.Host.Composition
import Retrieval.Host.Punycode
import Retrieval.Text.Utf8

/-!
# Names of hosts

The name of a host may hold characters beyond ASCII. Some of them are left out, some are read as
others, and some are not allowed; what is left is composed, and then each label has to keep rules
about marks, joiners and directions of writing. A label that is written in ASCII alone has to stand
for such a label.
-/

namespace Retrieval.Host

/-- What a character of a name is read as; `none` if it is not allowed. A character that is read as
others beyond ASCII stays as it is: the tables say of it what they say of these. -/
def read? (c : Nat) : Option (List Nat) :=
  if c < 0x80 then some [if 65 ≤ c && c ≤ 90 then c + 32 else c]
  else if isWithin disallowed c then none
  else if isWithin ignored c then some []
  else some ((reading? c).getD [c])

def nonJoiner : Nat := 0x200C

def joiner : Nat := 0x200D

/-- Whether the first joiner of a label stands where it has an effect, if there is one. -/
def joinerOk? (label : List Nat) : Option Bool :=
  let isJoiner (c : Nat) : Bool := c == nonJoiner || c == joiner
  let before := label.takeWhile (!isJoiner ·)
  match label.drop before.length with
  | [] => none
  | c :: after =>
    let joins := before.any (isWithin joiningBefore) && after.any (isWithin joiningAfter)
    some (before.getLast?.any (isWithin viramas) || (c == nonJoiner && joins))

/-- A label that is written from right to left in parts either begins from left to right and goes on
so up to its last character, or has nothing from left to right, digits of one kind only, and a
letter or a digit at its end. Marks at the end do not count. -/
def directionsOk (label : List Nat) : Bool :=
  let ds := label.map direction
  let core := (ds.reverse.dropWhile (· == 'M')).reverse
  let isTurned (d : Char) : Bool := d == 'R' || d == 'N'
  if ds.any isTurned then
    if ds.head? == some 'L' then core.dropLast.all fun d => !isTurned d && d != 'X'
    else
      !(core.contains 'E' && core.contains 'N') && core.all (fun d => d != 'L' && d != 'X')
        && core.getLast?.any fun d => isTurned d || d == 'E'
  else !core.isEmpty

/-- A label with characters beyond ASCII is in order. A joiner settles it, whatever the directions
are. -/
def labelOk (label : List Nat) : Bool :=
  !label.head?.any (isWithin marks) && (joinerOk? label).getD (directionsOk label)

/-- The front of a label that is written in ASCII alone. -/
def asciiMark : List Nat := "xn--".toList.map Char.toNat

def isKept (c : Nat) : Bool := read? c == some [c] && !isWithin recast c

/-- The label is in order: one that is written in ASCII alone stands for a label whose characters
are read as they are and composed as far as they can be. -/
def isLabel (label : List Nat) : Bool :=
  let isAscii := label.all (· < 0x80)
  if asciiMark.isPrefixOf label then
    match isAscii, Punycode.decode? ((label.drop asciiMark.length).map Char.ofNat) with
    | true, some points =>
      !points.isEmpty && points.all isKept && composed points == points && labelOk points
    | _, _ => false
  else isAscii || labelOk label

/-- The name of a host as it is read and composed; `none` if it is not in order. -/
def name? (points : List Nat) : Option (List Nat) :=
  match points.mapM read? with
  | none => none
  | some parts =>
    let name := composed parts.flatten
    if (name.splitOn 46).all isLabel then some name else none

end Retrieval.Host
