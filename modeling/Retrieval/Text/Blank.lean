import Retrieval.Text.Basic

/-!
# Blank units

The white space that separates words, and what trimming removes: the controls from tabulation to
carriage return, the space characters of Unicode, the two separators of lines and paragraphs, and
the byte order mark.
-/

namespace Retrieval

def isBlankPoint (c : Nat) : Bool :=
  (9 ≤ c && c ≤ 13) || c == 32 || c == 0xA0 || c == 0x1680 || (0x2000 ≤ c && c ≤ 0x200A)
    || c == 0x2028 || c == 0x2029 || c == 0x202F || c == 0x205F || c == 0x3000 || c == 0xFEFF

/-- The code unit is white space; no half of a pair is. -/
def isBlank (u : UInt16) : Bool := isBlankPoint u.toNat

namespace Text

/-- The unit at `i` is there and blank. -/
def blankAt (t : Text) (i : Nat) : Bool := t[i]?.any isBlank

/-- The first position in `[start, stop)` that is not blank, else `stop`. -/
def skipBlank (t : Text) (start stop : Nat) : Nat :=
  if start < stop && t.blankAt start then skipBlank t (start + 1) stop else start
termination_by stop - start
decreasing_by simp_all; omega

/-- The least end in `[start, stop]` after which only blanks stand up to `stop`. -/
def dropBlank (t : Text) (start : Nat) : Nat → Nat
  | 0 => 0
  | stop + 1 => if start < stop + 1 && t.blankAt stop then dropBlank t start stop else stop + 1

def trimStart (t : Text) : Text := t.slice (t.skipBlank 0 t.size) t.size

def allBlank (t : Text) : Bool := t.all isBlank

end Text

def trimBlank (cs : List Char) : List Char :=
  let front := cs.dropWhile (isBlankPoint ·.toNat)
  (front.reverse.dropWhile (isBlankPoint ·.toNat)).reverse

end Retrieval
