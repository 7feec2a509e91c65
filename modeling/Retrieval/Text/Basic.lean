/-!
# Texts as code units

Documents are measured, cut and compared in 16-bit code units, so a text is an array of them.
A leading half followed by a trailing half is one code point above `0xFFFF`; every other unit is a
code point of its own, halves that stand alone included.
-/

namespace Retrieval

/-- A text as a sequence of 16-bit code units. -/
abbrev Text := Array UInt16

namespace Text

/-- The unit is the first half of a pair. -/
def isLeading (u : UInt16) : Bool := 0xD800 ≤ u && u < 0xDC00

/-- The unit is the second half of a pair. -/
def isTrailing (u : UInt16) : Bool := 0xDC00 ≤ u && u < 0xE000

def joined (lead trail : UInt16) : Nat :=
  0x10000 + (lead.toNat - 0xD800) * 0x400 + (trail.toNat - 0xDC00)

def unitsOf (c : Nat) : List UInt16 :=
  if c < 0x10000 then [c.toUInt16]
  else [(0xD800 + (c - 0x10000) / 0x400).toUInt16, (0xDC00 + (c - 0x10000) % 0x400).toUInt16]

/-- The code points of a run of units, last first, on top of those already `seen`. -/
def codePointsOnto (seen : List Nat) : List UInt16 → List Nat
  | [] => seen
  | [u] => u.toNat :: seen
  | u :: v :: rest =>
    if isLeading u && isTrailing v then codePointsOnto (joined u v :: seen) rest
    else codePointsOnto (u.toNat :: seen) (v :: rest)

def codePoints (t : Text) : List Nat := (codePointsOnto [] t.toList).reverse

def ofCodePoints (cs : List Nat) : Text :=
  cs.foldl (fun t c => (unitsOf c).foldl Array.push t) #[]

def ofString (s : String) : Text :=
  s.foldl (fun t c => (unitsOf c.toNat).foldl Array.push t) #[]

/-- A code point as a character; a half that stands alone becomes the replacement character. -/
def charOf (c : Nat) : Char :=
  if c < 0xD800 || (0xE000 ≤ c && c < 0x110000) then Char.ofNat c else '\uFFFD'

def toString (t : Text) : String := String.ofList (t.codePoints.map charOf)

def slice (t : Text) (start stop : Nat) : Text := t.extract start stop

def startsAt (t : Text) (pattern : List UInt16) (i : Nat) : Bool :=
  match pattern with
  | [] => true
  | u :: rest => t[i]? == some u && startsAt t rest (i + 1)

def find? (t : Text) (pattern : List UInt16) (i : Nat) : Option Nat :=
  if t.startsAt pattern i then some i
  else if i < t.size then find? t pattern (i + 1)
  else none
termination_by t.size - i

def endsWith (t tail : Text) : Bool :=
  tail.size ≤ t.size && t.slice (t.size - tail.size) t.size == tail

end Text

def unitCount (s : String) : Nat :=
  s.foldl (fun n c => n + if c.toNat < 0x10000 then 1 else 2) 0

/-! ## Groups -/

/-- The groups of `n` elements of a list. A size of zero counts as one. -/
def groupsOf {α : Type} (n : Nat) : List α → List (List α)
  | [] => []
  | a :: rest => (a :: rest.take (n - 1)) :: groupsOf n (rest.drop (n - 1))
termination_by l => l.length
decreasing_by simp only [List.length_drop, List.length_cons]; omega

/-- The groups make up the list. -/
theorem flatten_groupsOf {α : Type} (n : Nat) (l : List α) : (groupsOf n l).flatten = l := by
  fun_induction groupsOf n l with
  | case1 => rfl
  | case2 a rest ih => simp [ih]

end Retrieval
