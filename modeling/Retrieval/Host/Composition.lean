import Retrieval.Host.Characters

/-!
# Composed characters

A letter with marks can be written in several ways. One of them counts: the marks behind a letter
stand in a fixed order, and a letter and a mark for which there is a character together are written
as that character. To get there all characters are taken apart, the marks are put in order, and then
what is left of a letter takes in the marks behind it one by one.
-/

namespace Retrieval.Host

def places : Array Entry := entriesOf Table.places

def composites : Array Entry := entriesOf Table.composites

/-- Where a mark goes among the marks at a letter; zero for what is no mark. -/
def placeOf (c : Nat) : Nat := ((entryAt? places c).bind (·.said.head?)).getD 0

/-! ## Syllables -/

/-- The number of the last letter of a syllable; zero if there is none. -/
def final? : List Nat → Option Nat
  | [] => some 0
  | [c] => if 0x11A8 ≤ c ∧ c < 0x11C3 then some (c - 0x11A7) else none
  | _ => none

/-- The syllable of two or three letters that are written in one. -/
def syllable? : List Nat → Option Nat
  | first :: vowel :: rest =>
    if (0x1100 ≤ first ∧ first < 0x1113) ∧ 0x1161 ≤ vowel ∧ vowel < 0x1176 then
      (final? rest).map fun last =>
        0xAC00 + ((first - 0x1100) * 21 + (vowel - 0x1161)) * 28 + last
    else none
  | _ => none

def lettersOf (c : Nat) : List Nat :=
  let n := c - 0xAC00
  [0x1100 + n / 588, 0x1161 + n % 588 / 28] ++ if n % 28 = 0 then [] else [0x11A7 + n % 28]

def IsSyllable (c : Nat) : Prop := 0xAC00 ≤ c ∧ c < 0xD7A4

instance (c : Nat) : Decidable (IsSyllable c) :=
  inferInstanceAs (Decidable (0xAC00 ≤ c ∧ c < 0xD7A4))

theorem final?_rest (n : Nat) :
    final? (if n % 28 = 0 then [] else [0x11A7 + n % 28]) = some (n % 28) := by
  split
  · next h => rw [final?, h]
  · next h =>
    have hlast : 0x11A8 ≤ 0x11A7 + n % 28 ∧ 0x11A7 + n % 28 < 0x11C3 := by omega
    rw [final?, if_pos hlast, Nat.add_sub_cancel_left]

/-- A syllable is that of its letters. -/
theorem syllable?_lettersOf {c : Nat} (h : IsSyllable c) : syllable? (lettersOf c) = some c := by
  obtain ⟨hlow, hhigh⟩ := h
  obtain ⟨n, rfl⟩ := Nat.exists_eq_add_of_le hlow
  have hletters : (0x1100 ≤ 0x1100 + n / 588 ∧ 0x1100 + n / 588 < 0x1113) ∧
      0x1161 ≤ 0x1161 + n % 588 / 28 ∧ 0x1161 + n % 588 / 28 < 0x1176 := by omega
  rw [lettersOf, Nat.add_sub_cancel_left, List.cons_append, List.singleton_append, syllable?,
    if_pos hletters, final?_rest, Option.map_some, Option.some.injEq]
  omega

/-! ## Taking apart and composing -/

def parts (c : Nat) : List Nat :=
  if IsSyllable c then lettersOf c else ((entryAt? composites c).map (·.said)).getD [c]

def joined? (base part : Nat) : Option Nat :=
  let all := parts base ++ [part]
  (syllable? all).or ((composites.find? (·.said == all)).map (·.first))

/-- Puts a character behind others, which are given last first; a mark goes in front of the marks
that come later than it. -/
def insertMark (c : Nat) : List Nat → List Nat
  | [] => [c]
  | d :: seen =>
    if 0 < placeOf c && placeOf c < placeOf d then d :: insertMark c seen else c :: d :: seen

def ordered (cs : List Nat) : List Nat :=
  (cs.foldl (fun seen c => insertMark c seen) []).reverse

/-- Composes what follows `base`, the last character that is no mark, and `marks`, those behind it
that have stayed, last first. A mark of the same place hides what comes behind it from the base. -/
def compose (base : Option Nat) (marks : List Nat) : List Nat → List Nat
  | [] => base.toList ++ marks.reverse
  | c :: rest =>
    let isHidden := marks.any fun d => placeOf c ≤ placeOf d
    match if isHidden then none else base.bind (joined? · c) with
    | some whole => compose (some whole) marks rest
    | none =>
      if placeOf c = 0 then base.toList ++ marks.reverse ++ compose (some c) [] rest
      else compose base (c :: marks) rest

/-- The characters as they are written in the one way that counts. -/
def composed (cs : List Nat) : List Nat := compose none [] (ordered (cs.flatMap parts))

end Retrieval.Host
