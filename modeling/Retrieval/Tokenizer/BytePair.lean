import Retrieval.Tokenizer.Basic
import Retrieval.Text.Blank
import Retrieval.Tokenizer.Vocabulary

/-!
# Byte pair encoding

A text is cut into pieces (contractions, words, short numbers, punctuation, runs of blanks), and
the bytes of each piece are merged pair by pair, the pair of lowest rank first and the leftmost of
equals, until no adjacent pair is in the vocabulary.
-/

namespace Retrieval.BytePair

/-- The letters that the vocabulary spells: those of Latin up to `U+00FF`, and ideographs. -/
def isLetter (c : Nat) : Bool :=
  (0x41 ≤ c && c ≤ 0x5A) || (0x61 ≤ c && c ≤ 0x7A) || c == 0xAA || c == 0xB5 || c == 0xBA
    || (0xC0 ≤ c && c ≤ 0x24F && c != 0xD7 && c != 0xF7) || (0x4E00 ≤ c && c ≤ 0x9FFF)

def isDigit (c : Nat) : Bool := 0x30 ≤ c && c ≤ 0x39

def isLineEnd (c : Nat) : Bool := c == 10 || c == 13

/-- Neither white space nor a letter nor a digit. -/
def isMark (c : Nat) : Bool := !isBlankPoint c && !isLetter c && !isDigit c

def run (p : Nat → Bool) (cs : List Nat) : Nat := (cs.takeWhile p).length

def small (c : Nat) : Nat := if 0x41 ≤ c && c ≤ 0x5A then c + 32 else c

/-- The length of a contraction at the front: an apostrophe with `s`, `t`, `m`, `d`, `re`, `ve` or
`ll` in capital or small letters. -/
def contraction? (cs : List Nat) : Option Nat :=
  match cs with
  | 39 :: a :: rest =>
    if ['s', 't', 'm', 'd'].any (·.toNat == small a) then some 2
    else
      match rest with
      | b :: _ =>
        if [('r', 'e'), ('v', 'e'), ('l', 'l')].any fun (x, y) =>
            x.toNat == small a && y.toNat == small b then some 3
        else none
      | [] => none
  | _ => none

/-- The length of a word at the front, with at most one mark or blank before it. -/
def word? (cs : List Nat) : Option Nat :=
  match cs with
  | [] => none
  | c :: rest =>
    if isLetter c then some (run isLetter cs)
    else if isLineEnd c || isDigit c || run isLetter rest == 0 then none
    else some (1 + run isLetter rest)

/-- The length of a run of marks at the front, with at most one space before it and the line ends
behind it. -/
def marks? (cs : List Nat) : Option Nat :=
  let body (cs : List Nat) : Option Nat :=
    let n := run isMark cs
    if n == 0 then none else some (n + run isLineEnd (cs.drop n))
  match cs with
  | 32 :: rest => (body rest).map (· + 1)
  | _ => body cs

/-- The length of the piece that a run of blanks begins with: up to its last line end; else all of
it at the end of the text; else all but the blank that belongs to the next piece. -/
def blanks (cs : List Nat) : Nat :=
  let n := run isBlankPoint cs
  let tail := run (!isLineEnd ·) (cs.take n).reverse
  if tail < n then n - tail
  else if cs.length == n || n == 1 then n
  else n - 1

def pieceLength (cs : List Nat) : Nat :=
  let digits := min 3 (run isDigit cs)
  match contraction? cs, word? cs, marks? cs with
  | some n, _, _ => n
  | none, some n, _ => n
  | none, none, m =>
    if 0 < digits then digits
    else
      match m with
      | some n => n
      | none => blanks cs

def pieces : List Nat → List (List Nat)
  | [] => []
  | c :: rest =>
    let n := pieceLength (c :: rest) - 1
    (c :: rest.take n) :: pieces (rest.drop n)
termination_by cs => cs.length
decreasing_by simp only [List.length_drop, List.length_cons]; omega

def lowest? : List (List UInt8) → Option Nat
  | a :: b :: rest =>
    match Vocabulary.rank? (a ++ b), lowest? (b :: rest) with
    | some r, some s => some (min r s)
    | some r, none => some r
    | none, s => s
  | _ => none

/-- Merges the leftmost two adjacent parts whose rank is `rank`. -/
def mergeFirst (rank : Nat) : List (List UInt8) → List (List UInt8)
  | a :: b :: rest =>
    if Vocabulary.rank? (a ++ b) == some rank then (a ++ b) :: rest
    else a :: mergeFirst rank (b :: rest)
  | parts => parts

/-- Merges pairs until none is in the vocabulary; each step leaves one part less, so the number of
parts is enough. -/
def merge (parts : List (List UInt8)) : Nat → List (List UInt8)
  | 0 => parts
  | n + 1 =>
    match lowest? parts with
    | some rank => merge (mergeFirst rank parts) n
    | none => parts

def encodePiece (piece : List Nat) : List Nat :=
  let bytes := piece.flatMap Utf8.bytesOf
  match Vocabulary.rank? bytes with
  | some rank => [rank]
  | none => (merge (bytes.map ([·])) bytes.length).filterMap Vocabulary.rank?

/-- The tokens of a text. Markers of special tokens are ordinary text. -/
def encode (t : Text) : List Nat := (pieces t.codePoints).flatMap encodePiece

/-- The text that the bytes of the tokens write, without one leading byte order mark. -/
def decode (tokens : List Nat) : Text :=
  let cs := Utf8.decode (tokens.flatMap Vocabulary.bytes)
  Text.ofCodePoints (if cs.head? == some Utf8.byteOrderMark then cs.drop 1 else cs)

end Retrieval.BytePair

namespace Retrieval.Tokenizer

def bytePair : Tokenizer where
  Token := Nat
  encode := BytePair.encode
  decode := BytePair.decode

end Retrieval.Tokenizer
