import Retrieval.Text.Basic

/-!
# UTF-8

Writing code points as bytes, and reading bytes that may be ill-formed: each longest run of bytes
that begins a character but does not finish it, and each byte that begins none, is one bad sequence.
-/

namespace Retrieval.Utf8

/-- The replacement character, written for what has no code point of its own. -/
def replacement : Nat := 0xFFFD

/-- The bytes of one code point; half of a pair is written as the replacement character. -/
def bytesOf (c : Nat) : List UInt8 :=
  let c := if 0xD800 ≤ c && c < 0xE000 then replacement else c
  if c < 0x80 then [c.toUInt8]
  else if c < 0x800 then [(0xC0 + c / 0x40).toUInt8, (0x80 + c % 0x40).toUInt8]
  else if c < 0x10000 then
    [(0xE0 + c / 0x1000).toUInt8, (0x80 + c / 0x40 % 0x40).toUInt8, (0x80 + c % 0x40).toUInt8]
  else
    [(0xF0 + c / 0x40000).toUInt8, (0x80 + c / 0x1000 % 0x40).toUInt8,
      (0x80 + c / 0x40 % 0x40).toUInt8, (0x80 + c % 0x40).toUInt8]

def encode (t : Text) : List UInt8 := t.codePoints.flatMap bytesOf

/-- A character whose first bytes have been read: its value so far, how many bytes are still
needed, and the range in which the next one must lie. -/
structure Pending where
  value : Nat
  needed : Nat
  low : Nat := 0x80
  high : Nat := 0xBF

/-- What a byte that begins a character says: the character itself, a longer one, or nothing. -/
def lead (b : Nat) : Option (Sum Nat Pending) :=
  if b < 0x80 then some (.inl b)
  else if 0xC2 ≤ b && b ≤ 0xDF then some (.inr { value := b - 0xC0, needed := 1 })
  else if b == 0xE0 then some (.inr { value := 0, needed := 2, low := 0xA0 })
  else if b == 0xED then some (.inr { value := 0xD, needed := 2, high := 0x9F })
  else if 0xE1 ≤ b && b ≤ 0xEF then some (.inr { value := b - 0xE0, needed := 2 })
  else if b == 0xF0 then some (.inr { value := 0, needed := 3, low := 0x90 })
  else if 0xF1 ≤ b && b ≤ 0xF3 then some (.inr { value := b - 0xF0, needed := 3 })
  else if b == 0xF4 then some (.inr { value := 4, needed := 3, high := 0x8F })
  else none

/-- The characters of a run of bytes, last first, on top of those `seen`; `none` is a bad
sequence. -/
def decodeOnto (seen : List (Option Nat)) : Option Pending → List UInt8 → List (Option Nat)
  | none, [] => seen
  | some _, [] => none :: seen
  | pending, b :: rest =>
    let begin (seen : List (Option Nat)) : List (Option Nat) × Option Pending :=
      match lead b.toNat with
      | some (.inl c) => (some c :: seen, none)
      | some (.inr p) => (seen, some p)
      | none => (none :: seen, none)
    let (seen, pending) :=
      match pending with
      | none => begin seen
      | some p =>
        if p.low ≤ b.toNat && b.toNat ≤ p.high then
          let value := p.value * 0x40 + (b.toNat - 0x80)
          if p.needed == 1 then (some value :: seen, none)
          else (seen, some { value, needed := p.needed - 1 })
        else begin (none :: seen)
    decodeOnto seen pending rest

/-- The code points of a run of bytes, each bad sequence read as the replacement character. -/
def decode (bytes : List UInt8) : List Nat :=
  ((decodeOnto [] none bytes).map (·.getD replacement)).reverse

def byteOrderMark : Nat := 0xFEFF

/-- The string that well-formed bytes stand for, without one leading byte order mark. -/
def decodeStrict? (bytes : ByteArray) : Option String :=
  (String.fromUTF8? bytes).map fun s =>
    match s.toList with
    | c :: rest => if c.toNat == byteOrderMark then String.ofList rest else s
    | [] => s

end Retrieval.Utf8
