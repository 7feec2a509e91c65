import Retrieval.Text.Base64
import Retrieval.Text.Utf8

/-!
# Character sets

The ways in which the bytes of a request are read as text. Ill-formed bytes never fail: they are
read as the replacement character or left out.
-/

namespace Retrieval

inductive Charset where
  | utf8
  /-- each byte is a character -/
  | narrow
  | utf16 (bigEndian : Bool)
  /-- units of two bytes, whose order the first bytes tell -/
  | utf16Marked
  /-- characters of seven bits, with others in base 64 between two marks; the form for mailboxes has
  marks of its own -/
  | utf7 (mailbox : Bool)
  /-- bytes that are no text, which are written in base 64 -/
  | base64
deriving Repr, DecidableEq

namespace Charset

/-! ## Units of two bytes -/

/-- The units of some bytes; a byte that is left over is dropped. -/
def units (bigEndian : Bool) : List UInt8 → List UInt16
  | a :: b :: rest =>
    (if bigEndian then a.toUInt16 * 256 + b.toUInt16 else b.toUInt16 * 256 + a.toUInt16)
      :: units bigEndian rest
  | _ => []

def points (bigEndian : Bool) (bytes : List UInt8) : List Nat :=
  Text.codePoints (units bigEndian bytes).toArray

def sampled : Nat := 64

def zeroCounts : List UInt8 → Nat × Nat
  | a :: b :: rest =>
    let (first, second) := zeroCounts rest
    if a == 0 && b != 0 then (first + 1, second)
    else if a != 0 && b == 0 then (first, second + 1)
    else (first, second)
  | _ => (0, 0)

/-- The greater byte comes first: a mark says so, or most characters are plain ones. -/
def isBigEndian (bytes : List UInt8) : Bool :=
  match bytes with
  | 0xFE :: 0xFF :: _ => true
  | 0xFF :: 0xFE :: _ => false
  | _ =>
    let (first, second) := zeroCounts (bytes.take sampled)
    second < first

def withoutMark : List Nat → List Nat
  | c :: rest => if c == Utf8.byteOrderMark then rest else c :: rest
  | [] => []

/-! ## Characters of seven bits -/

def shiftMark (mailbox : Bool) : UInt8 := if mailbox then 38 else 43

/-- The value of a byte in base 64; a comma stands for a slash in mailboxes. -/
def shiftedValue? (mailbox : Bool) (b : UInt8) : Option Nat :=
  if mailbox && b == 44 then some 63 else Base64.value? (Char.ofNat b.toNat)

def shiftedPoints (values : List Nat) : List Nat :=
  withoutMark (points true (Base64.decode values))

/-- The points of some bytes, given the values that have been read since a mark. Right behind the
mark, a minus sign stands for the mark; otherwise it only ends what is in base 64. -/
def sevenBitPoints (mailbox : Bool) : Option (List Nat) → List UInt8 → List Nat
  | none, [] => []
  | some seen, [] => shiftedPoints seen.reverse
  | none, b :: rest =>
    if b == shiftMark mailbox then sevenBitPoints mailbox (some []) rest
    else (if b < 128 then b.toNat else Utf8.replacement) :: sevenBitPoints mailbox none rest
  | some seen, b :: rest =>
    match shiftedValue? mailbox b with
    | some n => sevenBitPoints mailbox (some (n :: seen)) rest
    | none =>
      if b == 45 then
        (if seen.isEmpty then [(shiftMark mailbox).toNat] else shiftedPoints seen.reverse)
          ++ sevenBitPoints mailbox none rest
      else
        shiftedPoints seen.reverse
          ++ (if b == shiftMark mailbox then sevenBitPoints mailbox (some []) rest
            else (if b < 128 then b.toNat else Utf8.replacement)
              :: sevenBitPoints mailbox none rest)

/-! ## Reading -/

/-- Bytes read as one character each. -/
def narrowText (bytes : List UInt8) : String :=
  String.ofList (bytes.map fun b => Char.ofNat b.toNat)

def wideText (bytes : ByteArray) : String :=
  match String.fromUTF8? bytes with
  | some s => s
  | none => String.ofList ((Utf8.decode bytes.toList).map Text.charOf)

def decode (c : Charset) (bytes : ByteArray) : String :=
  let ofPoints (l : List Nat) : String := String.ofList (l.map Text.charOf)
  match c with
  | utf8 => wideText bytes
  | narrow => narrowText bytes.toList
  | utf16 bigEndian => ofPoints (points bigEndian bytes.toList)
  | utf16Marked => ofPoints (points (isBigEndian bytes.toList) bytes.toList)
  | utf7 mailbox => ofPoints (sevenBitPoints mailbox none bytes.toList)
  | base64 => String.ofList (Base64.encode bytes.toList)

/-- The text of some bytes without a byte order mark in front. Text of seven bits has none to be
left out. -/
def decodeUnmarked (c : Charset) (bytes : ByteArray) : String :=
  let s := c.decode bytes
  match c, s.toList with
  | utf7 _, _ => s
  | _, first :: rest => if first.toNat == Utf8.byteOrderMark then String.ofList rest else s
  | _, [] => s

end Charset
end Retrieval
