import Retrieval.Fault
import Retrieval.Http.Header

/-!
# Heads of parts

A part of a form begins with header lines, each with a name, a colon and a value; a line that begins
with a blank goes on with the value before it. An empty line ends the head. A head is read byte by
byte, and the first byte that does not fit breaks the form.
-/

namespace Retrieval.Http

inductive HeadPlace where
  | name
  | gap
  | value
  /-- behind the carriage return of a line -/
  | lineReturn
  /-- at the start of a line -/
  | lineStart
  /-- behind the carriage return of the empty line -/
  | lastReturn
deriving Repr, DecidableEq

/-- The head of a part as far as it has been read. The names and values of lines are last first, and
so are the characters of the current ones. -/
structure PartHead where
  place : HeadPlace := .name
  name : List Char := []
  value : List Char := []
  fields : List (String × String) := []
  lines : Nat := 0
  bytes : Nat := 0

namespace PartHead

/-- The greatest size of a head; bytes that are looked at twice count twice. -/
def maxBytes : Nat := 16 * 1024

/-- The number of lines from which on they are left out. -/
def maxLines : Nat := 2000

def malformed : Fault := .plain "Malformed part header"

/-- The header of that name in small letters; the first one counts. -/
def find? (name : String) (fields : List (String × String)) : Option String :=
  (fields.find? (·.1 == name)).map (·.2)

def counted (h : PartHead) : Except Fault PartHead :=
  if h.bytes == maxBytes then .error malformed else .ok { h with bytes := h.bytes + 1 }

def readName (h : PartHead) (c : Char) : Except Fault PartHead := do
  let h ← h.counted
  if Header.isToken c then pure { h with name := c :: h.name }
  else if c == ':' && !h.name.isEmpty then pure { h with place := .gap }
  else throw malformed

def readValue (h : PartHead) (c : Char) : Except Fault PartHead := do
  let h ← h.counted
  if Header.isFieldChar c then pure { h with place := .value, value := c :: h.value }
  else if c == '\r' then pure { h with place := .lineReturn }
  else throw malformed

/-- The head with its current line among the others. -/
def withLine (h : PartHead) : PartHead :=
  let lines := h.lines + 1
  if lines < maxLines then
    let line := ((String.ofList h.name.reverse).toLower, String.ofList h.value.reverse)
    { h with lines, fields := line :: h.fields }
  else { h with lines }

/-- Reads a byte: the head with it, or the headers if it ends the head. -/
def next (h : PartHead) (b : UInt8) : Except Fault (PartHead ⊕ List (String × String)) := do
  let c := Char.ofNat b.toNat
  match h.place with
  | .name => return .inl (← h.readName c)
  | .gap =>
    let h ← h.counted
    if Header.isGap c then return .inl h else return .inl (← h.readValue c)
  | .value => return .inl (← h.readValue c)
  | .lineReturn =>
    let h ← h.counted
    if c == '\n' then return .inl { h with place := .lineStart } else throw malformed
  | .lineStart =>
    let h ← h.counted
    if Header.isGap c then return .inl (← h.readValue c)
    else
      let h := h.withLine
      if c == '\r' then return .inl { h with place := .lastReturn }
      else return .inl (← { h with place := .name, name := [], value := [] }.readName c)
  | .lastReturn =>
    let h ← h.counted
    if c == '\n' then return .inr h.fields.reverse else throw malformed

/-- Reads the bytes from `i` on: the head as far as it goes, or the headers and where they end. -/
def readFrom (bytes : ByteArray) (stop i : Nat) (h : PartHead) :
    Except Fault (PartHead ⊕ (List (String × String) × Nat)) :=
  if i < stop then
    match h.next ((bytes[i]?).getD 0) with
    | .error fault => .error fault
    | .ok (.inl h) => readFrom bytes stop (i + 1) h
    | .ok (.inr fields) => .ok (.inr (fields, i + 1))
  else .ok (.inl h)
termination_by stop - i

end PartHead
end Retrieval.Http
