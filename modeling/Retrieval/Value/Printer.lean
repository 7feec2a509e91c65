import Retrieval.Value.Basic

/-!
# Values as JSON text

Compact text without blanks. A member that is absent is left out, an absent item and a number that
is not finite are written `null`, and zero has no sign.
-/

namespace Retrieval.Value

def hexDigit (n : Nat) : Char := (Nat.toDigits 16 (n % 16)).headD '0'

def quotedChar (c : Char) : List Char :=
  if c == '"' then ['\\', '"']
  else if c == '\\' then ['\\', '\\']
  else if c == '\n' then ['\\', 'n']
  else if c == '\r' then ['\\', 'r']
  else if c == '\t' then ['\\', 't']
  else if c.toNat == 8 then ['\\', 'b']
  else if c.toNat == 12 then ['\\', 'f']
  else if c.toNat < 32 then ['\\', 'u', '0', '0', hexDigit (c.toNat / 16), hexDigit c.toNat]
  else [c]

def writeQuoted (out : String) (s : String) : String :=
  (s.foldl (fun out c => (quotedChar c).foldl String.push out) (out.push '"')).push '"'

def numberText (x : Float) : String :=
  match Exact.of x with
  | .finite .. => Number.text x
  | _ => "null"

mutual

/-- The value behind `out`. -/
def write (out : String) : Value → String
  | .absent => out ++ "null"
  | .null => out ++ "null"
  | .flag b => out ++ (if b then "true" else "false")
  | .number x => out ++ numberText x
  | .text s => writeQuoted out s
  | .list items => (writeItems (out.push '[') true items).push ']'
  | .record members => (writeMembers (out.push '{') true members).push '}'

def writeItems (out : String) (first : Bool) : List Value → String
  | [] => out
  | v :: rest => writeItems (write (if first then out else out.push ',') v) false rest

def writeMembers (out : String) (first : Bool) : List (String × Value) → String
  | [] => out
  | (_, .absent) :: rest => writeMembers out first rest
  | (name, v) :: rest =>
    let out := (writeQuoted (if first then out else out.push ',') name).push ':'
    writeMembers (write out v) false rest

end

def toJson (v : Value) : String := v.write ""

/-! ## Text over several lines -/

/-- A new line, indented by two blanks for each part that is open. -/
def writeLine (out : String) (depth : Nat) : String :=
  out ++ "\n" ++ String.ofList (List.replicate (2 * depth) ' ')

mutual

/-- The value behind `out`, at a depth. Every item and member has a line of its own; a list or
record without any is written in one piece. -/
def writeIndented (out : String) (depth : Nat) : Value → String
  | .list [] => out ++ "[]"
  | .list (v :: rest) =>
    let out := writeIndented (writeLine (out.push '[') (depth + 1)) (depth + 1) v
    (writeLine (writeIndentedItems out (depth + 1) rest) depth).push ']'
  | .record members =>
    let (out, empty) := writeIndentedMembers (out.push '{') (depth + 1) true members
    (if empty then out else writeLine out depth).push '}'
  | v => v.write out

def writeIndentedItems (out : String) (depth : Nat) : List Value → String
  | [] => out
  | v :: rest =>
    writeIndentedItems (writeIndented (writeLine (out.push ',') depth) depth v) depth rest

def writeIndentedMembers (out : String) (depth : Nat) (first : Bool) :
    List (String × Value) → String × Bool
  | [] => (out, first)
  | (_, .absent) :: rest => writeIndentedMembers out depth first rest
  | (name, v) :: rest =>
    let out := writeLine (if first then out else out.push ',') depth
    let out := (writeQuoted out name) ++ ": "
    writeIndentedMembers (writeIndented out depth v) depth false rest

end

def toIndentedJson (v : Value) : String := v.writeIndented "" 0

mutual

/-- What comes back when the value is written as JSON and read again. -/
def stored : Value → Value
  | .number x =>
    match Exact.of x with
    | .finite _ m _ => if m == 0 then .number 0 else .number x
    | _ => .null
  | .list items => .list (storedItems items)
  | .record members => .record (storedMembers members)
  | v => v

def storedItems : List Value → List Value
  | [] => []
  | .absent :: rest => .null :: storedItems rest
  | v :: rest => v.stored :: storedItems rest

def storedMembers : List (String × Value) → List (String × Value)
  | [] => []
  | (_, .absent) :: rest => storedMembers rest
  | (name, v) :: rest => (name, v.stored) :: storedMembers rest

end

end Retrieval.Value
