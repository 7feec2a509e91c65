import Retrieval.Text.Basic

/-!
# Complaints about JSON text

What is wrong with a text that is no JSON, and in which words it is reported. Places are counted in
code units; most complaints name the place, and a character that fits nowhere is shown with what
stands around it.
-/

namespace Retrieval.Value

/-- What is wrong at the place where reading stops. -/
inductive Complaint where
  /-- what stands there, or that nothing does, fits nowhere -/
  | unexpected
  | unexpectedNumber
  | unexpectedText
  | noNameOrEnd
  | noName
  | noColon
  | noCommaOrRecordEnd
  | noCommaOrListEnd
  | trailing
  | openText
  | control
  | badUnit
  | badEscape
  | loneMinus
  | noFraction
  | noExponent
deriving Repr, DecidableEq

namespace Complaint

def words : Complaint → String
  | unexpected => "Unexpected token in JSON"
  | unexpectedNumber => "Unexpected number in JSON"
  | unexpectedText => "Unexpected string in JSON"
  | noNameOrEnd => "Expected property name or '\x7d' in JSON"
  | noName => "Expected double-quoted property name in JSON"
  | noColon => "Expected ':' after property name in JSON"
  | noCommaOrRecordEnd => "Expected ',' or '\x7d' after property value in JSON"
  | noCommaOrListEnd => "Expected ',' or ']' after array element in JSON"
  | trailing => "Unexpected non-whitespace character after JSON"
  | openText => "Unterminated string in JSON"
  | control => "Bad control character in string literal in JSON"
  | badUnit => "Bad Unicode escape in JSON"
  | badEscape => "Bad escaped character in JSON"
  | loneMinus => "No number after minus sign in JSON"
  | noFraction => "Unterminated fractional number in JSON"
  | noExponent => "Exponent part is missing a number in JSON"

/-- Line and column of a place, both from one on. A line feed, a carriage return, or both in a row
end a line. -/
def lineAndColumn (t : Text) (place : Nat) : Nat × Nat :=
  let step (at_ : Nat × Nat × Bool) (u : UInt16) : Nat × Nat × Bool :=
    let (line, column, returned) := at_
    if u == 13 then (line + 1, 1, true)
    else if u == 10 then (if returned then line else line + 1, 1, false)
    else (line, column + 1, false)
  let (line, column, _) := (t.extract 0 place).foldl step (1, 1, false)
  (line, column)

def shownUnits : Nat := 10

/-- What is shown of a text at a place, with dots where something is left out. A short text is shown
as a whole. -/
def shownAt (t : Text) (place : Nat) : String :=
  let quote (start stop : Nat) : String := "\"" ++ (t.slice start stop).toString ++ "\""
  if t.size ≤ 2 * shownUnits then quote 0 t.size
  else if place < shownUnits then quote 0 (place + shownUnits) ++ "..."
  else if place + shownUnits < t.size then
    "..." ++ quote (place - shownUnits) (place + shownUnits) ++ "..."
  else "..." ++ quote (place - shownUnits) t.size

/-- The words for a character that fits nowhere, or for an end that comes too soon. -/
def unexpectedAt (t : Text) (place : Nat) : String :=
  if place < t.size then
    "Unexpected token '" ++ (t.slice place (place + 1)).toString ++ "', " ++ shownAt t place
      ++ " is not valid JSON"
  else "Unexpected end of JSON input"

/-- The plain text of a record, which somebody may have sent in the place of the record. -/
def recordText : String := "[object Object]"

def report (c : Complaint) (t : Text) (place : Nat) : String :=
  if c = .unexpected then
    if place < t.size && t == Text.ofString recordText then
      "\"" ++ recordText ++ "\" is not valid JSON"
    else unexpectedAt t place
  else
    let (line, column) := lineAndColumn t place
    c.words ++ " at position " ++ Nat.repr place ++ " (line " ++ Nat.repr line ++ " column "
      ++ Nat.repr column ++ ")"

end Complaint
end Retrieval.Value
