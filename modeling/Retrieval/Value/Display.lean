import Retrieval.Value.Basic
import Retrieval.Value.Printer
import Retrieval.Number.Reading

/-!
# Values as plain text and as numbers

The plain text of a value, as it stands in messages, the text by which filters compare it, and the
number that a value is read as where a number is wanted.
-/

namespace Retrieval.Value

/-- How records are made: with a text of their own, or bare. -/
inductive RecordKind where
  | common
  | bare
deriving Repr, DecidableEq

/-- The text of a record. A bare one has none, and a member by the name of the text hides it. -/
def recordText? (kind : RecordKind) (members : List (String × Value)) : Option String :=
  if kind = .bare || members.any (·.1 == "toString") then none else some "[object Object]"

mutual

/-- The plain text of a value, if it has one. Items of a list are joined by commas, with nothing for
those that are null or absent. -/
def display? (kind : RecordKind) : Value → Option String
  | .absent => some "undefined"
  | .null => some "null"
  | .flag b => some (if b then "true" else "false")
  | .number x => some (Number.text x)
  | .text s => some s
  | .list items => displayItems? kind true items
  | .record members => recordText? kind members

def displayItems? (kind : RecordKind) (first : Bool) : List Value → Option String
  | [] => some ""
  | v :: rest => do
    let own ←
      match v with
      | .absent | .null => some ""
      | v => display? kind v
    let more ← displayItems? kind false rest
    some ((if first then own else "," ++ own) ++ more)

end

/-- The plain text of a value; that of a record without one is empty. -/
def display (v : Value) : String := (v.display? .common).getD ""

/-- The text by which a filter compares a value; nothing equals null or what is absent. -/
def filterText? : Value → Option String
  | .absent | .null => none
  | .text s => some s
  | .number x => some (Number.text x)
  | .flag b => some (if b then "true" else "false")
  | v => some v.toJson

/-- The text by which a filter compares what is found. A function has none, and what a kind of
values is made after is written as JSON. -/
def Found.filterText? : Found → Option String
  | .value v => v.filterText?
  | .function => none
  | .prototype empty => some empty.toJson

/-- The number that a value is read as, if it can be read. -/
def toNumber? (kind : RecordKind) : Value → Option Float
  | .absent => some Number.nan
  | .null => some 0
  | .flag b => some (if b then 1 else 0)
  | .number x => some x
  | .text s => some (Number.ofText s)
  | v => (v.display? kind).map Number.ofText

/-- The number that a value is read as; one that cannot be read is no number. -/
def toNumber (v : Value) : Float := (v.toNumber? .common).getD Number.nan

end Retrieval.Value
