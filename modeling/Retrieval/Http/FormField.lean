import Retrieval.Number.Reading
import Retrieval.Value.Basic

/-!
# Fields of forms

A field's name says where its text goes: brackets behind the name lead into lists and records. Texts
that go to the same place make a list.
-/

namespace Retrieval.Http.FormField

/-- A step from a field to a value in it: to a member of a record, or to a position of a list. -/
inductive Step where
  | member (name : String)
  | position (n : Nat)

/-- Where a text goes. -/
structure Place where
  /-- the field, and the way from it -/
  field : String
  steps : List Step
  /-- the text starts a list where nothing is yet -/
  starts : Bool

namespace Step

/-- The name of a step in a record. -/
def key : Step → String
  | member name => name
  | position n => Nat.repr n

/-- The steps in the brackets behind a field's name, as long as the brackets are in order. The
empty brackets may only stand at the end. -/
def ofBrackets? : Nat → List Char → Option (List Step × Bool)
  | _, [] => some ([], false)
  | _, ['[', ']'] => some ([], true)
  | 0, _ => none
  | count + 1, '[' :: rest =>
    let inner := rest.takeWhile (· != ']')
    match rest.drop inner.length with
    | _ :: more =>
      if inner.isEmpty then none
      else
        let step :=
          match Number.natOfDigits? 10 inner with
          | some n => position n
          | none => member (String.ofList inner)
        (ofBrackets? count more).map fun (steps, starts) => (step :: steps, starts)
    | [] => none
  | _, _ => none

end Step

/-- Where a field's name sends a text. A name whose brackets are not in order is taken as it is. -/
def placeOf (name : String) : Place :=
  let cs := name.toList
  let front := cs.takeWhile (· != '[')
  if front.isEmpty then ⟨name, [], false⟩
  else
    match Step.ofBrackets? cs.length (cs.drop front.length) with
    | some (steps, starts) => ⟨String.ofList front, steps, starts⟩
    | none => ⟨name, [], false⟩

/-- The most holes that are made at once. No list with so many of them is of any use. -/
def maxHoles : Nat := 1000

/-- A list with a value at a position; positions before it that are not there yet are holes. -/
def putAt (l : List Value) (n : Nat) (v : Value) : List Value :=
  if n < l.length then l.set n v
  else l ++ List.replicate (min (n - l.length) maxHoles) .absent ++ [v]

/-- What stands in a place after a text has come to what stood there: the second one makes a list.
-/
def gathered (starts : Bool) (current text : Value) : Value :=
  match current with
  | .absent => if starts then .list [text] else text
  | .list l => .list (l ++ [text])
  | current => .list [current, text]

/-- What stands in a place after a text has gone some steps from there. A text that stood where a
record is needed gets the empty name in it, and so does one that is sent to a record. -/
def placed (starts : Bool) (text : Value) : List Step → Value → Value
  | [], .record m => .record (Value.setMember "" (gathered false (Value.lookup "" m) text) m)
  | [], current => gathered starts current text
  | .position n :: steps, .absent => .list (putAt [] n (placed starts text steps .absent))
  | .position n :: steps, .list l =>
    .list (putAt l n (placed starts text steps (l.getD n .absent)))
  | step :: steps, current =>
    let m :=
      match current with
      | .absent => []
      | .record m => m
      | .list l => (l.zipIdx.filter (·.1.isPresent)).map fun (v, i) => (Nat.repr i, v)
      | current => [("", current)]
    .record (Value.setMember step.key (placed starts text steps (Value.lookup step.key m)) m)

def add (fields : List (String × Value)) (name : String) (text : Value) :
    List (String × Value) :=
  let t := placeOf name
  Value.setMember t.field (placed t.starts text t.steps (Value.lookup t.field fields)) fields

end Retrieval.Http.FormField
