import Retrieval.Schema.Issue
import Retrieval.Text.Basic
import Retrieval.Value.Display

/-!
# Checks

A check reads a value at a place and reports what it makes of it together with all issues it finds.
A value of the wrong type yields nothing; one that only breaks a rule is still yielded, so that
later rules see it. A value is accepted when there is no issue and all of it could be read.
-/

namespace Retrieval

/-- What a check makes of a value, and the issues it finds. -/
structure Outcome (α : Type) where
  value : Option α
  issues : List Issue := []
  /-- a part that is to be read as a number has no text -/
  textless : Bool := false

namespace Outcome

/-- The accepted value, or why it is not accepted. That a part could not be read outweighs all
issues. -/
def toExcept {α : Type} (o : Outcome α) : Except Rejection α :=
  if o.textless then .error .textless
  else
    match o.value, o.issues with
    | some a, [] => .ok a
    | _, found => .error (.issues found)

def map {α β : Type} (f : α → β) (o : Outcome α) : Outcome β :=
  ⟨o.value.map f, o.issues, o.textless⟩

/-- Both outcomes, with the issues of the first before those of the second. -/
def both {α β γ : Type} (f : α → β → γ) (a : Outcome α) (b : Outcome β) : Outcome γ :=
  ⟨a.value.bind fun x => b.value.map (f x), a.issues ++ b.issues, a.textless || b.textless⟩

instance : Functor Outcome where
  map := map

/-- A function and its argument that are both yielded make a value. -/
instance : Seq Outcome where
  seq f a := f.both (fun f a => f a) (a ())

@[simp] theorem map_eq {α β : Type} (f : α → β) (o : Outcome α) : f <$> o = o.map f := rfl

@[simp] theorem seq_eq {α β : Type} (f : Outcome (α → β)) (o : Outcome α) :
    f <*> o = f.both (fun f a => f a) o := rfl

end Outcome

/-- A check of the value at a path. -/
abbrev Check (α : Type) := List String → Value → Outcome α

namespace Check

open Value (RecordKind)

def refuse {α : Type} (path : List String) (expected : ValueType) (v : Value) : Outcome α :=
  { value := none, issues := [⟨path, .wrongType expected (.of v), none⟩] }

def yield {α : Type} (a : α) : Outcome α := { value := some a }

/-- Adds rules to a check. All of them are tried on a value of the right type. -/
def and {α : Type} (c : Check α) (rules : List (α → Option (Finding × Option String))) : Check α :=
  fun path v =>
    let o := c path v
    match o.value with
    | none => o
    | some a =>
      let found := rules.filterMap fun rule => (rule a).map fun (f, words) => ⟨path, f, words⟩
      { o with issues := o.issues ++ found }

def text : Check String := fun path v =>
  match v with
  | .text s => yield s
  | v => refuse path .text v

def number : Check Float := fun path v =>
  match v with
  | .number x => if Number.isNan x then refuse path .number v else yield x
  | v => refuse path .number v

/-- A value read as a number. Records in it are of the given kind. -/
def coerced (kind : RecordKind) : Check Float := fun path v =>
  match v.toNumber? kind with
  | some x => number path (.number x)
  | none => { value := none, textless := true }

/-- At least so many code units, perhaps in the schema's own words. -/
def minLength (n : Nat) (words : Option String) (s : String) : Option (Finding × Option String) :=
  if unitCount s < n then some (.tooSmall n .length true, words) else none

def maxLength (n : Nat) (s : String) : Option (Finding × Option String) :=
  if n < unitCount s then some (.tooBig n .length, none) else none

def whole (x : Float) : Option (Finding × Option String) :=
  if (Number.whole? x).isSome then none else some (.wrongType .whole .fractional, none)

def atLeast (k : Int) (x : Float) : Option (Finding × Option String) :=
  if Number.below x k then some (.tooSmall k .amount true, none) else none

def positive (x : Float) : Option (Finding × Option String) :=
  if Number.above x 0 then none else some (.tooSmall 0 .amount false, none)

def atMost (k : Int) (x : Float) : Option (Finding × Option String) :=
  if Number.above x k then some (.tooBig k .amount, none) else none

def form (f : Form) (holds : String → Bool) (words : Option String) (s : String) :
    Option (Finding × Option String) :=
  if holds s then none else some (.badForm f, words)

def oneOf (options : List String) : Check String := fun path v =>
  match v with
  | .text s =>
    if options.contains s then yield s
    else { value := none, issues := [⟨path, .unlisted options s, none⟩] }
  | v => refuse path (.oneOf options) v

def optional {α : Type} (c : Check α) : Check (Option α) := fun path v =>
  match v with
  | .absent => yield none
  | v => (c path v).map some

def orElse {α : Type} (c : Check α) (usual : α) : Check α := fun path v =>
  match v with
  | .absent => yield usual
  | v => c path v

/-- The entry of a name in front of the others; it is left out where a record could not have it as a
member of its own. -/
def withEntry {α : Type} (name : String) (a : α) (entries : List (String × α)) :
    List (String × α) :=
  if name = Value.prototypeName then entries else (name, a) :: entries

/-- The members of a record, each under the same check. -/
def members {α : Type} (c : Check α) : Check (List (String × α)) := fun path v =>
  match v with
  | .record ms =>
    ms.foldr (fun m rest => (c (path ++ [m.1]) m.2).both (withEntry m.1) rest) (yield [])
  | v => refuse path .record v

def object {α : Type} (fields : List String → (String → Value) → Outcome α) : Check α :=
  fun path v =>
    match v with
    | .record ms => fields path fun name => Value.lookup name ms
    | v => refuse path .record v

def member {α : Type} (c : Check α) (path : List String) (get : String → Value) (name : String) :
    Outcome α :=
  c (path ++ [name]) (get name)

end Check
end Retrieval
