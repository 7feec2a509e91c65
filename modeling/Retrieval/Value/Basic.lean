import Retrieval.Number.Notation

/-!
# Values

The values that callers send and that stores keep: those of JSON, and `absent` for a member that
was left out. A record lists its members in order; names that are written like array positions come
first, in ascending order, and a name given twice keeps its first place and its last value.
-/

namespace Retrieval

/-- A value of JSON, or none at all. -/
inductive Value where
  | absent
  | null
  | flag (b : Bool)
  | number (x : Float)
  | text (s : String)
  | list (items : List Value)
  | record (members : List (String × Value))

namespace Value

instance : Inhabited Value := ⟨.absent⟩

/-- The array position that a name writes, if it is written like one. -/
def position? (name : String) : Option Nat :=
  match name.toList with
  | [] => none
  | c :: rest =>
    let digit (c : Char) : Bool := '0' ≤ c && c ≤ '9'
    if !(digit c && rest.all digit) || (c == '0' && !rest.isEmpty) then none
    else if 10 < name.length then none
    else
      let n := (c :: rest).foldl (fun n c => 10 * n + (c.toNat - 48)) 0
      if n < 4294967295 then some n else none

/-- Sets a member: a name that is there keeps its place, a new one goes to the end. -/
def setMember (name : String) (v : Value) :
    List (String × Value) → List (String × Value)
  | [] => [(name, v)]
  | (n, w) :: rest => if n == name then (n, v) :: rest else (n, w) :: setMember name v rest

/-- Puts a member whose name is a position among those that are. -/
def insertPosition (n : Nat) (m : String × Value) :
    List (Nat × String × Value) → List (Nat × String × Value)
  | [] => [(n, m)]
  | (k, w) :: rest => if n < k then (n, m) :: (k, w) :: rest else (k, w) :: insertPosition n m rest

def positionsFirst (members : List (String × Value)) : List (String × Value) :=
  let placed := members.foldl (fun acc m =>
    match position? m.1 with
    | some n => insertPosition n m acc
    | none => acc) []
  placed.map (·.2) ++ members.filter fun m => (position? m.1).isNone

def ofMembers (members : List (String × Value)) : Value :=
  .record (positionsFirst (members.foldl (fun acc m => setMember m.1 m.2 acc) []))

def find? (name : String) (members : List (String × Value)) : Option Value :=
  (members.find? (·.1 == name)).map (·.2)

/-- The member of that name; `absent` when there is none. -/
def lookup (name : String) (members : List (String × Value)) : Value :=
  (find? name members).getD .absent

def get (v : Value) (name : String) : Value :=
  match v with
  | .record members => lookup name members
  | _ => .absent

/-- The units of a text, each as a text of its own; the halves of a character that takes two are
none. -/
def unitsOf (s : String) : List (Option Char) :=
  s.toList.flatMap fun c => if c.toNat < 65536 then [some c] else [none, none]

/-- What a list of units or items has under a name: one of them under its position, and their
number. -/
def elementOf? (elements : List Value) (name : String) : Option Value :=
  if name == "length" then some (.number (Float.ofNat elements.length))
  else (position? name).bind fun n => elements[n]?

/-- What is found under a name: a value, a function, or what all values of a kind are made after,
which is written like an empty one of them. -/
inductive Found where
  | value (v : Value)
  | function
  | prototype (empty : Value)

/-- The name under which a value answers with what its kind is made after. -/
def prototypeName : String := "__proto__"

/-- The names under which all values have functions. Those that only lists, texts or numbers have
are not among them: where these are looked into, a function is as good as nothing. -/
def functionNames : List String :=
  ["toString", "constructor", "valueOf", "hasOwnProperty", "isPrototypeOf", "propertyIsEnumerable",
    "toLocaleString", "__defineGetter__", "__defineSetter__", "__lookupGetter__",
    "__lookupSetter__"]

/-- What is found under a name that a value has nothing of its own for. -/
def inherited (empty : Value) (name : String) : Found :=
  if name = prototypeName then .prototype empty
  else if name ∈ functionNames then .function
  else .value .absent

/-- What a record answers to under a name. Its members hide what all records have. -/
def memberOf (members : List (String × Value)) (name : String) : Found :=
  (find? name members).elim (inherited (.record []) name) .value

/-- What is found under a name of a value. That there is no value is an error, told in words. -/
def property (v : Value) (name : String) : Except String Found :=
  let missing (what : String) : Except String Found :=
    .error ("Cannot read properties of " ++ what ++ " (reading '" ++ name ++ "')")
  let element (empty : Value) (elements : List Value) : Except String Found :=
    .ok ((elementOf? elements name).elim (inherited empty name) .value)
  match v with
  | .absent => missing "undefined"
  | .null => missing "null"
  | .record members => .ok (memberOf members name)
  | .list items => element (.list []) items
  | .text s =>
    element (.text "") ((unitsOf s).map fun c => c.elim .absent (.text ∘ String.singleton))
  | .number _ => .ok (inherited (.number 0) name)
  | .flag _ => .ok (inherited (.flag false) name)

def isTruthy : Value → Bool
  | .absent | .null | .flag false | .text "" => false
  | .number x => !(x == 0) && !Number.isNan x
  | _ => true

def isPresent : Value → Bool
  | .absent => false
  | _ => true

def ofText? : Option String → Value
  | some s => .text s
  | none => .absent

def ofNumber? : Option Float → Value
  | some x => .number x
  | none => .absent

def ofNat (n : Nat) : Value := .number (Float.ofNat n)

def ofPresent (members : List (String × Value)) : Value :=
  .record (members.filter (·.2.isPresent))

end Value

/-- Free-form data that callers attach to a store, a file or a chunk. -/
abbrev Metadata := List (String × Value)

def Metadata.toValue : Option Metadata → Value
  | some m => .record m
  | none => .null

end Retrieval
