import Retrieval.Http.Escape
import Retrieval.Value.Basic

/-!
# Query strings

Names with values, separated by ampersands. A name that is given several times has a list of values;
brackets behind a name make a list or a record of them.
-/

namespace Retrieval.Http.Query

def maxDepth : Nat := 5

def maxNames : Nat := 1000

def maxPosition : Nat := 1000

/-- The name that no record has a member of. -/
def reserved : String := "__proto__"

/-! ## Names -/

/-- A query with its escaped brackets as they are meant. -/
def withBrackets : List Char → List Char
  | '%' :: '5' :: c :: rest =>
    if c == 'B' || c == 'b' then '[' :: withBrackets rest
    else if c == 'D' || c == 'd' then ']' :: withBrackets rest
    else '%' :: '5' :: withBrackets (c :: rest)
  | c :: rest => c :: withBrackets rest
  | [] => []

def indexOfPair (a b : Char) : List Char → Option Nat
  | x :: y :: rest =>
    if x == a && y == b then some 0 else (indexOfPair a b (y :: rest)).map (· + 1)
  | _ => none

/-- A name and its value. The equals sign behind brackets comes first. -/
def pairOf (part : List Char) : List Char × List Char :=
  let i :=
    match indexOfPair ']' '=' part with
    | some i => i + 1
    | none => (part.takeWhile (· != '=')).length
  (part.take i, part.drop (i + 1))

/-- What stands in brackets up to the one that closes them, and what follows. Brackets in between
come in pairs. -/
def inside? : Nat → List Char → Option (List Char × List Char)
  | _, [] => none
  | 0, ']' :: rest => some ([], rest)
  | open_ + 1, ']' :: rest => (inside? open_ rest).map fun (inner, r) => (']' :: inner, r)
  | open_, c :: rest =>
    (inside? (if c == '[' then open_ + 1 else open_) rest).map fun (inner, r) => (c :: inner, r)

/-- The inner texts of the bracket groups in a name. Brackets that are not closed, and what stands
behind the last group that is looked at, count as one text. -/
def groups : Nat → List Char → List (List Char)
  | depth, cs =>
    match depth, cs.dropWhile (· != '[') with
    | _, [] => []
    | 0, rest => [rest]
    | depth + 1, c :: rest =>
      match inside? 0 rest with
      | some (inner, behind) => inner :: groups depth behind
      | none => [c :: rest]

def stem (cs : List Char) : List Char := cs.takeWhile (· != '[')

/-! ## Values -/

def single (name : String) (v : Value) : Value :=
  .record (if name == reserved then [] else [(name, v)])

/-- A value under a bracket group: at the end of a list, at a position of it, or under a name. -/
def under (group : List Char) (v : Value) : Value :=
  if group.isEmpty then .list (match v with | .list l => l | v => [v])
  else
    match Value.position? (String.ofList group) with
    | some n =>
      if n ≤ maxPosition then .list (List.replicate n .absent ++ [v])
      else single (String.ofList group) v
    | none => single (String.ofList group) v

/-- A name with its brackets as a record. -/
def nested (name : String) (v : Value) : Value :=
  let cs := name.toList
  let front := stem cs
  let v := (groups maxDepth cs).foldr under v
  if front.isEmpty then v else single (String.ofList front) v

/-- The members of a list under the names of their positions. -/
def positions (l : List Value) : List (String × Value) :=
  (l.zipIdx.filter (·.1.isPresent)).map fun (v, i) => (Nat.repr i, v)

def isComposite : Value → Bool
  | .list _ | .record _ => true
  | _ => false

/-- Joins two values that were given for one name, to a bounded depth. An empty text adds nothing to
what is there. -/
def join : Nat → Value → Value → Value
  | 0, a, _ => a
  | _ + 1, a, .text "" => a
  | _ + 1, .list l, .text s => .list (l ++ [.text s])
  | depth + 1, .list l, .list m =>
    .list ((m.zipIdx.filter (·.1.isPresent)).foldl (fun acc (v, i) =>
      match acc[i]? with
      | some .absent => acc.set i v
      | none => acc ++ List.replicate (i - acc.length) .absent ++ [v]
      | some old =>
        if isComposite old && isComposite v then acc.set i (join depth old v) else acc ++ [v]) l)
  | depth + 1, .list l, .record m => join depth (.record (positions l)) (.record m)
  | depth + 1, .record m, .list l => join depth (.record m) (.record (positions l))
  | depth + 1, .record m, .record n =>
    .record (n.foldl (fun acc (k, v) =>
      match Value.lookup k acc with
      | .absent => acc ++ [(k, v)]
      | old => Value.setMember k (join depth old v) acc) m)
  | _ + 1, a, .list l => .list (a :: l)
  | _ + 1, a, b => .list [a, b]

/-- A value whose lists have no holes, to a bounded depth. -/
def compact : Nat → Value → Value
  | 0, v => v
  | depth + 1, .list l => .list ((l.filter Value.isPresent).map (compact depth))
  | depth + 1, .record m => .record (m.map fun (k, v) => (k, compact depth v))
  | _, v => v

/-- The values of each name as they are written, in the order of the names. A name that is written
several times has a list. -/
def written (cs : List Char) : List (String × Value) :=
  (((withBrackets cs).splitOn '&').take maxNames).foldl (fun acc part =>
    let (name, text) := pairOf part
    let name := queryText name
    let v := Value.text (queryText text)
    if name.isEmpty then acc
    else
      match Value.lookup name acc with
      | .absent => acc ++ [(name, v)]
      | .list l => Value.setMember name (.list (l ++ [v])) acc
      | old => Value.setMember name (.list [old, v]) acc) []

def parse (s : String) : Value :=
  let depth := 2 * maxDepth + 4
  let joined := (written s.toList).foldl (fun acc (name, v) => join depth acc (nested name v))
    (.record [])
  match compact depth joined with
  | .record m => .ofMembers m
  | v => v

end Retrieval.Http.Query
