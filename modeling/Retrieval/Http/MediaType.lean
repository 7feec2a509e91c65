import Retrieval.Http.Header

/-!
# Media types of bodies

The type of a body decides whether it is read, so it is taken strictly: a type, a subtype, and
parameters, with nothing but spaces around them. A header that is written otherwise names no type.
-/

namespace Retrieval.Http

structure MediaType where
  kind : String
  subkind : String
  parameters : List (String × String)

namespace MediaType

def maxName : Nat := 127

/-- A name: a letter or a digit, and more of them or some of these marks. -/
def isName (marks : String) (cs : List Char) : Bool :=
  cs.length ≤ maxName && cs.head?.any Header.isAlphanumeric
    && cs.all fun c => Header.isAlphanumeric c || marks.toList.contains c

def trimmed (cs : List Char) : List Char :=
  ((cs.dropWhile (· == ' ')).reverse.dropWhile (· == ' ')).reverse

/-- The subtype before the last plus sign, and what stands behind it. -/
def splitSuffix (cs : List Char) : List Char × List Char :=
  if cs.contains '+' then
    let suffix := (cs.reverse.takeWhile (· != '+')).reverse
    (cs.take (cs.length - suffix.length - 1), suffix)
  else (cs, [])

/-- What stands behind a quote up to the next one, and what follows; backslashes take the next
character as it is. -/
def quoted? : List Char → Option (List Char × List Char)
  | [] => none
  | '"' :: rest => some ([], rest)
  | '\\' :: c :: rest =>
    if ' ' ≤ c && c ≤ '~' then (quoted? rest).map fun (v, r) => (c :: v, r) else none
  | c :: rest =>
    if Header.isQuotable c && c != '\t' then (quoted? rest).map fun (v, r) => (c :: v, r) else none

def value? : List Char → Option (List Char × List Char)
  | '"' :: rest => quoted? rest
  | cs => Header.value? cs

def parameters? : Nat → List Char → Option (List (String × String))
  | _, [] => some []
  | 0, _ => none
  | count + 1, ';' :: rest =>
    let rest := rest.dropWhile (· == ' ')
    let name := rest.takeWhile Header.isToken
    match (rest.drop name.length).dropWhile (· == ' ') with
    | '=' :: text =>
      if name.isEmpty then none
      else do
        let (value, rest) ← value? (text.dropWhile (· == ' '))
        let more ← parameters? count (rest.dropWhile (· == ' '))
        some (((String.ofList name).toLower, String.ofList value) :: more)
    | _ => none
  | _, _ => none

def ofText? (s : String) : Option MediaType :=
  let cs := s.toList
  let front := cs.takeWhile (· != ';')
  let type := trimmed front
  let kind := type.takeWhile (· != '/')
  let (subkind, suffix) := splitSuffix (type.drop (kind.length + 1))
  if isName "!#$&^_-" kind && isName "!#$&^_.-" subkind
      && (type.drop (kind.length + 1)).length ≤ maxName
      && (suffix.isEmpty || isName "!#$&^_-" suffix) then
    (parameters? cs.length (cs.drop front.length)).map fun parameters =>
      let lower (cs : List Char) : String := (String.ofList cs).toLower
      let name := if suffix.isEmpty then lower subkind else lower subkind ++ "+" ++ lower suffix
      ⟨lower kind, name, parameters⟩
  else none

def isJson (m : MediaType) : Bool := m.kind == "application" && m.subkind == "json"

def isMultipart (m : MediaType) : Bool := m.kind == "multipart"

/-- The parameter of that name; the last one counts. -/
def parameter? (m : MediaType) (name : String) : Option String :=
  Header.find? name m.parameters.reverse

end MediaType
end Retrieval.Http
