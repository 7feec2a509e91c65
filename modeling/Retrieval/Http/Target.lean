import Retrieval.Host.Domain
import Retrieval.Http.Escape
import Retrieval.Text.Blank

/-!
# Targets of requests

A request says what it is for: mostly a path with a query behind it, which is taken as it stands. A
target that is written as a whole address, or holds blanks or a fragment, is read as an address
first. What is left in the end is a path, no path at all, or no address.
-/

namespace Retrieval.Http

/-- What a request is for: a path, if there is one, and the query behind it. -/
structure Target where
  path : Option String
  query : String

namespace Target

def upTo (p : Char → Bool) (cs : List Char) : List Char × List Char := cs.span (!p ·)

/-- The target that is written as path and query. -/
def ofPath (cs : List Char) : Target :=
  let (path, query) := upTo (· == '?') cs
  ⟨if path.isEmpty then none else some (String.ofList path), String.ofList (query.drop 1)⟩

/-- The target is taken as it stands. -/
def isPlain (cs : List Char) : Bool :=
  let special (c : Char) : Bool := [9, 10, 12, 13, 32, 35, 0xA0, 0xFEFF].contains c.toNat
  cs.head? == some '/' && !cs.any special

/-! ## Addresses -/

def isEdge (c : Char) : Bool := c.toNat < 33 || c.toNat == 0xA0 || c.toNat == 0xFEFF

def trimmed (cs : List Char) : List Char :=
  ((cs.dropWhile isEdge).reverse.dropWhile isEdge).reverse

/-- An address with slashes for the backslashes before its query or fragment. -/
def withSlashes (cs : List Char) : List Char :=
  let (front, rest) := upTo (fun c => c == '?' || c == '#') cs
  front.map (fun c => if c == '\\' then '/' else c) ++ rest

/-- The address is a path with one or two slashes in front, and nothing in it is blank. -/
def isSimple (cs : List Char) : Bool :=
  cs.head? == some '/' && !"///".toList.isPrefixOf cs && !cs.any (isBlankPoint ·.toNat)

def scheme? (cs : List Char) : Option (List Char × List Char) :=
  let inScheme (c : Char) : Bool :=
    ('a' ≤ c && c ≤ 'z') || ('A' ≤ c && c ≤ 'Z') || ('0' ≤ c && c ≤ '9') || c == '.' || c == '+'
      || c == '-'
  match cs.span inScheme with
  | (_ :: _, ':' :: rest) => some (cs.take (cs.length - rest.length), rest)
  | _ => none

/-- The scheme whose addresses have no host. -/
def hostless : String := "javascript:"

/-- The schemes whose addresses have a host behind two slashes only. -/
def slashed : List String := ["http:", "https:", "ftp:", "gopher:", "file:", "ws:", "wss:"]

/-- Two slashes with a user's name and a host behind them. -/
def namesUser (cs : List Char) : Bool :=
  match cs with
  | '/' :: '/' :: rest =>
    let (user, more) := upTo (fun c => c == '@' || c == '/') rest
    match more with
    | '@' :: c :: _ => !user.isEmpty && c != '@' && c != '/'
    | _ => false
  | _ => false

/-- A character that no host holds. -/
def endsHost (c : Char) : Bool := " \"%';<>\\^\x60\x7b|\x7d".toList.contains c

def withoutPort (cs : List Char) : List Char :=
  let digits := (cs.reverse.takeWhile fun c => '0' ≤ c && c ≤ '9').length
  let front := cs.take (cs.length - digits)
  if front.getLast? == some ':' then front.dropLast else cs

def isForbidden (c : Char) : Bool :=
  c.toNat == 0 || "\t\n\r #%/<>?@\\^|".toList.contains c

def maxHost : Nat := 255

/-- Whether there is a host in front of an address behind its slashes, and what follows it; `none`
if the host is not in order. What stands before the last at sign names a user. -/
def afterHost? (cs : List Char) : Option (Bool × List Char) :=
  let (front, tail) := upTo (fun c => c == '#' || c == '/' || c == '?') cs
  let front := front.filter fun c => c != '\t' && c != '\n' && c != '\r'
  let named := (front.reverse.takeWhile (· != '@')).reverse
  let user := front.take (front.length - named.length - 1)
  let (host, rest) := upTo endsHost named
  let host := withoutPort host
  let rest := rest ++ tail
  if (unescape? user).isNone then none
  else if host.head? == some '[' && host.getLast? == some ']' && host.length ≤ maxHost then
    if host.any isForbidden then none
    else some (true, if rest.head? == some '/' then rest else '/' :: rest)
  else
    let (name, more) := upTo "/\\#?:".toList.contains host
    let rest := if more.isEmpty then rest else '/' :: more ++ rest
    if name.isEmpty || maxHost < name.length then some (false, rest)
    else
      match Host.name? (name.map Char.toNat) with
      | none => none
      | some points =>
        let cs := points.map Text.charOf
        if cs.isEmpty || cs.any (fun c => isForbidden c || ":[]".toList.contains c) then none
        else some (true, rest)

/-- The escapes of a character that may not stand in an address. -/
def escapedMark (c : Char) : List Char :=
  if "\t\n\r \"'<>\\^\x60\x7b|\x7d".toList.contains c then escaped c else [c]

def ofRest (scheme : String) (hasHost : Bool) (cs : List Char) : Target :=
  let cs := if scheme == hostless then cs else cs.flatMap escapedMark
  let t := ofPath (upTo (· == '#') cs).1
  if t.path.isNone && hasHost && slashed.contains scheme then { t with path := some "/" } else t

def ofAddress? (cs : List Char) : Option Target :=
  let hasUser := (upTo (fun c => c == '?' || c == '#') cs).1.contains '@'
  let cs := withSlashes (trimmed cs)
  if !cs.contains '#' && !hasUser && isSimple cs then some (ofPath cs)
  else
    let (written, rest) := (scheme? cs).getD ([], cs)
    let written := String.ofList written
    let scheme := written.toLower
    let slashes := "//".toList.isPrefixOf rest && (!written.isEmpty || namesUser rest)
    if scheme == hostless then some (ofRest scheme false rest)
    else if slashes || (!written.isEmpty && !slashed.contains written) then
      (afterHost? (if slashes then rest.drop 2 else rest)).map fun (hasHost, rest) =>
        ofRest scheme hasHost rest
    else some (ofRest scheme false rest)

/-- The target that a text writes; `none` if it is an address that is not in order. -/
def ofText? (s : String) : Option Target :=
  if isPlain s.toList then some (ofPath s.toList) else ofAddress? s.toList

end Target
end Retrieval.Http
