import Retrieval.Host.Domain

/-!
# Web addresses

Which texts are absolute addresses: a scheme, then for the well-known schemes a host with an
optional port, and for all other schemes a host only where two slashes announce one.
-/

namespace Retrieval.Address

def isLetter (c : Char) : Bool := ('a' ≤ c && c ≤ 'z') || ('A' ≤ c && c ≤ 'Z')

/-- The address without controls and blanks around it, and without tabs and line ends in it. -/
def clean (cs : List Char) : List Char :=
  let edge (c : Char) : Bool := c.toNat ≤ 32
  let cs := cs.dropWhile edge
  ((cs.reverse.dropWhile edge).reverse).filter fun c => c != '\t' && c != '\n' && c != '\r'

def scheme? (cs : List Char) : Option (String × List Char) :=
  let inScheme (c : Char) : Bool :=
    isLetter c || c.isDigit || c == '+' || c == '-' || c == '.'
  match cs.head?, cs.span inScheme with
  | some c, (front, ':' :: rest) =>
    if isLetter c then some (String.ofList (front.map Char.toLower), rest) else none
  | _, _ => none

def before (p : Char → Bool) (cs : List Char) : List Char := cs.takeWhile (!p ·)

/-- The part behind the last `@`, and whether there was one. -/
def afterUser (cs : List Char) : List Char × Bool :=
  let host := (before (· == '@') cs.reverse).reverse
  (host, host.length < cs.length)

/-- The host and what stands behind the colon that follows it. -/
def hostAndPort (cs : List Char) : List Char × Option (List Char) :=
  match cs with
  | '[' :: _ =>
    let inside := before (· == ']') cs
    let rest := cs.drop (inside.length + 1)
    (cs.take (inside.length + 1),
      match rest with
      | [] => none
      | ':' :: port => some port
      | _ => some ['x'])
  | _ =>
    let host := before (· == ':') cs
    (host, if host.length < cs.length then some (cs.drop (host.length + 1)) else none)

def portOk : Option (List Char) → Bool
  | none => true
  | some [] => true
  | some ds =>
    match Number.natOfDigits? 10 ds with
    | some n => n ≤ 65535
    | none => false

def isForbidden (c : Char) : Bool :=
  c.toNat == 0 || [9, 10, 13, 32].contains c.toNat
    || ['#', '/', ':', '<', '>', '?', '@', '[', '\\', ']', '^', '|'].contains c

def isForbiddenInName (c : Char) : Bool :=
  isForbidden c || c.toNat < 32 || c == '%' || c.toNat == 127

/-- The bytes of a text; percent escapes write bytes, unless they are malformed. -/
def bytesOf : List Char → List UInt8
  | '%' :: a :: b :: rest =>
    match Number.digit? 16 a, Number.digit? 16 b with
    | some x, some y => (16 * x + y).toUInt8 :: bytesOf rest
    | _, _ => 37 :: bytesOf (a :: b :: rest)
  | c :: rest => Utf8.bytesOf c.toNat ++ bytesOf rest
  | [] => []

/-- One number of a host in four parts: decimal, octal behind a zero, or hexadecimal. -/
def hostNumber? (cs : List Char) : Option Nat :=
  match cs with
  | [] => none
  | '0' :: 'x' :: rest | '0' :: 'X' :: rest =>
    if rest.isEmpty then some 0 else Number.natOfDigits? 16 rest
  | '0' :: rest => if rest.isEmpty then some 0 else Number.natOfDigits? 8 rest
  | cs => Number.natOfDigits? 10 cs

/-- A host whose last part is a number has to be four numbers of eight bits, or fewer with a wider
last one. -/
def numericOk (labels : List (List Char)) : Bool :=
  let numbers := labels.map hostNumber?
  let front := numbers.dropLast
  labels.length ≤ 4 && numbers.all (·.isSome) && front.all (·.any (· ≤ 255))
    && (numbers.getLast?.join).any (· < Nat.pow 256 (5 - labels.length))

/-- The name of a host: labels without forbidden characters, or four numbers. -/
def nameOk (cs : List Char) : Bool :=
  match Host.name? (Utf8.decode (bytesOf cs)) with
  | none => false
  | some points =>
    let cs := points.map Text.charOf
    let labels := cs.splitOn '.'
    let labels :=
      if labels.length > 1 && labels.getLast? == some [] then labels.dropLast else labels
    let last := labels.getLast?.getD []
    let isNumber := !last.isEmpty && (last.all Char.isDigit || (hostNumber? last).isSome)
    !cs.isEmpty && !cs.any isForbiddenInName && (!isNumber || numericOk labels)

def groupOk (cs : List Char) : Bool :=
  !cs.isEmpty && cs.length ≤ 4 && (Number.natOfDigits? 16 cs).isSome

/-- The number of groups between single colons, if all are well formed; the last may be four decimal
numbers, which count twice. -/
def groupCount? (cs : List Char) : Option Nat :=
  if cs.isEmpty then some 0
  else
    let groups := cs.splitOn ':'
    let last := groups.getLast?.getD []
    let quads := last.splitOn '.'
    let quadsOk := quads.length == 4 && quads.all fun q =>
      (Number.natOfDigits? 10 q).any (· ≤ 255) && (q.length == 1 || q.head? != some '0')
    if groups.dropLast.all groupOk && (groupOk last || quadsOk) then
      some (groups.length + if groupOk last then 0 else 1)
    else none

def cutAtGap : List Char → List Char × Option (List Char)
  | ':' :: ':' :: rest => ([], some rest)
  | c :: rest => let (a, b) := cutAtGap rest; (c :: a, b)
  | [] => ([], none)

/-- Eight groups, or fewer around one gap. -/
def groupsOk (cs : List Char) : Bool :=
  match cutAtGap cs with
  | (all, none) => groupCount? all == some 8
  | (front, some back) =>
    match groupCount? front, groupCount? back with
    | some a, some b => a + b ≤ 7 && !front.contains '.'
    | _, _ => false

def hostOk (cs : List Char) : Bool :=
  match cs with
  | '[' :: rest => rest.getLast? == some ']' && groupsOk rest.dropLast
  | _ => nameOk cs

def plainHostOk (cs : List Char) : Bool :=
  match cs with
  | '[' :: rest => rest.getLast? == some ']' && groupsOk rest.dropLast
  | _ => !cs.any isForbidden

/-- The host of a file is a drive: a letter, and a colon or a bar. -/
def isDrive : List Char → Bool
  | [a, b] => isLetter a && (b == ':' || b == '|')
  | _ => false

/-- The text is an absolute address. -/
def isAbsolute (s : String) : Bool :=
  match scheme? (clean s.toList) with
  | none => false
  | some (scheme, rest) =>
    let wellKnown := ["http", "https", "ws", "wss", "ftp"].contains scheme
    let slash (c : Char) : Bool := c == '/' || c == '\\'
    if wellKnown then
      let authority := before (fun c => slash c || c == '?' || c == '#') (rest.dropWhile slash)
      let (host, port) := hostAndPort (afterUser authority).1
      hostOk host && portOk port
    else if scheme == "file" then
      match rest with
      | a :: b :: rest =>
        if slash a && slash b then
          let host := before (fun c => slash c || c == '?' || c == '#') rest
          host.isEmpty || isDrive host || hostOk host
        else true
      | _ => true
    else
      match rest with
      | '/' :: '/' :: rest =>
        let authority := before (fun c => c == '/' || c == '?' || c == '#') rest
        let (named, hasUser) := afterUser authority
        let (host, port) := hostAndPort named
        if host.isEmpty then !hasUser && port.isNone else plainHostOk host && portOk port
      | _ => true

end Retrieval.Address
