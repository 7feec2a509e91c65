import Retrieval.Number.Reading
import Retrieval.Text.Charset

/-!
# Values of headers

A header's value may have parameters behind it, each with a name and a value. A value is a token or
stands in quotes; a name that ends with an asterisk has a value that tells its character set.
-/

namespace Retrieval.Http.Header

/-! ## Characters -/

def isAlphanumeric (c : Char) : Bool :=
  ('a' ≤ c && c ≤ 'z') || ('A' ≤ c && c ≤ 'Z') || ('0' ≤ c && c ≤ '9')

def isToken (c : Char) : Bool := isAlphanumeric c || "!#$%&'*+-.^_\x60|~".toList.contains c

def isFieldChar (c : Char) : Bool :=
  let n := c.toNat
  n == 9 || (0x20 ≤ n && n ≤ 0x7E) || (0x80 ≤ n && n ≤ 0xFF)

def isContent (s : String) : Bool := s.toList.all isFieldChar

def isQuotable (c : Char) : Bool := isFieldChar c && c != '"' && c != '\\'

def isCharsetChar (c : Char) : Bool :=
  isAlphanumeric c || "!#$%&+-^_\x60\x7b\x7d~".toList.contains c

def isPlainValueChar (c : Char) : Bool := isAlphanumeric c || "!#$&+-.^_\x60|~".toList.contains c

def isGap (c : Char) : Bool := c == ' ' || c == '\t'

/-! ## Values -/

/-- What stands behind a quote up to the next one, and what follows. A backslash takes a quote or
another backslash as it is; before anything else it stands for itself. -/
def quoted? : List Char → Option (List Char × List Char)
  | [] => none
  | '"' :: rest => some ([], rest)
  | '\\' :: c :: rest =>
    if c == '"' || c == '\\' then (quoted? rest).map fun (v, r) => (c :: v, r)
    else if isQuotable c then (quoted? rest).map fun (v, r) => ('\\' :: c :: v, r)
    else none
  | c :: rest => if isQuotable c then (quoted? rest).map fun (v, r) => (c :: v, r) else none

def value? : List Char → Option (List Char × List Char)
  | '"' :: rest => quoted? rest
  | cs =>
    let v := cs.takeWhile isToken
    if v.isEmpty then none else some (v, cs.drop v.length)

def escapedValue? : List Char → Option (List UInt8 × List Char)
  | '%' :: a :: b :: rest =>
    match Number.digit? 16 a, Number.digit? 16 b with
    | some x, some y => (escapedValue? rest).map fun (v, r) => ((16 * x + y).toUInt8 :: v, r)
    | _, _ => none
  | '%' :: _ => none
  | c :: rest =>
    if isPlainValueChar c then
      (escapedValue? rest).map fun (v, r) => (c.toNat.toUInt8 :: v, r)
    else some ([], c :: rest)
  | [] => some ([], [])

def charset? (name : String) : Option Charset :=
  let name := name.toLower
  if ["utf-8", "utf8"].contains name then some .utf8
  else if ["latin1", "ascii", "us-ascii", "iso-8859-1", "iso8859-1", "iso88591", "iso_8859-1",
      "windows-1252", "iso_8859-1:1987", "cp1252", "x-cp1252"].contains name then some .narrow
  else if ["utf16le", "utf-16le", "ucs2", "ucs-2"].contains name then some (.utf16 false)
  else if name == "base64" then some .base64
  else none

/-- The text of some bytes in a character set that is named. No bytes are no text in any of them;
bytes in one that is not known have none. -/
def textIn? (charset : String) (bytes : ByteArray) : Option String :=
  if bytes.isEmpty then some "" else (charset? charset).map (·.decode bytes)

/-- A value behind the name of its character set and a language, with an apostrophe behind either,
and what follows. -/
def extendedValue? (cs : List Char) : Option (String × List Char) :=
  let charset := cs.takeWhile isCharsetChar
  match cs.drop charset.length with
  | '\'' :: behind =>
    match behind.dropWhile (· != '\'') with
    | _ :: c :: rest => do
      let (bytes, rest) ← escapedValue? (c :: rest)
      let text ← textIn? (String.ofList charset) ⟨bytes.toArray⟩
      some (text, rest)
    | _ => none
  | _ => none

/-! ## Parameters -/

/-- The parameters behind a header's value, at most `count` of them, with names in small letters;
`none` if they are not in order. -/
def parametersFrom (read? : List Char → List Char → Option (String × List Char)) :
    Nat → List Char → Option (List (String × String))
  | 0, _ => some []
  | count + 1, cs =>
    match cs.dropWhile isGap with
    | [] => some []
    | ';' :: rest =>
      let rest := rest.dropWhile isGap
      let name := rest.takeWhile isToken
      match rest.drop name.length with
      | '=' :: text => do
        let (value, rest) ← read? name text
        let more ← parametersFrom read? count rest
        some (((String.ofList name).toLower, value) :: more)
      | _ => none
    | _ => none

/-- The parameter of that name; the first one counts. -/
def find? (name : String) (parameters : List (String × String)) : Option String :=
  (parameters.find? (·.1 == name)).map (·.2)

structure ContentType where
  kind : String
  subkind : String
  parameters : List (String × String)

/-- The type of a content that is written in a header. The last parameter may have nothing behind
its equals sign. -/
def contentType? (s : String) : Option ContentType :=
  let cs := s.toList
  let kind := cs.takeWhile isToken
  match cs.drop kind.length with
  | '/' :: rest =>
    let subkind := rest.takeWhile isToken
    if kind.isEmpty || subkind.isEmpty then none
    else
      let read? (_ text : List Char) : Option (String × List Char) :=
        if text.isEmpty then some ("", []) else (value? text).map fun (v, r) => (String.ofList v, r)
      (parametersFrom read? rest.length (rest.drop subkind.length)).map fun parameters =>
        ⟨(String.ofList kind).toLower, (String.ofList subkind).toLower, parameters⟩
  | _ => none

/-- What a part of a form is for. -/
structure Disposition where
  kind : String
  parameters : List (String × String)

/-- A name as it is meant: quotes and line ends are written with percent escapes in it. -/
def unescapedName : List Char → List Char
  | '%' :: '2' :: '2' :: rest => '"' :: unescapedName rest
  | '%' :: '0' :: 'A' :: rest => '\n' :: unescapedName rest
  | '%' :: '0' :: 'D' :: rest => '\r' :: unescapedName rest
  | c :: rest => c :: unescapedName rest
  | [] => []

def disposition? (s : String) : Option Disposition :=
  let cs := s.toList
  let kind := cs.takeWhile isToken
  let read? (name text : List Char) : Option (String × List Char) :=
    if name.getLast? == some '*' then extendedValue? text
    else (value? text).map fun (v, r) => (String.ofList (unescapedName v), r)
  if cs.isEmpty then none
  else
    (parametersFrom read? cs.length (cs.drop kind.length)).map fun parameters =>
      ⟨(String.ofList kind).toLower, parameters⟩

end Retrieval.Http.Header
