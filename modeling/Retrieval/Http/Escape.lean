import Retrieval.Number.Reading
import Retrieval.Text.Utf8

/-!
# Escapes in addresses and pages

Percent escapes stand for the bytes of a text. Reading them is strict for the parts of a path and
lenient for a query, where text with a malformed escape stands for itself.
-/

namespace Retrieval.Http

/-- The bytes of a text with percent escapes, last first; `none` for an escape without two digits.
-/
def unescapeOnto (seen : List UInt8) : List Char → Option (List UInt8)
  | [] => some seen
  | '%' :: a :: b :: rest =>
    match Number.digit? 16 a, Number.digit? 16 b with
    | some x, some y => unescapeOnto ((16 * x + y).toUInt8 :: seen) rest
    | _, _ => none
  | '%' :: _ => none
  | c :: rest => unescapeOnto ((Utf8.bytesOf c.toNat).reverse ++ seen) rest

def unescape? (cs : List Char) : Option String :=
  (unescapeOnto [] cs).bind fun bytes => String.fromUTF8? ⟨bytes.reverse.toArray⟩

/-- The text of a part of a query: a plus sign is a space. -/
def queryText (cs : List Char) : String :=
  let spaced := cs.map fun c => if c == '+' then ' ' else c
  (unescape? spaced).getD (String.ofList spaced)

def isPlain (c : Char) : Bool :=
  let n := c.toNat
  n == 0x21 || (0x23 ≤ n && n ≤ 0x3B) || n == 0x3D || (0x3F ≤ n && n ≤ 0x5F)
    || (0x61 ≤ n && n ≤ 0x7A) || n == 0x7C || n == 0x7E

def capitalDigit (n : Nat) : Char := ((Nat.toDigits 16 (n % 16)).headD '0').toUpper

def escaped (c : Char) : List Char :=
  (Utf8.bytesOf c.toNat).flatMap fun b =>
    ['%', capitalDigit (b.toNat / 16), capitalDigit b.toNat]

/-- An address with escapes for what may not stand in it; escapes that are there already stay. -/
def escapePath : List Char → List Char
  | '%' :: a :: b :: rest =>
    if (Number.digit? 16 a).isSome && (Number.digit? 16 b).isSome then
      '%' :: a :: b :: escapePath rest
    else '%' :: '2' :: '5' :: escapePath (a :: b :: rest)
  | '%' :: rest => '%' :: '2' :: '5' :: escapePath rest
  | c :: rest => (if isPlain c then [c] else escaped c) ++ escapePath rest
  | [] => []

def pageChar (c : Char) : List Char :=
  match c with
  | '&' => "&amp;".toList
  | '<' => "&lt;".toList
  | '>' => "&gt;".toList
  | '"' => "&quot;".toList
  | '\'' => "&#39;".toList
  | c => [c]

/-- A text as it stands in a page. Lines and pairs of spaces are kept apart. -/
def pageText : List Char → List Char
  | [] => []
  | '\n' :: rest => "<br>".toList ++ pageText rest
  | ' ' :: ' ' :: rest => " &nbsp;".toList ++ pageText rest
  | c :: rest => pageChar c ++ pageText rest

def notFoundPage (method path : String) : String :=
  "<!DOCTYPE html>\n<html lang=\"en\">\n<head>\n<meta charset=\"utf-8\">\n<title>Error</title>\n"
    ++ "</head>\n<body>\n<pre>"
    ++ String.ofList (pageText (("Cannot " ++ method ++ " ").toList ++ escapePath path.toList))
    ++ "</pre>\n</body>\n</html>\n"

end Retrieval.Http
