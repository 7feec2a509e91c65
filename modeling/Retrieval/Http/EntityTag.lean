import Retrieval.Digest.Sha1
import Retrieval.Text.Base64

/-!
# Tags of contents

A tag tells whether a caller has the same content already. It is made from the size and the digest
of the content. The tag is a weak one: callers may compare it without the mark that says so.
-/

namespace Retrieval.Http.EntityTag

def digestLength : Nat := 27

def of (content : String) : String :=
  let bytes := content.toUTF8
  let size := String.ofList (Nat.toDigits 16 bytes.size)
  let digest := String.ofList ((Base64.encode (Sha1.digest bytes)).take digestLength)
  "W/\"" ++ size ++ "-" ++ digest ++ "\""

def weakMark : String := "W/"

/-- The tag that a caller names is the other one, whether or not either is marked as weak. -/
def agrees (named tag : String) : Bool :=
  named == tag || named == weakMark ++ tag || weakMark ++ named == tag

def list (header : String) : List String :=
  let isSpace (c : Char) : Bool := c == ' '
  (header.toList.splitOn ',').map fun part =>
    String.ofList ((part.dropWhile isSpace).reverse.dropWhile isSpace).reverse

/-- A caller that names those tags has the content with this tag already. -/
def isKnown (header tag : String) : Bool :=
  header == "*" || (list header).any (agrees · tag)

end Retrieval.Http.EntityTag
