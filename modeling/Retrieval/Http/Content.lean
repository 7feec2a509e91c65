import Retrieval.Http.MediaType
import Retrieval.Http.Errors
import Retrieval.Text.Charset
import Retrieval.Value.Reader

/-!
# Contents of requests

The body of a request is read as a value if it is said to be JSON. What is said about it is checked
before it is looked at: its character set, how it is packed, and its size.
-/

namespace Retrieval.Http.Content

def maxBytes : Nat := 10485760

/-! ## Faults -/

def unsupportedCharset (name : String) : Fault :=
  .other "UnsupportedMediaTypeError" ("unsupported charset \"" ++ name.toUpper ++ "\"") none

def unsupportedPacking (name : String) : Fault :=
  .other "UnsupportedMediaTypeError" ("unsupported content encoding \"" ++ name ++ "\"") none

def tooLarge : Fault := .other "PayloadTooLargeError" "request entity too large" none

def malformed (words : String) : Fault := .other "SyntaxError" words none

/-! ## Character sets -/

/-- A name without a version at its end and without anything but letters and digits. -/
def plainName (name : String) : String :=
  let cs := name.toLower.toList
  let digits := (cs.reverse.take 4).all fun c => '0' ≤ c && c ≤ '9'
  let versioned := digits && 5 ≤ cs.length && cs[cs.length - 5]? == some ':'
  let cs := if versioned then cs.take (cs.length - 5) else cs
  String.ofList (cs.filter Header.isAlphanumeric)

def charset? (name : String) : Option Charset :=
  match plainName name with
  | "utf8" => some .utf8
  | "utf16" => some .utf16Marked
  | "utf16le" => some (.utf16 false)
  | "utf16be" => some (.utf16 true)
  | "utf7" => some (.utf7 false)
  | "utf7imap" => some (.utf7 true)
  | _ => none

def charsetName (m : MediaType) : String :=
  let name := ((m.parameter? "charset").getD "").toLower
  if name == "" then "utf-8" else name

def isUnicode (name : String) : Bool := "utf-".toList.isPrefixOf name.toList

/-! ## Packed bodies -/

inductive Packing where
  | none
  | gzip
  | deflate
deriving Repr, DecidableEq

def packing? (name : String) : Option Packing :=
  match name with
  | "identity" => some .none
  | "gzip" => some .gzip
  | "deflate" => some .deflate
  | _ => Option.none

/-- What is wrong with a packed body. What can be sent here is text, and no text is a whole packed
body: its front shows that already, or its end is missing. -/
def unpackFault (packing : Packing) (bytes : ByteArray) : Fault :=
  match packing, bytes[0]?, bytes[1]? with
  | .gzip, some _, some _ => .plain "incorrect header check"
  | .deflate, some a, some b =>
    if (a.toNat * 256 + b.toNat) % 31 != 0 then .plain "incorrect header check"
    else if a.toNat % 16 != 8 then .plain "unknown compression method"
    else if 7 < a.toNat / 16 then .plain "invalid window size"
    else .plain "unexpected end of file"
  | _, _, _ => .plain "unexpected end of file"

/-! ## Values -/

/-- The value that a text of JSON writes, which has to be a list or a record. -/
def valueOf (text : String) : Except Fault Value :=
  let cs := text.toList
  let start := cs.dropWhile Value.Reader.isSpace
  match start.head? with
  | some '\x7b' | some '[' => (Value.ofJson text).mapError malformed
  | _ =>
    .error (malformed (Value.Complaint.unexpectedAt (.ofString text) (cs.length - start.length)))

/-- Reads a body that is said to be JSON. An empty one counts as an empty record. -/
def readJson (m : MediaType) (packed : String) (bytes : ByteArray) : Except Fault Value :=
  let name := charsetName m
  if !isUnicode name then .error (unsupportedCharset name)
  else
    match packing? packed with
    | none => .error (unsupportedPacking packed)
    | some packing =>
      if packing = .none && maxBytes < bytes.size then .error tooLarge
      else
        match charset? name with
        | none => .error (unsupportedCharset name)
        | some charset =>
          if packing = .none then
            let text := charset.decodeUnmarked bytes
            if text.isEmpty then .ok (.record []) else valueOf text
          else .error (unpackFault packing bytes)

end Retrieval.Http.Content
