import Retrieval.Value.Basic

/-!
# Issues

What is wrong with a value that was sent in: where it stands, what the finding is, and in which
words it is reported. A schema may put its own words in the place of the usual ones.
-/

namespace Retrieval

inductive ValueType where
  | text
  | number
  | nan
  | flag
  | record
  | list
  | null
  | missing
  | whole
  | fractional
  | oneOf (options : List String)
deriving Repr, DecidableEq

namespace ValueType

def quotedOptions (options : List String) : String :=
  " | ".intercalate (options.map fun o => "'" ++ o ++ "'")

def name : ValueType → String
  | text => "string"
  | number => "number"
  | nan => "nan"
  | flag => "boolean"
  | record => "object"
  | list => "array"
  | null => "null"
  | missing => "undefined"
  | whole => "integer"
  | fractional => "float"
  | oneOf options => quotedOptions options

def of : Value → ValueType
  | .absent => missing
  | .null => null
  | .flag _ => flag
  | .number x => if Number.isNan x then nan else number
  | .text _ => text
  | .list _ => list
  | .record _ => record

end ValueType

/-- What a bound counts. -/
inductive Measure where
  | length
  | amount
deriving Repr, DecidableEq

inductive Form where
  | uuid
  | url
deriving Repr, DecidableEq

inductive Finding where
  | wrongType (expected received : ValueType)
  | tooSmall (minimum : Int) (measure : Measure) (inclusive : Bool)
  | tooBig (maximum : Int) (measure : Measure)
  | unlisted (options : List String) (received : String)
  | badForm (form : Form)
  | noAlternative (expected : List ValueType) (received : ValueType)
  | custom
deriving Repr, DecidableEq

/-- A finding at a place, perhaps in the schema's own words. -/
structure Issue where
  path : List String
  finding : Finding
  words : Option String := none
deriving Repr, DecidableEq

namespace Finding

/-- The usual words for a finding. -/
def message : Finding → String
  | wrongType expected received =>
    if received = .missing then "Required"
    else "Expected " ++ expected.name ++ ", received " ++ received.name
  | tooSmall minimum .length _ =>
    "String must contain at least " ++ toString minimum ++ " character(s)"
  | tooSmall minimum .amount inclusive =>
    "Number must be greater than " ++ (if inclusive then "or equal to " else "")
      ++ toString minimum
  | tooBig maximum .length =>
    "String must contain at most " ++ toString maximum ++ " character(s)"
  | tooBig maximum .amount => "Number must be less than or equal to " ++ toString maximum
  | unlisted options received =>
    "Invalid enum value. Expected " ++ ValueType.quotedOptions options ++ ", received '"
      ++ received ++ "'"
  | badForm .uuid => "Invalid uuid"
  | badForm .url => "Invalid url"
  | noAlternative _ _ => "Invalid input"
  | custom => "Invalid input"

end Finding

inductive Rejection where
  /-- it has issues -/
  | issues (found : List Issue)
  /-- it is to be read as a number, and has no text to read -/
  | textless

namespace Issue

def message (i : Issue) : String := i.words.getD i.finding.message

def measureName : Measure → String
  | .length => "string"
  | .amount => "number"

def ofInt (n : Int) : Value :=
  .number (if n < 0 then -(Float.ofNat n.natAbs) else Float.ofNat n.natAbs)

def texts (l : List String) : Value := .list (l.map .text)

/-- The members of an issue that depend on the finding. -/
def details (path : List String) : Finding → List (String × Value)
  | .wrongType (.oneOf options) received =>
    [("expected", .text (ValueType.quotedOptions options)), ("received", .text received.name),
      ("code", .text "invalid_type")]
  | .wrongType expected received =>
    [("code", .text "invalid_type"), ("expected", .text expected.name),
      ("received", .text received.name)]
  | .tooSmall minimum measure inclusive =>
    [("code", .text "too_small"), ("minimum", ofInt minimum),
      ("type", .text (measureName measure)), ("inclusive", .flag inclusive),
      ("exact", .flag false)]
  | .tooBig maximum measure =>
    [("code", .text "too_big"), ("maximum", ofInt maximum),
      ("type", .text (measureName measure)), ("inclusive", .flag true), ("exact", .flag false)]
  | .unlisted options received =>
    [("received", .text received), ("code", .text "invalid_enum_value"),
      ("options", texts options)]
  | .badForm .uuid => [("validation", .text "uuid"), ("code", .text "invalid_string")]
  | .badForm .url => [("validation", .text "url"), ("code", .text "invalid_string")]
  | .noAlternative expected received =>
    let branch (e : ValueType) : Value :=
      .record [("issues", .list [.record
        [("code", .text "invalid_type"), ("expected", .text e.name),
          ("received", .text received.name), ("path", texts path),
          ("message", .text (Finding.wrongType e received).message)]]),
        ("name", .text "ZodError")]
    [("code", .text "invalid_union"), ("unionErrors", .list (expected.map branch))]
  | .custom => [("code", .text "custom")]

/-- The finding comes from a rule on a value of the right type. Rules have words of their own. -/
def isRule : Finding → Bool
  | .tooSmall .. | .tooBig .. | .badForm _ | .custom => true
  | .wrongType expected _ => expected = .whole
  | .unlisted .. | .noAlternative .. => false

/-- An issue as it is reported to a caller. The words of a rule stand before the path. -/
def toValue (i : Issue) : Value :=
  let path := ("path", texts i.path)
  let words := ("message", .text i.message)
  .record (details i.path i.finding ++ if isRule i.finding then [words, path] else [path, words])

end Issue
end Retrieval
