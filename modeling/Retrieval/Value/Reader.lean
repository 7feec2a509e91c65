import Retrieval.Number.Reading
import Retrieval.Value.Basic
import Retrieval.Value.Complaint

/-!
# Reading JSON text

A strict reader that takes one character at a time. What is open around the character is a stack of
frames; what may follow is a mode. Every character is looked at once, so a text of any depth is read
in one pass. Reading stops at the first character that does not fit, with a complaint about it.
-/

namespace Retrieval.Value

/-- A list or record that is still open, its parts last first. -/
inductive Frame where
  | items (seen : List Value)
  | members (seen : List (String × Value)) (name : String)

/-- How far a number has come. -/
inductive Phase where
  | minus
  | zero
  | whole
  | point
  | fraction
  | mark
  | markSign
  | exponent
deriving Repr, DecidableEq

namespace Phase

def missing? : Phase → Option Complaint
  | minus => some .loneMinus
  | point => some .noFraction
  | mark | markSign => some .noExponent
  | zero | whole | fraction | exponent => none

/-- The phase behind a digit. A zero is not followed by another digit. -/
def digit : Phase → Char → Except Complaint Phase
  | minus, c => .ok (if c == '0' then zero else whole)
  | zero, _ => .error .unexpectedNumber
  | whole, _ => .ok whole
  | point, _ | fraction, _ => .ok fraction
  | mark, _ | markSign, _ | exponent, _ => .ok exponent

/-- The phase behind a character that is no digit, if the number goes on with it. -/
def other? : Phase → Char → Option Phase
  | zero, '.' | whole, '.' => some point
  | zero, 'e' | zero, 'E' | whole, 'e' | whole, 'E' | fraction, 'e' | fraction, 'E' => some mark
  | mark, '+' | mark, '-' => some markSign
  | _, _ => none

/-- The phase behind a character, or nothing if the number ends in front of it. -/
def next (p : Phase) (c : Char) : Except Complaint (Option Phase) :=
  if c.isDigit then (p.digit c).map some
  else
    match p.other? c, p.missing? with
    | some q, _ => .ok (some q)
    | none, some complaint => .error complaint
    | none, none => .ok none

end Phase

inductive Mode where
  /-- a value, or the end of an empty list -/
  | value (mayClose : Bool)
  /-- a member's name, or the end of an empty record -/
  | name (mayClose : Bool)
  /-- the colon behind a name -/
  | colon
  /-- a comma or the end of the list or record -/
  | next
  /-- nothing but blanks -/
  | done (v : Value)
  /-- the rest of a quoted text -/
  | quoted (naming : Bool) (seen : List Nat)
  /-- the character behind a backslash -/
  | escaped (naming : Bool) (seen : List Nat)
  /-- hexadecimal digits of a code unit -/
  | unit (naming : Bool) (seen : List Nat) (missing : Nat) (value : Nat)
  /-- the rest of a fixed word -/
  | word (rest : List Char) (v : Value)
  /-- the rest of a number -/
  | digits (phase : Phase) (seen : List Char)

/-- A reader in the middle of a text. -/
structure Reader where
  stack : List Frame := []
  mode : Mode := .value false

namespace Reader

def isSpace (c : Char) : Bool := c == ' ' || c == '\n' || c == '\t' || c == '\r'

def settle (stack : List Frame) (v : Value) : Reader :=
  match stack with
  | [] => ⟨[], .done v⟩
  | .items seen :: outer => ⟨.items (v :: seen) :: outer, .next⟩
  | .members seen name :: outer => ⟨.members ((name, v) :: seen) name :: outer, .next⟩

/-- Adds a code unit to a quoted text; the halves of a pair become one code point. -/
def pushUnit (seen : List Nat) (u : Nat) : List Nat :=
  match seen with
  | lead :: rest =>
    if Text.isLeading lead.toUInt16 && lead < 0x10000 && Text.isTrailing u.toUInt16 then
      Text.joined lead.toUInt16 u.toUInt16 :: rest
    else u :: seen
  | [] => [u]

def textOf (seen : List Nat) : String := String.ofList (seen.reverse.map Text.charOf)

def settleText (stack : List Frame) (naming : Bool) (seen : List Nat) : Reader :=
  if naming then
    match stack with
    | .members done _ :: outer => ⟨.members done (textOf seen) :: outer, .colon⟩
    | stack => ⟨stack, .colon⟩
  else settle stack (.text (textOf seen))

def numberOf (seen : List Char) : Value := .number (Number.ofText (String.ofList seen.reverse))

def begin (stack : List Frame) (c : Char) : Except Complaint Reader :=
  match c with
  | '"' => .ok ⟨stack, .quoted false []⟩
  | '[' => .ok ⟨.items [] :: stack, .value true⟩
  | '{' => .ok ⟨.members [] "" :: stack, .name true⟩
  | 't' => .ok ⟨stack, .word "rue".toList (.flag true)⟩
  | 'f' => .ok ⟨stack, .word "alse".toList (.flag false)⟩
  | 'n' => .ok ⟨stack, .word "ull".toList .null⟩
  | '-' => .ok ⟨stack, .digits .minus [c]⟩
  | '0' => .ok ⟨stack, .digits .zero [c]⟩
  | c => if c.isDigit then .ok ⟨stack, .digits .whole [c]⟩ else .error .unexpected

def close? (stack : List Frame) (c : Char) : Option Reader :=
  match stack, c with
  | .items seen :: outer, ']' => some (settle outer (.list seen.reverse))
  | .members seen _ :: outer, '}' => some (settle outer (ofMembers seen.reverse))
  | _, _ => none

def missingNext : List Frame → Complaint
  | [] => .trailing
  | .items _ :: _ => .noCommaOrListEnd
  | .members .. :: _ => .noCommaOrRecordEnd

/-- Takes the character behind a complete part. Behind the whole text only blanks may follow. -/
def follow (r : Reader) (c : Char) : Except Complaint Reader :=
  if isSpace c then .ok r
  else
    match r.stack, c with
    | .items seen :: outer, ',' => .ok ⟨.items seen :: outer, .value false⟩
    | .members seen name :: outer, ',' => .ok ⟨.members seen name :: outer, .name false⟩
    | stack, c =>
      match close? stack c with
      | some r => .ok r
      | none => .error (missingNext stack)

def escape? (c : Char) : Option Nat :=
  match c with
  | '"' | '\\' | '/' => some c.toNat
  | 'b' => some 8
  | 'f' => some 12
  | 'n' => some 10
  | 'r' => some 13
  | 't' => some 9
  | _ => none

def wrongInWord (c : Char) : Complaint :=
  if c == '"' then .unexpectedText
  else if c.isDigit || c == '-' then .unexpectedNumber
  else .unexpected

def missingName (mayClose : Bool) : Complaint := if mayClose then .noNameOrEnd else .noName

/-- Takes one character. -/
def step (r : Reader) (c : Char) : Except Complaint Reader :=
  match r.mode with
  | .value mayClose =>
    if isSpace c then .ok r
    else
      match if mayClose && c == ']' then close? r.stack c else none with
      | some r => .ok r
      | none => begin r.stack c
  | .name mayClose =>
    if isSpace c then .ok r
    else if c == '"' then .ok ⟨r.stack, .quoted true []⟩
    else
      match if mayClose then close? r.stack c else none with
      | some r => .ok r
      | none => .error (missingName mayClose)
  | .colon =>
    if isSpace c then .ok r
    else if c == ':' then .ok ⟨r.stack, .value false⟩
    else .error .noColon
  | .next | .done _ => follow r c
  | .quoted naming seen =>
    if c == '"' then .ok (settleText r.stack naming seen)
    else if c == '\\' then .ok ⟨r.stack, .escaped naming seen⟩
    else if c.toNat < 32 then .error .control
    else .ok ⟨r.stack, .quoted naming (c.toNat :: seen)⟩
  | .escaped naming seen =>
    if c == 'u' then .ok ⟨r.stack, .unit naming seen 4 0⟩
    else
      match escape? c with
      | some n => .ok ⟨r.stack, .quoted naming (n :: seen)⟩
      | none => .error .badEscape
  | .unit naming seen missing value =>
    match Number.digit? 16 c with
    | none => .error .badUnit
    | some d =>
      let value := 16 * value + d
      if missing ≤ 1 then .ok ⟨r.stack, .quoted naming (pushUnit seen value)⟩
      else .ok ⟨r.stack, .unit naming seen (missing - 1) value⟩
  | .word rest v =>
    match rest with
    | [] => .error .unexpected
    | [d] => if c == d then .ok (settle r.stack v) else .error (wrongInWord c)
    | d :: rest => if c == d then .ok ⟨r.stack, .word rest v⟩ else .error (wrongInWord c)
  | .digits phase seen =>
    match phase.next c with
    | .error complaint => .error complaint
    | .ok (some phase) => .ok ⟨r.stack, .digits phase (c :: seen)⟩
    | .ok none => follow (settle r.stack (numberOf seen)) c

def finish (r : Reader) : Except Complaint Value :=
  match r.mode with
  | .done v => .ok v
  | .value _ | .word .. => .error .unexpected
  | .name mayClose => .error (missingName mayClose)
  | .colon => .error .noColon
  | .next => .error (missingNext r.stack)
  | .quoted .. => .error .openText
  | .escaped .. => .error .badEscape
  | .unit .. => .error .badUnit
  | .digits phase seen =>
    match phase.missing?, r.stack with
    | some complaint, _ => .error complaint
    | none, [] => .ok (numberOf seen)
    | none, stack => .error (missingNext stack)

/-- Reads the rest of a text. A complaint comes with what was left when it arose. -/
def readRest (r : Reader) : List Char → Except (Complaint × List Char) Value
  | [] => r.finish.mapError (·, [])
  | c :: rest =>
    match r.step c with
    | .ok r => readRest r rest
    | .error complaint => .error (complaint, c :: rest)

end Reader

/-- The value that a JSON text writes, or a report of what is wrong with it. -/
def ofJson (s : String) : Except String Value :=
  let cs := s.toList
  (Reader.readRest {} cs).mapError fun (complaint, rest) =>
    let front := String.ofList (cs.take (cs.length - rest.length))
    complaint.report (.ofString s) (unitCount front)

def ofJson? (s : String) : Option Value := (Reader.readRest {} s.toList).toOption

end Retrieval.Value
