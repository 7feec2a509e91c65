import Retrieval.Value.Printer

/-!
# The log

An entry has a level, a message and data. A log keeps the entries that are at least as severe as its
own level.
-/

namespace Retrieval

/-- How severe an entry is, the most severe first. -/
inductive LogLevel where
  | error
  | warn
  | info
  | http
  | verbose
  | debug
  | silly
deriving Repr, DecidableEq

namespace LogLevel

def name : LogLevel → String
  | error => "error"
  | warn => "warn"
  | info => "info"
  | http => "http"
  | verbose => "verbose"
  | debug => "debug"
  | silly => "silly"

def all : List LogLevel := [error, warn, info, http, verbose, debug, silly]

def rank : LogLevel → Nat
  | error => 0
  | warn => 1
  | info => 2
  | http => 3
  | verbose => 4
  | debug => 5
  | silly => 6

def ofName (s : String) : LogLevel := (all.find? (·.name == s)).getD info

end LogLevel

/-- An entry of the log. The message is a text, unless something was raised that brought other words
or none. -/
structure LogEntry where
  level : LogLevel
  message : Value
  data : List (String × Value)

namespace LogEntry

/-- The text holds a mark that asks for a value to be filled in. -/
def hasMark : List Char → Bool
  | '%' :: c :: rest => "scdjifoO%".toList.contains c || hasMark (c :: rest)
  | _ :: rest => hasMark rest
  | [] => false

/-- The message with the one that the data bring along behind it. -/
def fullMessage (message : String) (data : List (String × Value)) : String :=
  match Value.lookup "message" data with
  | .text "" => message
  | .text more => message ++ " " ++ more
  | _ => message

/-- The entry as it is written: level, message and data. The data of a message with a mark are taken
to be fillings, and are not written. -/
def written (e : LogEntry) : Value :=
  let base (message : Value) : List (String × Value) :=
    [("level", .text e.level.name), ("message", message)]
  let data := e.data.filter fun m => m.1 != "level" && m.1 != "message"
  let members :=
    match e.message with
    | .text message =>
      if hasMark message.toList then base (.text message)
      else base (.text (fullMessage message e.data)) ++ data
    | message => base message ++ data
  (Value.ofPresent members).stored

end LogEntry
end Retrieval
