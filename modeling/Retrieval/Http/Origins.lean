import Retrieval.Http.Context
import Retrieval.Http.Exchange

/-!
# Callers from other origins

A response tells from where it may be used. What it tells is set header by header; a value that
cannot stand in a header ends that with a fault, and what was set before stays.
-/

namespace Retrieval.Http.Origins

/-- Headers in the order in which they are set: those up to the first one that cannot be written,
and the fault for that one. -/
def settled : List (String × String) → List (String × String) × Option Fault
  | [] => ([], none)
  | (name, value) :: rest =>
    if Header.isContent value then
      let (more, fault) := settled rest
      ((name.toLower, value) :: more, fault)
    else ([], some (unwritable name))

def allowedMethods : String := "GET,POST,DELETE,OPTIONS"

/-- The origin that stands for all of them. -/
def everywhere : String := "*"

/-- The header that says on which parts of a request the response depends. -/
def varying (names : List String) : List (String × String) :=
  if names.isEmpty then [] else [("Vary", ", ".intercalate names)]

/-- The parts of a request on which the response depends for one origin alone. -/
def dependence (origin : String) : List String := if origin == everywhere then [] else ["Origin"]

def headers (origin : String) : List (String × String) :=
  [("Access-Control-Allow-Origin", origin)] ++ varying (dependence origin)
    ++ [("Access-Control-Expose-Headers", requestIdHeader)]

def wishes : String := "Access-Control-Request-Headers"

def granted (wished : String) : List (String × String) :=
  if wished == "" then [] else [("Access-Control-Allow-Headers", wished)]

/-- The headers of a response to a caller from that origin who asks what it may do. -/
def options (origin wished : String) : List (String × String) :=
  [("Access-Control-Allow-Origin", origin)] ++ varying (dependence origin ++ [wishes])
    ++ [("Access-Control-Allow-Methods", allowedMethods)] ++ granted wished
    ++ [("Access-Control-Expose-Headers", requestIdHeader)]

end Retrieval.Http.Origins
