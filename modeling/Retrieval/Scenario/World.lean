import Retrieval.Embedding.Provider
import Retrieval.Store.Database
import Retrieval.Store.Memory

/-!
# A scripted world

A world in which tasks are run: a clock that moves only when it is told to, identifiers that count
up, tables in memory, and an embedding provider and waits that do what a script says. It keeps the
log and a record of what it was asked.
-/

namespace Retrieval.Scenario

/-- What a scripted collaborator does when it is called: first it may abort the signal, then it may
fail. A provider may otherwise answer with given vectors, or items of the interface. -/
structure Reply where
  abort : Option Fault := none
  error : Option Fault := none
  vectors : Option (List (List Float)) := none
  items : Option (List (Embedding.Item Float)) := none

structure EmbedCall where
  texts : List Text
  model : String
  /-- a signal came with the call -/
  signalled : Bool

inductive Method where
  | createStore
  | findStore
  | listStores
  | deleteStore
  | createFile
  | updateFile
  | findFile
  | listFiles
  | deleteFile
  | saveChunks
  | nearestChunks
  | deleteChunks
deriving Repr, DecidableEq

/-- How a method misbehaves: it fails, or it answers something else than it should. -/
inductive Misbehaviour where
  | raise (fault : Fault)
  | stores (answer : (call : StoreCall) → call.Answer)
  | files (answer : (call : FileCall) → call.Answer)
  | chunks (answer : (call : ChunkCall Float) → call.Answer)

/-- A method that misbehaves the next few times it is called. -/
structure Trouble where
  method : Method
  behaviour : Misbehaviour
  times : Nat

structure Lookup where
  abort : Option Fault
  error : Option Fault
  candidates : List (Candidate Float)

/-- The way in which the provider is reached: directly, or through its interface, which answers with
numbered items in reverse order and refuses to work for a signal that is aborted. -/
inductive Connection where
  | direct
  | interface
deriving DecidableEq

def epoch : Instant := 1705312800000

structure World where
  clock : Instant := epoch
  ids : Nat := 0
  level : LogLevel := .info
  logs : Array LogEntry := #[]
  /-- the signal of the task, if it has one, and its reason once it is aborted -/
  signal : Option (Option Fault) := none
  connection : Connection := .direct
  script : List Reply := []
  waitScript : List Reply := []
  calls : List EmbedCall := []
  waits : List Float := []
  tables : Tables := {}
  troubles : List Trouble := []
  lookup : Option Lookup := none
  lookups : List (NeighborQuery Float) := []
  /-- what goes wrong when the database is asked whether it answers -/
  probeFault : Option Fault := none
  /-- the statements that were sent to the database -/
  statements : List String := []

def identifier (n : Nat) : String :=
  let digits := String.ofList (Nat.toDigits 16 n)
  "00000000-0000-4000-8000-" ++ Decimal.zeros (12 - digits.length) ++ digits

/-- A vector for a text: one more than the number of times each vowel stands in it. -/
def vowelVector (t : Text) : List Float :=
  [97, 101, 105, 111, 117].map fun u => Float.ofNat (1 + t.count u)

namespace World

def newId (w : World) : String × World := (identifier (w.ids + 1), { w with ids := w.ids + 1 })

/-- Writes to the log what is severe enough. -/
def writeLog (w : World) (e : LogEntry) : World :=
  if e.level.rank ≤ w.level.rank then { w with logs := w.logs.push e } else w

def abort (w : World) (reason : Fault) : World :=
  match w.signal with
  | some none => { w with signal := some (some reason) }
  | _ => w

def abort? (w : World) : Option Fault → World
  | some reason => w.abort reason
  | none => w

def reason (w : World) : Option Fault := w.signal.join

/-- The items that the interface answers with by itself: a numbered vector for each text, the last
one first. -/
def usualItems (texts : List Text) : List (Embedding.Item Float) :=
  (texts.zipIdx.map fun (t, i) => (⟨i, vowelVector t⟩ : Embedding.Item Float)).reverse

def embed (w : World) (texts : List Text) (model : String) :
    Except Fault (List (List Float)) × World :=
  let reply := w.script.getD w.calls.length {}
  let w := { w with calls := w.calls ++ [EmbedCall.mk texts model w.signal.isSome] }
  let w := w.abort? reply.abort
  match w.connection with
  | .direct =>
    (match reply.error with
      | some fault => .error fault
      | none => .ok (reply.vectors.getD (texts.map vowelVector)), w)
  | .interface =>
    let answer : Except Fault (List (Embedding.Item Float)) :=
      match w.reason, reply.error with
      | some _, _ => .error (.api .userAbort "Request was aborted.")
      | none, some fault => .error fault
      | none, none => .ok (reply.items.getD (usualItems texts))
    (Embedding.received answer, w)

def wait (w : World) (ms : Float) : Except Fault Unit × World :=
  let reply := w.waitScript.getD w.waits.length {}
  let w := { w with waits := w.waits ++ [ms] }
  let w := w.abort? reply.abort
  (match reply.error, w.reason with
    | some fault, _ => .error fault
    | none, some reason => .error reason
    | none, none => .ok (), w)

def storeMethod : StoreCall → Method
  | .create .. => .createStore
  | .findById _ => .findStore
  | .list _ => .listStores
  | .delete _ => .deleteStore

def fileMethod : FileCall → Method
  | .create _ => .createFile
  | .updateStatus .. => .updateFile
  | .findById .. => .findFile
  | .listByStore _ => .listFiles
  | .delete .. => .deleteFile

def chunkMethod : ChunkCall Float → Method
  | .saveBatch _ => .saveChunks
  | .nearestNeighbors _ => .nearestChunks
  | .deleteByFile _ => .deleteChunks

/-- Takes the misbehaviour of a method that is due, the latest first. -/
def takeTrouble (m : Method) : List Trouble → Option Misbehaviour × List Trouble
  | [] => (none, [])
  | t :: rest =>
    if t.method = m && t.times != 0 then
      (some t.behaviour, { t with times := t.times - 1 } :: rest)
    else
      let (found, rest) := takeTrouble m rest
      (found, t :: rest)

/-- A call on the table of stores. Only a new row takes an identifier. -/
def callStores (w : World) (call : StoreCall) : Except Fault call.Answer × World :=
  let (trouble, troubles) := takeTrouble (storeMethod call) w.troubles
  let w := { w with troubles }
  match trouble with
  | some (.raise fault) => (.error fault, w)
  | some (.stores answer) => (.ok (answer call), w)
  | _ =>
    let (id, numbered) := w.newId
    let (r, tables) := w.tables.callStores w.clock id call
    let w := if storeMethod call = .createStore then numbered else w
    (.ok r, { w with tables })

/-- A call on the table of files. Only a new row takes an identifier. -/
def callFiles (w : World) (call : FileCall) : Except Fault call.Answer × World :=
  let (trouble, troubles) := takeTrouble (fileMethod call) w.troubles
  let w := { w with troubles }
  match trouble with
  | some (.raise fault) => (.error fault, w)
  | some (.files answer) => (.ok (answer call), w)
  | _ =>
    let (id, numbered) := w.newId
    let (r, tables) := w.tables.callFiles w.clock id call
    let w := if fileMethod call = .createFile then numbered else w
    (.ok r, { w with tables })

def callChunks (w : World) (call : ChunkCall Float) : Except Fault call.Answer × World :=
  let (trouble, troubles) := takeTrouble (chunkMethod call) w.troubles
  let w := { w with troubles }
  match trouble with
  | some (.raise fault) => (.error fault, w)
  | some (.chunks answer) => (.ok (answer call), w)
  | _ =>
    match call, w.lookup with
    | .nearestNeighbors query, some script =>
      let w := { w with lookups := w.lookups ++ [query] }
      let w := w.abort? script.abort
      (match script.error with
        | some fault => .error fault
        | none => .ok script.candidates, w)
    | call, _ =>
      let (r, tables) := w.tables.callChunks call
      (.ok r, { w with tables })

/-- What the world answers, and what it is like afterwards. -/
def answer : (e : Effect Float) → World → e.Answer × World
  | .embed texts model, w => w.embed texts model
  | .wait ms, w => w.wait ms
  | .signal, w => (w.reason, w)
  | .now, w => (w.clock, w)
  | .freshId, w => w.newId
  | .log e, w => ((), w.writeLog e)
  | .probe, w =>
    (match w.probeFault with
      | some fault => .error fault
      | none => .ok (), { w with statements := w.statements ++ [Database.probe] })
  | .stores call, w => w.callStores call
  | .files call, w => w.callFiles call
  | .chunks call, w => w.callChunks call

/-- The world at the start of a task, with what its collaborators are going to do, its signal, and
nothing on record. -/
def starting (w : World) (script waitScript : List Reply) (signal : Option (Option Fault)) :
    World :=
  { w with script, waitScript, signal, calls := [], waits := [], statements := [] }

def run {α : Type} (t : Task Float α) (w : World) : Except Fault α × World :=
  Program.run answer t.run w

end World

/-! ## References between the steps of a scenario

A step can name what an earlier one has made: an at sign and the number of the step stand for the
identifier. A reference to a step that made nothing stands for itself. -/

def referent? (ids : List (Option String)) (digits : List Char) : Option String :=
  (Number.natOfDigits? 10 digits).bind fun i => ids[i]?.join

/-- What a text stands for that may be a reference. -/
def resolve (ids : List (Option String)) (text : String) : String :=
  match text.toList with
  | '@' :: digits => (referent? ids digits).getD text
  | _ => text

def resolveAll (ids : List (Option String)) : List Char → List Char
  | [] => []
  | c :: rest =>
    let digits := rest.takeWhile Char.isDigit
    match (if c == '@' then referent? ids digits else none) with
    | some id => id.toList ++ resolveAll ids (rest.drop digits.length)
    | none => c :: resolveAll ids rest
termination_by cs => cs.length

end Retrieval.Scenario
