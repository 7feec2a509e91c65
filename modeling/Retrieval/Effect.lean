import Retrieval.Fault
import Retrieval.Log
import Retrieval.Program
import Retrieval.Store.Entities

/-!
# What the service asks of the world

The embedding provider, a wait, the signal by which a caller gives a request up, the clock, a new
identifier, the log, and the three tables. Tasks are programs that ask for these and may fail.
-/

namespace Retrieval

inductive Effect (δ : Type) where
  | embed (texts : List Text) (model : String)
  | wait (ms : Float)
  /-- has the caller given the request up, and why -/
  | signal
  | now
  | freshId
  | log (entry : LogEntry)
  /-- does the database answer -/
  | probe
  | stores (call : StoreCall)
  | files (call : FileCall)
  | chunks (call : ChunkCall δ)

/-- What the world answers. Collaborators may fail. -/
@[reducible] def Effect.Answer {δ : Type} : Effect δ → Type
  | embed .. => Except Fault (List (List δ))
  | wait _ => Except Fault Unit
  | signal => Option Fault
  | now => Instant
  | freshId => String
  | log _ => Unit
  | probe => Except Fault Unit
  | stores call => Except Fault call.Answer
  | files call => Except Fault call.Answer
  | chunks call => Except Fault call.Answer

/-- Work that asks the world and may fail. -/
abbrev Task (δ : Type) := ExceptT Fault (Program (Effect δ) Effect.Answer)

namespace Task

variable {δ α : Type}

/-- Asks a question that is always answered. -/
def ask (e : Effect δ) : Task δ e.Answer := ExceptT.lift (Program.perform e)

/-- A task that only passes a result or a fault on. -/
def lift (e : Except Fault α) : Task δ α := ExceptT.mk (pure e)

def outcome (t : Task δ α) : Task δ (Except Fault α) := ExceptT.lift t.run

def signal : Task δ (Option Fault) := ask .signal

def now : Task δ Instant := ask .now

def freshId : Task δ String := ask .freshId

def log (level : LogLevel) (message : String) (data : List (String × Value)) : Task δ Unit :=
  ask (.log ⟨level, .text message, data⟩)

def embed (texts : List Text) (model : String) : Task δ (Except Fault (List (List δ))) :=
  ask (.embed texts model)

def wait (ms : Float) : Task δ (Except Fault Unit) := ask (.wait ms)

def probe : Task δ (Except Fault Unit) := ask .probe

def stores (call : StoreCall) : Task δ call.Answer :=
  ExceptT.mk (Program.perform (Effect.stores call : Effect δ))

def files (call : FileCall) : Task δ call.Answer :=
  ExceptT.mk (Program.perform (Effect.files call : Effect δ))

def chunks (call : ChunkCall δ) : Task δ call.Answer :=
  ExceptT.mk (Program.perform (Effect.chunks call : Effect δ))

end Task
end Retrieval
