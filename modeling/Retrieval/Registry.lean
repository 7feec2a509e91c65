import Retrieval.Fault

/-!
# A registry of services

For each kind of service a factory is registered, which is run when the service is first asked for.
What it makes is kept and handed out from then on, whatever is registered later. A factory that
fails leaves nothing behind.
-/

namespace Retrieval

/-- The factories and what they have made, by kind. `κ` is the type of kinds, `φ` that of factories
and `σ` that of services. -/
structure Registry (κ φ σ : Type) where
  factories : List (κ × φ) := []
  made : List (κ × σ) := []

namespace Registry

/-- How the answers of two registries are worded: the one for tables and the one for services. -/
inductive Wording where
  | tables
  | services
deriving Repr, DecidableEq

namespace Wording

def missing : Wording → String → String
  | tables, kind => kind ++ " not registered"
  | services, kind => "Service " ++ kind ++ " not registered"

def wrongKind : Wording → String → String
  | tables, kind => "Registered " ++ kind ++ " does not extend it"
  | services, kind => "Service " ++ kind ++ " factory returned another type"

end Wording

variable {κ φ σ α : Type}

/-- The service that has been made is handed out if it is of the kind that was asked for. -/
def handOut (wording : Wording) (name : κ → String) (isA : σ → κ → Bool) (kind : κ) (s : σ) :
    Except Fault σ :=
  if isA s kind then .ok s else .error (.plain (wording.wrongKind (name kind)))

variable [DecidableEq κ]

def lookup? (kind : κ) (entries : List (κ × α)) : Option α :=
  (entries.find? (·.1 == kind)).map (·.2)

def setEntry (kind : κ) (a : α) (entries : List (κ × α)) : List (κ × α) :=
  (kind, a) :: entries.filter (·.1 != kind)

def register (r : Registry κ φ σ) (kind : κ) (factory : φ) : Registry κ φ σ :=
  { r with factories := setEntry kind factory r.factories }

/-- Asks for a service. A factory is run only where nothing has been made yet; running it may change
the state `τ`. Two kinds may have one name: it is for the answers only. -/
def get {τ : Type} (wording : Wording) (name : κ → String) (isA : σ → κ → Bool)
    (make : φ → τ → Except Fault σ × τ) (r : Registry κ φ σ) (kind : κ) (t : τ) :
    Except Fault σ × Registry κ φ σ × τ :=
  match lookup? kind r.made with
  | some s => (handOut wording name isA kind s, r, t)
  | none =>
    match lookup? kind r.factories with
    | none => (.error (.plain (wording.missing (name kind))), r, t)
    | some factory =>
      match make factory t with
      | (.error fault, t) => (.error fault, r, t)
      | (.ok s, t) =>
        (handOut wording name isA kind s, { r with made := setEntry kind s r.made }, t)

end Registry
end Retrieval
