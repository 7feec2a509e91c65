import Retrieval.Value.Basic

/-!
# Statements

A statement for the database is written from fixed text and bound values. Each bound value appears
in the text as a numbered placeholder only, in order of appearance.
-/

namespace Retrieval

inductive Piece where
  | text (s : String)
  | bound (v : Value)

structure Statement where
  sql : String
  params : List Value

namespace Statement

def valuesOf (pieces : List Piece) : List Value :=
  pieces.filterMap fun
    | .text _ => none
    | .bound v => some v

/-- The text of the pieces, with placeholders from number `n` on. -/
def textOf (n : Nat) : List Piece → String
  | [] => ""
  | .text s :: rest => s ++ textOf n rest
  | .bound _ :: rest => "$" ++ Nat.repr n ++ textOf (n + 1) rest

def write (out : String) (n : Nat) : List Piece → String
  | [] => out
  | .text s :: rest => write (out ++ s) n rest
  | .bound _ :: rest => write (out ++ "$" ++ Nat.repr n) (n + 1) rest

theorem write_eq (out : String) (n : Nat) (pieces : List Piece) :
    write out n pieces = out ++ textOf n pieces := by
  induction pieces generalizing out n with
  | nil => simp [write, textOf]
  | cons p rest ih => cases p <;> simp [write, textOf, ih, String.append_assoc]

def of (pieces : List Piece) : Statement := ⟨write "" 1 pieces, valuesOf pieces⟩

theorem of_eq (pieces : List Piece) : of pieces = ⟨textOf 1 pieces, valuesOf pieces⟩ := by
  rw [of, write_eq, String.empty_append]

def joined (separator : String) : List (List Piece) → List Piece
  | [] => []
  | [p] => p
  | p :: rest => p ++ .text separator :: joined separator rest

end Statement
end Retrieval
