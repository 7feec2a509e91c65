import Retrieval.Number.Notation

/-!
# Chunk sizes

How many tokens a chunk may cost, and how many of them may repeat the chunk before. Callers ask with
numbers of any kind; only a positive whole size with a smaller whole overlap makes a window.
-/

namespace Retrieval

/-- The size of a chunk and of its overlap, in tokens. -/
structure Window where
  size : Nat
  overlap : Nat
  overlap_lt : overlap < size

namespace Window

inductive Fault where
  | size (got : Float)
  | overlap (got : Float)
  | tooWide (overlap size : Float)

def Fault.message : Fault → String
  | .size got => "chunkSize must be a positive integer, got " ++ Number.text got
  | .overlap got => "overlap must be a non-negative integer, got " ++ Number.text got
  | .tooWide wanted allowed =>
    "overlap (" ++ Number.text wanted ++ ") must be smaller than chunkSize ("
      ++ Number.text allowed ++ ")"

/-- How many tokens a segment may cost, so that a full overlap still fits before it. -/
def budget (w : Window) : Nat := w.size - w.overlap

/-- The window that two numbers ask for. The size is looked at first. -/
def of (size overlap : Float) : Except Fault Window :=
  match Number.natural? size, Number.natural? overlap with
  | some s, some o =>
    if s = 0 then .error (.size size)
    else if h : o < s then .ok ⟨s, o, h⟩
    else .error (.tooWide overlap size)
  | some s, none => if s = 0 then .error (.size size) else .error (.overlap overlap)
  | none, _ => .error (.size size)

/-- What the service uses where a caller asks for nothing. -/
structure Defaults where
  size : Float
  overlap : Float

/-- The window for what a caller asks, on top of the defaults. A size of which nothing else is said
goes with the usual overlap, but with no more than a quarter of itself. -/
def resolve (d : Defaults) (size overlap : Option Float) : Except Fault Window :=
  let size := size.getD d.size
  match overlap, Number.natural? size with
  | some o, _ => of size o
  | none, some s =>
    if Number.isNan d.overlap || Number.below d.overlap (s / 4 : Nat) then of size d.overlap
    else if h : s / 4 < s then .ok ⟨s, s / 4, h⟩
    else .error (.size size)
  | none, none => .error (.size size)

end Window
end Retrieval
