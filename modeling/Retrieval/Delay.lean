import Retrieval.Fault

/-!
# Waiting

A wait ends when its time is over, or at once when the signal that goes with it is aborted before
that. A signal that is aborted at the end or later makes no difference.
-/

namespace Retrieval.Delay

/-- The longest time that a timer can run, in milliseconds. -/
def longest : Nat := 2147483647

/-- The whole milliseconds that a timer runs: at least one, and one as well where more than the
longest time is asked for. -/
def duration (ms : Float) : Nat :=
  match Exact.of ms with
  | .finite false m e =>
    let n := m * twoTo e.toNat / twoTo (-e).toNat
    if 1 ≤ n && n ≤ longest then n else 1
  | _ => 1

/-- When a signal is aborted: before the wait begins, or so many milliseconds after that. -/
inductive Moment where
  | before
  | after (ms : Nat)

/-- How a wait ends whose signal is aborted at some moment for a reason, or not at all. -/
def outcome (ms : Float) : Option (Moment × Fault) → Except Fault Unit
  | none => .ok ()
  | some (.before, reason) => .error reason
  | some (.after t, reason) => if t < duration ms then .error reason else .ok ()

end Retrieval.Delay
