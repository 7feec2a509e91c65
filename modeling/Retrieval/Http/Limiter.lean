import Retrieval.Time

/-!
# Limits on the rate of requests

A limiter counts requests in windows of a fixed length. A window starts with the first request after
the end of the one before. Requests that are turned away count as well.
-/

namespace Retrieval.Http

/-- How many requests may come in a window, and how long it is. -/
structure Limiter where
  limit : Nat
  windowMs : Nat

/-- A window: the requests so far, and when it ends. -/
structure Counting where
  hits : Nat
  ends : Instant

namespace Limiter

def outer : Limiter := ⟨1000, 900000⟩

def embedding : Limiter := ⟨60, 60000⟩

def hit (l : Limiter) (now : Instant) (current : Option Counting) : Counting :=
  match current with
  | some c => if c.ends ≤ now then ⟨1, now + l.windowMs⟩ else { c with hits := c.hits + 1 }
  | none => ⟨1, now + l.windowMs⟩

def exceeded (l : Limiter) (c : Counting) : Bool := l.limit < c.hits

/-- The seconds until the end of the window, rounded up. -/
def secondsLeft (c : Counting) (now : Instant) : Nat := ((c.ends - now + 999) / 1000).toNat

def headers (l : Limiter) (c : Counting) (now : Instant) : List (String × String) :=
  [("ratelimit-policy", Nat.repr l.limit ++ ";w=" ++ Nat.repr (l.windowMs / 1000)),
    ("ratelimit-limit", Nat.repr l.limit), ("ratelimit-remaining", Nat.repr (l.limit - c.hits)),
    ("ratelimit-reset", Nat.repr (secondsLeft c now))]

end Limiter
end Retrieval.Http
