import Retrieval.Text.Blank
import Retrieval.Tokenizer.Basic

/-!
# Spans and chunks

A span is an interval of a source text. A chunk is a span with what it costs and how much of its
front repeats the chunk before it; the rest is its own region.
-/

namespace Retrieval

/-- The units from `start` up to but not including `stop`. -/
structure Span where
  start : Nat
  stop : Nat
deriving Repr, DecidableEq

namespace Span

def text (src : Text) (s : Span) : Text := src.slice s.start s.stop

def trim (src : Text) (s : Span) : Span :=
  let start := src.skipBlank s.start s.stop
  ⟨start, src.dropBlank start s.stop⟩

def isEmpty (s : Span) : Bool := s.stop ≤ s.start

def whole (src : Text) : Span := ⟨0, src.size⟩

def cost (tok : Tokenizer) (src : Text) (s : Span) : Nat := tok.count (s.text src)

/-- The trimmed span in a list, unless nothing is left of it. -/
def trimmed (src : Text) (s : Span) : List Span :=
  let t := s.trim src
  if t.start < t.stop then [t] else []

end Span

/-- A contiguous part of a source text, its position in the list of chunks, and its cost. -/
structure Chunk where
  index : Nat
  text : Text
  tokenCount : Nat
  start : Nat
  stop : Nat
  /-- how many units at the front repeat the chunk before -/
  overlap : Nat
deriving Repr, DecidableEq

namespace Chunk

/-- Where the chunk's own region begins. -/
def ownStart (c : Chunk) : Nat := c.start + c.overlap

def ownText (c : Chunk) : Text := c.text.slice c.overlap c.text.size

end Chunk
end Retrieval
