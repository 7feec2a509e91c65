import Retrieval.Chunk.Basic
import Retrieval.Chunk.Window

/-!
# Splitting a text into chunks

A text that fits the window is one chunk. Any other text is cut into segments that leave room for
the overlap: at paragraphs if it has several, else at lines, else at words, else between code
points. Small neighbours are merged as long as they fit, and what does not fit by itself is cut at
the next finer separator. Then each segment but the first is extended backwards over as many
trailing tokens of the chunk before as the overlap and the size allow.
-/

namespace Retrieval

/-- What separates the parts of a text, coarse to fine. -/
inductive Separator where
  | paragraph
  | line
  | word
deriving Repr, DecidableEq

namespace Separator

def units : Separator → List UInt16
  | paragraph => [10, 10]
  | line => [10]
  | word => [32]

def all : List Separator := [paragraph, line, word]

theorem units_length_pos (sep : Separator) : 0 < sep.units.length := by
  cases sep <;> decide

end Separator

theorem Text.le_of_find? {t : Text} {pattern : List UInt16} {i j : Nat}
    (h : t.find? pattern i = some j) : i ≤ j := by
  fun_induction Text.find? t pattern i with
  | case1 i _ => simp at h; omega
  | case2 i _ _ ih => have := ih h; omega
  | case3 i _ _ => simp at h

namespace Span

/-- Where the part that begins at `start` ends: at the next separator that lies within the span,
else at the span's end. -/
def partEnd (src : Text) (sep : Separator) (stop start : Nat) : Nat :=
  match src.find? sep.units start with
  | some found => if stop < found + sep.units.length then stop else found
  | none => stop

theorem le_partEnd {src : Text} {sep : Separator} {stop start : Nat} (h : start ≤ stop) :
    start ≤ partEnd src sep stop start := by
  unfold partEnd
  split
  · next found hf =>
    split
    · exact h
    · exact Text.le_of_find? hf
  · exact h

def partsFrom (src : Text) (sep : Separator) (stop start : Nat) : List Span :=
  if start ≤ stop then
    let next := partEnd src sep stop start
    let here := trimmed src ⟨start, next⟩
    if next = stop then here
    else here ++ partsFrom src sep stop (next + sep.units.length)
  else []
termination_by stop + 1 - start
decreasing_by
  have := @le_partEnd src sep stop start ‹_›
  have := sep.units_length_pos
  omega

/-- The trimmed parts of a span between separators, blank ones left out. -/
def parts (src : Text) (sep : Separator) (s : Span) : List Span :=
  partsFrom src sep s.stop s.start

def contains (src : Text) (sep : Separator) (s : Span) : Bool :=
  match src.find? sep.units s.start with
  | some found => found + sep.units.length ≤ s.stop
  | none => false

/-- The ends of the code points of a run of units that begins at `pos`. -/
def codePointEnds (pos : Nat) : List UInt16 → List Nat
  | [] => []
  | [_] => [pos + 1]
  | u :: v :: rest =>
    if Text.isLeading u && Text.isTrailing v then (pos + 2) :: codePointEnds (pos + 2) rest
    else (pos + 1) :: codePointEnds (pos + 1) (v :: rest)

/-- The positions between the code points of a span, both ends included. -/
def boundaries (src : Text) (s : Span) : Array Nat :=
  (s.start :: codePointEnds s.start (s.text src).toList).toArray

/-- Binary search in `[low, high)` for the greatest index that fits, from `best` upwards. It trusts
that whatever lies below a fitting index fits too. -/
def lastFit (fits : Nat → Bool) (low high best : Nat) : Nat :=
  if low < high then
    let mid := (low + high - 1) / 2
    if fits mid then lastFit fits (mid + 1) high mid else lastFit fits low mid best
  else best
termination_by high - low

theorem le_lastFit {fits : Nat → Bool} {low high best k : Nat} (hl : k ≤ low) (hb : k ≤ best) :
    k ≤ lastFit fits low high best := by
  fun_induction lastFit fits low high best with
  | case1 low high best _ mid _ ih => exact ih (by omega) (by omega)
  | case2 low high best _ mid _ ih => exact ih hl hb
  | case3 => exact hb

def between (bounds : Array Nat) (i j : Nat) : Span := ⟨bounds.getD i 0, bounds.getD j 0⟩

def cutEnd (tok : Tokenizer) (src : Text) (budget : Nat) (bounds : Array Nat) (i : Nat) : Nat :=
  lastFit (fun j => (between bounds i j).cost tok src ≤ budget) (i + 1) bounds.size (i + 1)

theorem lt_cutEnd (tok : Tokenizer) (src : Text) (budget : Nat) (bounds : Array Nat) (i : Nat) :
    i < cutEnd tok src budget bounds i :=
  le_lastFit (Nat.le_refl (i + 1)) (Nat.le_refl (i + 1))

/-- Cuts between code points from boundary `i` on. Each cut takes as many code points as fit the
budget, and at least one. -/
def cutsFrom (tok : Tokenizer) (src : Text) (budget : Nat) (bounds : Array Nat) (i : Nat) :
    List Span :=
  if i + 1 < bounds.size then
    let next := cutEnd tok src budget bounds i
    trimmed src (between bounds i next) ++ cutsFrom tok src budget bounds next
  else []
termination_by bounds.size - i
decreasing_by
  have := lt_cutEnd tok src budget bounds i
  omega

/-- The longest runs of code points that fit the budget, trimmed. -/
def cuts (tok : Tokenizer) (src : Text) (budget : Nat) (s : Span) : List Span :=
  cutsFrom tok src budget (boundaries src s) 0

/-- A run of parts that is being merged, and an upper estimate of what it costs. -/
structure Run where
  span : Span
  estimate : Nat

/-- The segments of a finished run: itself when it fits once it is measured as a whole, else what
`finer` makes of it. -/
def settle (tok : Tokenizer) (src : Text) (budget : Nat) (finer : Span → List Span) :
    Option Run → List Span
  | none => []
  | some r => if budget < r.span.cost tok src then finer r.span else [r.span]

/-- The run extended to the end of a part, with a cost within the budget. The cost of the gap and
the part is added to the estimate; only when the sum is too large is the whole measured. -/
def extend? (tok : Tokenizer) (src : Text) (budget : Nat) (r : Run) (part : Span) : Option Run :=
  let grown : Span := ⟨r.span.start, part.stop⟩
  let estimate := r.estimate + cost tok src ⟨r.span.stop, part.stop⟩
  let merged := if estimate ≤ budget then estimate else grown.cost tok src
  if merged ≤ budget then some ⟨grown, merged⟩ else none

/-- Merges neighbouring parts while they fit, and hands parts that are too large to `finer`. -/
def merge (tok : Tokenizer) (src : Text) (budget : Nat) (finer : Span → List Span) :
    Option Run → List Span → List Span
  | run, [] => settle tok src budget finer run
  | run, part :: rest =>
    let alone := part.cost tok src
    if budget < alone then
      settle tok src budget finer run ++ finer part ++ merge tok src budget finer none rest
    else
      match run with
      | none => merge tok src budget finer (some ⟨part, alone⟩) rest
      | some r =>
        match extend? tok src budget r part with
        | some grown => merge tok src budget finer (some grown) rest
        | none =>
          settle tok src budget finer run
            ++ merge tok src budget finer (some ⟨part, alone⟩) rest

def segments (tok : Tokenizer) (src : Text) (budget : Nat) : List Separator → Span → List Span
  | separators, s =>
    if s.cost tok src ≤ budget then [s]
    else
      match separators with
      | [] => cuts tok src budget s
      | sep :: finer =>
        if s.contains src sep then
          merge tok src budget (segments tok src budget finer) none (parts src sep s)
        else segments tok src budget finer s

end Span

/-! ## Overlap -/

namespace Chunk

/-- The tokens carried over from the chunk before: the most, up to `take`, whose text without
leading blanks ends that chunk and whose extension of the segment still fits. -/
def carried? (tok : Tokenizer) (src : Text) (size : Nat) (previous : Chunk)
    (tokens : List tok.Token) (segment : Span) : Nat → Option Span
  | 0 => none
  | take + 1 =>
    let tail := (tok.decode (tokens.drop (tokens.length - (take + 1)))).trimStart
    let extended : Span := ⟨previous.stop - tail.size, segment.stop⟩
    if !tail.isEmpty && previous.text.endsWith tail && extended.cost tok src ≤ size then
      some extended
    else carried? tok src size previous tokens segment take

/-- The span of a chunk: its segment, extended over the end of the chunk before. -/
def extended (tok : Tokenizer) (src : Text) (w : Window) (previous : Option Chunk)
    (segment : Span) : Span :=
  match previous with
  | none => segment
  | some p =>
    if w.overlap = 0 then segment
    else
      let tokens := tok.encode p.text
      (carried? tok src w.size p tokens segment (min w.overlap tokens.length)).getD segment

def ofSegment (tok : Tokenizer) (src : Text) (w : Window) (index : Nat) (previous : Option Chunk)
    (segment : Span) : Chunk :=
  let s := extended tok src w previous segment
  ⟨index, s.text src, s.cost tok src, s.start, s.stop, segment.start - s.start⟩

def ofSegments (tok : Tokenizer) (src : Text) (w : Window) (index : Nat)
    (previous : Option Chunk) : List Span → List Chunk
  | [] => []
  | segment :: rest =>
    let c := ofSegment tok src w index previous segment
    c :: ofSegments tok src w (index + 1) (some c) rest

end Chunk

/-! ## The whole text -/

def split (tok : Tokenizer) (w : Window) (src : Text) : List Chunk :=
  let whole := (Span.whole src).trim src
  if whole.isEmpty then []
  else
    let cost := whole.cost tok src
    if cost ≤ w.size then [⟨0, whole.text src, cost, whole.start, whole.stop, 0⟩]
    else Chunk.ofSegments tok src w 0 none (Span.segments tok src w.budget Separator.all whole)

/-! ## Splitting under a signal -/

/-- A signal that can end the work: how often it may still be read before it says so. -/
inductive Watch where
  | never
  | after (reads : Nat)

namespace Watch

/-- Reads the signal once; nothing is left when it says that the work has to end. -/
def read? : Watch → Option Watch
  | never => some never
  | after 0 => none
  | after (n + 1) => some (after n)

/-- Hands out the elements of a list, with the signal read before each one. -/
def pass? {α : Type} : Watch → List α → Option (List α)
  | _, [] => some []
  | w, a :: rest => w.read?.bind fun w => (pass? w rest).map (a :: ·)

end Watch

/-- The chunks of a text, unless the signal ends the work first. It is read once before anything
else and once before each paragraph of a text that is cut at paragraphs. -/
def splitWatched? (watch : Watch) (tok : Tokenizer) (w : Window) (src : Text) :
    Option (List Chunk) :=
  watch.read?.bind fun watch =>
    let whole := (Span.whole src).trim src
    if whole.isEmpty then some []
    else
      let cost := whole.cost tok src
      if cost ≤ w.size then some [⟨0, whole.text src, cost, whole.start, whole.stop, 0⟩]
      else
        let finer := Span.segments tok src w.budget [.line, .word]
        let segments :=
          if whole.contains src .paragraph then
            (watch.pass? (whole.parts src .paragraph)).map
              (Span.merge tok src w.budget finer none)
          else some (finer whole)
        segments.map (Chunk.ofSegments tok src w 0 none)

end Retrieval
