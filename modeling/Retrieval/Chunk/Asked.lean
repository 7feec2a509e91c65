import Retrieval.Chunk.Split
import Retrieval.Effect

/-!
# Splitting with the signal asked on the way

The split as a task. The caller's signal is asked before anything else, and again at each part that
lies between paragraphs; the cut at a finer separator gets to see the signal too, but asks nothing.
Once the caller has given up, no chunk is handed out.
-/

namespace Retrieval

variable {δ : Type}

/-- Asks the signal, and stops when the caller has given up. -/
def heed : Task δ Unit := do
  match ← Task.signal with
  | some reason => throw (.cancelled "Chunking cancelled" (some reason))
  | none => pure ()

/-- Asks the signal where a text is cut at paragraphs. -/
def heedAt (sep : Separator) : Task δ Unit := if sep = .paragraph then heed else pure ()

namespace Span

/-- The segments of a finished run, as `settle` makes them, when `finer` is a task. -/
def settleAsked (tok : Tokenizer) (src : Text) (budget : Nat) (finer : Span → Task δ (List Span)) :
    Option Run → Task δ (List Span)
  | none => pure []
  | some r => if budget < r.span.cost tok src then finer r.span else pure [r.span]

/-- Merges neighbouring parts as `merge` does, with the signal asked at each part of a text that is
cut at paragraphs. -/
def mergeAsked (tok : Tokenizer) (src : Text) (budget : Nat) (sep : Separator)
    (finer : Span → Task δ (List Span)) : Option Run → List Span → Task δ (List Span)
  | run, [] => settleAsked tok src budget finer run
  | run, part :: rest => do
    heedAt sep
    let alone := part.cost tok src
    if budget < alone then
      let settled ← settleAsked tok src budget finer run
      let cut ← finer part
      let more ← mergeAsked tok src budget sep finer none rest
      pure (settled ++ cut ++ more)
    else
      match run with
      | none => mergeAsked tok src budget sep finer (some ⟨part, alone⟩) rest
      | some r =>
        match extend? tok src budget r part with
        | some grown => mergeAsked tok src budget sep finer (some grown) rest
        | none =>
          let settled ← settleAsked tok src budget finer run
          let more ← mergeAsked tok src budget sep finer (some ⟨part, alone⟩) rest
          pure (settled ++ more)

/-- The segments of a trimmed span, with the separators that may still be used. -/
def segmentsAsked (tok : Tokenizer) (src : Text) (budget : Nat) :
    List Separator → Span → Task δ (List Span)
  | separators, s =>
    if s.cost tok src ≤ budget then pure [s]
    else
      match separators with
      | [] => pure (cuts tok src budget s)
      | sep :: finer =>
        if s.contains src sep then
          mergeAsked tok src budget sep (segmentsAsked tok src budget finer) none (parts src sep s)
        else segmentsAsked tok src budget finer s

end Span

def splitHeeding (tok : Tokenizer) (w : Window) (src : Text) : Task δ (List Chunk) := do
  heed
  let whole := (Span.whole src).trim src
  if whole.isEmpty then pure []
  else
    let cost := whole.cost tok src
    if cost ≤ w.size then pure [⟨0, whole.text src, cost, whole.start, whole.stop, 0⟩]
    else
      let segments ← Span.segmentsAsked tok src w.budget Separator.all whole
      pure (Chunk.ofSegments tok src w 0 none segments)

def splitAsked (tok : Tokenizer) (size overlap : Float) (src : Text) : Task δ (List Chunk) :=
  match Window.of size overlap with
  | .error fault => throw (.service .invalidConfiguration fault.message none)
  | .ok w => splitHeeding tok w src

end Retrieval
