import Retrieval.Proofs.Chunk.Regions

/-!
# Splitting while a signal is watched

`splitWatched?_eq`: a text is split as if nobody watched, or not at all. Which of the two it is
depends on how often the signal is read, and that on nothing but the text and the window: once, and
once more for each paragraph of a text that is cut at paragraphs.
-/

namespace Retrieval

namespace Watch

/-- The signal can be read `n` times before it ends the work. -/
def lasts (n : Nat) : Watch → Bool
  | never => true
  | after reads => n ≤ reads

theorem pass?_eq {α : Type} (watch : Watch) (l : List α) :
    watch.pass? l = if watch.lasts l.length then some l else none := by
  induction l generalizing watch with
  | nil => cases watch <;> simp [pass?, lasts]
  | cons a rest ih =>
    cases watch with
    | never => simp [pass?, read?, ih, lasts]
    | after reads =>
      cases reads with
      | zero => simp [pass?, read?, lasts]
      | succ reads =>
        simp only [pass?, read?, Option.bind_some, ih, lasts, List.length_cons,
          Nat.add_le_add_iff_right]
        by_cases h : rest.length ≤ reads
        · simp [h]
        · simp [h]

end Watch

variable {tok : Tokenizer} {w : Window} {src : Text}

/-- How often the signal is read while a text is split to the end. -/
def signalReads (tok : Tokenizer) (w : Window) (src : Text) : Nat :=
  let whole := (Span.whole src).trim src
  if whole.isEmpty = false ∧ w.size < whole.cost tok src ∧ whole.contains src .paragraph = true then
    (whole.parts src .paragraph).length + 1
  else 1

theorem signalReads_pos (tok : Tokenizer) (w : Window) (src : Text) :
    0 < signalReads tok w src := by
  simp only [signalReads]
  split <;> omega

theorem signalReads_of_blank (h : Span.trimmed src (.whole src) = []) :
    signalReads tok w src = 1 := by
  simp only [Span.trimmed] at h
  split at h
  · cases h
  · next hge => simp [signalReads, Span.isEmpty, Nat.not_lt.mp hge]

theorem signalReads_of_trimmed {s : Span} (h : Span.trimmed src (.whole src) = [s]) :
    signalReads tok w src =
      if w.size < s.cost tok src ∧ s.contains src .paragraph = true then
        (s.parts src .paragraph).length + 1
      else 1 := by
  simp only [Span.trimmed] at h
  split at h
  · next hlt =>
    obtain rfl := List.singleton_inj.mp h
    simp [signalReads, Span.isEmpty, hlt]
  · cases h

theorem splitWatched?_eq (watch : Watch) (tok : Tokenizer) (w : Window) (src : Text) :
    splitWatched? watch tok w src =
      if watch.lasts (signalReads tok w src) then some (split tok w src) else none := by
  have hunwatched := splitWatched?_never tok w src
  have hpos := signalReads_pos tok w src
  cases watch with
  | never => exact hunwatched
  | after reads =>
    cases reads with
    | zero => simp [splitWatched?, Watch.read?, Watch.lasts, Nat.ne_of_gt hpos]
    | succ reads =>
      simp only [splitWatched?, Watch.read?, Option.bind_some, Watch.pass?_eq, Watch.lasts,
        if_true] at hunwatched ⊢
      rw [← hunwatched]
      clear hunwatched hpos
      simp only [signalReads]
      by_cases hempty : ((Span.whole src).trim src).isEmpty = true
      · simp [hempty]
      by_cases hcost : ((Span.whole src).trim src).cost tok src ≤ w.size
      · simp [hempty, hcost, Nat.not_lt.mpr hcost]
      have hlt : w.size < ((Span.whole src).trim src).cost tok src := Nat.not_le.mp hcost
      by_cases hcontains : ((Span.whole src).trim src).contains src .paragraph = true
      · -- each paragraph takes one more read
        by_cases hlasts : (((Span.whole src).trim src).parts src .paragraph).length ≤ reads
        · simp [hempty, hcost, hlt, hcontains, hlasts]
        · simp [hempty, hcost, hlt, hcontains, hlasts]
      · simp [hempty, hcost, hcontains]

end Retrieval
