import Retrieval.Chunk.Window

/-!
# Which numbers make a window

Two numbers make a window when they are natural numbers and the overlap is the smaller one:
`Window.of_eq_ok_iff`, `Window.exists_of_iff`.
-/

namespace Retrieval.Window

variable {size overlap : Float} {w : Window}

theorem of_eq_ok_iff : Window.of size overlap = .ok w ↔
    Number.natural? size = some w.size ∧ Number.natural? overlap = some w.overlap := by
  have hlt := w.overlap_lt
  unfold Window.of
  cases hs : Number.natural? size with
  | none => simp
  | some s =>
    cases ho : Number.natural? overlap with
    | none => simp only; split <;> simp
    | some o =>
      simp only [Option.some.injEq]
      split
      · next hzero => simp; omega
      · split
        · next hlt => cases w; simp
        · next hge => simp; omega

/-- The numbers are natural, and the overlap is the smaller one. -/
def Fits (size overlap : Float) : Prop :=
  ∃ s o, Number.natural? size = some s ∧ Number.natural? overlap = some o ∧ o < s

theorem exists_of_iff : (∃ w, Window.of size overlap = .ok w) ↔ Fits size overlap := by
  constructor
  · rintro ⟨w, hw⟩
    obtain ⟨hs, ho⟩ := of_eq_ok_iff.mp hw
    exact ⟨w.size, w.overlap, hs, ho, w.overlap_lt⟩
  · rintro ⟨s, o, hs, ho, hlt⟩
    exact ⟨⟨s, o, hlt⟩, of_eq_ok_iff.mpr ⟨hs, ho⟩⟩

end Retrieval.Window
