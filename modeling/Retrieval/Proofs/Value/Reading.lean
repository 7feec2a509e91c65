import Retrieval.Value.Reader

/-!
# What is read is there

`isPresent_of_ofJson?`: the value that a JSON text writes is never the absent one. A reader holds a
value as soon as a fixed word has begun or the whole text is settled; that this value is there is
kept by every character (`Present.step`), and so by a run over all of them (`isPresent_of_readRest`).
-/

namespace Retrieval.Value

namespace Reader

/-- The value that a reader holds, if it holds one, is there. -/
def Present (r : Reader) : Prop :=
  match r.mode with
  | .done v | .word _ v => v.isPresent = true
  | _ => True

variable {r r' : Reader} {stack : List Frame} {c : Char} {v : Value}

theorem present_settle (stack : List Frame) (h : v.isPresent = true) : (settle stack v).Present := by
  cases stack with
  | nil => exact h
  | cons frame outer => cases frame <;> exact trivial

theorem present_settleText (stack : List Frame) (naming : Bool) (seen : List Nat) :
    (settleText stack naming seen).Present := by
  unfold settleText
  split
  · split <;> exact trivial
  · exact present_settle stack rfl

theorem present_begin (h : begin stack c = .ok r) : r.Present := by
  unfold begin at h
  split at h
  case h_9 =>
    split at h
    · obtain rfl := Except.ok.inj h
      exact trivial
    · cases h
  all_goals
    obtain rfl := Except.ok.inj h
    first | exact trivial | exact rfl

theorem present_close? (h : close? stack c = some r) : r.Present := by
  unfold close? at h
  split at h
  · obtain rfl := Option.some.inj h
    exact present_settle _ rfl
  · obtain rfl := Option.some.inj h
    exact present_settle _ rfl
  · cases h

theorem Present.follow (hr : r.Present) (h : follow r c = .ok r') : r'.Present := by
  unfold Reader.follow at h
  split at h
  · obtain rfl := Except.ok.inj h
    exact hr
  · split at h
    · obtain rfl := Except.ok.inj h
      exact trivial
    · obtain rfl := Except.ok.inj h
      exact trivial
    · split at h
      · next hclose =>
        obtain rfl := Except.ok.inj h
        exact present_close? hclose
      · cases h

/-- Every character leaves what is held as it was, or settles a value that is there. -/
theorem Present.step (hr : r.Present) (h : step r c = .ok r') : r'.Present := by
  obtain ⟨stack, mode⟩ := r
  unfold Reader.step at h
  cases mode with
  | value mayClose =>
    dsimp only at h
    split at h
    · obtain rfl := Except.ok.inj h
      exact trivial
    · split at h
      · next hclose =>
        obtain rfl := Except.ok.inj h
        split at hclose
        · exact present_close? hclose
        · cases hclose
      · exact present_begin h
  | name mayClose =>
    dsimp only at h
    split at h
    · obtain rfl := Except.ok.inj h
      exact trivial
    · split at h
      · obtain rfl := Except.ok.inj h
        exact trivial
      · split at h
        · next hclose =>
          obtain rfl := Except.ok.inj h
          split at hclose
          · exact present_close? hclose
          · cases hclose
        · cases h
  | colon =>
    dsimp only at h
    split at h
    · obtain rfl := Except.ok.inj h
      exact trivial
    · split at h
      · obtain rfl := Except.ok.inj h
        exact trivial
      · cases h
  | next => exact hr.follow h
  | done v => exact hr.follow h
  | quoted naming seen =>
    dsimp only at h
    split at h
    · obtain rfl := Except.ok.inj h
      exact present_settleText _ _ _
    · split at h
      · obtain rfl := Except.ok.inj h
        exact trivial
      · split at h
        · cases h
        · obtain rfl := Except.ok.inj h
          exact trivial
  | escaped naming seen =>
    dsimp only at h
    split at h
    · obtain rfl := Except.ok.inj h
      exact trivial
    · split at h
      · obtain rfl := Except.ok.inj h
        exact trivial
      · cases h
  | unit naming seen missing value =>
    dsimp only at h
    split at h
    · cases h
    · split at h
      · obtain rfl := Except.ok.inj h
        exact trivial
      · obtain rfl := Except.ok.inj h
        exact trivial
  | word rest v =>
    dsimp only at h
    split at h
    · cases h
    · split at h
      · obtain rfl := Except.ok.inj h
        exact present_settle _ hr
      · cases h
    · split at h
      · obtain rfl := Except.ok.inj h
        exact hr
      · cases h
  | digits phase seen =>
    dsimp only at h
    split at h
    · cases h
    · obtain rfl := Except.ok.inj h
      exact trivial
    · -- the number ends in front of the character, which is read behind it
      exact (present_settle stack rfl).follow h

theorem Present.finish (hr : r.Present) (h : finish r = .ok v) : v.isPresent = true := by
  obtain ⟨stack, mode⟩ := r
  unfold Reader.finish at h
  cases mode with
  | done w =>
    obtain rfl := Except.ok.inj h
    exact hr
  | digits phase seen =>
    dsimp only at h
    split at h
    · cases h
    · obtain rfl := Except.ok.inj h
      rfl
    · cases h
  | _ => cases h

theorem isPresent_of_readRest {cs : List Char} (hr : r.Present) (h : readRest r cs = .ok v) :
    v.isPresent = true := by
  induction cs generalizing r with
  | nil =>
    rw [readRest] at h
    cases hfinish : r.finish with
    | error complaint =>
      rw [hfinish] at h
      cases h
    | ok w =>
      rw [hfinish] at h
      obtain rfl := Except.ok.inj h
      exact hr.finish hfinish
  | cons c rest ih =>
    rw [readRest] at h
    split at h
    · next hstep => exact ih (hr.step hstep) h
    · cases h

end Reader

/-- **The value that a JSON text writes is there.** -/
theorem isPresent_of_ofJson? {s : String} {v : Value} (h : ofJson? s = some v) :
    v.isPresent = true := by
  unfold ofJson? at h
  cases hread : Reader.readRest {} s.toList with
  | error report =>
    rw [hread] at h
    cases h
  | ok read =>
    rw [hread] at h
    obtain rfl := Option.some.inj h
    have hstart : Reader.Present {} := trivial
    exact Reader.isPresent_of_readRest hstart hread

end Retrieval.Value
