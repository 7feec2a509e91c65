import Retrieval.Proofs.Config.Settings
import Retrieval.Proofs.Schema.Accepted

/-!
# Configurations from values of any kind

`ranged_of_load`: a configuration that is loaded has its numbers within their bounds, and an overlap
that is smaller than the size, also where the settings are no texts.
-/

namespace Retrieval.Config

open Check (Ensures Whole)

variable {isAddress : String → Bool} {c : Config} {environment : List (String × Value)}

/-- The numbers that the schema accepts are within their bounds. -/
theorem ranged_of_settings {path : List String} {v : Value}
    (h : (settings isAddress path v).toExcept = .ok c) : Ranged c := by
  have hpositive : Ensures ((Check.coerced .common).and [Check.whole, Check.positive])
      (Whole (Within 1 none)) :=
    Check.ensures_number fun _ _ hk => by simp [Check.positive_of_whole hk, Within]
  have hatLeast (least : Int) :
      Ensures ((Check.coerced .common).and [Check.whole, Check.atLeast least])
        (Whole (Within least none)) :=
    Check.ensures_number fun _ _ hk => by simp [Check.atLeast_of_whole hk, Within]
  have hbetween (least most : Int) : Ensures
      ((Check.coerced .common).and [Check.whole, Check.atLeast least, Check.atMost most])
        (Whole (Within least (some most))) :=
    Check.ensures_number fun _ _ hk => by
      simp [Check.atLeast_of_whole hk, Check.atMost_of_whole hk, Within]
  unfold settings Check.object at h
  split at h
  · simp only [Outcome.map_eq, Outcome.seq_eq, Outcome.both_eq_ok_iff, Outcome.map_eq_ok_iff,
      Check.member] at h
    -- one pair of brackets for each setting, the last one outermost
    obtain ⟨_, _, ⟨_, _, ⟨_, timeout, ⟨_, backoff, ⟨_, attempts, ⟨_, batch, ⟨_, overlap, ⟨_, size,
      ⟨_, _, ⟨_, _, ⟨_, _, ⟨_, _, ⟨_, _, ⟨port, hport, rfl⟩, -, rfl⟩, -, rfl⟩, -, rfl⟩, -, rfl⟩, -, rfl⟩,
      hsize, rfl⟩, hoverlap, rfl⟩, hbatch, rfl⟩, hattempts, rfl⟩, hbackoff, rfl⟩, htimeout, rfl⟩,
      -, rfl⟩, -, rfl⟩ := h
    exact {
      port := hpositive.orElse ⟨6060, by decide +kernel, by simp [Within]⟩ _ _ _ hport
      chunkSize := hpositive.orElse ⟨800, by decide +kernel, by simp [Within]⟩ _ _ _ hsize
      chunkOverlap := (hatLeast 0).orElse ⟨200, by decide +kernel, by simp [Within]⟩ _ _ _ hoverlap
      maxBatchSize :=
        (hbetween 1 2048).orElse ⟨2048, by decide +kernel, by simp [Within]⟩ _ _ _ hbatch
      maxAttempts := (hbetween 1 10).orElse ⟨5, by decide +kernel, by simp [Within]⟩ _ _ _ hattempts
      initialBackoffMs :=
        (hatLeast 0).orElse ⟨1000, by decide +kernel, by simp [Within]⟩ _ _ _ hbackoff
      requestTimeoutMs :=
        (hatLeast 1000).orElse ⟨60000, by decide +kernel, by simp [Within]⟩ _ _ _ htimeout }
  · cases h

theorem load_eq_ok_iff :
    load isAddress environment = .ok c ↔ (check isAddress environment).toExcept = .ok c := by
  rw [load, mapError_eq_ok_iff]

/-- **A configuration that is loaded** has its numbers within their bounds, and its overlap is
smaller than its size. -/
theorem ranged_of_load (h : load isAddress environment = .ok c) : Ranged c ∧ Narrow c := by
  rw [load_eq_ok_iff] at h
  unfold check at h
  generalize ho : settings isAddress [] (.ofMembers (environment.filter (isSet ·.2))) = o at h
  obtain ⟨value, issues, textless⟩ := o
  cases value with
  | none => cases (Outcome.toExcept_eq_ok_iff.mp h).2.1
  | some c' =>
    dsimp only at h
    cases hsmaller : overlapIsSmaller c' with
    | true =>
      rw [hsmaller, if_pos rfl] at h
      obtain rfl : c' = c := Option.some.inj (Outcome.toExcept_eq_ok_iff.mp h).2.1
      have hranged : Ranged c' := ranged_of_settings (ho ▸ h)
      exact ⟨hranged, hranged.overlapIsSmaller_iff.mp hsmaller⟩
    | false =>
      -- the rule on two settings leaves an issue
      rw [hsmaller, if_neg Bool.false_ne_true] at h
      simpa using (Outcome.toExcept_eq_ok_iff.mp h).2.2

/-- What is given for a name stands in the environment. -/
theorem Environment.mem_of_given {environment : Environment} {name s : String}
    (h : environment.given name = some s) : (name, s) ∈ environment := by
  obtain ⟨⟨name', s'⟩, hfind, rfl⟩ := Option.map_eq_some_iff.mp h
  have hname := List.find?_some hfind
  simp only [Bool.and_eq_true, beq_iff_eq] at hname
  obtain ⟨rfl, -⟩ := hname
  exact List.mem_reverse.mp (List.mem_of_find?_eq_some hfind)

/-- A sound environment is loaded. -/
theorem load_of_sound {environment : Environment} (h : Sound isAddress environment) :
    load isAddress environment.values = .ok (described environment) := by
  have hjudged := judged_of_sound h
  generalize load isAddress environment.values = r at hjudged ⊢
  cases hjudged with
  | accepted => rfl
  | refused _ hunsound => exact absurd h hunsound

end Retrieval.Config
