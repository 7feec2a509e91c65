import Retrieval.Effect

/-!
# Tasks and the histories they leave

A world answers each question from all that was asked and answered before, in whatever way it likes.
Played against it, a task has an outcome and adds its questions to the history. So a statement about
every world is one about every behaviour of the services around, faults and late answers included.
-/

namespace Retrieval

/-- A question with its answer. -/
abbrev Event (δ : Type) := (e : Effect δ) × e.Answer

/-- What was asked and answered, in order. -/
abbrev History (δ : Type) := List (Event δ)

/-- How the world answers each question after each history. -/
abbrev Surroundings (δ : Type) := (e : Effect δ) → History δ → e.Answer

variable {δ α β : Type}

namespace Task

/-- The outcome of a task that begins after some history, and the history when it is over. -/
def play (w : Surroundings δ) (t : Task δ α) (past : History δ) : Except Fault α × History δ :=
  Program.run (fun e h => (w e h, h ++ [⟨e, w e h⟩])) t.run past

variable (w : Surroundings δ) (past : History δ)

@[simp] theorem play_pure (a : α) : play w (pure a) past = (.ok a, past) := rfl

@[simp] theorem play_throw (f : Fault) :
    play w (throw f : Task δ α) past = (.error f, past) := rfl

@[simp] theorem play_lift (r : Except Fault α) : play w (lift r) past = (r, past) := rfl

@[simp] theorem play_ask (e : Effect δ) :
    play w (ask e) past = (.ok (w e past), past ++ [⟨e, w e past⟩]) := rfl

@[simp] theorem play_log (level : LogLevel) (message : String) (data : List (String × Value)) :
    play w (log level message data) past =
      (.ok (), past ++ [⟨.log ⟨level, .text message, data⟩, ()⟩]) := rfl

@[simp] theorem play_stores (call : StoreCall) :
    play w (stores call) past =
      (w (.stores call) past, past ++ [⟨.stores call, w (.stores call) past⟩]) := rfl

@[simp] theorem play_files (call : FileCall) :
    play w (files call) past =
      (w (.files call) past, past ++ [⟨.files call, w (.files call) past⟩]) := rfl

@[simp] theorem play_chunks (call : ChunkCall δ) :
    play w (chunks call) past =
      (w (.chunks call) past, past ++ [⟨.chunks call, w (.chunks call) past⟩]) := rfl

/-- A task goes on where the one before it has left the history, unless that one has failed. -/
theorem play_bind (t : Task δ α) (f : α → Task δ β) :
    play w (t >>= f) past =
      match play w t past with
      | (.ok a, h) => play w (f a) h
      | (.error fault, h) => (.error fault, h) := by
  unfold play
  show Program.run _ (t.run >>= ExceptT.bindCont f) past = _
  rw [Program.run_bind]
  cases h : Program.run (fun e h => (w e h, h ++ [⟨e, w e h⟩])) t.run past with
  | mk r q =>
    cases r with
    | ok a => rfl
    | error fault => rfl

theorem play_bind_ok {t : Task δ α} {f : α → Task δ β} {a : α} {h : History δ}
    (ht : play w t past = (.ok a, h)) : play w (t >>= f) past = play w (f a) h := by
  rw [play_bind, ht]

theorem play_bind_error {t : Task δ α} {f : α → Task δ β} {fault : Fault} {h : History δ}
    (ht : play w t past = (.error fault, h)) : play w (t >>= f) past = (.error fault, h) := by
  rw [play_bind, ht]

@[simp] theorem play_outcome (t : Task δ α) :
    play w t.outcome past = (.ok (play w t past).1, (play w t past).2) := by
  unfold play outcome
  show Program.run _ (t.run >>= fun r => pure (Except.ok r)) past = _
  rw [Program.run_bind]
  rfl

end Task

/-! ## Events that a world answers -/

/-- The world answers these events in a row, the first of them after some history. -/
def Surroundings.Tells (w : Surroundings δ) : History δ → History δ → Prop
  | _, [] => True
  | past, event :: rest => event.2 = w event.1 past ∧ Tells w (past ++ [event]) rest

namespace Surroundings

variable {w : Surroundings δ} {past new : History δ}

theorem Tells.forall {P : Event δ → Prop} (hP : ∀ e h, P ⟨e, w e h⟩) (h : w.Tells past new) :
    ∀ event ∈ new, P event := by
  induction new generalizing past with
  | nil => exact nofun
  | cons event rest ih =>
    obtain ⟨e, r⟩ := event
    obtain ⟨hr, hrest⟩ := h
    obtain rfl : r = w e past := hr
    intro event hmem
    rcases List.mem_cons.mp hmem with rfl | hmem
    · exact hP e past
    · exact ih hrest event hmem

/-- Another world that answers these questions alike. -/
theorem Tells.congr {w' : Surroundings δ} (h : w.Tells past new)
    (hsame : ∀ event ∈ new, ∀ h, w' event.1 h = w event.1 h) : w'.Tells past new := by
  induction new generalizing past with
  | nil => trivial
  | cons event rest ih =>
    obtain ⟨hr, hrest⟩ := h
    refine ⟨hr.trans (hsame event List.mem_cons_self past).symm, ih hrest fun event hmem => ?_⟩
    exact hsame event (List.mem_cons_of_mem _ hmem)

end Surroundings

/-- What a task adds to the history is answered by the world. -/
theorem Task.play_tells (w : Surroundings δ) (t : Task δ α) (past : History δ) :
    ∃ new, (play w t past).2 = past ++ new ∧ w.Tells past new := by
  unfold play
  generalize t.run = p
  induction p generalizing past with
  | done r => exact ⟨[], (List.append_nil past).symm, trivial⟩
  | ask e next ih =>
    obtain ⟨new, hplay, htells⟩ := ih (w e past) (past ++ [⟨e, w e past⟩])
    refine ⟨⟨e, w e past⟩ :: new, ?_, rfl, htells⟩
    rw [List.append_assoc] at hplay
    exact hplay

theorem Task.tells_of_play {w : Surroundings δ} {t : Task δ α} {past new : History δ}
    {r : Except Fault α} (h : play w t past = (r, past ++ new)) : w.Tells past new := by
  obtain ⟨told, hplay, htells⟩ := play_tells w t past
  rw [h] at hplay
  rwa [List.append_cancel_left hplay]

/-- In another world that answers the questions of a run in the same way, the run is the same. -/
theorem Task.play_of_tells {w w' : Surroundings δ} {t : Task δ α} {past new : History δ}
    {r : Except Fault α} (h : play w t past = (r, past ++ new)) (htells : w'.Tells past new) :
    play w' t past = (r, past ++ new) := by
  unfold play at h ⊢
  generalize t.run = p at h ⊢
  induction p generalizing past new with
  | done a => exact h
  | ask e next ih =>
    obtain ⟨rest, hrest, -⟩ := play_tells w (ExceptT.mk (next (w e past))) (past ++ [⟨e, w e past⟩])
    have hnew : new = ⟨e, w e past⟩ :: rest := by
      have hlater := (congrArg Prod.snd h).symm.trans hrest
      rw [List.append_assoc] at hlater
      exact List.append_cancel_left hlater
    subst hnew
    obtain ⟨hr, htold⟩ := htells
    have hr : w e past = w' e past := hr
    rw [List.append_cons] at h ⊢
    have hnext := ih (w e past) htold h
    simp only [Program.run]
    rwa [← hr]

end Retrieval
