import Mathlib.Data.List.Infix
import Retrieval.Chunk.Asked
import Retrieval.Ingestion
import Retrieval.Proofs.Chunk.Fields
import Retrieval.Proofs.Chunk.Watching
import Retrieval.Proofs.Chunk.Windows
import Retrieval.Proofs.Embedding.Attempts
import Retrieval.Proofs.Task.History

/-!
# A split under a signal is all or nothing

`splitHeeding_eq`: to split under a signal is to ask it a number of times and then to split as if
nobody watched. The number is known in advance (`signalReads`): the cut at a finer separator asks
nothing (`segmentsAsked_of_not_mem`), and the merging of paragraphs asks once for each
(`mergeAsked_eq`). So the caller gets all chunks or none: `splitAsked_all_or_nothing`.
-/

namespace Retrieval

namespace Program

variable {E : Type} {R : E → Type}

instance : LawfulMonad (Program E R) :=
  LawfulMonad.mk' _
    (fun p => by
      induction p with
      | done a => rfl
      | ask e next ih => exact congrArg (ask e) (funext ih))
    (fun _ _ => rfl)
    (fun p f g => by
      induction p with
      | done a => rfl
      | ask e next ih => exact congrArg (ask e) (funext ih))

end Program

variable {δ : Type} {tok : Tokenizer} {src : Text} {budget : Nat} {s : Span}

/-! ## The questions -/

/-- Asks the signal `n` times, and stops when the caller has given up. -/
def heedTimes : Nat → Task δ Unit
  | 0 => pure ()
  | n + 1 => do
    heed
    heedTimes n

@[simp] theorem heedTimes_zero : (heedTimes 0 : Task δ Unit) = pure () := rfl

theorem heedTimes_one : (heedTimes 1 : Task δ Unit) = heed := by
  simp [heedTimes]

theorem heedTimes_succ_at (sep : Separator) (n : Nat) :
    (heedTimes (if sep = .paragraph then n + 1 else 0) : Task δ Unit) =
      (heedAt sep >>= fun _ => heedTimes (if sep = .paragraph then n else 0)) := by
  rw [heedAt]
  split
  · rfl
  · simp

namespace Span

/-! ## Finer separators ask nothing -/

variable {finer : Span → Task δ (List Span)} {plain : Span → List Span}

theorem settleAsked_eq (h : ∀ s, finer s = pure (plain s)) (run : Option Run) :
    settleAsked tok src budget finer run = pure (settle tok src budget plain run) := by
  cases run with
  | none => rfl
  | some r =>
    rw [settleAsked, settle, h]
    split <;> rfl

/-- **Merging** asks once for each part, if it asks at all. -/
theorem mergeAsked_eq (h : ∀ s, finer s = pure (plain s)) (sep : Separator) (run : Option Run)
    (parts : List Span) :
    mergeAsked tok src budget sep finer run parts =
      (heedTimes (if sep = .paragraph then parts.length else 0) >>= fun _ =>
        pure (merge tok src budget plain run parts)) := by
  induction parts generalizing run with
  | nil => simp [mergeAsked, merge, settleAsked_eq h]
  | cons part rest ih =>
    rw [List.length_cons, heedTimes_succ_at, mergeAsked, merge.eq_def, bind_assoc]
    simp only [settleAsked_eq h, h, ih, pure_bind]
    refine congrArg _ (funext fun _ => ?_)
    split
    · simp
    · cases run with
      | none => rfl
      | some r => cases hgrown : extend? tok src budget r part <;> simp [hgrown]

/-- **The cut at finer separators** asks nothing. -/
theorem segmentsAsked_of_not_mem {separators : List Separator} (h : .paragraph ∉ separators)
    (s : Span) :
    (segmentsAsked tok src budget separators s : Task δ (List Span)) =
      pure (segments tok src budget separators s) := by
  induction separators generalizing s with
  | nil =>
    rw [segmentsAsked, segments]
    split <;> rfl
  | cons sep finer ih =>
    obtain ⟨hne, hfiner⟩ := List.ne_and_not_mem_of_not_mem_cons h
    have hmerge : mergeAsked tok src budget sep (segmentsAsked tok src budget finer) none
        (parts src sep s) = _ := mergeAsked_eq (ih hfiner) sep none (parts src sep s)
    rw [if_neg (Ne.symm hne)] at hmerge
    rw [segmentsAsked, segments, hmerge, ih hfiner]
    simp only [heedTimes_zero, pure_bind]
    split
    · rfl
    · split <;> rfl

/-- At paragraphs it asks once for each of them. -/
theorem segmentsAsked_all (s : Span) :
    (segmentsAsked tok src budget Separator.all s : Task δ (List Span)) =
      (heedTimes (if budget < s.cost tok src ∧ s.contains src .paragraph = true then
          (parts src .paragraph s).length else 0) >>= fun _ =>
        pure (segments tok src budget Separator.all s)) := by
  have hfiner (s : Span) : (segmentsAsked tok src budget [.line, .word] s : Task δ (List Span)) =
      pure (segments tok src budget [.line, .word] s) :=
    segmentsAsked_of_not_mem (by decide) s
  rw [Separator.all, segmentsAsked, segments]
  by_cases hcost : s.cost tok src ≤ budget
  · rw [if_pos hcost, if_pos hcost, if_neg fun h => by omega]
    rfl
  · rw [if_neg hcost, if_neg hcost]
    by_cases hcontains : s.contains src .paragraph = true
    · simp only [hcontains, if_true, and_true]
      rw [if_pos (Nat.lt_of_not_le hcost), mergeAsked_eq hfiner, if_pos rfl]
    · rw [if_neg hcontains, if_neg hcontains, if_neg fun h => hcontains h.2, hfiner]
      rfl

end Span

/-- **To split under a signal** is to ask it a number of times, and then to split as if nobody
watched. -/
theorem splitHeeding_eq (tok : Tokenizer) (w : Window) (src : Text) :
    (splitHeeding tok w src : Task δ (List Chunk)) =
      (heedTimes (signalReads tok w src) >>= fun _ => pure (split tok w src)) := by
  have hbudget : w.budget ≤ w.size := Nat.sub_le ..
  rw [splitHeeding, signalReads, split]
  dsimp only
  split
  · next hempty => simp [hempty, heedTimes_one]
  · next hempty =>
    split
    · next hcost => simp [hempty, heedTimes_one, Nat.not_lt.mpr hcost]
    · next hcost =>
      have hlt : w.budget < ((Span.whole src).trim src).cost tok src := by omega
      rw [Span.segmentsAsked_all]
      by_cases hcontains : ((Span.whole src).trim src).contains src .paragraph = true
      · simp [hempty, hcontains, hlt, Nat.lt_of_not_le hcost, heedTimes]
      · simp [hcontains, heedTimes_one]

/-! ## How many questions -/

namespace Span

variable {sep : Separator}

/-- There are several fields where the separator stands among the units. -/
theorem one_lt_length_fieldsFrom {sep units : List UInt16} (hsep : sep ≠ []) (start pos : Nat) :
    1 < (fieldsFrom sep start pos units).length ↔ sep <:+: units := by
  fun_induction fieldsFrom sep start pos units with
  | case1 => simp [hsep]
  | case2 start pos u rest hprefix _ =>
    have hpos := List.length_pos_iff.mpr (fieldsFrom_ne_nil sep (pos + sep.length)
      (pos + sep.length) (rest.drop (sep.length - 1)))
    have hamong := (List.isPrefixOf_iff_prefix.mp hprefix).isInfix
    simp [hamong, hpos]
  | case3 start pos u rest hprefix ih =>
    rw [List.isPrefixOf_iff_prefix] at hprefix
    rw [ih, List.infix_cons_iff, or_iff_right hprefix]

theorem contains_iff_isInfix (h : s.start ≤ s.stop) (hb : s.stop ≤ src.size) :
    s.contains src sep = true ↔ sep.units <:+: (s.text src).toList := by
  have hsep : sep.units ≠ [] := List.length_pos_iff.mp sep.units_length_pos
  rw [contains_iff h hb, fields, one_lt_length_fieldsFrom hsep]

/-- Nothing is left of a blank span, and one span of any other. -/
theorem length_trimmed (h : s.start ≤ s.stop) (hb : s.stop ≤ src.size) :
    (trimmed src s).length = if (s.text src).allBlank then 0 else 1 := by
  have hblank : (s.text src).allBlank = true ↔ src.BlankOn s.start s.stop := by
    rw [Text.allBlank, Array.all_eq_true]
    constructor
    · intro hall i hi his
      have hlt : i - s.start < (s.text src).size := by
        rw [text, Text.size_slice hb]
        omega
      have hunit := Text.blankAt_slice (t := src) (a := s.start) (b := s.stop) (i := i - s.start)
        (by omega)
      rw [show s.start + (i - s.start) = i by omega] at hunit
      rw [← hunit, Text.blankAt, ← text, Array.getElem?_eq_getElem hlt]
      exact hall _ hlt
    · intro hon i hi
      exact hon.isBlank_of_mem (Array.mem_toList_iff.mpr (Array.getElem_mem hi))
  rcases trimmed_cases h hb with ⟨hnil, hon⟩ | ⟨p, hp, htrim⟩
  · rw [hnil, if_pos (hblank.mpr hon)]
    rfl
  · rw [hp, if_neg]
    · rfl
    · intro hall
      have hlt := htrim.tight.lt
      have hstop := htrim.le_stop
      have hfirst := hblank.mp hall p.start htrim.start_le (by omega)
      rw [htrim.tight.first] at hfirst
      cases hfirst

/-- The parts of a span are as many as it has fields that are not blank. -/
theorem length_parts (h : s.start ≤ s.stop) (hb : s.stop ≤ src.size) :
    (parts src sep s).length =
      ((fields src sep s).filter fun f => !(f.text src).allBlank).length := by
  have hbounds : ∀ f ∈ fields src sep s, f.start ≤ f.stop ∧ f.stop ≤ src.size := by
    intro f hf
    obtain ⟨-, hle, hstop⟩ := fields_bounds hf h hb
    exact ⟨hle, Nat.le_trans hstop hb⟩
  rw [parts_eq h hb]
  generalize fields src sep s = l at hbounds
  induction l with
  | nil => rfl
  | cons f rest ih =>
    obtain ⟨hle, hstop⟩ := hbounds f (List.mem_cons_self ..)
    rw [List.flatMap_cons, List.length_append, length_trimmed hle hstop,
      ih fun g hg => hbounds g (List.mem_cons_of_mem f hg)]
    cases hblank : (f.text src).allBlank
    · simp [hblank, Nat.add_comm]
    · simp [hblank]

end Span

/-- How often the signal is asked: once, and once more for each field that is not blank of a text
that does not fit the size and has a separator of paragraphs in it. -/
def questions (tok : Tokenizer) (size : Nat) (src : Text) : Nat :=
  let s := (Span.whole src).trim src
  if s.isEmpty = true ∨ s.cost tok src ≤ size ∨
      ¬ Separator.paragraph.units <:+: (s.text src).toList then 1
  else 1 + ((Span.fields src .paragraph s).filter fun f => !(f.text src).allBlank).length

theorem signalReads_eq_questions (tok : Tokenizer) (w : Window) (src : Text) :
    signalReads tok w src = questions tok w.size src := by
  rw [signalReads, questions]
  cases hempty : ((Span.whole src).trim src).isEmpty with
  | true => simp
  | false =>
    have hle : ((Span.whole src).trim src).start ≤ ((Span.whole src).trim src).stop := by
      rw [Span.isEmpty, decide_eq_false_iff_not] at hempty
      omega
    have hstop : ((Span.whole src).trim src).stop ≤ src.size := Text.dropBlank_le ..
    have hamong := @Span.contains_iff_isInfix src _ .paragraph hle hstop
    rw [← Span.length_parts hle hstop]
    by_cases hcost : ((Span.whole src).trim src).cost tok src ≤ w.size
    · simp [hcost, Nat.not_lt.mpr hcost]
    · by_cases hcontains : ((Span.whole src).trim src).contains src .paragraph = true
      · simp [hcost, hcontains, hamong.mp hcontains, Nat.lt_of_not_le hcost, Nat.add_comm]
      · have hnone : ¬ Separator.paragraph.units <:+:
            (((Span.whole src).trim src).text src).toList := fun h => hcontains (hamong.mpr h)
        simp [hcontains, hnone]

/-! ## Runs -/

def Event.isSignal : Event δ → Bool
  | ⟨.signal, _⟩ => true
  | _ => false

/-- From some history on, the signal says nothing the first `n` times that it is asked, and then that
the caller has given up. -/
def Surroundings.GivesUpAfter (w : Surroundings δ) (past : History δ) (n : Nat) (reason : Fault) :
    Prop :=
  ∀ new : History δ,
    w .signal (past ++ new) = if new.countP Event.isSignal < n then none else some reason

theorem Surroundings.GivesUpAfter.next {w : Surroundings δ} {past : History δ} {n : Nat}
    {reason : Fault} (h : w.GivesUpAfter past (n + 1) reason) :
    w.GivesUpAfter (past ++ [⟨.signal, none⟩]) n reason := by
  intro new
  have hsignal : Event.isSignal (⟨.signal, none⟩ : Event δ) = true := rfl
  have hnext := h (⟨.signal, none⟩ :: new)
  rw [List.countP_cons_of_pos hsignal] at hnext
  rw [List.append_assoc, List.singleton_append, hnext]
  simp

variable {w : Surroundings δ} {past : History δ} {n : Nat} {reason : Fault}

theorem play_heed (w : Surroundings δ) (past : History δ) :
    Task.play w heed past =
      (match w .signal past with
        | some reason => .error (.cancelled "Chunking cancelled" (some reason))
        | none => .ok (),
        past ++ [⟨.signal, w .signal past⟩]) := by
  rw [heed, Task.play_bind, Task.signal, Task.play_ask]
  dsimp only
  cases w .signal past <;> rfl

/-- **One question at a time**: all of them are asked, or all up to the first that is answered. -/
theorem play_heedTimes (hw : w.GivesUpAfter past n reason) (m : Nat) :
    Task.play w (heedTimes m) past =
      if m ≤ n then (.ok (), past ++ List.replicate m ⟨.signal, none⟩)
      else (.error (.cancelled "Chunking cancelled" (some reason)),
        past ++ List.replicate n ⟨.signal, none⟩ ++ [⟨.signal, some reason⟩]) := by
  induction m generalizing n past with
  | zero => simp
  | succ m ih =>
    have hfirst := hw []
    rw [List.append_nil, List.countP_nil] at hfirst
    cases n with
    | zero =>
      rw [if_neg (Nat.lt_irrefl 0)] at hfirst
      have hheed := play_heed w past
      rw [hfirst] at hheed
      rw [heedTimes, Task.play_bind_error _ _ hheed]
      simp
    | succ n =>
      rw [if_pos (Nat.succ_pos n)] at hfirst
      have hheed := play_heed w past
      rw [hfirst] at hheed
      rw [heedTimes, Task.play_bind_ok _ _ hheed, ih hw.next]
      simp [List.replicate_succ]

theorem play_heedTimes_quiet (hw : ∀ new, w .signal (past ++ new) = none) (m : Nat) :
    Task.play w (heedTimes m) past = (.ok (), past ++ List.replicate m ⟨.signal, none⟩) := by
  induction m generalizing past with
  | zero => simp
  | succ m ih =>
    have hfirst := hw []
    rw [List.append_nil] at hfirst
    have hheed := play_heed w past
    rw [hfirst] at hheed
    rw [heedTimes, Task.play_bind_ok _ _ hheed, ih fun new => by rw [List.append_assoc]; exact hw _]
    simp [List.replicate_succ]

/-- A split under a signal gives what the split that counts its reads gives. -/
theorem play_splitHeeding (hw : w.GivesUpAfter past n reason) (tok : Tokenizer) (window : Window)
    (src : Text) :
    (Task.play w (splitHeeding tok window src) past).1 =
      match splitWatched? (.after n) tok window src with
      | some chunks => .ok chunks
      | none => .error (.cancelled "Chunking cancelled" (some reason)) := by
  rw [splitHeeding_eq, Task.play_bind, play_heedTimes hw, splitWatched?_eq, Watch.lasts]
  by_cases h : signalReads tok window src ≤ n <;> simp [h]

/-- Ingesting asks the signal once, which is the same as long as the caller does not change his mind
while the text is split. -/
theorem play_chunksOf {setup : Ingestion.Setup} {d : Document} {window : Window}
    (hwindow : Window.resolve setup.defaults d.chunkSize d.overlap = .ok window)
    (hsteady : ∀ new, w .signal (past ++ new) = w .signal past) :
    (Task.play w (Ingestion.chunksOf setup d) past).1 =
      (Task.play w (splitHeeding setup.tokenizer window d.text) past).1 := by
  rw [Ingestion.chunksOf, hwindow]
  dsimp only
  rw [Task.play_bind, Task.signal, Task.play_ask]
  dsimp only
  cases hsignal : w .signal past with
  | none =>
    have hquiet : ∀ new, w .signal (past ++ new) = none := fun new => by rw [hsteady, hsignal]
    rw [splitHeeding_eq, Task.play_bind_ok _ _ (play_heedTimes_quiet hquiet _)]
    simp [splitWatched?_never]
  | some reason =>
    have hgives : w.GivesUpAfter past 0 reason := fun new => by rw [hsteady, hsignal]; rfl
    rw [play_splitHeeding hgives]
    simp only [Option.isSome_some, if_true]
    cases splitWatched? (.after 0) setup.tokenizer window d.text <;> rfl

/-- **A split under a signal is all or nothing**, for every text, tokenizer and sizes, and whenever
the caller gives up. Sizes that make no window are refused and the signal is not asked. Otherwise the
signal is asked no more often than the text has it: a caller who gives up later gets the chunks that
he would get without a signal, and one who gives up before gets none, but his reason. -/
theorem splitAsked_all_or_nothing (tok : Tokenizer) (size overlap : Float) (src : Text)
    (w : Surroundings δ) (past : History δ) (n : Nat) (reason : Fault)
    (hw : w.GivesUpAfter past n reason) :
    (¬ Window.Fits size overlap → ∃ fault, Window.of size overlap = .error fault ∧
      Task.play w (splitAsked tok size overlap src) past =
        (.error (.service .invalidConfiguration fault.message none), past)) ∧
    ∀ s o (hlt : o < s), Number.natural? size = some s → Number.natural? overlap = some o →
      (questions tok s src ≤ n →
        Task.play w (splitAsked tok size overlap src) past =
          (.ok (split tok ⟨s, o, hlt⟩ src),
            past ++ List.replicate (questions tok s src) ⟨.signal, none⟩) ∧
        ∀ quiet : Surroundings δ, (∀ h, quiet .signal h = none) →
          (Task.play quiet (splitAsked tok size overlap src) past).1 =
            .ok (split tok ⟨s, o, hlt⟩ src)) ∧
      (n < questions tok s src →
        Task.play w (splitAsked tok size overlap src) past =
          (.error (.cancelled "Chunking cancelled" (some reason)),
            past ++ List.replicate n ⟨.signal, none⟩ ++ [⟨.signal, some reason⟩])) := by
  constructor
  · intro hnot
    cases hof : Window.of size overlap with
    | error fault => exact ⟨fault, rfl, by rw [splitAsked, hof, Task.play_throw]⟩
    | ok window => exact absurd (Window.exists_of_iff.mp ⟨window, hof⟩) hnot
  · intro s o hlt hs ho
    have hof : Window.of size overlap = .ok ⟨s, o, hlt⟩ := Window.of_eq_ok_iff.mpr ⟨hs, ho⟩
    have hplay : ∀ quiet : Surroundings δ, Task.play quiet (splitAsked tok size overlap src) past =
        Task.play quiet (heedTimes (questions tok s src) >>= fun _ =>
          pure (split tok ⟨s, o, hlt⟩ src)) past := by
      intro quiet
      rw [splitAsked, hof]
      dsimp only
      rw [splitHeeding_eq, signalReads_eq_questions]
    have hasked := play_heedTimes hw (questions tok s src)
    refine ⟨fun hle => ⟨?_, fun quiet hquiet => ?_⟩, fun hbefore => ?_⟩
    · rw [if_pos hle] at hasked
      rw [hplay, Task.play_bind_ok _ _ hasked, Task.play_pure]
    · rw [hplay, Task.play_bind_ok _ _ (play_heedTimes_quiet (fun _ => hquiet _) _), Task.play_pure]
    · rw [if_neg (Nat.not_le.mpr hbefore)] at hasked
      rw [hplay, Task.play_bind_error _ _ hasked]

/-- A world in which the caller gives up after `n` questions to the signal. -/
def Surroundings.interrupted (w : Surroundings δ) (n : Nat) (reason : Fault) : Surroundings δ
  | .signal, h => if h.countP Event.isSignal < n then none else some reason
  | e, h => w e h

theorem Surroundings.interrupted_givesUpAfter (w : Surroundings δ) (n : Nat) (reason : Fault) :
    (w.interrupted n reason).GivesUpAfter [] n reason := by
  intro new
  rw [List.nil_append]
  rfl

/-- Two paragraphs that do not fit together: three questions, and no chunk for a caller who gives up
at the third of them. -/
theorem splitAsked_all_or_nothing_paragraphs :
    questions .codePoint 2 #[97, 10, 10, 98] = 3 ∧
      Task.play (Surroundings.interrupted (Embedding.serving fun _ _ => .ok []) 3 (.plain "stop"))
          (splitAsked .codePoint 2 0 #[97, 10, 10, 98] : Task Nat (List Chunk)) [] =
        (.ok [⟨0, #[97], 1, 0, 1, 0⟩, ⟨1, #[98], 1, 3, 4, 0⟩],
          List.replicate 3 ⟨.signal, none⟩) ∧
      Task.play (Surroundings.interrupted (Embedding.serving fun _ _ => .ok []) 2 (.plain "stop"))
          (splitAsked .codePoint 2 0 #[97, 10, 10, 98] : Task Nat (List Chunk)) [] =
        (.error (.cancelled "Chunking cancelled" (some (.plain "stop"))),
          List.replicate 2 ⟨.signal, none⟩ ++ [⟨.signal, some (.plain "stop")⟩]) := by
  have hthree : questions .codePoint 2 #[97, 10, 10, 98] = 3 := by decide +kernel
  have hsize : Number.natural? 2 = some 2 := by decide +kernel
  have hoverlap : Number.natural? 0 = some 0 := by decide +kernel
  have hall (n : Nat) := (splitAsked_all_or_nothing .codePoint 2 0 #[97, 10, 10, 98]
    (Surroundings.interrupted (Embedding.serving fun _ _ => (.ok [] : Except Fault (List (List Nat))))
      n (.plain "stop")) [] n (.plain "stop") (Surroundings.interrupted_givesUpAfter _ n _)).2 2 0
    (by decide) hsize hoverlap
  rw [hthree] at hall
  have hchunks : split .codePoint ⟨2, 0, by decide⟩ #[97, 10, 10, 98] =
      [⟨0, #[97], 1, 0, 1, 0⟩, ⟨1, #[98], 1, 3, 4, 0⟩] := by decide +kernel
  have hend := ((hall 3).1 (Nat.le_refl 3)).1
  rw [hchunks] at hend
  exact ⟨hthree, hend, (hall 2).2 (by decide)⟩

end Retrieval
