import Retrieval.Http.App
import Retrieval.Proofs.Chunk.Windows
import Retrieval.Proofs.Config.Values
import Retrieval.Proofs.Http.Uploads
import Retrieval.Proofs.Task.History

/-!
# Chunk sizes on their way to the chunks

What a request asks for about chunks goes together with the configuration into a window. The schema
of requests, that of the configuration, the rule for what is missing and the rules of windows fit:
`chunksOf_settled`.
-/

namespace Retrieval

open Check (Asked Whole)

theorem Number.whole?_of_natural? {x : Float} {n : Nat} (h : natural? x = some n) :
    whole? x = some (n : Int) := by
  obtain ⟨k, hk, hn⟩ := Option.bind_eq_some_iff.mp h
  split at hn
  · next hnonneg =>
    obtain rfl := Option.some.inj hn
    rw [hk, Int.toNat_of_nonneg hnonneg]
  · cases hn

/-! ## Windows -/

namespace Window

variable {d : Defaults} {size overlap : Option Float} {s n : Nat}

/-- The numbers behind what is asked for on top of the defaults: the size, and the overlap that goes
with it. Where no overlap is asked for, it is the usual one, but no more than a quarter of the
size. -/
structure Resolved (d : Defaults) (size overlap : Option Float) (s n : Nat) : Prop where
  size : Number.natural? (size.getD d.size) = some s
  pos : 0 < s
  asked : ∀ x, overlap = some x → Number.natural? x = some n
  usual : overlap = none → ∃ u, Number.natural? d.overlap = some u ∧ n = min u (s / 4)

/-- A quarter of a size is smaller than the size, also where it is rounded down to zero. -/
theorem Resolved.lt_of_none (h : Resolved d size none s n) : n < s := by
  obtain ⟨u, -, rfl⟩ := h.usual rfl
  have hpos := h.pos
  omega

theorem Resolved.lt_iff {x : Float} (h : Resolved d size (some x) s n) :
    x < size.getD d.size ↔ n < s := by
  rw [Number.lt_iff_of_whole (Number.whole?_of_natural? (h.asked x rfl))
    (Number.whole?_of_natural? h.size)]
  exact Int.ofNat_lt

/-- Two natural numbers of which the first is not zero fail only where the second is too great. -/
theorem of_natural {x y : Float} (hx : Number.natural? x = some s) (hy : Number.natural? y = some n)
    (hpos : 0 < s) :
    of x y = if hlt : n < s then .ok ⟨s, n, hlt⟩ else .error (.tooWide y x) := by
  unfold of
  rw [hx, hy]
  dsimp only
  rw [if_neg (Nat.ne_of_gt hpos)]

/-- **The window that is resolved** is that of the numbers, if the overlap is the smaller one. -/
theorem Resolved.resolve_eq (h : Resolved d size overlap s n) :
    resolve d size overlap =
      if hlt : n < s then .ok ⟨s, n, hlt⟩
      else .error (.tooWide (overlap.getD d.overlap) (size.getD d.size)) := by
  unfold resolve
  cases overlap with
  | some x => exact of_natural h.size (h.asked x rfl) h.pos
  | none =>
    obtain ⟨u, hu, hn⟩ := h.usual rfl
    have hwhole := Number.whole?_of_natural? hu
    have hlt := h.lt_of_none
    dsimp only
    rw [h.size, dif_pos hlt]
    dsimp only
    rw [Check.not_isNan_of_whole hwhole, Check.below_of_whole hwhole, Bool.false_or]
    by_cases husual : u < s / 4
    · obtain rfl : n = u := by omega
      rw [if_pos (decide_eq_true (Int.ofNat_lt.mpr husual)), of_natural h.size hu h.pos,
        dif_pos hlt]
    · obtain rfl : n = s / 4 := by omega
      rw [if_neg (by rwa [decide_eq_true_eq, Int.ofNat_lt]), dif_pos hlt]

theorem Resolved.exists_iff (h : Resolved d size overlap s n) :
    (∃ w, resolve d size overlap = .ok w) ↔
      overlap = none ∨ ∃ x, overlap = some x ∧ x < size.getD d.size := by
  have hlt : (∃ w, resolve d size overlap = .ok w) ↔ n < s := by
    rw [h.resolve_eq]
    by_cases hlt : n < s <;> simp [hlt]
  rw [hlt]
  cases overlap with
  | none => simp [h.lt_of_none]
  | some x => simp [h.lt_iff]

/-- Numbers that were accepted are resolved on top of a configuration. -/
theorem exists_resolved {c : Config} (hc : Config.Ranged c) (h : Asked size overlap) :
    ∃ s n, Resolved c.window size overlap s n := by
  have hsize : Whole (1 ≤ ·) (size.getD c.chunkSize) := by
    cases hsize : size with
    | none =>
      obtain ⟨k, hk, hone, -⟩ := hc.chunkSize
      exact ⟨k, hk, hone⟩
    | some x => exact h.size x hsize
  obtain ⟨s, hs, hone⟩ := hsize.natural fun k hk => by omega
  have hpos : 0 < s := by omega
  cases hoverlap : overlap with
  | none =>
    obtain ⟨u, hu, -⟩ := hc.chunkOverlap.natural fun k hk => hk.1
    exact ⟨s, min u (s / 4), hs, hpos, nofun, fun _ => ⟨u, hu, rfl⟩⟩
  | some x =>
    obtain ⟨n, hn, -⟩ := (h.overlap x hoverlap).natural fun k hk => hk
    refine ⟨s, n, hs, hpos, ?_, nofun⟩
    rintro _ ⟨⟩
    exact hn

end Window

theorem Assembly.defaults_of {c : Config} {a : Assembly} (h : Assembly.of c = .ok a) :
    a.defaults = c.window := by
  unfold Assembly.of at h
  split at h
  · cases h
  · obtain rfl := Except.ok.inj h
    rfl

/-! ## Documents -/

namespace Http

open Value (RecordKind)

variable {kind : RecordKind} {id body : Value} {upload : Option Upload} {d : Document}

theorem accepted_eq_ok_iff {α : Type} {o : Outcome α} {a : α} :
    accepted o = .ok a ↔ o.toExcept = .ok a := mapError_eq_ok_iff

theorem asked_of_uploadedDocument {storeId : String} {u : Upload}
    (h : uploadedDocument kind storeId body u = .ok d) : Asked d.chunkSize d.overlap := by
  unfold uploadedDocument at h
  cases hname : isUploadable u.filename with
  | false =>
    rw [hname] at h
    cases h
  | true =>
    rw [hname] at h
    simp only [Bool.not_true, Bool.false_eq_true, if_false] at h
    obtain ⟨fields, hfields, h⟩ := bind_eq_ok_iff.mp h
    obtain ⟨text, -, h⟩ := bind_eq_ok_iff.mp h
    obtain rfl := Except.ok.inj h
    exact Check.asked_of_uploadFields (accepted_eq_ok_iff.mp hfields)

theorem asked_of_writtenDocument {storeId : String}
    (h : writtenDocument kind storeId body = .ok d) : Asked d.chunkSize d.overlap := by
  obtain ⟨r, hr, h⟩ := bind_eq_ok_iff.mp h
  obtain rfl := Except.ok.inj h
  exact Check.asked_of_document (accepted_eq_ok_iff.mp hr)

/-- The numbers that a document asks for are accepted ones, in whatever way it is sent. -/
theorem asked_of_documentOf (h : documentOf kind id body upload = .ok d) :
    Asked d.chunkSize d.overlap := by
  obtain ⟨storeId, -, h⟩ := bind_eq_ok_iff.mp h
  cases upload with
  | some u => exact asked_of_uploadedDocument h
  | none => exact asked_of_writtenDocument h

end Http

/-! ## Chunks -/

namespace Ingestion

section

variable {δ : Type} {s : Setup} {d : Document} {size n : Nat}

/-- Only an overlap that is too great makes the numbers refused, in whatever surroundings. -/
theorem chunksOf_refused_iff (h : Window.Resolved s.defaults d.chunkSize d.overlap size n)
    (w : Surroundings δ) (past : History δ) :
    (∃ message cause, (Task.play w (chunksOf s d) past).1 =
      .error (.service .invalidConfiguration message cause)) ↔ ¬ n < size := by
  unfold chunksOf
  rw [h.resolve_eq]
  by_cases hlt : n < size
  · rw [dif_pos hlt, Task.signal, Task.play_bind_ok w past (Task.play_ask w past .signal)]
    refine iff_of_false ?_ (not_not_intro hlt)
    rintro ⟨message, cause, hplay⟩
    dsimp only at hplay
    generalize splitWatched? _ _ _ _ = found at hplay
    cases found <;> cases hplay
  · rw [dif_neg hlt]
    exact iff_of_true ⟨_, none, rfl⟩ hlt

end

/-- **Numbers that are accepted fit.** The numbers of a configuration that was loaded are within
their bounds. On top of it, whatever a request may ask for about chunks comes to natural numbers, a
positive size and an overlap; they make a window exactly when no overlap is asked for, or a smaller
one than the size. So a document that a request brings is refused for its numbers only where it asks
for an overlap that is not smaller. -/
theorem chunksOf_settled (isAddress : String → Bool) (environment : List (String × Value))
    (c : Config) (hload : Config.load isAddress environment = .ok c) :
    Config.Ranged c ∧
    (∀ kind path v r, (Check.object (Check.chunkingMembers kind) path v).toExcept = .ok r →
      (∃ size n, Window.Resolved c.window r.size r.overlap size n) ∧
      ((∃ window, Window.resolve c.window r.size r.overlap = .ok window) ↔
        r.overlap = none ∨ ∃ x, r.overlap = some x ∧ x < r.size.getD c.chunkSize)) ∧
    ∀ assembly tokenizer kind id body upload d, Assembly.of c = .ok assembly →
      Http.documentOf kind id body upload = .ok d →
      (∃ size n, Window.Resolved (Http.App.of assembly tokenizer).setup.defaults d.chunkSize
        d.overlap size n) ∧
      ∀ (w : Surroundings Float) (past : History Float),
        (∃ message cause,
          (Task.play w (chunksOf (Http.App.of assembly tokenizer).setup d) past).1 =
            .error (.service .invalidConfiguration message cause)) ↔
        ∃ x, d.overlap = some x ∧ ¬ x < d.chunkSize.getD c.chunkSize := by
  obtain ⟨hranged, -⟩ := Config.ranged_of_load hload
  refine ⟨hranged, ?_, ?_⟩
  · intro kind path v r hr
    obtain ⟨size, n, hresolved⟩ := Window.exists_resolved hranged (Check.asked_of_object hr)
    exact ⟨⟨size, n, hresolved⟩, hresolved.exists_iff⟩
  · intro assembly tokenizer kind id body upload d hassembly hd
    obtain ⟨size, n, hresolved⟩ := Window.exists_resolved hranged (Http.asked_of_documentOf hd)
    rw [← Assembly.defaults_of hassembly] at hresolved
    refine ⟨⟨size, n, hresolved⟩, fun w past => ?_⟩
    rw [chunksOf_refused_iff hresolved]
    cases hoverlap : d.overlap with
    | none =>
      rw [hoverlap] at hresolved
      simp [hresolved.lt_of_none]
    | some x =>
      rw [hoverlap] at hresolved
      have hlt := hresolved.lt_iff
      rw [Assembly.defaults_of hassembly] at hlt
      simp [← hlt, Config.window]

/-- Settings with a small size and the greatest overlap that goes with it. -/
def smallSettings : Config.Environment :=
  [("DATABASE_URL", "db"), ("CHUNK_SIZE", "3"), ("CHUNK_OVERLAP", "2")]

theorem sound_smallSettings : Config.Sound Address.isAbsolute smallSettings := by
  constructor
  · rintro name ⟨rule, s, hmem, hs, hnot⟩
    have hgiven := Config.Environment.mem_of_given hs
    simp only [smallSettings, List.mem_cons, List.not_mem_nil, or_false, Prod.mk.injEq] at hgiven
    rcases hgiven with ⟨rfl, rfl⟩ | ⟨rfl, rfl⟩ | ⟨rfl, rfl⟩
    · obtain rfl : rule = .nonempty := by simpa [Config.rules] using hmem
      exact hnot (by simp [Config.Rule.Accepts])
    · obtain rfl : rule = .number 1 none := by simpa [Config.rules] using hmem
      exact hnot ⟨3, by decide +kernel, by simp [Config.Within]⟩
    · obtain rfl : rule = .number 0 none := by simpa [Config.rules] using hmem
      exact hnot ⟨2, by decide +kernel, by simp [Config.Within]⟩
  · exact ⟨3, 2, by decide +kernel, by decide +kernel, by decide⟩

/-- A size of one, smaller than the usual overlap; a quarter of it is nothing. -/
theorem chunksOf_settled_one :
    Config.load Address.isAbsolute smallSettings.values = .ok (Config.described smallSettings) ∧
    ∃ assembly d, Assembly.of (Config.described smallSettings) = .ok assembly ∧
      Http.documentOf .common (.text Http.someId) (.record [("chunkSize", .text "1")])
        (some Http.letter) = .ok d ∧
      ∀ tokenizer (w : Surroundings Float) (past : History Float) message cause,
        (Task.play w (chunksOf (Http.App.of assembly tokenizer).setup d) past).1 ≠
          .error (.service .invalidConfiguration message cause) := by
  have hload :
      Config.load Address.isAbsolute smallSettings.values = .ok (Config.described smallSettings) :=
    Config.load_of_sound sound_smallSettings
  have hassembly : ∃ assembly, Assembly.of (Config.described smallSettings) = .ok assembly :=
    ⟨_, rfl⟩
  have hdocument : ∃ d, Http.documentOf .common (.text Http.someId)
      (.record [("chunkSize", .text "1")]) (some Http.letter) = .ok d ∧ d.overlap = none :=
    ⟨_, by rfl, by rfl⟩
  obtain ⟨assembly, hassembly⟩ := hassembly
  obtain ⟨d, hd, hoverlap⟩ := hdocument
  refine ⟨hload, assembly, d, hassembly, hd, fun tokenizer w past message cause h => ?_⟩
  obtain ⟨-, hrefused⟩ := (chunksOf_settled _ _ _ hload).2.2 _ tokenizer _ _ _ _ _ hassembly hd
  obtain ⟨x, hx, -⟩ := (hrefused w past).mp ⟨message, cause, h⟩
  rw [hoverlap] at hx
  cases hx

end Ingestion

end Retrieval
