import Mathlib.Algebra.Order.Field.Basic
import Retrieval.Proofs.Embedding.Faults
import Retrieval.Proofs.Search.Ranking

/-!
# How a search may end

`Plan.play_serve_course` sums up every course of a search, whatever the provider, the tables and the
caller do: the query is embedded, then the tables are called once, then the signal is looked at, and
the first of these that goes wrong ends the search. So only the service's own errors come out of it,
but for what embedding lets through: `serve_closed`.
-/

namespace Retrieval.Search

open History

/-! ## What may be asked for -/

theorem limit?_eq_some_iff {x : Float} {n : Nat} :
    limit? x = some n ↔ Number.natural? x = some n ∧ 1 ≤ n ∧ n ≤ 100 := by
  unfold limit? Number.natural?
  cases Number.whole? x with
  | none => simp
  | some k =>
    simp only [Option.bind_some, Option.ite_none_right_eq_some, Option.some.injEq,
      Bool.and_eq_true, decide_eq_true_eq]
    unfold minResults maxResults
    omega

/-- A threshold is a number from zero to one. -/
theorem thresholdOk_iff {t : Float} : thresholdOk t = true ↔
    (∃ negative m e, Exact.of t = .finite negative m e) ∧ 0 ≤ exactly t ∧ exactly t ≤ 1 := by
  unfold thresholdOk Number.atLeast Number.atMost exactly
  cases hof : Exact.of t with
  | nan => simp [Exact.compareTo]
  | infinite negative => cases negative <;> simp [Exact.compareTo]
  | finite negative m e =>
    have hpos : (0 : ℚ) < twoTo (-e).toNat := by exact_mod_cast twoTo_pos _
    have hnum : 0 ≤ (Exact.signed negative (m * twoTo e.toNat) : ℚ) / twoTo (-e).toNat ∧
        (Exact.signed negative (m * twoTo e.toNat) : ℚ) / twoTo (-e).toNat ≤ 1 ↔
        0 ≤ Exact.signed negative (m * twoTo e.toNat) ∧
          Exact.signed negative (m * twoTo e.toNat) ≤ twoTo (-e).toNat := by
      rw [le_div_iff₀ hpos, div_le_iff₀ hpos, zero_mul, one_mul]
      norm_cast
    rw [hnum]
    simp only [Exact.compareTo, Int.zero_mul, Int.one_mul, Bool.and_eq_true]
    generalize Exact.signed negative (m * twoTo e.toNat) = a
    have hlow : ¬ compare a 0 = .lt ↔ 0 ≤ a := by
      rw [Int.compare_eq_lt]
      omega
    have hhigh : ¬ compare a (twoTo (-e).toNat) = .gt ↔ a ≤ twoTo (-e).toNat := by
      rw [Int.compare_eq_gt]
      omega
    rw [← hlow, ← hhigh]
    cases compare a 0 <;> cases compare a (twoTo (-e).toNat) <;> simp

/-- What a caller may ask for: a query that is not blank, a number of results from 1 to 100, and a
threshold, if any, from zero to one. -/
structure Params.Valid (p : Params) : Prop where
  query : p.query.allBlank = false
  limit : ∃ n, Number.natural? p.maxResults = some n ∧ 1 ≤ n ∧ n ≤ 100
  threshold : ∀ t, p.scoreThreshold = some t →
    (∃ negative m e, Exact.of t = .finite negative m e) ∧ 0 ≤ exactly t ∧ exactly t ≤ 1

theorem Params.exists_plan_iff {p : Params} : (∃ plan, p.plan = .ok plan) ↔ p.Valid := by
  unfold Params.plan
  constructor
  · rintro ⟨plan, hplan⟩
    split at hplan
    · cases hplan
    · next hquery =>
      split at hplan
      · cases hplan
      · next limit hlimit =>
        refine ⟨by simpa using hquery, ⟨limit, limit?_eq_some_iff.mp hlimit⟩, fun t ht => ?_⟩
        rw [ht] at hplan
        dsimp only at hplan
        split at hplan
        · next hok => exact thresholdOk_iff.mp hok
        · cases hplan
  · rintro ⟨hquery, ⟨n, hn⟩, hthreshold⟩
    rw [hquery, limit?_eq_some_iff.mpr hn]
    cases ht : p.scoreThreshold with
    | none => exact ⟨_, rfl⟩
    | some t =>
      dsimp only
      rw [if_pos (thresholdOk_iff.mpr (hthreshold t ht))]
      exact ⟨_, rfl⟩

/-! ## Courses -/

/-- How a fault of the lookup is passed on: the service's own errors as they are, any other one as
the cause of the tables being out of reach. -/
def unavailable (fault : Fault) : Fault :=
  if fault.isService then fault
  else .service .backendUnavailable "Nearest-neighbor lookup failed" (some fault)

section

variable {δ : Type} [Sub δ] [OfNat δ 1] [LE δ] [DecidableLE δ]
variable {w : Surroundings δ} {past : History δ}

def Plan.answered (p : Plan δ) (vector : List δ) (answer : Except Fault (List (Candidate δ))) :
    Event δ := ⟨.chunks (.nearestNeighbors (p.lookup vector)), answer⟩

/-- The query is embedded with that outcome; `asked` is what was asked for it. -/
def Plan.Embeds (p : Plan δ) (client : Embedding.Client) (w : Surroundings δ) (past : History δ)
    (r : Except Fault (List δ)) (asked : History δ) : Prop :=
  Task.play w (client.embedOne p.query none) (past ++ [⟨.now, w .now past⟩]) =
    (r, past ++ [⟨.now, w .now past⟩] ++ asked) ∧ asked.calls = []

/-- The courses of a search, with the outcome and with what was asked. -/
inductive Plan.Course (p : Plan δ) (client : Embedding.Client) (w : Surroundings δ)
    (past : History δ) : Except Fault (List (SearchResult δ)) → History δ → Prop
  | unembedded (fault : Fault) (asked : History δ) :
      p.Embeds client w past (.error fault) asked →
      Course p client w past (.error fault) (⟨.now, w .now past⟩ :: asked)
  | unanswered (vector : List δ) (asked : History δ) (fault : Fault) :
      p.Embeds client w past (.ok vector) asked →
      Course p client w past (.error (unavailable fault))
        (⟨.now, w .now past⟩ :: asked ++ [p.answered vector (.error fault)])
  | givenUp (vector : List δ) (asked : History δ) (candidates : List (Candidate δ))
      (reason : Fault) :
      p.Embeds client w past (.ok vector) asked →
      w .signal (past ++ (⟨.now, w .now past⟩ :: asked ++ [p.answered vector (.ok candidates)])) =
        some reason →
      Course p client w past (.error (.cancelled "Search cancelled" (some reason)))
        (⟨.now, w .now past⟩ :: asked ++
          [p.answered vector (.ok candidates), ⟨.signal, some reason⟩])
  | checked (vector : List δ) (asked : History δ) (candidates : List (Candidate δ))
      (more : History δ) :
      p.Embeds client w past (.ok vector) asked →
      w .signal (past ++ (⟨.now, w .now past⟩ :: asked ++ [p.answered vector (.ok candidates)])) =
        none →
      more.calls = [] →
      Course p client w past (p.results candidates)
        (⟨.now, w .now past⟩ :: asked ++
          p.answered vector (.ok candidates) :: ⟨.signal, none⟩ :: more)

omit [Sub δ] [OfNat δ 1] [LE δ] [DecidableLE δ] in
theorem play_lookUp_error {q : NeighborQuery δ} {fault : Fault}
    (h : w (.chunks (.nearestNeighbors q)) past = .error fault) :
    Task.play w (lookUp q) past = (.error (unavailable fault),
      past ++ [⟨.chunks (.nearestNeighbors q), .error fault⟩]) := by
  have hcall : Task.play w (Task.chunks (.nearestNeighbors q)).outcome past =
      (.ok (.error fault), past ++ [⟨.chunks (.nearestNeighbors q), .error fault⟩]) := by
    rw [Task.play_outcome, ← h]
    rfl
  rw [lookUp, Task.play_bind_ok w past hcall, unavailable]
  dsimp only
  split <;> rfl

/-- **Every course of a search.** -/
theorem Plan.play_serve_course (p : Plan δ) (client : Embedding.Client) (w : Surroundings δ)
    (past : History δ) :
    ∃ r new, Task.play w (p.serve client) past = (r, past ++ new) ∧
      p.Course client w past r new := by
  obtain ⟨r, asked, hplay, hcalls, -⟩ :=
    Embedding.play_embedOne client p.query none w (past ++ [⟨.now, w .now past⟩])
  have hembeds : p.Embeds client w past r asked := ⟨hplay, hcalls⟩
  have hstart : Task.play w (p.serve client) past = _ :=
    Task.play_bind_ok w past (Task.play_ask w past .now)
  rw [hstart]
  cases r with
  | error fault =>
    refine ⟨_, _, ?_, .unembedded fault asked hembeds⟩
    rw [Task.play_bind_error w _ hplay, List.append_assoc]
    rfl
  | ok vector =>
    rw [Task.play_bind_ok w _ hplay]
    cases hanswer : w (.chunks (.nearestNeighbors (p.lookup vector)))
        (past ++ [⟨.now, w .now past⟩] ++ asked) with
    | error fault =>
      refine ⟨_, _, ?_, .unanswered vector asked fault hembeds⟩
      rw [Task.play_bind_error w _ (play_lookUp_error hanswer), List.append_assoc,
        List.append_assoc]
      rfl
    | ok candidates =>
      rw [Task.play_bind_ok w _ (play_lookUp hanswer), Task.signal,
        Task.play_bind_ok w _ (Task.play_ask w _ .signal)]
      have hpast : past ++ [⟨.now, w .now past⟩] ++ asked ++ [p.answered vector (.ok candidates)] =
          past ++ (⟨.now, w .now past⟩ :: asked ++ [p.answered vector (.ok candidates)]) := by simp
      rw [← Plan.answered, hpast]
      cases hsignal : w .signal
          (past ++ (⟨.now, w .now past⟩ :: asked ++ [p.answered vector (.ok candidates)])) with
      | some reason =>
        refine ⟨_, _, ?_, .givenUp vector asked candidates reason hembeds hsignal⟩
        rw [Task.play_throw]
        simp
      | none =>
        have hcourse := fun more hmore =>
          Course.checked vector asked candidates more hembeds hsignal hmore
        dsimp only
        cases hresults : p.results candidates with
        | error fault =>
          simp only [hresults] at hcourse
          refine ⟨_, _, ?_, hcourse [] rfl⟩
          rw [Task.play_bind_error w _ (Task.play_lift w _ _)]
          simp
        | ok results =>
          simp only [hresults] at hcourse
          refine ⟨_, _, ?_, hcourse [⟨.now, ?ended⟩, ⟨.log ?entry, ()⟩] rfl⟩
          rw [Task.play_bind_ok w _ (Task.play_lift w _ _), Task.now,
            Task.play_bind_ok w _ (Task.play_ask w _ _),
            Task.play_bind_ok w _ (Task.play_log w _ _ _ _), Task.play_pure]
          simp only [List.append_assoc, List.cons_append, List.nil_append]
          rfl

omit [Sub δ] [OfNat δ 1] [LE δ] [DecidableLE δ] in
/-- Where there is one call, it stands in one place. -/
theorem eq_of_one_call {before rest xs ys : History δ} {e call : Event δ} (hxs : xs.calls = [])
    (hys : ys.calls = []) (hcall : call.1.isAside = false)
    (h : xs ++ e :: ys = before ++ call :: rest) : xs = before ∧ e = call := by
  have hnot : ∀ l : History δ, l.calls = [] → call ∉ l := fun l hl hmem => by
    have hmem' : call ∈ l.calls := List.mem_filter.mpr ⟨hmem, by simp [hcall]⟩
    rw [hl] at hmem'
    cases hmem'
  rcases List.append_eq_append_iff.mp h with ⟨more, hbefore, hrest⟩ | ⟨more, hbefore, hrest⟩
  · cases more with
    | nil => exact ⟨by simpa using hbefore.symm, (List.cons.inj hrest).1⟩
    | cons x more =>
      have hmem : call ∈ ys := by
        rw [(List.cons.inj hrest).2]
        simp
      exact absurd hmem (hnot ys hys)
  · cases more with
    | nil => exact ⟨by simpa using hbefore, (List.cons.inj hrest).1.symm⟩
    | cons x more =>
      have hmem : call ∈ xs := by
        rw [hbefore, ← (List.cons.inj hrest).1]
        simp
      exact absurd hmem (hnot xs hxs)

variable {p : Plan δ} {client : Embedding.Client} {r : Except Fault (List (SearchResult δ))}
  {new : History δ}

/-- The query is embedded, and the tables are called here and nowhere else in the course; what
follows from their answer. -/
structure Plan.Looked (p : Plan δ) (client : Embedding.Client) (w : Surroundings δ)
    (past : History δ) (r : Except Fault (List (SearchResult δ))) (vector : List δ)
    (answer : Except Fault (List (Candidate δ))) (before rest : History δ) : Prop where
  embeds : ∃ asked, p.Embeds client w past (.ok vector) asked
  before_calls : before.calls = []
  rest_calls : rest.calls = []
  failed : ∀ fault, answer = .error fault → r = .error (unavailable fault)
  givenUp : ∀ candidates reason, answer = .ok candidates →
    w .signal (past ++ (before ++ [p.answered vector answer])) = some reason →
    r = .error (.cancelled "Search cancelled" (some reason))
  served : ∀ candidates, answer = .ok candidates →
    w .signal (past ++ (before ++ [p.answered vector answer])) = none → r = p.results candidates

/-- A course ends with embedding, or it has a lookup. -/
theorem Plan.Course.looked (h : p.Course client w past r new) :
    (∃ fault asked, r = .error fault ∧ new = ⟨.now, w .now past⟩ :: asked ∧
      p.Embeds client w past (.error fault) asked) ∨
    ∃ vector answer before rest, new = before ++ p.answered vector answer :: rest ∧
      p.Looked client w past r vector answer before rest := by
  have hstart (asked : History δ) (hasked : asked.calls = []) :
      History.calls (⟨.now, w .now past⟩ :: asked) = [] := hasked
  cases h with
  | unembedded fault asked hembeds => exact .inl ⟨fault, asked, rfl, rfl, hembeds⟩
  | unanswered vector asked fault hembeds =>
    refine .inr ⟨vector, .error fault, _, [], rfl, ⟨asked, hembeds⟩, hstart asked hembeds.2, rfl,
      ?_, nofun, nofun⟩
    rintro _ ⟨⟩
    rfl
  | givenUp vector asked candidates reason hembeds hsignal =>
    refine .inr ⟨vector, .ok candidates, _, _, rfl, ⟨asked, hembeds⟩, hstart asked hembeds.2, rfl,
      nofun, fun _ reason' _ hreason => ?_, fun _ _ hnone => ?_⟩
    · rw [hsignal] at hreason
      rw [Option.some.inj hreason]
    · rw [hsignal] at hnone
      cases hnone
  | checked vector asked candidates more hembeds hsignal hmore =>
    refine .inr ⟨vector, .ok candidates, _, _, rfl, ⟨asked, hembeds⟩, hstart asked hembeds.2, hmore,
      nofun, fun _ reason _ hreason => ?_, ?_⟩
    · rw [hsignal] at hreason
      cases hreason
    · rintro _ ⟨⟩ -
      rfl

theorem Plan.Looked.calls_eq {vector : List δ} {answer : Except Fault (List (Candidate δ))}
    {before rest : History δ} (h : p.Looked client w past r vector answer before rest) :
    History.calls (before ++ p.answered vector answer :: rest) = [p.answered vector answer] := by
  rw [calls_append, h.before_calls, List.nil_append]
  show p.answered vector answer :: History.calls rest = _
  rw [h.rest_calls]

/-- So the tables are called once at the most, for a lookup. -/
theorem Plan.Course.once (h : p.Course client w past r new) :
    new.calls = [] ∨ ∃ q answer, new.calls = [⟨.chunks (.nearestNeighbors q), answer⟩] := by
  rcases h.looked with ⟨fault, asked, -, rfl, hembeds⟩ | ⟨vector, answer, before, rest, rfl, hlooked⟩
  · exact .inl hembeds.2
  · exact .inr ⟨p.lookup vector, answer, hlooked.calls_eq⟩

/-- A lookup in a course is the call of the tables. -/
theorem Plan.Course.looked_of_eq {before rest : History δ} {q : NeighborQuery δ}
    {answer : Except Fault (List (Candidate δ))} (h : p.Course client w past r new)
    (hnew : new = before ++ ⟨.chunks (.nearestNeighbors q), answer⟩ :: rest) :
    ∃ vector, q = p.lookup vector ∧ p.Looked client w past r vector answer before rest := by
  rcases h.looked with ⟨fault, asked, -, hasked, hembeds⟩ |
    ⟨vector, answer', before', rest', hnew', hlooked⟩
  · have hnone : new.calls = [] := hasked ▸ hembeds.2
    rw [hnew] at hnone
    simp [calls, Effect.isAside] at hnone
  · obtain ⟨rfl, hevent⟩ :=
      eq_of_one_call hlooked.before_calls hlooked.rest_calls rfl (hnew'.symm.trans hnew)
    obtain rfl : rest' = rest :=
      (List.cons.inj (List.append_cancel_left (hnew'.symm.trans hnew))).2
    unfold Plan.answered at hevent
    cases hevent
    exact ⟨vector, rfl, hlooked⟩

/-- A query that is not embedded ends the search, with the fault of embedding. -/
theorem Plan.Course.of_unembedded {fault : Fault} {embedded : History δ}
    (h : p.Course client w past r new)
    (hembed : Task.play w (client.embedOne p.query none) (past ++ [⟨.now, w .now past⟩]) =
      (.error fault, embedded)) :
    r = .error fault ∧ past ++ new = embedded ∧ new.calls = [] := by
  rcases h.looked with ⟨fault', asked, rfl, rfl, hembeds⟩ | ⟨vector, answer, before, rest, -, hlooked⟩
  · obtain ⟨hfault, hembedded⟩ := Prod.mk.inj (hembeds.1.symm.trans hembed)
    exact ⟨by rw [Except.error.inj hfault], by rw [← hembedded]; simp, hembeds.2⟩
  · obtain ⟨asked, hembeds⟩ := hlooked.embeds
    cases hembeds.1.symm.trans hembed

/-- A query that is embedded is looked up. -/
theorem Plan.Course.of_embedded {vector : List δ} {embedded : History δ}
    (h : p.Course client w past r new)
    (hembed : Task.play w (client.embedOne p.query none) (past ++ [⟨.now, w .now past⟩]) =
      (.ok vector, embedded)) :
    ∃ answer, new.calls = [p.answered vector answer] := by
  rcases h.looked with ⟨fault, asked, -, -, hembeds⟩ | ⟨vector', answer, before, rest, rfl, hlooked⟩
  · cases hembeds.1.symm.trans hembed
  · obtain ⟨asked, hembeds⟩ := hlooked.embeds
    obtain ⟨hvector, -⟩ := Prod.mk.inj (hembeds.1.symm.trans hembed)
    obtain rfl := Except.ok.inj hvector
    exact ⟨answer, hlooked.calls_eq⟩

theorem bind_eq_error_iff {α β : Type} {x : Except Fault α} {f : α → Except Fault β}
    {fault : Fault} :
    (x >>= f) = .error fault ↔ x = .error fault ∨ ∃ a, x = .ok a ∧ f a = .error fault := by
  cases x <;> simp [bind, Except.bind]

theorem matchesFilter_error {metadata : Value} {entries : List (String × String)} {fault : Fault}
    (h : matchesFilter metadata entries = .error fault) :
    ∃ words, fault = .other "TypeError" words none := by
  induction entries with
  | nil => cases h
  | cons entry rest ih =>
    rcases bind_eq_error_iff.mp h with hproperty | ⟨found, -, h⟩
    · cases hfound : metadata.property entry.1 with
      | error words =>
        rw [hfound] at hproperty
        exact ⟨words, (Except.error.inj hproperty).symm⟩
      | ok found =>
        rw [hfound] at hproperty
        cases hproperty
    · split at h
      · exact ih h
      · cases h

omit [Sub δ] [OfNat δ 1] [LE δ] [DecidableLE δ] in
theorem filtered_error {filter : List (String × String)} {candidates : List (Candidate δ)}
    {fault : Fault} (h : filtered filter candidates = .error fault) :
    ∃ words, fault = .other "TypeError" words none := by
  induction candidates with
  | nil => cases h
  | cons c rest ih =>
    rcases bind_eq_error_iff.mp h with hpasses | ⟨passes, -, h⟩
    · exact matchesFilter_error hpasses
    · rcases bind_eq_error_iff.mp h with hmore | ⟨more, -, h⟩
      · exact ih hmore
      · cases h

/-- Only a candidate whose metadata are no record makes the check fail: nothing can be read off
them. -/
theorem Plan.exists_of_results_error {candidates : List (Candidate δ)} {fault : Fault}
    (h : p.results candidates = .error fault) :
    ∃ c ∈ candidates, (∀ members, c.metadata ≠ .record members) ∧
      ∃ words, fault = .other "TypeError" words none := by
  have hfault : ∃ words, fault = .other "TypeError" words none := by
    rcases bind_eq_error_iff.mp h with hpassed | ⟨passed, -, h⟩
    · exact filtered_error hpassed
    · cases h
  by_contra hall
  have hmeta : ∀ c ∈ candidates, ∃ members, c.metadata = .record members := by
    intro c hc
    by_contra hnone
    exact hall ⟨c, hc, by simpa using hnone, hfault⟩
  rw [p.results_eq candidates hmeta] at h
  cases h

end

/-! ## What comes out of a search -/

/-- The faults that belong to a search: the service's own errors for bad arguments, for embedding,
for work that was given up and for tables out of reach, and an error of the service's own that the
tables have raised. -/
inductive Belongs {δ : Type} (new : History δ) : Fault → Prop
  | argument (message : String) : Belongs new (.invalidArgument message)
  | embedding (kind : FailureKind) (attempts : Attempts) (message : String) (cause : Option Fault) :
      Belongs new (.service (.embeddingService kind attempts) message cause)
  | cancelled (message : String) (cause : Option Fault) : Belongs new (.cancelled message cause)
  | unavailable (message : String) (cause : Option Fault) :
      Belongs new (.service .backendUnavailable message cause)
  | table (q : NeighborQuery δ) (fault : Fault) :
      ⟨.chunks (.nearestNeighbors q), .error fault⟩ ∈ new → fault.isService = true →
      Belongs new fault

/-- The other faults that may come out of it: the provider has raised what has no text, the policy
allows no text in a batch, or the tables have answered with a candidate whose metadata are no
record. -/
inductive Escapes {δ : Type} (policy : Embedding.Policy) (new : History δ) : Fault → Prop
  | textless (batch : List Text) (model : String) (given fault : Fault) :
      ⟨.embed batch model, .error given⟩ ∈ new → given.words = .error fault →
      Escapes policy new fault
  | emptyBatches : policy.batchSize = 0 → Escapes policy new Embedding.noDimension
  | metadata (q : NeighborQuery δ) (candidates : List (Candidate δ)) (c : Candidate δ)
      (words : String) :
      ⟨.chunks (.nearestNeighbors q), .ok candidates⟩ ∈ new → c ∈ candidates →
      (∀ members, c.metadata ≠ .record members) →
      Escapes policy new (.other "TypeError" words none)

theorem belongs_unavailable {δ : Type} {new : History δ} {q : NeighborQuery δ} {fault : Fault}
    (hmem : ⟨.chunks (.nearestNeighbors q), .error fault⟩ ∈ new) :
    Belongs new (unavailable fault) := by
  unfold unavailable
  split
  · next hservice => exact .table q fault hmem hservice
  · exact .unavailable _ _

section

variable {δ : Type} [Sub δ] [OfNat δ 1] [LE δ] [DecidableLE δ]
variable {p : Plan δ} {client : Embedding.Client} {w : Surroundings δ} {past new : History δ}
  {r : Except Fault (List (SearchResult δ))} {fault : Fault}

omit [Sub δ] [OfNat δ 1] [LE δ] [DecidableLE δ] in
/-- The faults of embedding belong to the search, or are those that it lets through. -/
theorem Plan.Embeds.belongs {asked more : History δ}
    (h : p.Embeds client w past (.error fault) asked) (hsub : ∀ event ∈ asked, event ∈ more) :
    Belongs more fault ∨ Escapes client.policy more fault := by
  obtain ⟨r, asked', hplay, -, hraised⟩ :=
    Embedding.play_embedOne client p.query none w (past ++ [⟨.now, w .now past⟩])
  obtain ⟨rfl, hasked⟩ := Prod.mk.inj (h.1.symm.trans hplay)
  obtain rfl := List.append_cancel_left hasked
  rcases hraised fault rfl with hraised | ⟨hzero, rfl⟩
  · cases hraised with
    | reported => exact .inl (.embedding _ _ _ _)
    | cancelled => exact .inl (.cancelled _ _)
    | textless batch model given _ hmem hwords =>
      exact .inr (.textless batch model given fault (hsub _ hmem) hwords)
  · exact .inr (.emptyBatches hzero)

/-- **Every fault of a search** belongs to it, or comes from one of the three. -/
theorem Plan.Course.belongs (h : p.Course client w past r new) (hr : r = .error fault) :
    Belongs new fault ∨ Escapes client.policy new fault := by
  cases h with
  | unembedded raised asked hembeds =>
    obtain rfl := Except.error.inj hr
    exact hembeds.belongs fun event hmem => List.mem_cons_of_mem _ hmem
  | unanswered vector asked raised hembeds =>
    obtain rfl := Except.error.inj hr
    exact .inl (belongs_unavailable (q := p.lookup vector) (by simp [Plan.answered]))
  | givenUp vector asked candidates reason =>
    obtain rfl := Except.error.inj hr
    exact .inl (.cancelled _ _)
  | checked vector asked candidates more =>
    obtain ⟨c, hc, hmeta, words, rfl⟩ := p.exists_of_results_error hr
    exact .inr (.metadata (p.lookup vector) candidates c words (by simp [Plan.answered]) hc hmeta)

end

/-- How a search for `p` has ended, with what it asked. -/
structure Ends (client : Embedding.Client) (p : Params) (w : Surroundings Float)
    (past : History Float) (r : Except Fault (List (SearchResult Float)))
    (new : History Float) : Prop where
  /-- its faults belong to it, but for those that escape -/
  closed : ∀ fault, r = .error fault → Belongs new fault ∨ Escapes client.policy new fault
  /-- bad parameters are refused before anything is asked -/
  refused : ¬ p.Valid → (∃ message, r = .error (.invalidArgument message)) ∧ new = []
  /-- a query that is not embedded ends it with the fault of embedding, and no table is called -/
  unembedded : p.Valid → ∀ fault embedded,
    Task.play w (client.embedOne p.query none) (past ++ [⟨.now, w .now past⟩]) =
      (.error fault, embedded) →
    r = .error fault ∧ past ++ new = embedded ∧ new.calls = []
  /-- a query that is embedded is looked up -/
  looked : ∀ plan, p.plan = .ok plan → ∀ vector embedded,
    Task.play w (client.embedOne p.query none) (past ++ [⟨.now, w .now past⟩]) =
      (.ok vector, embedded) →
    ∃ answer, new.calls = [plan.answered vector answer]
  /-- the tables are called once at the most, for a lookup -/
  once : new.calls = [] ∨ ∃ q answer, new.calls = [⟨.chunks (.nearestNeighbors q), answer⟩]
  /-- a failure of theirs is passed on, or is the cause of their being out of reach -/
  failed : ∀ q fault, ⟨.chunks (.nearestNeighbors q), .error fault⟩ ∈ new →
    r = .error (unavailable fault)
  /-- there are no results for a caller who has given up when the lookup is answered -/
  givenUp : ∀ before q candidates rest reason,
    new = before ++ ⟨.chunks (.nearestNeighbors q), .ok candidates⟩ :: rest →
    w .signal (past ++ (before ++ [⟨.chunks (.nearestNeighbors q), .ok candidates⟩])) =
      some reason →
    r = .error (.cancelled "Search cancelled" (some reason))
  /-- any other caller gets what the plan makes of the candidates -/
  served : ∀ plan, p.plan = .ok plan → ∀ before q candidates rest,
    new = before ++ ⟨.chunks (.nearestNeighbors q), .ok candidates⟩ :: rest →
    w .signal (past ++ (before ++ [⟨.chunks (.nearestNeighbors q), .ok candidates⟩])) = none →
    r = plan.results candidates

/-- A refusal calls for nothing. -/
theorem Ends.of_refusal {client : Embedding.Client} {p : Params} {w : Surroundings Float}
    {past : History Float} {refusal : Refusal} (hplan : p.plan = .error refusal) :
    Ends client p w past (.error (.invalidArgument refusal.message)) [] where
  closed := by
    rintro fault ⟨⟩
    exact .inl (.argument _)
  refused _ := ⟨⟨_, rfl⟩, rfl⟩
  unembedded hvalid := by
    obtain ⟨plan, hok⟩ := Params.exists_plan_iff.mpr hvalid
    rw [hplan] at hok
    cases hok
  looked plan hok := by
    rw [hplan] at hok
    cases hok
  once := .inl rfl
  failed := nofun
  givenUp before q candidates rest reason hnew := by simp at hnew
  served plan _ before q candidates rest hnew := by simp at hnew

/-- A course of a plan ends so. -/
theorem Plan.Course.ends {client : Embedding.Client} {p : Params} {plan : Plan Float}
    {w : Surroundings Float} {past new : History Float}
    {r : Except Fault (List (SearchResult Float))} (hplan : p.plan = .ok plan)
    (h : plan.Course client w past r new) : Ends client p w past r new where
  closed fault := h.belongs
  refused hinvalid := absurd (Params.exists_plan_iff.mp ⟨plan, hplan⟩) hinvalid
  unembedded _ fault embedded hembed := h.of_unembedded (by rwa [(Params.of_plan hplan).2.1])
  looked plan' hplan' vector embedded hembed := by
    obtain rfl := Except.ok.inj (hplan.symm.trans hplan')
    exact h.of_embedded (by rwa [(Params.of_plan hplan).2.1])
  once := h.once
  failed q fault hmem := by
    obtain ⟨before, rest, hnew⟩ := List.append_of_mem hmem
    obtain ⟨vector, -, hlooked⟩ := h.looked_of_eq hnew
    exact hlooked.failed fault rfl
  givenUp before q candidates rest reason hnew hreason := by
    obtain ⟨vector, rfl, hlooked⟩ := h.looked_of_eq hnew
    exact hlooked.givenUp candidates reason rfl hreason
  served plan' hplan' before q candidates rest hnew hnone := by
    obtain rfl := Except.ok.inj (hplan.symm.trans hplan')
    obtain ⟨vector, rfl, hlooked⟩ := h.looked_of_eq hnew
    exact hlooked.served candidates rfl hnone

/-- **How a search may end**, for everything that may be asked for, and whatever the provider, the
tables and the caller do. -/
theorem serve_closed (client : Embedding.Client) (p : Params) (w : Surroundings Float)
    (past : History Float) :
    ∃ r new, Task.play w (serve client p) past = (r, past ++ new) ∧
      Ends client p w past r new := by
  cases hplan : p.plan with
  | error refusal =>
    refine ⟨_, [], ?_, Ends.of_refusal hplan⟩
    rw [serve, hplan, List.append_nil]
    rfl
  | ok plan =>
    obtain ⟨r, new, hplay, hcourse⟩ := plan.play_serve_course client w past
    exact ⟨r, new, by rw [serve, hplan]; exact hplay, hcourse.ends hplan⟩

def lost : Fault := .other "Error" "connection lost" none

/-- The tables are out of reach; every text has the vector zero. -/
def lostTables : Surroundings Float
  | .chunks (.nearestNeighbors _), _ => .error lost
  | e, h => Embedding.serving (fun texts _ => .ok (texts.map fun _ => [0])) e h

theorem sample_batches : Embedding.Policy.usual.batches [#[97]] = [[#[97]]] := by decide +kernel

theorem usual_attempts : Embedding.Policy.usual.attempts = 5 := by decide +kernel

theorem serve_closed_lost :
    sampleParams.Valid ∧
    ∃ q new, Task.play lostTables (serve ⟨.usual, "m"⟩ sampleParams) [] =
      (.error (.service .backendUnavailable "Nearest-neighbor lookup failed" (some lost)), new) ∧
      new.calls = [⟨.chunks (.nearestNeighbors q), .error lost⟩] := by
  obtain ⟨r, new, hplay, hends⟩ := serve_closed ⟨.usual, "m"⟩ sampleParams lostTables []
  have hcalls : ∃ q, new.calls = [⟨.chunks (.nearestNeighbors q), .error lost⟩] := by
    have hnew : new = (Task.play lostTables (serve ⟨.usual, "m"⟩ sampleParams) []).2 := by
      rw [hplay]
      rfl
    simp only [serve, sampleParams_plan, Plan.serve, Embedding.Client.embedOne,
      Embedding.Client.embedAll, sample_batches, Embedding.embedBatches, usual_attempts] at hnew
    rw [hnew]
    exact ⟨_, rfl⟩
  obtain ⟨q, hcalls⟩ := hcalls
  have hmem : ⟨.chunks (.nearestNeighbors q), .error lost⟩ ∈ new :=
    (List.mem_filter.mp (hcalls ▸ List.mem_singleton_self _)).1
  refine ⟨Params.exists_plan_iff.mp ⟨_, sampleParams_plan⟩, q, new, ?_, hcalls⟩
  rw [hplay, hends.failed q _ hmem]
  rfl

/-- A provider that raises what has no text makes a search fail with a fault that does not belong to
it. -/
theorem serve_textless :
    ∃ new, Task.play (Embedding.serving fun _ _ => .error (.value (.record [("toString", .null)])))
        (serve ⟨.usual, "m"⟩ sampleParams) [] = (.error .textless, new) ∧
      ¬ Belongs new .textless := by
  have hplay : ∃ new, Task.play
      (Embedding.serving fun _ _ => .error (.value (.record [("toString", .null)])))
        (serve ⟨.usual, "m"⟩ sampleParams) [] = (.error .textless, new) := by
    simp only [serve, sampleParams_plan, Plan.serve, Embedding.Client.embedOne,
      Embedding.Client.embedAll, sample_batches, Embedding.embedBatches, usual_attempts]
    exact ⟨_, rfl⟩
  obtain ⟨new, hplay⟩ := hplay
  refine ⟨new, hplay, fun h => ?_⟩
  cases h with
  | table q fault hmem hservice => cases hservice

end Retrieval.Search
