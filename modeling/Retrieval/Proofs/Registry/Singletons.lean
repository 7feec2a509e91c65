import Retrieval.Registry

/-!
# What a registry makes is kept

What can be seen of the operations on a registry: which factories were run, what each of them gave,
and what was answered. `Agrees` ties both maps of a registry to what has been seen so far. The
factory of a kind is the one that was registered last, and what is kept for a kind is what a factory
returned when the kind was asked for. `run_single` says from this what asking for a kind does after
any operations, and that those on other kinds do not matter to it.

Factories act on a world, which may hold anything but the registry that runs them.
-/

namespace Retrieval.Registry

variable {κ φ σ τ α : Type}

/-! ## Operations and what can be seen of them -/

inductive Operation (κ φ : Type) where
  | register (kind : κ) (factory : φ)
  | get (kind : κ)

def Operation.kind : Operation κ φ → κ
  | register kind _ => kind
  | get kind => kind

/-- What can be seen of an operation. Where a kind was asked for, these are the factories that were
run, each with what it gave, and the answer. -/
inductive Event (κ φ σ : Type) where
  | registered (kind : κ) (factory : φ)
  | got (kind : κ) (runs : List (φ × Except Fault σ)) (answer : Except Fault σ)

section

variable {kind other : κ} {a : σ} {past : List (Event κ φ σ)}

/-- A factory that was run when the kind was asked for returned the value. -/
def Returned (kind : κ) (a : σ) (past : List (Event κ φ σ)) : Prop :=
  ∃ runs answer factory, .got kind runs answer ∈ past ∧ (factory, .ok a) ∈ runs

theorem returned_concat_registered {factory : φ} :
    Returned kind a (past ++ [.registered other factory]) ↔ Returned kind a past := by
  simp [Returned]

theorem returned_concat_got {runs : List (φ × Except Fault σ)} {answer : Except Fault σ} :
    Returned kind a (past ++ [.got other runs answer]) ↔
      Returned kind a past ∨ other = kind ∧ ∃ factory, (factory, .ok a) ∈ runs := by
  simp only [Returned, List.mem_append, List.mem_singleton]
  constructor
  · rintro ⟨runs', answer', factory, hmem | heq, hrun⟩
    · exact Or.inl ⟨runs', answer', factory, hmem, hrun⟩
    · cases heq
      exact Or.inr ⟨rfl, factory, hrun⟩
  · rintro (⟨runs', answer', factory, hmem, hrun⟩ | ⟨rfl, factory, hrun⟩)
    · exact ⟨runs', answer', factory, Or.inl hmem, hrun⟩
    · exact ⟨runs, answer, factory, Or.inr rfl, hrun⟩

end

variable [DecidableEq κ]

section

variable {kind : κ} {past : List (Event κ φ σ)}

/-- The factory that the event registers for the kind. -/
def Event.factory? (kind : κ) : Event κ φ σ → Option φ
  | registered other factory => if other = kind then some factory else none
  | got .. => none

/-- The factory that was registered last for the kind. -/
def registered? (kind : κ) (past : List (Event κ φ σ)) : Option φ :=
  past.reverse.findSome? (Event.factory? kind)

theorem registered?_concat (kind : κ) (past : List (Event κ φ σ)) (event : Event κ φ σ) :
    registered? kind (past ++ [event]) = (event.factory? kind).or (registered? kind past) := by
  simp only [registered?, List.reverse_append, List.reverse_singleton, List.singleton_append,
    List.findSome?_cons]
  cases event.factory? kind <;> rfl

theorem registered?_eq_none_iff :
    registered? kind past = none ↔ ∀ factory, .registered kind factory ∉ past := by
  simp only [registered?, List.findSome?_eq_none_iff, List.mem_reverse]
  constructor
  · intro h factory hmem
    simpa [Event.factory?] using h _ hmem
  · intro h event hmem
    cases event with
    | registered other factory =>
      have hne : other ≠ kind := fun heq => h factory (heq ▸ hmem)
      simp [Event.factory?, hne]
    | got => rfl

end

/-! ## Entries -/

@[simp] theorem lookup?_setEntry_self (kind : κ) (a : α) (entries : List (κ × α)) :
    lookup? kind (setEntry kind a entries) = some a := by
  simp [lookup?, setEntry]

theorem lookup?_setEntry_of_ne {kind other : κ} (h : other ≠ kind) (a : α)
    (entries : List (κ × α)) : lookup? kind (setEntry other a entries) = lookup? kind entries := by
  have hfirst : (other == kind) = false := beq_eq_false_iff_ne.mpr h
  simp only [lookup?, setEntry, List.find?_cons, hfirst, List.find?_filter]
  congr 2
  funext e
  by_cases he : e.1 = kind
  · simp [he, h.symm]
  · simp [he]

/-! ## One operation after the other -/

/-- A registry and the world in which its factories are run. -/
structure State (κ φ σ τ : Type) where
  registry : Registry κ φ σ
  world : τ

/-- What a registry is used with: the wording of its answers, the names of the kinds, which service
is of which kind, and what running a factory gives and does to the world. -/
structure Setting (κ φ σ τ : Type) where
  wording : Wording
  name : κ → String
  isA : σ → κ → Bool
  make : φ → τ → Except Fault σ × τ

namespace Setting

variable (u : Setting κ φ σ τ)

/-- Runs a factory and notes what it gave. -/
def noted (factory : φ) (t : τ × List (φ × Except Fault σ)) :
    Except Fault σ × τ × List (φ × Except Fault σ) :=
  let made := u.make factory t.1
  (made.1, made.2, t.2 ++ [(factory, made.1)])

def perform (s : State κ φ σ τ) : Operation κ φ → Event κ φ σ × State κ φ σ τ
  | .register kind factory =>
    (.registered kind factory, ⟨s.registry.register kind factory, s.world⟩)
  | .get kind =>
    let (answer, registry, world, runs) :=
      s.registry.get u.wording u.name u.isA u.noted kind (s.world, [])
    (.got kind runs answer, ⟨registry, world⟩)

def run (s : State κ φ σ τ) : List (Operation κ φ) → List (Event κ φ σ) × State κ φ σ τ
  | [] => ([], s)
  | op :: ops =>
    let (event, s) := u.perform s op
    let (events, s) := run s ops
    (event :: events, s)

theorem run_cons (s : State κ φ σ τ) (op : Operation κ φ) (ops : List (Operation κ φ)) :
    u.run s (op :: ops) =
      ((u.perform s op).1 :: (u.run (u.perform s op).2 ops).1,
        (u.run (u.perform s op).2 ops).2) := rfl

/-- What has been made is handed out if it is of the kind that was asked for. -/
def answer (kind : κ) (a : σ) : Except Fault σ :=
  if u.isA a kind then .ok a else .error (.plain (u.wording.wrongKind (u.name kind)))

variable {u} {s : State κ φ σ τ} {kind : κ} {a : σ} {factory : φ} {fault : Fault} {world : τ}

theorem perform_kept (h : lookup? kind s.registry.made = some a) :
    u.perform s (.get kind) = (.got kind [] (u.answer kind a), s) := by
  simp only [perform, Registry.get, h, handOut, answer]

theorem perform_missing (hmade : lookup? kind s.registry.made = none)
    (hfactory : lookup? kind s.registry.factories = none) :
    u.perform s (.get kind) =
      (.got kind [] (.error (.plain (u.wording.missing (u.name kind)))), s) := by
  simp only [perform, Registry.get, hmade, hfactory]

/-- A factory that fails leaves the registry as it was. -/
theorem perform_failed (hmade : lookup? kind s.registry.made = none)
    (hfactory : lookup? kind s.registry.factories = some factory)
    (hrun : u.make factory s.world = (.error fault, world)) :
    u.perform s (.get kind) =
      (.got kind [(factory, .error fault)] (.error fault), ⟨s.registry, world⟩) := by
  simp only [perform, Registry.get, hmade, hfactory, noted, hrun, List.nil_append]

/-- What a factory returns is kept, of whatever kind it is. -/
theorem perform_made (hmade : lookup? kind s.registry.made = none)
    (hfactory : lookup? kind s.registry.factories = some factory)
    (hrun : u.make factory s.world = (.ok a, world)) :
    u.perform s (.get kind) =
      (.got kind [(factory, .ok a)] (u.answer kind a),
        ⟨{ s.registry with made := setEntry kind a s.registry.made }, world⟩) := by
  simp only [perform, Registry.get, hmade, hfactory, noted, hrun, List.nil_append, handOut, answer]

end Setting

/-! ## The maps agree with what has been seen -/

/-- The factories are those that were registered last, what is kept is what factories returned, and
nothing is kept for a kind without a factory. -/
structure Agrees (past : List (Event κ φ σ)) (r : Registry κ φ σ) : Prop where
  factory : ∀ kind, lookup? kind r.factories = registered? kind past
  made : ∀ kind a, lookup? kind r.made = some a ↔ Returned kind a past
  registered : ∀ kind, registered? kind past = none → lookup? kind r.made = none

namespace Agrees

variable {past : List (Event κ φ σ)} {r : Registry κ φ σ} {other : κ} {a : σ} {factory : φ}

theorem empty : Agrees [] ({} : Registry κ φ σ) where
  factory _ := rfl
  made kind a := by simp [lookup?, Returned]
  registered _ _ := rfl

theorem register (h : Agrees past r) (other : κ) (factory : φ) :
    Agrees (past ++ [.registered other factory]) (r.register other factory) where
  factory kind := by
    rw [registered?_concat, Registry.register, Event.factory?, ← h.factory]
    by_cases heq : other = kind
    · subst heq
      simp
    · simp [heq, lookup?_setEntry_of_ne]
  made kind a := by
    rw [returned_concat_registered, ← h.made]
    rfl
  registered kind hnone := by
    rw [registered?_concat, Option.or_eq_none_iff] at hnone
    exact h.registered kind hnone.2

/-- Where no factory returned anything the registry is left as it was. -/
theorem got (h : Agrees past r) (other : κ) {runs : List (φ × Except Fault σ)}
    {answer : Except Fault σ} (hruns : ∀ factory a, (factory, .ok a) ∉ runs) :
    Agrees (past ++ [.got other runs answer]) r where
  factory kind := by rw [registered?_concat, Event.factory?, Option.none_or, h.factory]
  made kind a := by
    rw [returned_concat_got, h.made]
    simp [hruns]
  registered kind hnone := by
    rw [registered?_concat, Event.factory?, Option.none_or] at hnone
    exact h.registered kind hnone

/-- What a factory returned is kept; nothing had been returned for the kind before. -/
theorem keep (h : Agrees past r) (hmade : lookup? other r.made = none)
    (hfactory : lookup? other r.factories = some factory) {answer : Except Fault σ} :
    Agrees (past ++ [.got other [(factory, .ok a)] answer])
      { r with made := setEntry other a r.made } where
  factory kind := by rw [registered?_concat, Event.factory?, Option.none_or, h.factory]
  made kind b := by
    rw [returned_concat_got, ← h.made]
    by_cases heq : other = kind
    · subst heq
      simp [hmade, eq_comm]
    · simp [heq, lookup?_setEntry_of_ne]
  registered kind hnone := by
    rw [registered?_concat, Event.factory?, Option.none_or] at hnone
    have hne : other ≠ kind := by
      rintro rfl
      rw [← h.factory, hfactory] at hnone
      cases hnone
    rw [lookup?_setEntry_of_ne hne]
    exact h.registered kind hnone

/-- **One operation** keeps the maps in agreement with what has been seen. -/
theorem perform {u : Setting κ φ σ τ} {s : State κ φ σ τ} (h : Agrees past s.registry)
    (op : Operation κ φ) :
    Agrees (past ++ [(u.perform s op).1]) (u.perform s op).2.registry := by
  cases op with
  | register kind factory => exact h.register kind factory
  | get kind =>
    cases hmade : lookup? kind s.registry.made with
    | some a =>
      rw [Setting.perform_kept hmade]
      exact h.got kind (by simp)
    | none =>
      cases hfactory : lookup? kind s.registry.factories with
      | none =>
        rw [Setting.perform_missing hmade hfactory]
        exact h.got kind (by simp)
      | some factory =>
        rcases hrun : u.make factory s.world with ⟨fault | a, world⟩
        · rw [Setting.perform_failed hmade hfactory hrun]
          exact h.got kind (by simp)
        · rw [Setting.perform_made hmade hfactory hrun]
          exact h.keep hmade hfactory

/-- **A run** keeps them in agreement. -/
theorem run {u : Setting κ φ σ τ} {s : State κ φ σ τ} (h : Agrees past s.registry)
    (ops : List (Operation κ φ)) :
    Agrees (past ++ (u.run s ops).1) (u.run s ops).2.registry := by
  induction ops generalizing past s with
  | nil => simpa [Setting.run] using h
  | cons op ops ih =>
    have hrest := ih (h.perform (u := u) op)
    rwa [List.append_assoc, List.singleton_append] at hrest

end Agrees

/-! ## Kinds do not touch each other -/

/-- The two registries have the same to say about the kind. -/
structure Alike (kind : κ) (r r' : Registry κ φ σ) : Prop where
  factories : lookup? kind r.factories = lookup? kind r'.factories
  made : lookup? kind r.made = lookup? kind r'.made

namespace Setting

variable {u : Setting κ φ σ τ} {s s' : State κ φ σ τ} {kind : κ}

/-- An operation on another kind leaves the entries of the kind alone. -/
theorem alike_perform {op : Operation κ φ} (h : op.kind ≠ kind) :
    Alike kind (u.perform s op).2.registry s.registry := by
  cases op with
  | register other factory => exact ⟨lookup?_setEntry_of_ne h _ _, rfl⟩
  | get other =>
    cases hmade : lookup? other s.registry.made with
    | some a =>
      rw [perform_kept hmade]
      exact ⟨rfl, rfl⟩
    | none =>
      cases hfactory : lookup? other s.registry.factories with
      | none =>
        rw [perform_missing hmade hfactory]
        exact ⟨rfl, rfl⟩
      | some factory =>
        rcases hrun : u.make factory s.world with ⟨fault | a, world⟩
        · rw [perform_failed hmade hfactory hrun]
          exact ⟨rfl, rfl⟩
        · rw [perform_made hmade hfactory hrun]
          exact ⟨rfl, lookup?_setEntry_of_ne h _ _⟩

theorem alike_run {ops : List (Operation κ φ)} (h : ∀ op ∈ ops, op.kind ≠ kind) :
    Alike kind (u.run s ops).2.registry s.registry := by
  induction ops generalizing s with
  | nil => exact ⟨rfl, rfl⟩
  | cons op ops ih =>
    have hhere : Alike kind (u.perform s op).2.registry s.registry :=
      alike_perform (h op (List.mem_cons_self ..))
    have hrest := ih (s := (u.perform s op).2) fun op hop => h op (List.mem_cons_of_mem _ hop)
    exact ⟨hrest.factories.trans hhere.factories, hrest.made.trans hhere.made⟩

/-- An operation on the kind goes by the entries of the kind and by the world. -/
theorem perform_of_alike {op : Operation κ φ} (hop : op.kind = kind)
    (h : Alike kind s.registry s'.registry) (hworld : s.world = s'.world) :
    (u.perform s op).1 = (u.perform s' op).1 ∧
      Alike kind (u.perform s op).2.registry (u.perform s' op).2.registry ∧
      (u.perform s op).2.world = (u.perform s' op).2.world := by
  cases op with
  | register other factory =>
    obtain rfl : other = kind := hop
    refine ⟨rfl, ⟨?_, h.made⟩, hworld⟩
    exact (lookup?_setEntry_self ..).trans (lookup?_setEntry_self ..).symm
  | get other =>
    obtain rfl : other = kind := hop
    cases hmade : lookup? other s.registry.made with
    | some a =>
      rw [perform_kept hmade, perform_kept (h.made.symm.trans hmade)]
      exact ⟨rfl, h, hworld⟩
    | none =>
      have hmade' := h.made.symm.trans hmade
      cases hfactory : lookup? other s.registry.factories with
      | none =>
        rw [perform_missing hmade hfactory,
          perform_missing hmade' (h.factories.symm.trans hfactory)]
        exact ⟨rfl, h, hworld⟩
      | some factory =>
        have hfactory' := h.factories.symm.trans hfactory
        rcases hrun : u.make factory s.world with ⟨fault | a, world⟩
        · rw [perform_failed hmade hfactory hrun, perform_failed hmade' hfactory' (hworld ▸ hrun)]
          exact ⟨rfl, h, rfl⟩
        · rw [perform_made hmade hfactory hrun, perform_made hmade' hfactory' (hworld ▸ hrun)]
          refine ⟨rfl, ⟨h.factories, ?_⟩, rfl⟩
          exact (lookup?_setEntry_self ..).trans (lookup?_setEntry_self ..).symm

theorem run_of_alike {ops : List (Operation κ φ)} (hops : ∀ op ∈ ops, op.kind = kind)
    (h : Alike kind s.registry s'.registry) (hworld : s.world = s'.world) :
    (u.run s ops).1 = (u.run s' ops).1 ∧ (u.run s ops).2.world = (u.run s' ops).2.world := by
  induction ops generalizing s s' with
  | nil => exact ⟨rfl, hworld⟩
  | cons op ops ih =>
    obtain ⟨hevent, hnext, hworld'⟩ :=
      perform_of_alike (u := u) (hops op (List.mem_cons_self ..)) h hworld
    obtain ⟨hevents, hend⟩ := ih (fun op hop => hops op (List.mem_cons_of_mem _ hop)) hnext hworld'
    rw [run_cons, run_cons]
    exact ⟨by rw [hevent, hevents], hend⟩

end Setting

/-! ## Asking for a kind after any operations -/

/-- **What is made first is kept.** After any operations on a registry that was empty, ask for a
kind. If a factory has ever returned a value for the kind, then it was this one value only, it is
handed out if it is of the kind, and no factory is run, whatever was registered since. Before that,
the factory that was registered last is run, once, and one that fails leaves the registry as it was.
Without a factory the answer is an error. And operations on other kinds in between do not matter to
any operations on this one. -/
theorem run_single {u : Setting κ φ σ τ} {t : τ} {before : List (Operation κ φ)}
    {past : List (Event κ φ σ)} {s : State κ φ σ τ} (h : u.run ⟨{}, t⟩ before = (past, s))
    (kind : κ) :
    (∀ a, Returned kind a past →
      (∀ b, Returned kind b past → b = a) ∧
        u.perform s (.get kind) =
          (.got kind [] (if u.isA a kind then .ok a
            else .error (.plain (u.wording.wrongKind (u.name kind)))), s)) ∧
      ((∀ a, ¬ Returned kind a past) → ∀ factory, registered? kind past = some factory →
        (∀ fault world, u.make factory s.world = (.error fault, world) →
          u.perform s (.get kind) =
            (.got kind [(factory, .error fault)] (.error fault), ⟨s.registry, world⟩)) ∧
        ∀ a world, u.make factory s.world = (.ok a, world) →
          ∃ registry, u.perform s (.get kind) =
            (.got kind [(factory, .ok a)] (if u.isA a kind then .ok a
              else .error (.plain (u.wording.wrongKind (u.name kind)))), ⟨registry, world⟩)) ∧
      ((∀ factory, .registered kind factory ∉ past) →
        u.perform s (.get kind) =
          (.got kind [] (.error (.plain (u.wording.missing (u.name kind)))), s)) ∧
      ∀ others ops : List (Operation κ φ), (∀ op ∈ others, op.kind ≠ kind) →
        (∀ op ∈ ops, op.kind = kind) → ∀ world,
          (u.run ⟨(u.run s others).2.registry, world⟩ ops).1 = (u.run ⟨s.registry, world⟩ ops).1 ∧
            (u.run ⟨(u.run s others).2.registry, world⟩ ops).2.world
              = (u.run ⟨s.registry, world⟩ ops).2.world := by
  have hagrees : Agrees past s.registry := by
    have hrun := Agrees.empty.run (u := u) (s := ⟨{}, t⟩) before
    rwa [h] at hrun
  refine ⟨fun a ha => ⟨fun b hb => ?_, ?_⟩, fun hnone factory hfactory => ?_, fun hnone => ?_,
    fun others ops hothers hops world => ?_⟩
  · rw [← hagrees.made] at ha hb
    exact Option.some.inj (hb.symm.trans ha)
  · exact Setting.perform_kept ((hagrees.made kind a).mpr ha)
  · have hmade : lookup? kind s.registry.made = none := by
      rw [Option.eq_none_iff_forall_ne_some]
      exact fun a ha => hnone a ((hagrees.made kind a).mp ha)
    have hentry := (hagrees.factory kind).trans hfactory
    exact ⟨fun fault world hrun => Setting.perform_failed hmade hentry hrun,
      fun a world hrun => ⟨_, Setting.perform_made hmade hentry hrun⟩⟩
  · have hregistered := registered?_eq_none_iff.mpr hnone
    exact Setting.perform_missing (hagrees.registered kind hregistered)
      ((hagrees.factory kind).trans hregistered)
  · exact Setting.run_of_alike hops (Setting.alike_run hothers) rfl

/-- Two kinds of one name. A factory fails, or makes a service of the kind that it is for, with the
number of the run; the world counts the runs. -/
def Setting.counting : Setting Bool (Option Bool) (Bool × Nat) Nat where
  wording := .tables
  name _ := "Files"
  isA a kind := a.1 == kind
  make factory runs :=
    (factory.elim (.error (.plain "down")) fun kind => .ok (kind, runs + 1), runs + 1)

/-- A factory that fails is run, and changes nothing. The next one makes the service, which is kept
although yet another is registered; what is kept for the other kind is of the wrong kind. -/
theorem run_single_counting :
    (∃ past s, Setting.counting.run ⟨{}, 0⟩ [.register true none] = (past, s) ∧
      Setting.counting.perform s (.get true) =
        (.got true [(none, .error (.plain "down"))] (.error (.plain "down")), ⟨s.registry, 1⟩) ∧
      Setting.counting.perform s (.get false) =
        (.got false [] (.error (.plain "Files not registered")), s)) ∧
    ∃ past s, Setting.counting.run ⟨{}, 0⟩
        [.register true none, .get true, .register true (some true), .register false (some true),
          .get false, .get true, .register true (some true)] = (past, s) ∧
      Returned true (true, 3) past ∧
      Setting.counting.perform s (.get true) = (.got true [] (.ok (true, 3)), s) ∧
      Returned false (true, 2) past ∧
      Setting.counting.perform s (.get false) =
        (.got false [] (.error (.plain "Registered Files does not extend it")), s) := by
  constructor
  · have hrun : Setting.counting.run ⟨{}, 0⟩ [.register true none] = (_, _) := rfl
    obtain ⟨-, hlast, -, -⟩ := run_single hrun true
    obtain ⟨-, -, hmissing, -⟩ := run_single hrun false
    refine ⟨_, _, hrun, (hlast ?_ none rfl).1 _ _ rfl, hmissing ?_⟩
    · rintro a ⟨runs, answer, factory, hmem, -⟩
      simp at hmem
    · intro factory hmem
      simp at hmem
  · have hrun : Setting.counting.run ⟨{}, 0⟩
        [.register true none, .get true, .register true (some true), .register false (some true),
          .get false, .get true, .register true (some true)] = (_, _) := rfl
    obtain ⟨hkept, -⟩ := run_single hrun true
    obtain ⟨hwrong, -⟩ := run_single hrun false
    refine ⟨_, _, hrun, ?htrue, (hkept _ ?htrue).2, ?hfalse, (hwrong _ ?hfalse).2⟩
    case htrue =>
      exact ⟨_, _, some true, List.mem_of_getElem? (i := 5) rfl, List.mem_singleton_self _⟩
    case hfalse =>
      exact ⟨_, _, some true, List.mem_of_getElem? (i := 4) rfl, List.mem_singleton_self _⟩

end Retrieval.Registry
