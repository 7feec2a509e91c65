import Retrieval.Assembly
import Retrieval.Proofs.Embedding.Alignment
import Retrieval.Proofs.Embedding.Attempts
import Retrieval.Proofs.Schema.Checks
import Retrieval.Proofs.Value.Members

/-!
# Environments that describe a configuration

`load_judged`: an environment is accepted exactly when every setting that is given follows its rule
and the overlap of chunks is smaller than their size; otherwise every faulty setting is named, and
nothing else but the overlap. This is so for every test of addresses. The rules stand in a table of
their own (`rules`). What the check of one setting tells (`Tells`) is kept when checks are put
together, so that the whole schema tells which entries of the table are broken.
-/

namespace Retrieval

namespace Config

open Check (Enforces Whole)

/-! ## Environments -/

/-- Named texts, as a process is given them. -/
abbrev Environment := List (String × String)

namespace Environment

def values (environment : Environment) : List (String × Value) :=
  environment.map fun v => (v.1, .text v.2)

/-- What is given for a name: the last text for it that is not empty. -/
def given (environment : Environment) (name : String) : Option String :=
  (environment.reverse.find? fun v => v.1 == name && v.2 != "").map (·.2)

/-- What is read from a setting, or its usual value. -/
def reading {α : Type} (environment : Environment) (read : String → α) (name : String) (usual : α) :
    α :=
  (environment.given name).elim usual read

def set (environment : Environment) : Value :=
  .ofMembers (environment.values.filter (isSet ·.2))

theorem isSet_text (s : String) : isSet (.text s) = (s != "") := by
  unfold isSet
  split
  · next h => cases h
  · next h =>
    cases h
    rfl
  · next hempty =>
    symm
    rw [bne_iff_ne]
    rintro rfl
    exact hempty rfl

theorem get_set (environment : Environment) {name : String} (h : Value.position? name = none) :
    environment.set.get name = .ofText? (environment.given name) := by
  have hset (v : String × String) :
      decide ((v.2 != "") = true ∧ (v.1 == name) = true) = (v.1 == name && v.2 != "") := by
    cases v.2 != "" <;> cases v.1 == name <;> rfl
  rw [set, Value.lookup_ofMembers h, Value.lookup, Value.find?, ← List.filter_reverse,
    List.find?_filter, values, ← List.map_reverse, List.find?_map, given]
  simp only [Function.comp_def, isSet_text, hset]
  cases environment.reverse.find? fun v => v.1 == name && v.2 != "" <;> rfl

end Environment

/-! ## Rules -/

/-- What is asked of one setting by itself. -/
inductive Rule where
  | anything
  | nonempty
  | address
  | oneOf (options : List String)
  /-- a whole number within bounds -/
  | number (least : Int) (most : Option Int)

def Within (least : Int) (most : Option Int) (k : Int) : Prop := least ≤ k ∧ ∀ m ∈ most, k ≤ m

/-- The text follows the rule. What an address is has to be said. -/
def Rule.Accepts (isAddress : String → Bool) : Rule → String → Prop
  | anything, _ => True
  | nonempty, s => s ≠ ""
  | address, s => isAddress s = true
  | oneOf options, s => s ∈ options
  | number least most, s => Whole (Within least most) (Number.ofText s)

def rules : List (String × Rule) :=
  [("PORT", .number 1 none), ("DATABASE_URL", .nonempty), ("OPENAI_API_KEY", .anything),
    ("OPENAI_BASE_URL", .address), ("EMBEDDING_MODEL", .nonempty),
    ("TOKENIZER_ENCODING", .oneOf encodings), ("CHUNK_SIZE", .number 1 none),
    ("CHUNK_OVERLAP", .number 0 none), ("EMBEDDING_MAX_BATCH_SIZE", .number 1 (some 2048)),
    ("EMBEDDING_MAX_ATTEMPTS", .number 1 (some 10)),
    ("EMBEDDING_INITIAL_BACKOFF_MS", .number 0 none),
    ("EMBEDDING_REQUEST_TIMEOUT_MS", .number 1000 none), ("CORS_ORIGIN", .anything),
    ("LOG_LEVEL", .oneOf (LogLevel.all.map LogLevel.name))]

variable {isAddress : String → Bool} {environment : Environment} {α β : Type}
  {checked checked' : List (String × Rule)}

/-- A setting that is given breaks its rule. -/
def Faulty (isAddress : String → Bool) (environment : Environment)
    (checked : List (String × Rule)) (name : String) : Prop :=
  ∃ rule s, (name, rule) ∈ checked ∧ environment.given name = some s ∧ ¬ rule.Accepts isAddress s

theorem Faulty.append_left {name : String} (h : Faulty isAddress environment checked name) :
    Faulty isAddress environment (checked ++ checked') name := by
  obtain ⟨rule, s, hmem, hs⟩ := h
  exact ⟨rule, s, List.mem_append_left _ hmem, hs⟩

theorem Faulty.append_right {name : String} (h : Faulty isAddress environment checked' name) :
    Faulty isAddress environment (checked ++ checked') name := by
  obtain ⟨rule, s, hmem, hs⟩ := h
  exact ⟨rule, s, List.mem_append_right _ hmem, hs⟩

theorem Faulty.of_append {name : String}
    (h : Faulty isAddress environment (checked ++ checked') name) :
    Faulty isAddress environment checked name ∨ Faulty isAddress environment checked' name := by
  obtain ⟨rule, s, hmem, hs⟩ := h
  rcases List.mem_append.mp hmem with hmem | hmem
  · exact Or.inl ⟨rule, s, hmem, hs⟩
  · exact Or.inr ⟨rule, s, hmem, hs⟩

theorem Faulty.of_singleton {name n : String} {rule : Rule}
    (h : Faulty isAddress environment [(name, rule)] n) :
    n = name ∧ ∃ s, environment.given name = some s ∧ ¬ rule.Accepts isAddress s := by
  obtain ⟨r, s, hmem, hs⟩ := h
  obtain ⟨rfl, rfl⟩ := Prod.mk.inj (List.mem_singleton.mp hmem)
  exact ⟨rfl, s, hs⟩

/-! ## What outcomes tell -/

/-- What the outcome of some checks tells: where nothing is faulty it yields `a`; each faulty
setting has an issue, and each issue stands at a faulty setting. -/
structure Tells (isAddress : String → Bool) (environment : Environment)
    (checked : List (String × Rule)) (o : Outcome α) (a : α) : Prop where
  readable : o.textless = false
  value : (∀ name, ¬ Faulty isAddress environment checked name) → o.value = some a
  named : ∀ name, Faulty isAddress environment checked name → ∃ i ∈ o.issues, i.path = [name]
  only : ∀ i ∈ o.issues, ∃ name, Faulty isAddress environment checked name ∧ i.path = [name]

theorem Tells.map {o : Outcome α} {a : α} (f : α → β)
    (h : Tells isAddress environment checked o a) :
    Tells isAddress environment checked (f <$> o) (f a) := by
  refine ⟨h.readable, fun hnone => ?_, h.named, h.only⟩
  rw [Outcome.map_eq, Outcome.map, h.value hnone]
  rfl

theorem Tells.seq {f : Outcome (α → β)} {o : Outcome α} {g : α → β} {a : α}
    (hf : Tells isAddress environment checked f g) (ho : Tells isAddress environment checked' o a) :
    Tells isAddress environment (checked ++ checked') (f <*> o) (g a) := by
  rw [Outcome.seq_eq]
  constructor
  · simp only [Outcome.both, hf.readable, ho.readable, Bool.or_self]
  · intro hnone
    have hleft := hf.value fun name h => hnone name h.append_left
    have hright := ho.value fun name h => hnone name h.append_right
    simp only [Outcome.both, hleft, hright, Option.bind_some, Option.map_some]
  · intro name h
    rcases h.of_append with h | h
    · obtain ⟨i, hi, hpath⟩ := hf.named name h
      exact ⟨i, List.mem_append_left _ hi, hpath⟩
    · obtain ⟨i, hi, hpath⟩ := ho.named name h
      exact ⟨i, List.mem_append_right _ hi, hpath⟩
  · intro i hi
    rcases List.mem_append.mp hi with hi | hi
    · obtain ⟨name, h, hpath⟩ := hf.only i hi
      exact ⟨name, h.append_left, hpath⟩
    · obtain ⟨name, h, hpath⟩ := ho.only i hi
      exact ⟨name, h.append_right, hpath⟩

theorem Tells.issues_eq_nil {o : Outcome α} {a : α} (h : Tells isAddress environment checked o a)
    (hnone : ∀ name, ¬ Faulty isAddress environment checked name) : o.issues = [] := by
  rw [List.eq_nil_iff_forall_not_mem]
  intro i hi
  obtain ⟨name, hfaulty, _⟩ := h.only i hi
  exact hnone name hfaulty

/-! ## One setting -/

section

variable {c : Check α} {name : String} {rule : Rule} {read : String → α}

/-- A setting that is not given has no fault. -/
theorem tells_missing (hs : environment.given name = none) (a : α) :
    Tells isAddress environment [(name, rule)] (Check.yield a) a := by
  have hnone (n : String) : ¬ Faulty isAddress environment [(name, rule)] n := by
    intro h
    obtain ⟨-, s, hsome, -⟩ := h.of_singleton
    rw [hs] at hsome
    cases hsome
  exact ⟨rfl, fun _ => rfl, fun n h => absurd h (hnone n), fun i hi => nomatch hi⟩

theorem tells_given (hc : Enforces c (rule.Accepts isAddress) read) {s : String}
    (hs : environment.given name = some s) :
    Tells isAddress environment [(name, rule)] (c [name] (.text s)) (read s) := by
  refine ⟨hc.readable [name] s, fun hnone => ?_, fun n h => ?_, fun i hi => ?_⟩
  · have haccepts : rule.Accepts isAddress s := Classical.byContradiction fun hnot =>
      hnone name ⟨rule, s, List.mem_singleton_self _, hs, hnot⟩
    rw [hc.accepted [name] s haccepts]
    rfl
  · obtain ⟨rfl, s', hs', hnot⟩ := h.of_singleton
    obtain rfl := Option.some.inj (hs.symm.trans hs')
    obtain ⟨i, hi⟩ := List.exists_mem_of_ne_nil _ (hc.refused [n] s hnot)
    exact ⟨i, hi, hc.placed [n] s i hi⟩
  · refine ⟨name, ⟨rule, s, List.mem_singleton_self _, hs, fun haccepts => ?_⟩,
      hc.placed [name] s i hi⟩
    rw [hc.accepted [name] s haccepts] at hi
    cases hi

/-- A setting with a usual value. -/
theorem tells_orElse (name : String) (hc : Enforces c (rule.Accepts isAddress) read) (usual : α)
    (hname : Value.position? name = none) :
    Tells isAddress environment [(name, rule)]
      (Check.member (Check.orElse c usual) [] environment.set.get name)
      (environment.reading read name usual) := by
  rw [Check.member, environment.get_set hname, Environment.reading]
  cases hs : environment.given name with
  | none => exact tells_missing hs usual
  | some s => exact tells_given hc hs

/-- A setting that may be missing. -/
theorem tells_optional {c : Check String} (name : String)
    (hc : Enforces c (rule.Accepts isAddress) id) (hname : Value.position? name = none) :
    Tells isAddress environment [(name, rule)]
      (Check.member (Check.optional c) [] environment.set.get name) (environment.given name) := by
  rw [Check.member, environment.get_set hname]
  cases hs : environment.given name with
  | none => exact tells_missing hs none
  | some s => exact (tells_given hc hs).map some

end

/-! ## All settings -/

theorem enforces_positive :
    Enforces ((Check.coerced .common).and [Check.whole, Check.positive])
      ((Rule.number 1 none).Accepts isAddress) Number.ofText :=
  Check.enforces_number fun _ _ h => by simp [Check.positive_of_whole h, Within]

theorem enforces_atLeast (least : Int) :
    Enforces ((Check.coerced .common).and [Check.whole, Check.atLeast least])
      ((Rule.number least none).Accepts isAddress) Number.ofText :=
  Check.enforces_number fun _ _ h => by simp [Check.atLeast_of_whole h, Within]

theorem enforces_between (least most : Int) :
    Enforces ((Check.coerced .common).and [Check.whole, Check.atLeast least, Check.atMost most])
      ((Rule.number least (some most)).Accepts isAddress) Number.ofText :=
  Check.enforces_number fun _ _ h => by
    simp [Check.atLeast_of_whole h, Check.atMost_of_whole h, Within]

/-- The configuration of an environment in which nothing is faulty. -/
def described (environment : Environment) : Config where
  port := environment.reading Number.ofText "PORT" 6060
  databaseUrl := environment.given "DATABASE_URL"
  apiKey := environment.reading id "OPENAI_API_KEY" ""
  baseUrl := environment.given "OPENAI_BASE_URL"
  model := environment.reading id "EMBEDDING_MODEL" "text-embedding-3-small"
  encoding := environment.reading id "TOKENIZER_ENCODING" "cl100k_base"
  chunkSize := environment.reading Number.ofText "CHUNK_SIZE" 800
  chunkOverlap := environment.reading Number.ofText "CHUNK_OVERLAP" 200
  maxBatchSize := environment.reading Number.ofText "EMBEDDING_MAX_BATCH_SIZE" 2048
  maxAttempts := environment.reading Number.ofText "EMBEDDING_MAX_ATTEMPTS" 5
  initialBackoffMs := environment.reading Number.ofText "EMBEDDING_INITIAL_BACKOFF_MS" 1000
  requestTimeoutMs := environment.reading Number.ofText "EMBEDDING_REQUEST_TIMEOUT_MS" 60000
  corsOrigin := environment.reading id "CORS_ORIGIN" "*"
  logLevel := LogLevel.ofName (environment.reading id "LOG_LEVEL" "info")

open Check in
/-- The schema tells which settings are faulty. -/
theorem tells_settings (isAddress : String → Bool) (environment : Environment) :
    Tells isAddress environment rules (settings isAddress [] environment.set)
      (described environment) := by
  have hnonempty : Enforces (text.and [minLength 1 none]) (Rule.nonempty.Accepts isAddress) id :=
    enforces_nonempty none
  have haddress :
      Enforces (text.and [form .url isAddress none]) (Rule.address.Accepts isAddress) id :=
    enforces_form .url isAddress none
  have htext : Enforces text (Rule.anything.Accepts isAddress) id := enforces_text
  have honeOf (options : List String) :
      Enforces (oneOf options) ((Rule.oneOf options).Accepts isAddress) id :=
    enforces_oneOf options
  -- one line for each entry of the table, in its order
  exact (tells_orElse "PORT" enforces_positive 6060 (by decide)).map Config.mk
    |>.seq (tells_optional "DATABASE_URL" hnonempty (by decide))
    |>.seq (tells_orElse "OPENAI_API_KEY" htext "" (by decide))
    |>.seq (tells_optional "OPENAI_BASE_URL" haddress (by decide))
    |>.seq (tells_orElse "EMBEDDING_MODEL" hnonempty "text-embedding-3-small" (by decide))
    |>.seq (tells_orElse "TOKENIZER_ENCODING" (honeOf encodings) "cl100k_base" (by decide))
    |>.seq (tells_orElse "CHUNK_SIZE" enforces_positive 800 (by decide))
    |>.seq (tells_orElse "CHUNK_OVERLAP" (enforces_atLeast 0) 200 (by decide))
    |>.seq (tells_orElse "EMBEDDING_MAX_BATCH_SIZE" (enforces_between 1 2048) 2048 (by decide))
    |>.seq (tells_orElse "EMBEDDING_MAX_ATTEMPTS" (enforces_between 1 10) 5 (by decide))
    |>.seq (tells_orElse "EMBEDDING_INITIAL_BACKOFF_MS" (enforces_atLeast 0) 1000 (by decide))
    |>.seq (tells_orElse "EMBEDDING_REQUEST_TIMEOUT_MS" (enforces_atLeast 1000) 60000 (by decide))
    |>.seq (tells_orElse "CORS_ORIGIN" htext "*" (by decide))
    |>.seq ((tells_orElse "LOG_LEVEL" (honeOf _) "info" (by decide)).map LogLevel.ofName)

/-! ## What a configuration is good for -/

/-- The numbers of a configuration are within their bounds. -/
structure Ranged (c : Config) : Prop where
  port : Whole (Within 1 none) c.port
  chunkSize : Whole (Within 1 none) c.chunkSize
  chunkOverlap : Whole (Within 0 none) c.chunkOverlap
  maxBatchSize : Whole (Within 1 (some 2048)) c.maxBatchSize
  maxAttempts : Whole (Within 1 (some 10)) c.maxAttempts
  initialBackoffMs : Whole (Within 0 none) c.initialBackoffMs
  requestTimeoutMs : Whole (Within 1000 none) c.requestTimeoutMs

/-- The overlap of chunks is smaller than their size. -/
def Narrow (c : Config) : Prop :=
  ∃ s o, Number.whole? c.chunkSize = some s ∧ Number.whole? c.chunkOverlap = some o ∧ o < s

/-- A configuration that the service can work with: its numbers are within their bounds, its size
and overlap make a window, texts are cut into batches of its batch size, and a batch is attempted
as often as it says. -/
structure Usable (c : Config) : Prop where
  ranged : Ranged c
  window : ∃ w : Window, Window.of c.chunkSize c.chunkOverlap = .ok w ∧
    Number.natural? c.chunkSize = some w.size ∧ Number.natural? c.chunkOverlap = some w.overlap
  batches : ∃ n, Number.natural? c.maxBatchSize = some n ∧ 1 ≤ n ∧
    ∀ texts, (Assembly.policyOf c).batches texts = Embedding.slices n texts
  attempts : ∃ n, Number.natural? c.maxAttempts = some n ∧ 1 ≤ n ∧
    (Assembly.policyOf c).attempts = n

/-- Where nothing is faulty, a setting is a number within its bounds. -/
theorem whole_reading {name : String} {least : Int} {most : Option Int}
    (hnone : ∀ name, ¬ Faulty isAddress environment rules name)
    (hmem : (name, .number least most) ∈ rules)
    (usual : Float) (k : Int) (husual : Number.whole? usual = some k) (hk : Within least most k) :
    Whole (Within least most) (environment.reading Number.ofText name usual) := by
  unfold Environment.reading
  cases hs : environment.given name with
  | none => exact ⟨k, husual, hk⟩
  | some s => exact Classical.byContradiction fun hnot => hnone name ⟨_, s, hmem, hs, hnot⟩

theorem ranged_described (hnone : ∀ name, ¬ Faulty isAddress environment rules name) :
    Ranged (described environment) where
  port := whole_reading hnone (by simp [rules]) 6060 6060 (by decide +kernel) (by simp [Within])
  chunkSize := whole_reading hnone (by simp [rules]) 800 800 (by decide +kernel) (by simp [Within])
  chunkOverlap :=
    whole_reading hnone (by simp [rules]) 200 200 (by decide +kernel) (by simp [Within])
  maxBatchSize :=
    whole_reading hnone (by simp [rules]) 2048 2048 (by decide +kernel) (by simp [Within])
  maxAttempts := whole_reading hnone (by simp [rules]) 5 5 (by decide +kernel) (by simp [Within])
  initialBackoffMs :=
    whole_reading hnone (by simp [rules]) 1000 1000 (by decide +kernel) (by simp [Within])
  requestTimeoutMs :=
    whole_reading hnone (by simp [rules]) 60000 60000 (by decide +kernel) (by simp [Within])

theorem Ranged.overlapIsSmaller_iff {c : Config} (h : Ranged c) :
    overlapIsSmaller c = true ↔ Narrow c := by
  obtain ⟨s, hs, -⟩ := h.chunkSize
  obtain ⟨o, ho, -⟩ := h.chunkOverlap
  rw [overlapIsSmaller, decide_eq_true_eq, Number.lt_iff_of_whole ho hs]
  constructor
  · intro hlt
    exact ⟨s, o, hs, ho, hlt⟩
  · rintro ⟨s', o', hs', ho', hlt⟩
    obtain rfl := Option.some.inj (hs.symm.trans hs')
    obtain rfl := Option.some.inj (ho.symm.trans ho')
    exact hlt

/-- A whole number that is not negative is a natural number. -/
theorem natural_of_within {x : Float} {least : Int} {most : Option Int}
    (h : Whole (Within least most) x) (hleast : 0 ≤ least) :
    ∃ n : Nat, Number.natural? x = some n ∧ Number.whole? x = some (n : Int) ∧ least ≤ n := by
  obtain ⟨k, hk, hle, -⟩ := h
  have hcast : (k.toNat : Int) = k := Int.toNat_of_nonneg (Int.le_trans hleast hle)
  refine ⟨k.toNat, Number.natural?_of_whole hk (Int.le_trans hleast hle), ?_, ?_⟩
  · rw [hk, hcast]
  · rw [hcast]
    exact hle

theorem Ranged.usable {c : Config} (h : Ranged c) (hnarrow : Narrow c) : Usable c where
  ranged := h
  window := by
    obtain ⟨s, hs, hws, hone⟩ := natural_of_within h.chunkSize (by decide)
    obtain ⟨o, ho, hwo, -⟩ := natural_of_within h.chunkOverlap (by decide)
    obtain ⟨s', o', hs', ho', hlt⟩ := hnarrow
    obtain rfl := Option.some.inj (hws.symm.trans hs')
    obtain rfl := Option.some.inj (hwo.symm.trans ho')
    have hlt : o < s := Int.ofNat_lt.mp hlt
    refine ⟨⟨s, o, hlt⟩, ?_, hs, ho⟩
    simp only [Window.of, hs, ho]
    rw [if_neg (Nat.ne_of_gt (Nat.zero_lt_of_lt hlt)), dif_pos hlt]
  batches := by
    obtain ⟨n, hn, -, hone⟩ := natural_of_within h.maxBatchSize (by decide)
    have hone : 1 ≤ n := Int.ofNat_le.mp hone
    have hsize : (Assembly.policyOf c).batchSize = n := by
      rw [Assembly.policyOf, hn]
      rfl
    refine ⟨n, hn, hone, fun texts => ?_⟩
    rw [Embedding.Policy.batches, hsize, Embedding.groupsOf_eq_slices hone, if_neg]
    simp only [Bool.and_eq_true, decide_eq_true_eq, not_and]
    intro hzero
    omega
  attempts := by
    obtain ⟨n, hn, -, hone⟩ := natural_of_within h.maxAttempts (by decide)
    have hone : 1 ≤ n := Int.ofNat_le.mp hone
    exact ⟨n, hn, hone, Embedding.Policy.attempts_of_natural hn hone⟩

/-! ## Loading -/

/-- Every setting that is given follows its rule, and the overlap is smaller than the size. -/
def Sound (isAddress : String → Bool) (environment : Environment) : Prop :=
  (∀ name, ¬ Faulty isAddress environment rules name) ∧ Narrow (described environment)

/-- The rule on two settings adds at most an issue with the overlap. -/
theorem check_tells (isAddress : String → Bool) (environment : Environment) :
    ∃ o extra, Tells isAddress environment rules o (described environment) ∧
      check isAddress environment.values = { o with issues := o.issues ++ extra } ∧
      (∀ i ∈ extra, i.path = ["CHUNK_OVERLAP"]) ∧
      ∀ c, o.value = some c → (extra = [] ↔ overlapIsSmaller c = true) := by
  have htells := tells_settings isAddress environment
  unfold check
  rw [show Value.ofMembers (environment.values.filter (isSet ·.2)) = environment.set from rfl]
  generalize settings isAddress [] environment.set = o at htells ⊢
  obtain ⟨value, issues, textless⟩ := o
  cases value with
  | none =>
    refine ⟨_, [], htells, ?_, by simp, by simp⟩
    simp only [List.append_nil]
  | some c =>
    dsimp only
    cases hc : overlapIsSmaller c with
    | true =>
      refine ⟨_, [], htells, ?_, by simp, by simp [hc]⟩
      simp only [List.append_nil, if_true]
    | false => exact ⟨_, _, htells, rfl, by simp, by simp [hc]⟩

/-- The line begins with the name. -/
def Names (name line : String) : Prop := ∃ words, line = name ++ ": " ++ words

theorem names_line {name : String} {i : Issue} (h : i.path = [name]) : Names name (line i) := by
  refine ⟨i.message, ?_⟩
  rw [line, h]
  rfl

/-- What loading an environment comes to: the configuration that it describes, which the service can
work with, or lines that name every setting at fault, and else nothing but the overlap. -/
inductive Judged (isAddress : String → Bool) (environment : Environment) :
    Except Fault Config → Prop where
  | accepted (sound : Sound isAddress environment) (usable : Usable (described environment)) :
    Judged isAddress environment (.ok (described environment))
  | refused (lines : List String) (unsound : ¬ Sound isAddress environment) (some_line : lines ≠ [])
      (named : ∀ name, Faulty isAddress environment rules name → ∃ line ∈ lines, Names name line)
      (only : ∀ line ∈ lines, (∃ name, Faulty isAddress environment rules name ∧ Names name line) ∨
        Names "CHUNK_OVERLAP" line) :
    Judged isAddress environment (.error (.configuration lines))

theorem judged_of_sound (h : Sound isAddress environment) :
    Judged isAddress environment (load isAddress environment.values) := by
  obtain ⟨hnone, hnarrow⟩ := h
  have hranged := ranged_described hnone
  obtain ⟨o, extra, htells, hcheck, -, hextra⟩ := check_tells isAddress environment
  have hvalue := htells.value hnone
  have hnil : extra = [] := (hextra _ hvalue).mpr (hranged.overlapIsSmaller_iff.mpr hnarrow)
  have hissues := htells.issues_eq_nil hnone
  rw [load, hcheck, hnil, List.append_nil, Outcome.toExcept_ok htells.readable hvalue hissues]
  exact .accepted ⟨hnone, hnarrow⟩ (hranged.usable hnarrow)

theorem judged_of_unsound (h : ¬ Sound isAddress environment) :
    Judged isAddress environment (load isAddress environment.values) := by
  obtain ⟨o, extra, htells, hcheck, hpath, hextra⟩ := check_tells isAddress environment
  have hissues : o.issues ++ extra ≠ [] := by
    -- without issues nothing is faulty, so that the rule on two settings was tried and holds
    intro hnil
    obtain ⟨hissues, hextranil⟩ := List.append_eq_nil_iff.mp hnil
    have hnone (name : String) : ¬ Faulty isAddress environment rules name := by
      intro hfaulty
      obtain ⟨i, hi, -⟩ := htells.named name hfaulty
      rw [hissues] at hi
      cases hi
    have hsmaller := (hextra _ (htells.value hnone)).mp hextranil
    exact h ⟨hnone, (ranged_described hnone).overlapIsSmaller_iff.mp hsmaller⟩
  have hload :
      load isAddress environment.values = .error (.configuration ((o.issues ++ extra).map line)) := by
    have hrefused := Outcome.toExcept_issues (o := { o with issues := o.issues ++ extra })
      htells.readable hissues
    rw [load, hcheck, hrefused]
    rfl
  rw [hload]
  refine .refused _ h ?_ ?_ ?_
  · simpa using hissues
  · intro name hfaulty
    obtain ⟨i, hi, hname⟩ := htells.named name hfaulty
    exact ⟨line i, List.mem_map_of_mem (List.mem_append_left _ hi), names_line hname⟩
  · intro l hl
    obtain ⟨i, hi, rfl⟩ := List.mem_map.mp hl
    rcases List.mem_append.mp hi with hi | hi
    · obtain ⟨name, hfaulty, hname⟩ := htells.only i hi
      exact Or.inl ⟨name, hfaulty, names_line hname⟩
    · exact Or.inr (names_line (hpath i hi))

/-- Only the settings of the table are looked up. -/
theorem settings_congr {ms ms' : List (String × Value)}
    (h : ∀ name ∈ rules.map Prod.fst, Value.lookup name ms = Value.lookup name ms') :
    settings isAddress [] (.record ms) = settings isAddress [] (.record ms') := by
  unfold settings
  simp only [Check.object, Check.member]
  simp (disch := simp [rules]) only [h]

theorem load_congr {other : Environment}
    (h : ∀ name ∈ rules.map Prod.fst, other.given name = environment.given name) :
    load isAddress other.values = load isAddress environment.values := by
  have hposition : ∀ name ∈ rules.map Prod.fst, Value.position? name = none := by decide
  have hset : settings isAddress [] other.set = settings isAddress [] environment.set := by
    refine settings_congr fun name hmem => ?_
    have hother := other.get_set (hposition name hmem)
    rw [h name hmem, ← environment.get_set (hposition name hmem)] at hother
    exact hother
  have hcheck : check isAddress other.values = check isAddress environment.values := by
    unfold check
    rw [show Value.ofMembers (other.values.filter (isSet ·.2)) = other.set from rfl, hset]
    rfl
  rw [load, load, hcheck]

/-- **Loading an environment.** It is accepted exactly when it is sound, with the configuration that
it describes, which the service can work with; otherwise every setting at fault is named, and
nothing else but the overlap. What the environment gives for other names does not matter. All this
holds whatever texts are taken for addresses. -/
theorem load_judged (isAddress : String → Bool) (environment : Environment) :
    Judged isAddress environment (load isAddress environment.values) ∧
    ∀ other : Environment,
      (∀ name ∈ rules.map Prod.fst, other.given name = environment.given name) →
        load isAddress other.values = load isAddress environment.values := by
  constructor
  · by_cases h : Sound isAddress environment
    · exact judged_of_sound h
    · exact judged_of_unsound h
  · intro other h
    exact load_congr h

/-- Names that are no settings, and empty texts, leave the outcome as it is. -/
theorem load_judged_unknown :
    Judged Address.isAbsolute [("PORT", "8080")]
      (load Address.isAbsolute (Environment.values [("PORT", "8080")])) ∧
    load Address.isAbsolute
        (Environment.values [("HOME", "/root"), ("PORT", "8080"), ("CHUNK_SIZE", "")]) =
      load Address.isAbsolute (Environment.values [("PORT", "8080")]) := by
  obtain ⟨hjudged, hother⟩ := load_judged Address.isAbsolute [("PORT", "8080")]
  exact ⟨hjudged, hother [("HOME", "/root"), ("PORT", "8080"), ("CHUNK_SIZE", "")] (by decide)⟩

/-- Each setting is in order by itself, but the usual overlap is too wide for the size. -/
example : load Address.isAbsolute (Environment.values [("CHUNK_SIZE", "100")]) =
    .error (.configuration ["CHUNK_OVERLAP: CHUNK_OVERLAP must be smaller than CHUNK_SIZE"]) := by
  rfl

end Config
end Retrieval
