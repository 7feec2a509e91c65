import Retrieval.Proofs.Schema.Accepted
import Retrieval.Proofs.Value.Members

/-!
# Requests that are checked twice

A check settles values (`Check.Settles`) when all it accepts is sound, and what is sound, written as
a value again, is accepted as it is. Each way to put checks together keeps this, so it holds of
whole requests (`requests_stable`): what was accepted is within the documented bounds, has no member
that is not declared, and passes the same check again unchanged.
-/

namespace Retrieval

/-! ## Sound values -/

/-- A value that metadata may hold: a text, a number, a flag or null. -/
inductive Value.Plain : Value → Prop where
  | text (s : String) : Plain (.text s)
  | number {x : Float} (h : Number.isNan x = false) : Plain (.number x)
  | flag (b : Bool) : Plain (.flag b)
  | null : Plain .null

/-- A record with members of these names at most, none of which is absent. -/
def Value.HasOnly (names : List String) (v : Value) : Prop :=
  ∃ ms, v = .record ms ∧ ∀ m ∈ ms, m.1 ∈ names ∧ m.2.isPresent = true

theorem Value.hasOnly_ofPresent (ms : List (String × Value)) :
    (ofPresent ms).HasOnly (ms.map (·.1)) := by
  refine ⟨_, rfl, fun m hm => ?_⟩
  obtain ⟨hmem, hpresent⟩ := List.mem_filter.mp hm
  exact ⟨List.mem_map_of_mem hmem, hpresent⟩

/-- The name is one under which a record that was checked can have a member. -/
def Value.Keeps (name : String) : Prop := name ≠ prototypeName

instance (name : String) : Decidable (Value.Keeps name) :=
  inferInstanceAs (Decidable (name ≠ Value.prototypeName))

/-- All members of the metadata are plain, and none has the name that is left out. -/
def Metadata.Sound (m : Metadata) : Prop := ∀ entry ∈ m, Value.Keeps entry.1 ∧ entry.2.Plain

/-- The double is a number between two integers. -/
def Number.Between (low high : Int) (x : Float) : Prop :=
  atLeast x low = true ∧ atMost x high = true

theorem Number.between_iff {low high : Int} {x : Float} :
    Between low high x ↔ isNan x = false ∧ below x low = false ∧ above x high = false := by
  unfold Between isNan atLeast atMost above below
  cases hx : Exact.of x with
  | nan => simp [Exact.compareTo]
  | infinite negative => cases negative <;> simp [Exact.compareTo]
  | finite negative m e =>
    simp only [Exact.compareTo]
    generalize compare (Exact.signed negative (m * twoTo e.toNat)) _ = a
    generalize compare (Exact.signed negative (m * twoTo e.toNat)) _ = b
    cases a <;> cases b <;> simp

/-- The name has between 1 and 255 units, and the metadata are plain. -/
structure StoreRequest.Sound (r : StoreRequest) : Prop where
  name : 1 ≤ unitCount r.name ∧ unitCount r.name ≤ 255
  metadata : ∀ m, r.metadata = some m → m.Sound

/-- A page holds between 1 and 100 stores and starts at a natural number. -/
structure PageRequest.Sound (r : PageRequest) : Prop where
  limit : Check.Whole (fun k => 1 ≤ k ∧ k ≤ 100) r.limit
  offset : Check.Whole (0 ≤ ·) r.offset

/-- A size is a whole number and at least 1, an overlap a natural number. -/
def ChunkingRequest.Sound (r : ChunkingRequest) : Prop := Check.Asked r.size r.overlap

/-- Neither the text nor the name of the document is empty, and its metadata are plain. -/
structure DocumentRequest.Sound (r : DocumentRequest) : Prop where
  chunking : r.chunking.Sound
  text : r.text ≠ ""
  filename : ∀ name, r.filename = some name → name ≠ ""
  metadata : ∀ m, r.metadata = some m → m.Sound
  attributes : ∀ m, r.attributes = some m → m.Sound

/-- The query is not empty, between 1 and 100 results are asked for, no entry of the filter has the
name that is left out, and the threshold lies between 0 and 1. -/
structure SearchRequest.Sound (r : SearchRequest) : Prop where
  query : r.query ≠ ""
  maxResults : Check.Whole (fun k => 1 ≤ k ∧ k ≤ 100) r.maxResults
  filter : ∀ entries, r.filter = some entries → ∀ entry ∈ entries, Value.Keeps entry.1
  scoreThreshold : ∀ t, r.scoreThreshold = some t → Number.Between 0 1 t

namespace Check

open Value (RecordKind)

variable {α : Type} {c : Check α} {write : α → Value} {P P' : α → Prop}

/-- What the check accepts satisfies `P`, and what satisfies `P` is accepted as it is. -/
structure Settles (c : Check α) (write : α → Value) (P : α → Prop) : Prop where
  ensures : Ensures c P
  again : ∀ path a, P a → (c path (write a)).toExcept = .ok a

/-! ## Checks of single values -/

theorem settles_text : Settles text .text fun _ => True :=
  ⟨fun _ _ _ _ => trivial, fun _ _ _ => rfl⟩

theorem settles_number : Settles number .number (Number.isNan · = false) := by
  constructor
  · intro path v x h
    unfold number at h
    split at h
    · split at h
      · cases h
      · next hnan =>
        obtain rfl := Except.ok.inj h
        simpa using hnan
    · cases h
  · intro path x hx
    unfold number
    dsimp only
    rw [if_neg (by simp [hx])]
    rfl

/-- Whatever value was read as a number, the number is read as itself. -/
theorem settles_coerced (kind : RecordKind) :
    Settles (coerced kind) .number (Number.isNan · = false) := by
  refine ⟨fun path v x h => ?_, settles_number.again⟩
  unfold coerced at h
  split at h
  · exact settles_number.ensures _ _ _ h
  · cases h

theorem settles_metadataValue : Settles metadataValue id Value.Plain := by
  constructor
  · intro path v a h
    unfold metadataValue at h
    split at h
    · obtain rfl := Except.ok.inj h
      exact .text _
    · obtain rfl := Except.ok.inj h
      exact .flag _
    · obtain rfl := Except.ok.inj h
      exact .null
    · split at h
      · cases h
      · next hnan =>
        obtain rfl := Except.ok.inj h
        exact .number (by simpa using hnan)
    · cases h
  · intro path a ha
    cases ha with
    | text | flag | null => rfl
    | number hx =>
      unfold metadataValue
      dsimp only [id]
      rw [if_neg (by simp [hx])]
      rfl

theorem settles_oneOf (options : List String) : Settles (oneOf options) .text (· ∈ options) := by
  constructor
  · intro path v s h
    unfold oneOf at h
    split at h
    · split at h
      · next hmem =>
        obtain rfl := Except.ok.inj h
        exact List.contains_iff_mem.mp hmem
      · cases h
    · cases h
  · intro path s hs
    rw [(enforces_oneOf options).accepted path s hs]
    rfl

/-! ## Checks put together -/

theorem Settles.and {rules : List (α → Option (Finding × Option String))}
    (hc : Settles c write P) (h : ∀ a, P' a ↔ P a ∧ ∀ rule ∈ rules, rule a = none) :
    Settles (c.and rules) write P' := by
  constructor
  · intro path v a ha
    obtain ⟨hread, hrules⟩ := and_eq_ok_iff.mp ha
    exact (h a).mpr ⟨hc.ensures path v a hread, hrules⟩
  · intro path a ha
    obtain ⟨hP, hrules⟩ := (h a).mp ha
    exact and_eq_ok_iff.mpr ⟨hc.again path a hP, hrules⟩

/-- Rules on whole numbers as conditions on integers, for any check of numbers. -/
theorem Settles.whole {c : Check Float} {rules : List (Float → Option (Finding × Option String))}
    {p : Int → Prop} (hc : Settles c .number (Number.isNan · = false))
    (h : ∀ x k, Number.whole? x = some k → ((∀ rule ∈ rules, rule x = none) ↔ p k)) :
    Settles (c.and (Check.whole :: rules)) .number (Whole p) := by
  refine hc.and fun x => ?_
  rw [List.forall_mem_cons]
  constructor
  · rintro ⟨k, hk, hp⟩
    refine ⟨not_isNan_of_whole hk, ?_, (h x k hk).mpr hp⟩
    rw [Check.whole, hk]
    rfl
  · rintro ⟨-, hwhole, hrules⟩
    cases hk : Number.whole? x with
    | none =>
      rw [Check.whole, hk] at hwhole
      cases hwhole
    | some k => exact ⟨k, hk, (h x k hk).mp hrules⟩

theorem Settles.orElse {usual : α} (hc : Settles c write P) (husual : P usual)
    (hpresent : ∀ a, (write a).isPresent = true) : Settles (orElse c usual) write P := by
  refine ⟨hc.ensures.orElse husual, fun path a ha => ?_⟩
  have hagain := hc.again path a ha
  have hwrite := hpresent a
  unfold Check.orElse
  split
  · next habsent =>
    rw [habsent] at hwrite
    cases hwrite
  · exact hagain

/-- A value that may be missing, written as a member that may be absent. -/
theorem Settles.optional {writeMember : Option α → Value} (hc : Settles c write P)
    (hpresent : ∀ a, (write a).isPresent = true) (hnone : writeMember none = .absent)
    (hsome : ∀ a, writeMember (some a) = write a) :
    Settles (optional c) writeMember fun found => ∀ a, found = some a → P a := by
  refine ⟨hc.ensures.optional, fun path found hfound => ?_⟩
  cases found with
  | none =>
    rw [hnone]
    rfl
  | some a =>
    have hagain := hc.again path a (hfound a rfl)
    have hwrite := hpresent a
    rw [hsome]
    unfold Check.optional
    split
    · next habsent =>
      rw [habsent] at hwrite
      cases hwrite
    · exact Outcome.map_eq_ok_iff.mpr ⟨a, hagain, rfl⟩

theorem Settles.optionalNumber {c : Check Float} {P : Float → Prop} (hc : Settles c .number P) :
    Settles (Check.optional c) Value.ofNumber? fun found => ∀ x, found = some x → P x :=
  hc.optional (fun _ => rfl) rfl fun _ => rfl

/-- The entries but for those whose name is left out. -/
def keptEntries (entries : List (String × α)) : List (String × α) :=
  entries.filter (·.1 != Value.prototypeName)

theorem withEntry_keptEntries (name : String) (a : α) (rest : List (String × α)) :
    withEntry name a (keptEntries rest) = keptEntries ((name, a) :: rest) := by
  unfold withEntry keptEntries
  by_cases h : name = Value.prototypeName <;> simp [h]

theorem keptEntries_eq_self {entries : List (String × α)}
    (h : ∀ entry ∈ entries, Value.Keeps entry.1) : keptEntries entries = entries :=
  List.filter_eq_self.mpr fun entry hentry => bne_iff_ne.mpr (h entry hentry)

theorem keeps_of_mem_keptEntries {entries : List (String × α)} :
    ∀ entry ∈ keptEntries entries, Value.Keeps entry.1 :=
  fun _ h => bne_iff_ne.mp (List.mem_filter.mp h).2

theorem Settles.members_written (hc : Settles c write P) (path : List String)
    {l : List (String × α)} (hl : ∀ m ∈ l, P m.2) :
    (members c path (.record (l.map fun m => (m.1, write m.2)))).toExcept =
      .ok (keptEntries l) := by
  unfold Check.members
  dsimp only
  induction l with
  | nil => rfl
  | cons m rest ih =>
    obtain ⟨hm, hrest⟩ := List.forall_mem_cons.mp hl
    rw [List.map_cons, List.foldr_cons, Outcome.both_eq_ok_iff]
    exact ⟨m.2, _, hc.again _ m.2 hm, ih hrest, withEntry_keptEntries ..⟩

/-- The members of a record, each under the same check. -/
theorem Settles.members {writeAll : List (String × α) → Value} (hc : Settles c write P)
    (hwrite : ∀ l, writeAll l = .record (l.map fun m => (m.1, write m.2))) :
    Settles (members c) writeAll fun l => ∀ m ∈ l, Value.Keeps m.1 ∧ P m.2 := by
  constructor
  · intro path v l h
    unfold Check.members at h
    split at h
    · next ms =>
      induction ms generalizing l with
      | nil =>
        obtain rfl := Except.ok.inj h
        exact fun m hm => absurd hm List.not_mem_nil
      | cons m rest ih =>
        rw [List.foldr_cons, Outcome.both_eq_ok_iff] at h
        obtain ⟨a, tail, ha, htail, rfl⟩ := h
        unfold withEntry
        split
        · exact ih tail htail
        · next hkeeps =>
          exact List.forall_mem_cons.mpr ⟨⟨hkeeps, hc.ensures _ _ a ha⟩, ih tail htail⟩
    · cases h
  · intro path l hl
    rw [hwrite, hc.members_written path fun m hm => (hl m hm).2,
      keptEntries_eq_self fun m hm => (hl m hm).1]

theorem Settles.member (hc : Settles c write P) {path : List String} {get : String → Value}
    {name : String} {a : α} (hget : get name = write a) (ha : P a) :
    (member c path get name).toExcept = .ok a := by
  unfold Check.member
  rw [hget]
  exact hc.again _ a ha

/-- The members of a record that are looked at by name, none of which is declared twice. -/
theorem Settles.object {fields : List String → (String → Value) → Outcome α}
    (writeFields : α → List (String × Value))
    (hensures : ∀ path get a, (fields path get).toExcept = .ok a → P a)
    (hagain : ∀ path get a, P a → (∀ m ∈ writeFields a, get m.1 = m.2) →
      (fields path get).toExcept = .ok a)
    (hnodup : ∀ a, ((writeFields a).map (·.1)).Nodup) :
    Settles (object fields) (fun a => .ofPresent (writeFields a)) P := by
  constructor
  · intro path v a h
    unfold Check.object at h
    split at h
    · exact hensures _ _ a h
    · cases h
  · intro path a ha
    exact hagain path _ a ha fun m hm => Value.lookup_filter_isPresent (hnodup a) hm

/-! ## Checks of members -/

theorem settles_name :
    Settles (text.and [minLength 1 (some "Vector store name cannot be empty"), maxLength 255]) .text
      fun s => 1 ≤ unitCount s ∧ unitCount s ≤ 255 := by
  refine settles_text.and fun s => ?_
  simp only [minLength, maxLength, List.forall_mem_cons, List.not_mem_nil, false_implies,
    implies_true, and_true, true_and, ite_eq_right_iff, reduceCtorEq, imp_false]
  omega

theorem settles_nonempty (words : Option String) :
    Settles (text.and [minLength 1 words]) .text (· ≠ "") := by
  refine settles_text.and fun s => ?_
  simp [minLength, ← unitCount_eq_zero]

theorem settles_size (kind : RecordKind) :
    Settles ((coerced kind).and [whole, positive]) .number (Whole (1 ≤ ·)) :=
  (settles_coerced kind).whole fun _ _ hk => by simp [positive_of_whole hk]

theorem settles_natural (kind : RecordKind) :
    Settles ((coerced kind).and [whole, atLeast 0]) .number (Whole (0 ≤ ·)) :=
  (settles_coerced kind).whole fun _ _ hk => by simp [atLeast_of_whole hk]

/-- A number of things between 1 and 100, however numbers are read. -/
theorem Settles.hundred {c : Check Float} (hc : Settles c .number (Number.isNan · = false)) :
    Settles (c.and [Check.whole, atLeast 1, atMost 100]) .number
      (Whole fun k => 1 ≤ k ∧ k ≤ 100) :=
  hc.whole fun _ _ hk => by simp [atLeast_of_whole hk, atMost_of_whole hk]

theorem settles_threshold :
    Settles (number.and [atLeast 0, atMost 1]) .number (Number.Between 0 1) := by
  refine settles_number.and fun x => ?_
  rw [Number.between_iff]
  simp [atLeast, atMost]

theorem settles_order :
    Settles (orElse (oneOf ["asc", "desc"]) "desc") .text (· ∈ ["asc", "desc"]) :=
  (settles_oneOf _).orElse (by decide) fun _ => rfl

theorem settles_entries : Settles metadata .record Metadata.Sound :=
  settles_metadataValue.members fun l => by simp

theorem settles_metadata :
    Settles (optional metadata) metadataMember fun found => ∀ m, found = some m → m.Sound :=
  settles_entries.optional (fun _ => rfl) rfl fun _ => rfl

/-- The entries of a filter, as a member that may be absent. -/
def filterMember (f : Option (List (String × String))) : Value :=
  metadataMember (f.map fun entries => entries.map fun m => (m.1, .text m.2))

theorem settles_filterEntries : Settles (members text)
    (fun entries => .record (entries.map fun m => (m.1, .text m.2)))
    fun entries => ∀ entry ∈ entries, Value.Keeps entry.1 := by
  simpa only [and_true] using settles_text.members fun _ => rfl

/-- A filter is read without the entries whose name is left out. -/
theorem filter_written (path : List String) (f : Option (List (String × String))) :
    (optional (members text) path (filterMember f)).toExcept = .ok (f.map keptEntries) := by
  cases f with
  | none => rfl
  | some entries =>
    exact Outcome.map_eq_ok_iff.mpr
      ⟨_, settles_text.members_written path fun _ _ => trivial, rfl⟩

/-! ## Requests -/

theorem settles_store : Settles store StoreRequest.toValue StoreRequest.Sound := by
  refine Settles.object
    (fun r : StoreRequest => [("name", .text r.name), ("metadata", metadataMember r.metadata)])
    ?_ ?_ ?_
  · intro path get r h
    simp only [Outcome.map_eq, Outcome.seq_eq, Outcome.both_eq_ok_iff, Outcome.map_eq_ok_iff] at h
    obtain ⟨_, metadata, ⟨name, hname, rfl⟩, hmetadata, rfl⟩ := h
    exact ⟨settles_name.ensures _ _ _ hname, settles_metadata.ensures _ _ _ hmetadata⟩
  · intro path get r hr hget
    simp only [List.forall_mem_cons] at hget
    obtain ⟨hname, hmetadata, -⟩ := hget
    simp only [Outcome.map_eq, Outcome.seq_eq, Outcome.both_eq_ok_iff, Outcome.map_eq_ok_iff]
    exact ⟨_, _, ⟨_, settles_name.member hname hr.name, rfl⟩,
      settles_metadata.member hmetadata hr.metadata, rfl⟩
  · exact fun _ => show ["name", "metadata"].Nodup by decide

theorem settles_page : Settles page PageRequest.toValue PageRequest.Sound := by
  have hlimit : Settles (orElse ((coerced .common).and [whole, atLeast 1, atMost 100]) 20) .number
      (Whole fun k => 1 ≤ k ∧ k ≤ 100) :=
    (settles_coerced .common).hundred.orElse ⟨20, by decide +kernel, by decide⟩ fun _ => rfl
  have hoffset : Settles (orElse ((coerced .common).and [whole, atLeast 0]) 0) .number
      (Whole (0 ≤ ·)) :=
    (settles_natural .common).orElse ⟨0, by decide +kernel, by decide⟩ fun _ => rfl
  refine Settles.object
    (fun r : PageRequest => [("limit", .number r.limit), ("offset", .number r.offset),
      ("order", .text r.order.name)]) ?_ ?_ ?_
  · intro path get r h
    simp only [Outcome.map_eq, Outcome.seq_eq, Outcome.both_eq_ok_iff, Outcome.map_eq_ok_iff] at h
    obtain ⟨_, order, ⟨_, offset, ⟨limit, hl, rfl⟩, ho, rfl⟩, -, rfl⟩ := h
    exact ⟨hlimit.ensures _ _ _ hl, hoffset.ensures _ _ _ ho⟩
  · intro path get r hr hget
    simp only [List.forall_mem_cons] at hget
    obtain ⟨hl, ho, horder, -⟩ := hget
    have hname : r.order.name ∈ ["asc", "desc"] := by cases r.order <;> decide
    have hread : Order.ofName r.order.name = r.order := by cases r.order <;> rfl
    simp only [Outcome.map_eq, Outcome.seq_eq, Outcome.both_eq_ok_iff, Outcome.map_eq_ok_iff]
    exact ⟨_, _, ⟨_, _, ⟨_, hlimit.member hl hr.limit, rfl⟩, hoffset.member ho hr.offset, rfl⟩,
      ⟨_, settles_order.member horder hname, hread⟩, rfl⟩
  · exact fun _ => show ["limit", "offset", "order"].Nodup by decide

theorem chunkingMembers_again {kind : RecordKind} {path : List String} {get : String → Value}
    {r : ChunkingRequest} (hr : r.Sound) (hget : ∀ m ∈ r.toMembers, get m.1 = m.2) :
    (chunkingMembers kind path get).toExcept = .ok r := by
  have hsize := (settles_size kind).optionalNumber
  have hoverlap := (settles_natural kind).optionalNumber
  simp only [ChunkingRequest.toMembers, List.forall_mem_cons] at hget
  obtain ⟨hs, ho, -⟩ := hget
  simp only [chunkingMembers, Outcome.map_eq, Outcome.seq_eq, Outcome.both_eq_ok_iff,
    Outcome.map_eq_ok_iff]
  exact ⟨_, _, ⟨_, hsize.member hs hr.size, rfl⟩, hoverlap.member ho hr.overlap, rfl⟩

theorem settles_chunking : Settles chunking ChunkingRequest.toValue ChunkingRequest.Sound := by
  refine Settles.object ChunkingRequest.toMembers ?_ ?_ ?_
  · exact fun path get r h => chunkingMembers_asked h
  · exact fun path get r hr hget => chunkingMembers_again hr hget
  · exact fun _ => show ["chunkSize", "overlap"].Nodup by decide

theorem settles_document (kind : RecordKind) :
    Settles (document kind) DocumentRequest.toValue DocumentRequest.Sound := by
  have htext := settles_nonempty (some "Text cannot be empty")
  have hfilename : Settles (optional (text.and [minLength 1 none])) Value.ofText?
      fun found => ∀ s, found = some s → s ≠ "" :=
    (settles_nonempty none).optional (fun _ => rfl) rfl fun _ => rfl
  refine Settles.object (fun r : DocumentRequest => r.chunking.toMembers ++
    [("text", .text r.text), ("filename", .ofText? r.filename),
      ("metadata", metadataMember r.metadata), ("attributes", metadataMember r.attributes)])
    ?_ ?_ ?_
  · intro path get r h
    simp only [Outcome.map_eq, Outcome.seq_eq, Outcome.both_eq_ok_iff, Outcome.map_eq_ok_iff] at h
    obtain ⟨_, attributes, ⟨_, metadata, ⟨_, filename, ⟨_, words, ⟨chunking, hchunking, rfl⟩, ht,
      rfl⟩, hf, rfl⟩, hm, rfl⟩, ha, rfl⟩ := h
    exact ⟨chunkingMembers_asked hchunking, htext.ensures _ _ _ ht, hfilename.ensures _ _ _ hf,
      settles_metadata.ensures _ _ _ hm, settles_metadata.ensures _ _ _ ha⟩
  · intro path get r hr hget
    rw [List.forall_mem_append] at hget
    obtain ⟨hchunking, hget⟩ := hget
    simp only [List.forall_mem_cons] at hget
    obtain ⟨ht, hf, hm, ha, -⟩ := hget
    simp only [Outcome.map_eq, Outcome.seq_eq, Outcome.both_eq_ok_iff, Outcome.map_eq_ok_iff]
    exact ⟨_, _, ⟨_, _, ⟨_, _, ⟨_, _, ⟨_, chunkingMembers_again hr.chunking hchunking, rfl⟩,
      htext.member ht hr.text, rfl⟩, hfilename.member hf hr.filename, rfl⟩,
      settles_metadata.member hm hr.metadata, rfl⟩,
      settles_metadata.member ha hr.attributes, rfl⟩
  · exact fun _ => show ["chunkSize", "overlap", "text", "filename", "metadata",
      "attributes"].Nodup by decide

theorem settles_maxResults :
    Settles (orElse (number.and [whole, atLeast 1, atMost 100]) 10) .number
      (Whole fun k => 1 ≤ k ∧ k ≤ 100) :=
  settles_number.hundred.orElse ⟨10, by decide +kernel, by decide⟩ fun _ => rfl

/-- The members under which a search is written. -/
def writtenSearch (r : SearchRequest) : List (String × Value) :=
  [("query", .text r.query), ("maxResults", .number r.maxResults),
    ("filter", filterMember r.filter), ("scoreThreshold", .ofNumber? r.scoreThreshold)]

theorem nodup_writtenSearch (r : SearchRequest) : ((writtenSearch r).map (·.1)).Nodup :=
  show ["query", "maxResults", "filter", "scoreThreshold"].Nodup by decide

/-- The search without the entries of its filter whose name is left out. -/
def keptSearch (r : SearchRequest) : SearchRequest := { r with filter := r.filter.map keptEntries }

theorem keptSearch_eq_self {r : SearchRequest} (hr : r.Sound) : keptSearch r = r := by
  have hfilter : r.filter.map keptEntries = r.filter := by
    cases hf : r.filter with
    | none => rfl
    | some entries => rw [Option.map_some, keptEntries_eq_self (hr.filter entries hf)]
  rw [keptSearch, hfilter]

/-- A search is read as it is written, but for what is left out of its filter. -/
theorem searchMembers_written {path : List String} {get : String → Value} {r : SearchRequest}
    (hr : (keptSearch r).Sound) (hget : ∀ m ∈ writtenSearch r, get m.1 = m.2) :
    (searchMembers path get).toExcept = .ok (keptSearch r) := by
  have hquery := settles_nonempty (some "Query cannot be empty")
  have hthreshold := settles_threshold.optionalNumber
  simp only [writtenSearch, List.forall_mem_cons] at hget
  obtain ⟨hq, hm, hf, ht, -⟩ := hget
  have hfilter : (member (optional (members text)) path get "filter").toExcept =
      .ok (r.filter.map keptEntries) := by
    rw [member, hf, filter_written]
  simp only [searchMembers, Outcome.map_eq, Outcome.seq_eq, Outcome.both_eq_ok_iff,
    Outcome.map_eq_ok_iff]
  exact ⟨_, _, ⟨_, _, ⟨_, _, ⟨_, hquery.member hq hr.query, rfl⟩,
    settles_maxResults.member hm hr.maxResults, rfl⟩, hfilter, rfl⟩,
    hthreshold.member ht hr.scoreThreshold, rfl⟩

theorem searchRequest_written {r : SearchRequest} (hr : (keptSearch r).Sound)
    (path : List String) : (searchRequest path r.toValue).toExcept = .ok (keptSearch r) :=
  searchMembers_written hr fun _ hm => Value.lookup_filter_isPresent (nodup_writtenSearch r) hm

theorem settles_searchRequest :
    Settles searchRequest SearchRequest.toValue SearchRequest.Sound := by
  have hquery := settles_nonempty (some "Query cannot be empty")
  have hfilter := settles_filterEntries.ensures.optional
  have hthreshold := settles_threshold.optionalNumber
  refine Settles.object writtenSearch ?_ ?_ nodup_writtenSearch
  · intro path get r h
    simp only [searchMembers, Outcome.map_eq, Outcome.seq_eq, Outcome.both_eq_ok_iff,
      Outcome.map_eq_ok_iff] at h
    obtain ⟨_, threshold, ⟨_, filter, ⟨_, most, ⟨query, hq, rfl⟩, hm, rfl⟩, hf, rfl⟩, ht, rfl⟩ := h
    exact ⟨hquery.ensures _ _ _ hq, settles_maxResults.ensures _ _ _ hm, hfilter _ _ _ hf,
      hthreshold.ensures _ _ _ ht⟩
  · intro path get r hr hget
    have hkept := keptSearch_eq_self hr
    rw [← hkept] at hr
    exact (searchMembers_written hr hget).trans (congrArg Except.ok hkept)

/-! ## A second pass -/

/-- What the check accepts is sound and written with the declared members at most, and it is
accepted again as it is, wherever it stands. Nothing sound is refused. -/
structure Stable (c : Check α) (write : α → Value) (names : List String) (P : α → Prop) :
    Prop where
  sound : ∀ path v a, (c path v).toExcept = .ok a → P a
  complete : ∀ a, P a → ∀ path, (c path (write a)).toExcept = .ok a
  declared : ∀ path v a, (c path v).toExcept = .ok a → (write a).HasOnly names
  again : ∀ path v a, (c path v).toExcept = .ok a →
    ∀ path', (c path' (write a)).toExcept = .ok a

theorem Settles.stable {names : List String} (hc : Settles c write P)
    (hnames : ∀ a, (write a).HasOnly names) : Stable c write names P where
  sound := hc.ensures
  complete a ha path := hc.again path a ha
  declared _ _ a _ := hnames a
  again path v a h path' := hc.again path' a (hc.ensures path v a h)

/-- **Accepted requests are sound and stay as they are.** Whatever value is sent, and whatever kind
of records it holds, a request that is accepted keeps the documented bounds, has no member that is
not declared, and passes its check a second time unchanged; and every request within the bounds is
accepted as it is. -/
theorem requests_stable :
    Stable store StoreRequest.toValue ["name", "metadata"] StoreRequest.Sound ∧
    Stable page PageRequest.toValue ["limit", "offset", "order"] PageRequest.Sound ∧
    Stable chunking ChunkingRequest.toValue ["chunkSize", "overlap"] ChunkingRequest.Sound ∧
    (∀ kind, Stable (document kind) DocumentRequest.toValue
      ["chunkSize", "overlap", "text", "filename", "metadata", "attributes"]
      DocumentRequest.Sound) ∧
    Stable searchRequest SearchRequest.toValue
      ["query", "maxResults", "filter", "scoreThreshold"] SearchRequest.Sound :=
  ⟨settles_store.stable fun _ => Value.hasOnly_ofPresent _,
    settles_page.stable fun r => Value.hasOnly_ofPresent [("limit", .number r.limit),
      ("offset", .number r.offset), ("order", .text r.order.name)],
    settles_chunking.stable fun _ => Value.hasOnly_ofPresent _,
    fun kind => (settles_document kind).stable fun _ => Value.hasOnly_ofPresent _,
    settles_searchRequest.stable fun _ => Value.hasOnly_ofPresent _⟩

/-- A size that is read from the text of a list; what is not declared is left out. -/
example :
    let sent := Value.record [("chunkSize", .list [.text " 0x10 "]), ("order", .null)]
    ((chunking [] sent).toExcept.toOption.bind fun r => r.size.bind Number.natural?) = some 16 := by
  decide +kernel

end Check
end Retrieval
