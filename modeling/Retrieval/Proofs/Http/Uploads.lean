import Retrieval.Http.Documents
import Retrieval.Proofs.Schema.Checks
import Retrieval.Proofs.Text.Utf8
import Retrieval.Proofs.Value.Reading

/-!
# Documents sent in two ways

`documentOf_agrees`: a document that is uploaded and the same document in the body of a request come
to the same outcome (`SameOutcome`), and an upload whose fields are in order is accepted exactly when
its bytes are well-formed, with the text that they stand for (`Decoded`). The fields beside an upload
are checked as the members of a body are (`document_of_uploadFields`): metadata written in a text is
checked as the value that the text writes. Where a size has no text, neither way ends in issues
(`documentOf_textless`).
-/

namespace Retrieval

namespace Check

open Value (RecordKind)

/-! ## Fields and members -/

/-- A field writes the value that stands in its place elsewhere, or both are missing. -/
inductive Encodes : Value → Value → Prop
  | missing : Encodes .absent .absent
  | written {s : String} {v : Value} (h : Value.ofJson? s = some v) : Encodes (.text s) v

variable {kind : RecordKind} {v w : Value} {fields members : List (String × Value)}

/-- Metadata in a text is checked as the value that the text writes. -/
theorem metadata_encodes (path : List String) (h : Encodes v w) :
    optional metadataText path v = optional metadata path w := by
  cases h with
  | missing => rfl
  | written hread =>
    -- only an absent value would be let pass unchecked, and no text writes it
    have hpresent := Value.isPresent_of_ofJson? hread
    have hw : optional metadata path w = (metadata path w).map some := by
      cases w with
      | absent => cases hpresent
      | _ => rfl
    rw [hw]
    simp only [optional, metadataText, hread]

theorem readable_metadata : Readable metadata := by
  apply Readable.members
  intro path v
  unfold metadataValue
  split
  · rfl
  · rfl
  · rfl
  · split <;> rfl
  · rfl

theorem readable_metadataText : Readable metadataText := by
  intro path v
  unfold metadataText
  split
  · split
    · exact readable_metadata _ _
    · rfl
  · rfl

/-- A number that may be missing has no text only where its value has none. -/
theorem textless_optional_coerced {rules : List (Float → Option (Finding × Option String))}
    (path : List String) (v : Value) :
    (optional ((coerced kind).and rules) path v).textless = (v.toNumber? kind).isNone := by
  have happly (v : Value) : ((coerced kind).and rules path v).textless = (v.toNumber? kind).isNone := by
    rw [and_eq]
    exact coerced_textless path v
  cases v with
  | absent => rfl
  | _ => exact happly _

theorem textless_uploadFields :
    (uploadFields kind [] (.record fields)).textless =
      (((Value.lookup "chunkSize" fields).toNumber? kind).isNone ||
        ((Value.lookup "overlap" fields).toNumber? kind).isNone) := by
  have hmetadata := readable_metadataText.optional
  simp only [uploadFields, object, chunkingMembers, member, Outcome.map_eq, Outcome.seq_eq,
    Outcome.map, Outcome.both, textless_optional_coerced, hmetadata _ _, Bool.or_false]

/-- A body is checked as the fields beside an upload are, where its text and its name are in
order. -/
theorem document_of_uploadFields (kind : RecordKind) {text name : String} (htext : text ≠ "")
    (hname : name ≠ "")
    (hmtext : Value.lookup "text" members = .text text)
    (hmname : Value.lookup "filename" members = .text name)
    (hsize : Value.lookup "chunkSize" fields = Value.lookup "chunkSize" members)
    (hoverlap : Value.lookup "overlap" fields = Value.lookup "overlap" members)
    (hmeta : Encodes (Value.lookup "metadata" fields) (Value.lookup "metadata" members))
    (hattr : Encodes (Value.lookup "attributes" fields) (Value.lookup "attributes" members)) :
    document kind [] (.record members) = (uploadFields kind [] (.record fields)).map
      fun f => ⟨f.chunking, text, some name, f.metadata, f.attributes⟩ := by
  have hchunking : chunkingMembers kind [] (Value.lookup · fields) =
      chunkingMembers kind [] (Value.lookup · members) := by
    simp only [chunkingMembers, member, hsize, hoverlap]
  have haccepted : (Check.text.and [minLength 1 (some "Text cannot be empty")]) ["text"]
      (.text text) = yield text := (enforces_nonempty _).accepted _ _ htext
  have hnamed : optional (Check.text.and [minLength 1 none]) ["filename"] (.text name) =
      yield (some name) := by
    show ((Check.text.and [minLength 1 none]) ["filename"] (.text name)).map some = _
    rw [(enforces_nonempty none).accepted _ _ hname]
    rfl
  unfold document uploadFields
  simp only [object, member, List.nil_append, hmtext, hmname, haccepted, hnamed, hchunking,
    metadata_encodes _ hmeta, metadata_encodes _ hattr]
  generalize chunkingMembers kind [] (Value.lookup · members) = c
  generalize optional metadata ["metadata"] (Value.lookup "metadata" members) = m
  generalize optional metadata ["attributes"] (Value.lookup "attributes" members) = a
  obtain ⟨c, cissues, ctextless⟩ := c
  obtain ⟨m, missues, mtextless⟩ := m
  obtain ⟨a, aissues, atextless⟩ := a
  cases c <;> cases m <;> cases a <;> simp [Outcome.both, Outcome.map, yield]

end Check

namespace Http

open Check (Encodes)
open Value (RecordKind)

variable {kind : RecordKind} {id body : Value} {storeId text : String} {u : Upload}
  {fields members : List (String × Value)}

/-- The body of a form. Without fields it may be missing. -/
inductive IsForm : Value → List (String × Value) → Prop
  | record (fields : List (String × Value)) : IsForm (.record fields) fields
  | absent : IsForm .absent []
  | null : IsForm .null []

/-! ## One document, sent in two ways -/

/-- An upload with the fields beside it brings the document that the members of a body bring: the
bytes are those of the text, and metadata stands in the fields as JSON. -/
structure SameDocument (u : Upload) (fields members : List (String × Value)) (text : String) :
    Prop where
  uploadable : isUploadable u.filename = true
  bytes : u.bytes.data.toList = Utf8.encode (.ofString text)
  nonempty : text ≠ ""
  unmarked : ∀ c ∈ text.toList.head?, c.toNat ≠ Utf8.byteOrderMark
  text : Value.lookup "text" members = .text text
  filename : Value.lookup "filename" members = .text u.filename
  chunkSize : Value.lookup "chunkSize" fields = Value.lookup "chunkSize" members
  overlap : Value.lookup "overlap" fields = Value.lookup "overlap" members
  metadata : Encodes (Value.lookup "metadata" fields) (Value.lookup "metadata" members)
  attributes : Encodes (Value.lookup "attributes" fields) (Value.lookup "attributes" members)

/-- A size or an overlap that is to be read as a number has no text. -/
def Textless (kind : RecordKind) (fields : List (String × Value)) : Prop :=
  (Value.lookup "chunkSize" fields).toNumber? kind = none ∨
    (Value.lookup "overlap" fields).toNumber? kind = none

/-- The same outcome for an upload and for a body: the document, the issues, or the fault that
looking for a missing text raises. -/
inductive SameOutcome (kind : RecordKind) (fields : List (String × Value)) (storeId name : String)
    (text : Text) : Except Fault Document → Except Fault Document → Prop
  | accepted (d : Document) (readable : ¬ Textless kind fields) (store : d.storeId = storeId)
      (filename : d.filename = name) (same : d.text = text) :
    SameOutcome kind fields storeId name text (.ok d) (.ok d)
  | refused (issues : List Issue) (readable : ¬ Textless kind fields) :
    SameOutcome kind fields storeId name text (.error (.validation issues))
      (.error (.validation issues))
  | textless (unreadable : Textless kind fields) :
    SameOutcome kind fields storeId name text (.error .textless) (.error .textless)

theorem accepted_map {α β : Type} (f : α → β) (o : Outcome α) :
    accepted (o.map f) = (accepted o).map f := by
  rw [accepted, accepted, Outcome.toExcept_map]
  cases o.toExcept <;> rfl

/-- What a check comes to. -/
theorem accepted_cases {α : Type} (o : Outcome α) :
    (∃ a, accepted o = .ok a ∧ o.textless = false) ∨
      (∃ issues, accepted o = .error (.validation issues) ∧ o.textless = false) ∨
      (accepted o = .error .textless ∧ o.textless = true) := by
  obtain ⟨value, issues, textless⟩ := o
  cases textless with
  | true => exact Or.inr (Or.inr ⟨rfl, rfl⟩)
  | false =>
    cases value with
    | none => exact Or.inr (Or.inl ⟨issues, rfl, rfl⟩)
    | some a =>
      cases issues with
      | nil => exact Or.inl ⟨a, rfl, rfl⟩
      | cons i rest => exact Or.inr (Or.inl ⟨i :: rest, rfl, rfl⟩)

theorem ne_empty_of_isUploadable {name : String} (h : isUploadable name = true) : name ≠ "" := by
  rintro rfl
  revert h
  decide

theorem textOf_encode (h : SameDocument u fields members text) : textOf u = .ok (.ofString text) := by
  rw [textOf, Utf8.decodeStrict?_encode h.bytes h.unmarked]

/-- An upload with a name that is allowed comes to what its fields and its bytes come to. -/
theorem documentOf_upload (hid : resourceId id = .ok storeId) (hform : IsForm body fields)
    (hname : isUploadable u.filename = true) :
    documentOf kind id body (some u) =
      (accepted (Check.uploadFields kind [] (.record fields))).bind fun f =>
        (textOf u).map fun t => ⟨storeId, u.filename, t, f.metadata, f.attributes, f.chunking.size,
          f.chunking.overlap⟩ := by
  have huploaded : documentOf kind id body (some u) =
      uploadedDocument kind storeId (.record fields) u := by
    rw [documentOf, hid]
    cases hform <;> rfl
  rw [huploaded]
  unfold uploadedDocument
  rw [hname]
  simp only [Bool.not_true, Bool.false_eq_true, if_false]
  cases accepted (Check.uploadFields kind [] (.record fields)) with
  | error fault => rfl
  | ok f => cases textOf u <;> rfl

/-- A body that brings the same document comes to what the fields of the upload come to. -/
theorem documentOf_written (hid : resourceId id = .ok storeId)
    (h : SameDocument u fields members text) :
    documentOf kind id (.record members) none =
      (accepted (Check.uploadFields kind [] (.record fields))).map fun f =>
        ⟨storeId, u.filename, .ofString text, f.metadata, f.attributes, f.chunking.size,
          f.chunking.overlap⟩ := by
  have hdocument := Check.document_of_uploadFields kind h.nonempty
    (ne_empty_of_isUploadable h.uploadable) h.text h.filename h.chunkSize h.overlap h.metadata
    h.attributes
  have hwritten : documentOf kind id (.record members) none =
      writtenDocument kind storeId (.record members) := by
    rw [documentOf, hid]
    rfl
  rw [hwritten, writtenDocument, hdocument, accepted_map]
  cases accepted (Check.uploadFields kind [] (.record fields)) <;> rfl

theorem textless_uploadFields_iff :
    (Check.uploadFields kind [] (.record fields)).textless = true ↔ Textless kind fields := by
  rw [Check.textless_uploadFields, Bool.or_eq_true, Option.isNone_iff_eq_none,
    Option.isNone_iff_eq_none, Textless]

theorem documentOf_sameOutcome (hid : resourceId id = .ok storeId) (hform : IsForm body fields)
    (h : SameDocument u fields members text) :
    SameOutcome kind fields storeId u.filename (.ofString text) (documentOf kind id body (some u))
      (documentOf kind id (.record members) none) := by
  rw [documentOf_upload hid hform h.uploadable, documentOf_written hid h, textOf_encode h]
  rcases accepted_cases (Check.uploadFields kind [] (.record fields)) with
    ⟨f, hf, hread⟩ | ⟨issues, hissues, hread⟩ | ⟨htextless, hread⟩
  · rw [hf]
    have hreadable : ¬ Textless kind fields := by
      rw [← textless_uploadFields_iff, hread]
      exact Bool.false_ne_true
    exact .accepted _ hreadable rfl rfl rfl
  · rw [hissues]
    have hreadable : ¬ Textless kind fields := by
      rw [← textless_uploadFields_iff, hread]
      exact Bool.false_ne_true
    exact .refused issues hreadable
  · rw [htextless]
    exact .textless (textless_uploadFields_iff.mp hread)

/-! ## The bytes of an upload -/

/-- What an upload comes to whose fields are in order: it is accepted when its bytes are well-formed,
with a text that is written as these bytes, one leading byte order mark apart. -/
inductive Decoded (storeId : String) (u : Upload) (f : UploadFields) : Except Fault Document → Prop
  | accepted (text : Text) (wellFormed : Utf8.WellFormed u.bytes.data.toList)
      (written : Utf8.encode text = Utf8.withoutMark u.bytes.data.toList) :
    Decoded storeId u f (.ok ⟨storeId, u.filename, text, f.metadata, f.attributes, f.chunking.size,
      f.chunking.overlap⟩)
  | refused (illFormed : ¬ Utf8.WellFormed u.bytes.data.toList) :
    Decoded storeId u f (.error (.service .invalidArgument
      ("File '" ++ u.filename ++ "' is not valid UTF-8 text")
      (some (.other "TypeError" "The encoded data was not valid" none))))

theorem documentOf_decoded {f : UploadFields} (hid : resourceId id = .ok storeId) (hform : IsForm body fields)
    (hname : isUploadable u.filename = true)
    (hfields : accepted (Check.uploadFields kind [] (.record fields)) = .ok f) :
    Decoded storeId u f (documentOf kind id body (some u)) := by
  rw [documentOf_upload hid hform hname, hfields]
  cases hdecode : Utf8.decodeStrict? u.bytes with
  | none =>
    rw [textOf, hdecode]
    exact .refused (Utf8.decodeStrict?_eq_none.mp hdecode)
  | some s =>
    have hwell : Utf8.WellFormed u.bytes.data.toList := by
      apply Classical.byContradiction
      intro hill
      rw [Utf8.decodeStrict?_eq_none.mpr hill] at hdecode
      cases hdecode
    rw [textOf, hdecode]
    exact .accepted _ hwell (Utf8.encode_of_decodeStrict? hdecode)

/-- **Uploads and bodies agree.** For a store whose identifier is accepted, an upload comes to the
same outcome as a body that brings the same document: a document, issues, or, exactly where a size
or an overlap has no text, the fault that this raises. And an upload whose fields are in order is
accepted exactly when its bytes are well-formed, with the text that they stand for. -/
theorem documentOf_agrees (kind : RecordKind) (id : Value) (storeId : String)
    (hid : resourceId id = .ok storeId) :
    (∀ u body fields members text, IsForm body fields → SameDocument u fields members text →
      SameOutcome kind fields storeId u.filename (.ofString text)
        (documentOf kind id body (some u)) (documentOf kind id (.record members) none)) ∧
    (∀ u body fields f, IsForm body fields → isUploadable u.filename = true →
      accepted (Check.uploadFields kind [] (.record fields)) = .ok f →
        Decoded storeId u f (documentOf kind id body (some u))) :=
  ⟨fun _ _ _ _ _ hform h => documentOf_sameOutcome hid hform h,
    fun _ _ _ _ hform hname hfields => documentOf_decoded hid hform hname hfields⟩

def someId : String := "3f1c2a9e-8b7d-4c6e-9a5f-1e2d3c4b5a69"

def letter : Upload := ⟨"a.txt", ⟨#[0x61]⟩⟩

/-- A byte that begins no character, in a file. -/
def stray : Upload := ⟨"a.txt", ⟨#[0xFF]⟩⟩

theorem bytes_letter : letter.bytes.data.toList = Utf8.encode (.ofString "a") := by
  rw [Utf8.encode_ofString]
  rfl

theorem unmarked_letter : ∀ c ∈ "a".toList.head?, c.toNat ≠ Utf8.byteOrderMark := by
  intro c hc
  obtain rfl := Option.some.inj hc
  decide

theorem sameDocument_letter :
    SameDocument letter [("metadata", .text "\x7b\x7d")]
      [("text", .text "a"), ("filename", .text "a.txt"), ("metadata", .record [])] "a" where
  uploadable := by decide
  bytes := bytes_letter
  nonempty := by decide
  unmarked := unmarked_letter
  text := rfl
  filename := rfl
  chunkSize := rfl
  overlap := rfl
  metadata := .written rfl
  attributes := .missing

/-- Metadata in a text beside a file, and the same in a body; and a file that is no text. -/
theorem documentOf_agrees_letter :
    resourceId (.text someId) = .ok someId ∧
    SameOutcome .common [("metadata", .text "\x7b\x7d")] someId "a.txt" (.ofString "a")
      (documentOf .common (.text someId) (.record [("metadata", .text "\x7b\x7d")]) (some letter))
      (documentOf .common (.text someId) (.record
        [("text", .text "a"), ("filename", .text "a.txt"), ("metadata", .record [])]) none) ∧
    Decoded someId stray ⟨⟨none, none⟩, none, none⟩
      (documentOf .common (.text someId) .absent (some stray)) := by
  have hid : resourceId (.text someId) = .ok someId := by rfl
  have h := documentOf_agrees .common (.text someId) someId hid
  exact ⟨hid, h.1 letter _ _ _ "a" (.record _) sameDocument_letter,
    h.2 stray _ _ _ .absent (by decide) (by rfl)⟩

/-- Where a size has no text, an upload and a body raise the same fault, which lists no issues. -/
theorem documentOf_textless :
    SameDocument letter [("chunkSize", .record [("toString", .number 1)])]
      [("text", .text "a"), ("filename", .text "a.txt"),
        ("chunkSize", .record [("toString", .number 1)])] "a" ∧
    documentOf .common (.text someId) (.record [("chunkSize", .record [("toString", .number 1)])])
      (some letter) = .error .textless ∧
    documentOf .common (.text someId) (.record [("text", .text "a"), ("filename", .text "a.txt"),
      ("chunkSize", .record [("toString", .number 1)])]) none = .error .textless ∧
    ∀ issues, Fault.textless ≠ .validation issues := by
  refine ⟨?_, by rfl, by rfl, ?_⟩
  · exact ⟨by decide, bytes_letter, by decide, unmarked_letter, rfl, rfl, rfl, rfl, .missing, .missing⟩
  · intro issues h
    cases h

end Http
end Retrieval
