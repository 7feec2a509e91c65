import Retrieval.Proofs.Http.Identifiers
import Retrieval.Proofs.Http.Uploads
import Retrieval.Proofs.Schema.Settled
import Retrieval.Proofs.Search.Closure
import Retrieval.Proofs.Text.Utf8

/-!
# The two checks of a search

A search is checked twice: its request when it comes in, and its parameters when it is planned.
`search_checks_agree`: an accepted request is planned if and only if its query shows something, and
what can be planned is a request that is accepted. So of all that can be wrong with the arguments of
a search only a blank query is left once its request was accepted.
-/

namespace Retrieval

/-! ## Blank queries -/

/-- The text has a character that is not white space. -/
def IsVisible (s : String) : Prop := ∃ c ∈ s.toList, isBlankPoint c.toNat = false

namespace Text

/-- The units of a code point are blank when it is; no half of a pair is. -/
theorem all_isBlank_unitsOf {c : Nat} (hc : c < 0x110000) :
    (unitsOf c).all isBlank = isBlankPoint c := by
  rcases unitsOf_cases_of_lt hc with ⟨u, hunits, hu⟩ | ⟨hlarge, u, v, hunits, hl, -, -⟩
  · rw [hunits, List.all_cons, List.all_nil, Bool.and_true, isBlank, hu]
  · have hblank : isBlankPoint c = false := by
      rw [Bool.eq_false_iff]
      simp only [isBlankPoint, ne_eq, Bool.or_eq_true, Bool.and_eq_true, decide_eq_true_eq,
        beq_iff_eq]
      omega
    rw [hunits, List.all_cons, isBlank_of_isLeading hl, Bool.false_and, hblank]

theorem allBlank_ofString (s : String) : (ofString s).allBlank = false ↔ IsVisible s := by
  have hunits : (ofString s).toList = s.toList.flatMap fun c => unitsOf c.toNat := by
    rw [ofString_eq, ofCodePoints_eq, List.flatMap_map]
  have hpoint (c : Char) : (unitsOf c.toNat).all isBlank = isBlankPoint c.toNat := by
    have hscalar := isScalar_toNat c
    rw [IsScalar] at hscalar
    exact all_isBlank_unitsOf (by omega)
  rw [allBlank, ← Array.all_toList, hunits, List.all_flatMap]
  simp only [hpoint, List.all_eq_false, Bool.not_eq_true, IsVisible]

theorem charOf_toNat (c : Char) : charOf c.toNat = c := by
  have hscalar := isScalar_toNat c
  rw [IsScalar] at hscalar
  unfold charOf
  rw [if_pos (by simpa using hscalar)]
  exact Char.ofNat_toNat c

theorem toString_ofString (s : String) : (ofString s).toString = s := by
  rw [toString, codePoints_ofString, List.map_map]
  simp [Function.comp_def, charOf_toNat]

/-- Only the empty text is read as no characters. -/
theorem toString_ne_empty {t : Text} (h : 0 < t.size) : t.toString ≠ "" := by
  intro hempty
  have hlength := congrArg (fun s : String => s.toList.length) hempty
  have hpos := length_codePoints_pos h
  simp only [toString, String.toList_ofList, List.length_map] at hlength
  have hnil : ("" : String).toList.length = 0 := rfl
  omega

end Text

/-! ## Requests and parameters -/

/-- What is asked for when the request is served in a store. -/
def SearchRequest.params (r : SearchRequest) (storeId : String) : Search.Params :=
  ⟨storeId, .ofString r.query, r.maxResults, r.filter, r.scoreThreshold⟩

namespace Search

/-- The request that asks for the same in some store. -/
def Params.request (p : Params) : SearchRequest :=
  ⟨p.query.toString, p.maxResults, p.filter, p.scoreThreshold⟩

theorem Params.request_params (r : SearchRequest) (storeId : String) :
    (r.params storeId).request = r := by
  unfold request SearchRequest.params
  rw [Text.toString_ofString]

theorem limit?_isSome_iff {x : Float} :
    (limit? x).isSome = true ↔ Check.Whole (fun k => 1 ≤ k ∧ k ≤ 100) x := by
  unfold limit? Check.Whole
  cases Number.whole? x with
  | none => simp
  | some k =>
    simp only [Option.isSome_ite, Bool.and_eq_true, decide_eq_true_eq, Option.some.injEq,
      exists_eq_left']
    rfl

theorem thresholdOk_eq {t : Float} : thresholdOk t = true ↔ Number.Between 0 1 t := by
  rw [thresholdOk, Bool.and_eq_true, Number.Between]

/-- Of a sound request only the query can be refused. -/
theorem plan_of_sound {r : SearchRequest} (hr : r.Sound) (storeId : String) :
    (IsVisible r.query → ∃ plan, (r.params storeId).plan = .ok plan) ∧
      (¬ IsVisible r.query → (r.params storeId).plan = .error .blankQuery) := by
  rw [← Text.allBlank_ofString, Bool.not_eq_false]
  unfold Params.plan SearchRequest.params
  dsimp only
  refine ⟨fun hquery => ?_, fun hquery => by rw [if_pos hquery]⟩
  obtain ⟨limit, hlimit⟩ := Option.isSome_iff_exists.mp (limit?_isSome_iff.mpr hr.maxResults)
  rw [if_neg (by simp [hquery]), hlimit]
  cases ht : r.scoreThreshold with
  | none => exact ⟨_, rfl⟩
  | some t =>
    dsimp only
    rw [if_pos (thresholdOk_eq.mpr (hr.scoreThreshold t ht))]
    exact ⟨_, rfl⟩

/-- What can be planned is a sound request, without what is left out of its filter. -/
theorem sound_of_plan {p : Params} {plan : Plan Float} (h : p.plan = .ok plan) :
    (Check.keptSearch p.request).Sound := by
  unfold Params.plan at h
  split at h
  · cases h
  · next hquery =>
    have hsize : 0 < p.query.size := by
      rw [Nat.pos_iff_ne_zero]
      intro hzero
      rw [Array.size_eq_zero_iff] at hzero
      rw [hzero] at hquery
      exact hquery (by decide +kernel)
    split at h
    · cases h
    · next limit hlimit =>
      refine ⟨Text.toString_ne_empty hsize, limit?_isSome_iff.mp ?_, fun entries hentries => ?_,
        fun t ht => ?_⟩
      · exact Option.isSome_iff_exists.mpr ⟨limit, hlimit⟩
      · obtain ⟨given, -, rfl⟩ := Option.map_eq_some_iff.mp hentries
        exact Check.keeps_of_mem_keptEntries
      · have hthreshold : p.scoreThreshold = some t := ht
        rw [hthreshold] at h
        dsimp only at h
        split at h
        · next hok => exact thresholdOk_eq.mp hok
        · cases h

end Search

/-! ## Refused arguments -/

def Fault.isArgument : Fault → Bool
  | .service .invalidArgument _ _ => true
  | _ => false

/-- A table has raised the fault: where the store was looked for, or where the nearest chunks
were. -/
inductive RaisedByTable {δ : Type} (new : History δ) (fault : Fault) : Prop
  | store (id : String) : ⟨.stores (.findById id), .error fault⟩ ∈ new → RaisedByTable new fault
  | chunks (q : NeighborQuery δ) :
      ⟨.chunks (.nearestNeighbors q), .error fault⟩ ∈ new → RaisedByTable new fault

theorem RaisedByTable.mono {δ : Type} {new more : History δ} {fault : Fault}
    (h : RaisedByTable new fault) (hsub : ∀ event ∈ new, event ∈ more) :
    RaisedByTable more fault := by
  cases h with
  | store id hmem => exact .store id (hsub _ hmem)
  | chunks q hmem => exact .chunks q (hsub _ hmem)

/-- Embedding refuses no arguments. -/
theorem Embedding.Raised.isArgument_eq {δ : Type} {now : History δ} {fault : Fault}
    (h : Raised now fault) : fault.isArgument = false := by
  cases h with
  | reported => rfl
  | cancelled => rfl
  | textless batch model given _ hmem hwords =>
    cases given with
    | value v =>
      unfold Fault.words at hwords
      dsimp only at hwords
      cases hv : v.display? .common with
      | none =>
        rw [hv] at hwords
        cases hwords
        rfl
      | some words =>
        rw [hv] at hwords
        cases hwords
    | _ => cases hwords

/-- Once a search is planned, only a table can refuse arguments. -/
theorem Search.Plan.Course.raisedByTable {p : Plan Float} {client : Embedding.Client}
    {w : Surroundings Float} {past new : History Float}
    {r : Except Fault (List (SearchResult Float))} {fault : Fault}
    (h : p.Course client w past r new) (hr : r = .error fault) (harg : fault.isArgument = true) :
    RaisedByTable new fault := by
  cases h with
  | unembedded raised asked hembeds =>
    obtain rfl := Except.error.inj hr
    obtain ⟨r, asked', hplay, -, hraised⟩ :=
      Embedding.play_embedOne client p.query none w (past ++ [⟨.now, w .now past⟩])
    obtain ⟨rfl, -⟩ := Prod.mk.inj (hembeds.1.symm.trans hplay)
    rcases hraised raised rfl with hraised | ⟨-, rfl⟩
    · rw [hraised.isArgument_eq] at harg
      cases harg
    · cases harg
  | unanswered vector asked raised hembeds =>
    obtain rfl := Except.error.inj hr
    unfold unavailable at harg ⊢
    split
    · exact .chunks (p.lookup vector) (by simp [Plan.answered])
    · next hservice =>
      rw [if_neg hservice] at harg
      cases harg
  | givenUp vector asked candidates reason =>
    obtain rfl := Except.error.inj hr
    cases harg
  | checked vector asked candidates more =>
    obtain ⟨c, -, -, words, rfl⟩ := p.exists_of_results_error hr
    cases harg

/-- Where a search refuses arguments, its plan is refused, or a table has done so. -/
theorem Service.play_search_argument (client : Embedding.Client) (p : Search.Params)
    (w : Surroundings Float) (past : History Float) :
    ∃ r new, Task.play w (search client p) past = (r, past ++ new) ∧
      ∀ fault, r = .error fault → fault.isArgument = true →
        (∃ refusal, p.plan = .error refusal ∧ fault = .invalidArgument refusal.message) ∨
          RaisedByTable new fault := by
  rw [search, Task.play_bind, Ingestion.play_requireStore]
  cases w (.stores (.findById p.storeId)) past with
  | error raised =>
    refine ⟨_, _, rfl, fun fault hr _ => .inr (.store p.storeId ?_)⟩
    obtain rfl := Except.error.inj hr
    exact List.mem_singleton_self _
  | ok found =>
    cases found with
    | none =>
      refine ⟨_, _, rfl, fun fault hr harg => ?_⟩
      obtain rfl := Except.error.inj hr
      cases harg
    | some store =>
      simp only [Ingestion.looked, Search.serve]
      cases hplan : p.plan with
      | error refusal =>
        refine ⟨_, _, rfl, fun fault hr _ => .inl ⟨refusal, rfl, ?_⟩⟩
        exact (Except.error.inj hr).symm
      | ok plan =>
        obtain ⟨r, new, hplay, hcourse⟩ := plan.play_serve_course client w
          (past ++ [⟨.stores (.findById p.storeId), .ok (some store)⟩])
        refine ⟨r, _, hplay.trans (by rw [List.append_assoc]), fun fault hr harg => .inr ?_⟩
        exact (hcourse.raisedByTable hr harg).mono fun _ hmem => List.mem_append_right _ hmem

namespace Http

def blankRefusal : Fault := .invalidArgument "query cannot be empty"

/-- What is not accepted is no bad argument but a request that is not in order. -/
theorem isArgument_of_accepted {α : Type} {o : Outcome α} {fault : Fault}
    (h : accepted o = .error fault) : fault.isArgument = false := by
  unfold accepted at h
  cases ho : o.toExcept with
  | ok a =>
    rw [ho] at h
    cases h
  | error rejection =>
    rw [ho] at h
    obtain rfl := Except.error.inj h
    cases rejection <;> rfl

variable {app : App} {id : String} {body : Value} {r : SearchRequest} {w : Surroundings Float}
  {past : History Float}

/-- An accepted search with a well-formed identifier is served by the service. -/
theorem play_serveSearch (haccepted : (Check.searchRequest [] body).toExcept = .ok r)
    {storeId : String} (hid : resourceId (.text id) = .ok storeId) :
    Task.play w (serveSearch app id body) past =
      Task.play w (Service.search app.setup.client (r.params storeId) >>= fun results =>
        pure (.json 200 (listing (results.map View.ofResult) [("searchQuery", .text r.query)])))
        past := by
  have hread : accepted (Check.searchRequest [] body) = .ok r := mapError_eq_ok_iff.mpr haccepted
  rw [serveSearch, hid, Task.play_bind_ok w past (Task.play_lift w past _), hread,
    Task.play_bind_ok w past (Task.play_lift w past _)]
  rfl

/-- Where an accepted search refuses arguments, its query is blank, or a table has done so. -/
theorem play_serveSearch_argument (haccepted : (Check.searchRequest [] body).toExcept = .ok r) :
    ∃ result new, Task.play w (serveSearch app id body) past = (result, past ++ new) ∧
      ∀ fault, result = .error fault → fault.isArgument = true →
        fault = blankRefusal ∧ ¬ IsVisible r.query ∨ RaisedByTable new fault := by
  have hsound := Check.settles_searchRequest.ensures _ _ _ haccepted
  cases hid : resourceId (.text id) with
  | error malformed =>
    refine ⟨.error malformed, [], ?_, fun fault hresult harg => ?_⟩
    · rw [serveSearch, hid, Task.play_bind_error w past (Task.play_lift w past _), List.append_nil]
    · obtain rfl := Except.error.inj hresult
      rw [isArgument_of_accepted hid] at harg
      cases harg
  | ok storeId =>
    obtain ⟨result, new, hplay, hfaults⟩ :=
      Service.play_search_argument app.setup.client (r.params storeId) w past
    rw [play_serveSearch haccepted hid]
    cases result with
    | ok results =>
      rw [Task.play_bind_ok w past hplay]
      refine ⟨_, new, rfl, fun fault hresult => ?_⟩
      cases hresult
    | error raised =>
      rw [Task.play_bind_error w past hplay]
      refine ⟨_, new, rfl, fun fault hresult harg => ?_⟩
      refine (hfaults fault (congrArg Except.error (Except.error.inj hresult)) harg).imp_left ?_
      rintro ⟨refusal, hplan, rfl⟩
      obtain ⟨hvisible, hblank⟩ := Search.plan_of_sound hsound storeId
      by_cases hquery : IsVisible r.query
      · obtain ⟨plan, hok⟩ := hvisible hquery
        rw [hok] at hplan
        cases hplan
      · rw [hblank hquery] at hplan
        cases hplan
        exact ⟨rfl, hquery⟩

/-- A blank query in a store that is there is refused, and nothing more is asked. -/
theorem play_serveSearch_blank (haccepted : (Check.searchRequest [] body).toExcept = .ok r)
    {storeId : String} (hid : resourceId (.text id) = .ok storeId) {store : VectorStore}
    (hfound : w (.stores (.findById storeId)) past = .ok (some store))
    (hblank : ¬ IsVisible r.query) :
    Task.play w (serveSearch app id body) past =
      (.error blankRefusal, past ++ [⟨.stores (.findById storeId), .ok (some store)⟩]) := by
  have hsound := Check.settles_searchRequest.ensures _ _ _ haccepted
  have hplan := (Search.plan_of_sound hsound storeId).2 hblank
  have hrequire : Task.play w (Ingestion.requireStore (r.params storeId).storeId) past =
      (.ok (), past ++ [⟨.stores (.findById storeId), .ok (some store)⟩]) := by
    have hlooked := Ingestion.play_requireStore w past storeId
    rwa [hfound] at hlooked
  have hsearch : Task.play w (Service.search app.setup.client (r.params storeId)) past =
      (.error blankRefusal, past ++ [⟨.stores (.findById storeId), .ok (some store)⟩]) := by
    rw [Service.search, Task.play_bind_ok w past hrequire, Search.serve, hplan]
    rfl
  rw [play_serveSearch haccepted hid, Task.play_bind_error w past hsearch]

/-- **The two checks of a search agree.** An accepted request is planned if and only if its query
shows something, and otherwise refused as blank; all that can be planned is accepted as it is, with
every entry of its filter but those under the one name that no checked record keeps, and these are
the requests again. So where an accepted search refuses arguments, the query is blank, unless a
table has raised that very fault; and where the store is there, a blank query is refused so. -/
theorem search_checks_agree :
    (∀ path v r, (Check.searchRequest path v).toExcept = .ok r → ∀ storeId,
      ((∃ plan, (r.params storeId).plan = .ok plan) ↔ IsVisible r.query) ∧
      ((∀ plan, (r.params storeId).plan ≠ .ok plan) →
        (r.params storeId).plan = .error .blankQuery)) ∧
    (∀ (p : Search.Params) plan, p.plan = .ok plan → ∀ path,
      (Check.searchRequest path p.request.toValue).toExcept = .ok (Check.keptSearch p.request)) ∧
    (∀ (r : SearchRequest) storeId, (r.params storeId).request = r) ∧
    (∀ app located id body r, (Check.searchRequest [] body).toExcept = .ok r → ∀ w past,
      ∃ result new,
        Task.play w (serve app located body (.search id)) past = (result, past ++ new) ∧
        ∀ message cause, result = .error (.service .invalidArgument message cause) →
          message = "query cannot be empty" ∧ cause = none ∧ ¬ IsVisible r.query ∨
            RaisedByTable new (.service .invalidArgument message cause)) ∧
    (∀ app located id body r, (Check.searchRequest [] body).toExcept = .ok r →
      isIdentifier id = true → ¬ IsVisible r.query → ∀ w past store,
      w (.stores (.findById id)) past = .ok (some store) →
        Task.play w (serve app located body (.search id)) past =
          (.error (.service .invalidArgument "query cannot be empty" none),
            past ++ [⟨.stores (.findById id), .ok (some store)⟩])) := by
  refine ⟨fun path v r haccepted storeId => ?_, fun p plan hplan path => ?_,
    Search.Params.request_params, fun app located id body r haccepted w past => ?_,
    fun app located id body r haccepted hid hblank w past store hfound => ?_⟩
  · have hsound := Check.settles_searchRequest.ensures _ _ _ haccepted
    obtain ⟨hvisible, hrefused⟩ := Search.plan_of_sound hsound storeId
    refine ⟨⟨fun hplanned => ?_, hvisible⟩, fun hnone => hrefused fun hquery => ?_⟩
    · obtain ⟨plan, hplan⟩ := hplanned
      by_contra hquery
      rw [hrefused hquery] at hplan
      cases hplan
    · obtain ⟨plan, hplan⟩ := hvisible hquery
      exact hnone plan hplan
  · exact Check.searchRequest_written (Search.sound_of_plan hplan) path
  · obtain ⟨result, new, hplay, hfaults⟩ := play_serveSearch_argument haccepted
    refine ⟨result, new, hplay, fun message cause hresult => ?_⟩
    refine (hfaults _ hresult rfl).imp_left ?_
    rintro ⟨hfault, hquery⟩
    cases hfault
    exact ⟨rfl, rfl, hquery⟩
  · exact play_serveSearch_blank haccepted (by rw [resourceId_text, if_pos hid]) hfound hblank

def spaceRequest : SearchRequest := ⟨" ", 10, none, none⟩

def someStore : VectorStore := ⟨someId, "docs", .null, .zero, 0, 0⟩

def stockedWorld : Surroundings Float
  | .stores (.findById _), _ => .ok (some someStore)
  | e, h => emptyWorld e h

theorem search_checks_agree_space :
    (Check.searchRequest [] spaceRequest.toValue).toExcept = .ok spaceRequest ∧
    ¬ IsVisible spaceRequest.query ∧
    (spaceRequest.params someId).plan = .error .blankQuery ∧
    Task.play stockedWorld
        (serve openApp ⟨strayDocument, "/", ""⟩ spaceRequest.toValue (.search someId)) [] =
      (.error (.service .invalidArgument "query cannot be empty" none),
        [⟨.stores (.findById someId), .ok (some someStore)⟩]) := by
  have hsound : spaceRequest.Sound :=
    ⟨by decide, ⟨10, by decide +kernel, by decide⟩, nofun, nofun⟩
  have haccepted := Check.settles_searchRequest.again [] spaceRequest hsound
  have hblank : ¬ IsVisible spaceRequest.query := by
    rintro ⟨c, hc, hvisible⟩
    have hspace : c = ' ' := List.mem_singleton.mp (show c ∈ [' '] from hc)
    rw [hspace] at hvisible
    exact absurd hvisible (by decide)
  obtain ⟨hagree, -, -, -, hrefused⟩ := search_checks_agree
  obtain ⟨hvisible, hnone⟩ := hagree [] _ _ haccepted someId
  refine ⟨haccepted, hblank, hnone fun plan hplan => hblank (hvisible.mp ⟨plan, hplan⟩), ?_⟩
  exact hrefused openApp _ someId _ _ haccepted (by decide +kernel) hblank stockedWorld [] _ rfl

end Http
end Retrieval
