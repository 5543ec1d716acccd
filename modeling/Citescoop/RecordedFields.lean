/-
The ids and times of pages and revisions: recorded as the dump gives them, and an
error of the dump where it gives none.
-/
import Citescoop.FieldContents
import Citescoop.RevisionLookUps
import Citescoop.RevisionScope

namespace Citescoop

open ExceptFold DumpField

/-- The revision was put down where a revision element ends, with the ids and the
time that it gives.  The history of the dump has the latest event first. -/
structure Revision.RecordedIn (lib : Library) (history : List Event) (revision : Revision)
    (before : List Event) : Prop where
  ends : (.endElement Tag.revision.name :: before) <:+ history
  revisionId : ∀ revisionId : UInt64,
    revision.revisionId? = some revisionId ↔ Latest lib .revisionId before revisionId
  parentId : ∀ parentId : UInt64,
    revision.parentId? = some parentId ↔ Latest lib .parentId before parentId
  timestamp : ∀ timestamp : Timestamp,
    revision.timestamp? = some timestamp ↔ Latest lib .timestamp before timestamp

/-- The page was put down where a page element ends, with the id that it gives. -/
structure Page.RecordedIn (lib : Library) (history : List Event) (page : Page)
    (before : List Event) : Prop where
  ends : (.endElement Tag.page.name :: before) <:+ history
  pageId : ∀ pageId : UInt64,
    page.pageId? = some pageId ↔ Latest lib .pageId before pageId

theorem PageState.Valid.makePageCitationList_recorded {page result : PageState}
    {sort : RevisionSort} {orders : ℕ → MapOrder} (hvalid : page.Valid)
    (hmake : page.makePageCitationList sort orders = .ok result) :
    result.currentPage.pageId? = page.currentPage.pageId? ∧
      ∀ (revisionId : UInt64) (revision : Revision),
        result.revisionsToStore[revisionId]? = some revision →
          page.currentPageRevisions[revisionId]? = some revision := by
  obtain ⟨loop, hfold, rfl⟩ := makePageCitationList_ok sort orders hmake
  rw [hvalid.revisionsToStore] at hfold
  have hcounted := (CitationLoop.counted_start _).revisions hfold
  exact ⟨rfl, fun revisionId revision hstored => hcounted.stored_known hstored⟩

namespace DumpParser

variable {lib : Library} {self next : DumpParser InMemory} {before : List Event}

/-- All that the parser has put down is as the dump gives it. -/
structure Recorded (lib : Library) (history : List Event) (parser : DumpParser InMemory) :
    Prop where
  entries : ∀ entry ∈ parser.citationsByRevision, ∃ before,
    entry.revision.RecordedIn lib history before
  known : ∀ (revisionId : UInt64) (revision : Revision),
    parser.currentPageRevisions[revisionId]? = some revision →
      ∃ before, revision.RecordedIn lib history before
  pages : ∀ page ∈ parser.stored.pages, ∃ before, page.RecordedIn lib history before
  revisions : ∀ (revisionId : UInt64) (revision : Revision),
    parser.stored.revisions[revisionId]? = some revision →
      ∃ before, revision.RecordedIn lib history before

theorem Recorded.cons (hrecorded : self.Recorded lib before) (event : Event) :
    self.Recorded lib (event :: before) := by
  have hrevision : ∀ revision : Revision, (∃ ended, revision.RecordedIn lib before ended) →
      ∃ ended, revision.RecordedIn lib (event :: before) ended := by
    rintro revision ⟨ended, hrevision⟩
    exact ⟨ended, { hrevision with ends := hrevision.ends.trans (List.suffix_cons _ _) }⟩
  constructor
  · exact fun entry hentry => hrevision _ (hrecorded.entries entry hentry)
  · exact fun revisionId revision hknown =>
      hrevision _ (hrecorded.known revisionId revision hknown)
  · intro page hpage
    obtain ⟨ended, hpage⟩ := hrecorded.pages page hpage
    exact ⟨ended, { hpage with ends := hpage.ends.trans (List.suffix_cons _ _) }⟩
  · exact fun revisionId revision hstored =>
      hrevision _ (hrecorded.revisions revisionId revision hstored)

theorem Recorded.callback {call : Callback} (hrecorded : self.Recorded lib before)
    (hvalid : self.Valid) (hlatest : self.HasLatest lib before)
    (hcall : self.callback lib InMemory.store call = .ok next) :
    next.Recorded lib (call.event :: before) := by
  have hbefore := hrecorded.cons call.event
  rcases callback_lists hcall with
    ⟨hevent, hentries, hknown, page, hmake, hstored⟩ |
    ⟨-, hevent, hentries, hknown, hstored⟩ | ⟨-, hentries, hknown, hstored⟩
  · obtain ⟨hpageId, hrevisions⟩ := hvalid.page.makePageCitationList_recorded hmake
    refine ⟨by simp [hentries], by simp [hknown], ?_, ?_⟩
    · intro stored hmem
      rw [hstored, InMemory.store, List.mem_append, List.mem_singleton] at hmem
      rcases hmem with hold | rfl
      · exact hbefore.pages stored hold
      · exact ⟨before, hevent ▸ List.suffix_rfl, fun pageId => hpageId ▸ hlatest .pageId pageId⟩
    · intro revisionId revision hrevision
      rw [hstored, InMemory.store, MapEntries.getElem?_insertAll_toList,
        Option.or_eq_some_iff] at hrevision
      rcases hrevision with hold | ⟨-, hnew⟩
      · exact hbefore.revisions revisionId revision hold
      · exact hbefore.known revisionId revision (hrevisions revisionId revision hnew)
  · have hcurrent : ∃ ended,
        self.currentRevision.RecordedIn lib (call.event :: before) ended :=
      ⟨before, hevent ▸ List.suffix_rfl, hlatest .revisionId, hlatest .parentId,
        hlatest .timestamp⟩
    refine ⟨?_, ?_, hstored ▸ hbefore.pages, hstored ▸ hbefore.revisions⟩
    · intro entry hentry
      rw [hentries, List.mem_append, List.mem_singleton] at hentry
      rcases hentry with hold | rfl
      · exact hbefore.entries entry hold
      · exact hcurrent
    · intro revisionId revision hrevision
      rw [hknown, MapEntries.getElem?_insertIfNew, Option.or_eq_some_iff] at hrevision
      rcases hrevision with hold | ⟨-, hnew⟩
      · exact hbefore.known revisionId revision hold
      · rw [Option.ite_none_right_eq_some, Option.some.injEq] at hnew
        exact hnew.2 ▸ hcurrent
  · exact ⟨hentries ▸ hbefore.entries, hknown ▸ hbefore.known, hstored ▸ hbefore.pages,
      hstored ▸ hbefore.revisions⟩

/-- The events of some callbacks, the latest first. -/
def history (calls : List Callback) : List Event :=
  (calls.map Callback.event).reverse

theorem history_append_singleton (calls : List Callback) (call : Callback) :
    history (calls ++ [call]) = call.event :: history calls := by
  simp [history]

/-- Every field whose end the parse gets to has a text that stands for something. -/
def FieldsValid (lib : Library) (parser : DumpParser InMemory) (calls : List Callback) : Prop :=
  ∀ before call after, calls = before ++ call :: after →
    (parseOutcome lib parser before).exception? = none →
      ∀ field : DumpField, field.Ends (history before) call.event →
        field.HasValue lib (history before)

/-- A field without a value ends the parse with a dump error; and of a parse that
does not fail, all that is put down and all that is returned is as the dump gives
it. -/
structure ReportsInvalid (lib : Library) (parser : DumpParser InMemory) (calls : List Callback) :
    Prop where
  reports : ∀ before call after, calls = before ++ call :: after →
    (parseOutcome lib parser before).exception? = none →
      ∀ field : DumpField, field.Ends (history before) call.event →
        ¬ field.HasValue lib (history before) →
          ∃ message, parseXML lib parser calls = .error (.dumpParse message)
  ordered : (parseOutcome lib parser calls).exception? = none →
    ∀ entry ∈ (parseOutcome lib parser calls).state.citationsByRevision,
      ∃ before, entry.revision.RecordedIn lib (history calls) before
  recorded : ∀ pages revisions, parseXML lib parser calls = .ok (pages, revisions) →
    (∀ page ∈ pages, ∃ before, page.RecordedIn lib (history calls) before) ∧
      ∀ (revisionId : UInt64) (revision : Revision),
        revisions[revisionId]? = some revision →
          ∃ before, revision.RecordedIn lib (history calls) before

variable {calls : List Callback}

theorem parseXML_eq_error_iff {exception : DumpException} :
    parseXML lib self calls = .error exception ↔
      (parseOutcome lib self calls).exception? = some exception := by
  unfold parseXML
  cases (parseOutcome lib self calls).exception? <;> simp

theorem parseXML_eq_ok_iff {pages : List Page} {revisions : StdMap UInt64 Revision} :
    parseXML lib self calls = .ok (pages, revisions) ↔
      (parseOutcome lib self calls).exception? = none ∧
        (parseOutcome lib self calls).state.stored.pages = pages ∧
        (parseOutcome lib self calls).state.stored.revisions = revisions := by
  unfold parseXML
  cases (parseOutcome lib self calls).exception? <;> simp

/-- Where all fields have values, they are recorded as they stand in the dump. -/
theorem FieldsValid.recorded (hfields : FieldsValid lib self calls)
    (hnone : (parseOutcome lib self calls).exception? = none) :
    (parseOutcome lib self calls).state.Recorded lib (history calls) := by
  have hfold := EventLoop.run_exception?_eq_none_iff.mp ⟨hnone, rfl⟩
  have hall := foldlM_prefix_invariant
    (fun before (state : DumpParser InMemory) => state.Valid ∧ state.Tracks (history before) ∧
      state.HasLatest lib (history before) ∧ state.Recorded lib (history before))
    (fun before call after state next hcalls hbefore hstate hcall => by
      obtain ⟨hvalid, htracks, hlatest, hrecorded⟩ := hstate
      rw [history_append_singleton]
      exact ⟨hvalid.callback hcall, htracks.callback hcall,
        hlatest.callback htracks
          (hfields before call after hcalls (EventLoop.run_of_ok hbefore).1) hcall,
        hrecorded.callback hvalid hlatest hcall⟩)
    ⟨initializeParser_valid _, initializeParser_tracks _, initializeParser_hasLatest _ _,
      ⟨by simp [initializeParser], by simp [initializeParser], by simp [initializeParser],
        by simp [initializeParser]⟩⟩ hfold
  exact hall.2.2.2

theorem onEndElement_tag {σ : Type} (store : Store σ) (orders : ℕ → MapOrder)
    (field : DumpField) (parser : DumpParser σ) :
    parser.onEndElement lib store orders field.tag.name =
      (parser.onEndField lib field.tag.name).map
        fun next => { next with shouldStore := false } := by
  cases field <;> simp [onEndElement, tag]

/-- The end of a field is not a dump error. -/
theorem parseXML_ne_dumpParse {call : Callback} {field : DumpField}
    (hnone : (parseOutcome lib self calls).exception? = none)
    (hends : field.Ends (history calls) call.event) (message : Text) :
    parseXML lib self (calls ++ [call]) ≠ .error (.dumpParse message) := by
  intro hparse
  rw [parseXML_eq_error_iff] at hparse
  have hfold := EventLoop.run_exception?_eq_none_iff.mp ⟨hnone, rfl⟩
  obtain ⟨hevent, -⟩ := hends
  cases hcall : (parseOutcome lib self calls).state.callback lib InMemory.store call with
  | ok next =>
      have hreturned := EventLoop.run_of_ok ((foldlM_append_of_ok hfold [call]).trans
        ((foldlM_singleton call _).trans hcall))
      exact absurd (hreturned.1.symm.trans hparse) nofun
  | error exception =>
      have hthrown := EventLoop.run_exception?_eq_some_iff.mpr
        ⟨calls, call, [], _, rfl, hfold, hcall⟩
      obtain rfl : exception = .dumpParse message :=
        Option.some.inj (hthrown.symm.trans hparse)
      simp only [callback, hevent, onEndElement_tag] at hcall
      rcases onEndField_error (map_error hcall) with ⟨cause, hcause⟩ | ⟨cause, hcause⟩
      · cases hcause
      · cases hcause

theorem FieldsValid.of_start {start : List Callback} (hfields : FieldsValid lib self calls)
    (hstart : start <+: calls) : FieldsValid lib self start := by
  obtain ⟨rest, rfl⟩ := hstart
  rintro before call after rfl
  exact hfields before call (after ++ rest) (by simp)

/-- Invalid fields are reported, and all others are recorded as they stand in the
dump, throughout a parse exactly when it comes to no field that is invalid. -/
theorem reportsInvalid_iff (lib : Library) (self : DumpParser InMemory)
    (calls : List Callback) :
    (∀ start, start <+: calls → ReportsInvalid lib self start) ↔
      FieldsValid lib self calls := by
  constructor
  · rintro hreports before call after rfl hnone field hends
    by_contra hvalue
    obtain ⟨message, hparse⟩ := (hreports (before ++ [call]) ⟨after, by simp⟩).reports
      before call [] rfl hnone field hends hvalue
    exact parseXML_ne_dumpParse hnone hends message hparse
  · intro hfields start hstart
    have hfields' := hfields.of_start hstart
    refine ⟨?_, fun hnone => (hfields'.recorded hnone).entries, ?_⟩
    · intro before call after hcalls hnone field hends hvalue
      exact absurd (hfields' before call after hcalls hnone field hends) hvalue
    · intro pages revisions hparse
      obtain ⟨hnone, rfl, rfl⟩ := parseXML_eq_ok_iff.mp hparse
      exact ⟨(hfields'.recorded hnone).pages, (hfields'.recorded hnone).revisions⟩

/-- A page whose id has letters behind the digits. -/
def letteredPage : List Callback :=
  callbacks ([.startElement Tag.page.name] ++ fieldEvents .id "12abc" ++
    [.endElement Tag.page.name]) fun _ _ => .ascending

/-- The digits in front are taken for the id, and the parse does not fail. -/
theorem not_reportsInvalid_letteredPage :
    ¬ ∀ (lib : Library) (self : DumpParser InMemory) (calls : List Callback),
      ReportsInvalid lib self calls := by
  intro hreports
  have hinvalid : ¬ HasValue leakLibrary .pageId
      [.characters "12abc".toList, .startElement Tag.id.name, .startElement Tag.page.name] := by
    rintro ⟨text, number, htext, hmeans⟩
    rw [htext.unique (.characters (.start _) _)] at hmeans
    exact absurd (Numeral.digits hmeans 'a' (by decide)) (by decide)
  obtain ⟨message, hparse⟩ := (hreports leakLibrary { stored := {} } letteredPage).reports
    (letteredPage.take 3) ⟨.endElement Tag.id.name, fun _ => .ascending⟩
    [⟨.endElement Tag.page.name, fun _ => .ascending⟩] rfl rfl .pageId
    ⟨rfl, by decide, by decide, by decide⟩ hinvalid
  cases hparse

end DumpParser

end Citescoop
