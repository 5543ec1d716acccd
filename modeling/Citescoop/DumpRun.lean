/-
What the callbacks of the dump parser keep, and what a whole dump leaves in the
store: no revision that no citation names, and none missing.
-/
import Citescoop.DumpParser
import Citescoop.RevisionStore

namespace Citescoop

open ExceptFold

namespace DumpParser

variable {σ : Type} {lib : Library} {store : Store σ}

/-- The ways in which the end of a field can change the parser. -/
inductive FieldWritten (self : DumpParser σ) : DumpParser σ → Prop
  | page (currentPage : Page)
      (hcitations : currentPage.citations = self.currentPage.citations) :
      FieldWritten self { self with currentPage := currentPage }
  | revision (hrevision : self.inRevision = true) (currentRevision : Revision) :
      FieldWritten self { self with currentRevision := currentRevision }
  | citations (hrevision : self.inRevision = true)
      (currentCitations : RevisionCitations) :
      FieldWritten self { self with currentCitations := currentCitations }
  | nothing : FieldWritten self self

variable {self next : DumpParser σ}

theorem onCharacters_eq (characters : Text) (self : DumpParser σ) :
    self.onCharacters characters = { self with
      textBuf :=
        if self.shouldStore then self.textBuf ++ characters else self.textBuf } := by
  unfold onCharacters
  split_ifs <;> rfl

theorem onEndField_written {name : Text}
    (hend : self.onEndField lib name = .ok next) : FieldWritten self next := by
  unfold onEndField at hend
  split_ifs at hend with _ _ hid hparent huser htext htime
  · cases hend
    exact .page _ rfl
  · obtain ⟨pageId, -, rfl⟩ := map_ok hend
    exact .page _ rfl
  · obtain ⟨revisionId, -, rfl⟩ := map_ok hend
    exact .revision (by simp_all) _
  · obtain ⟨parentId, -, rfl⟩ := map_ok hend
    exact .revision (by simp_all) _
  · cases hend
    exact .revision (by simp_all) _
  · obtain ⟨citations, -, rfl⟩ := map_ok hend
    exact .citations (by simp_all) _
  · cases hend
    exact .revision (by simp_all) _
  · cases hend
    exact .nothing

/-- The ways in which the end of an element can change the parser. -/
inductive ElementEnded (lib : Library) (store : Store σ) (orders : ℕ → MapOrder)
    (self : DumpParser σ) : Text → DumpParser σ → Prop
  | page {page : PageState}
      (hmake : self.toPageState.makePageCitationList lib.sort orders = .ok page) :
      ElementEnded lib store orders self Tag.page.name
        { self with
          toPageState := {}
          inPage := false
          shouldStore := false
          stored := store page.revisionsToStore page.currentPage self.stored }
  | revision : ElementEnded lib store orders self Tag.revision.name
      { self.onEndRevision with shouldStore := false }
  | contributor : ElementEnded lib store orders self Tag.contributor.name
      { self with inContributor := false, shouldStore := false }
  | field {name : Text} {written : DumpParser σ} (hpage : name ≠ Tag.page.name)
      (hrevision : name ≠ Tag.revision.name)
      (hcontributor : name ≠ Tag.contributor.name)
      (hfield : self.onEndField lib name = .ok written) :
      ElementEnded lib store orders self name { written with shouldStore := false }

theorem onEndElement_ended {orders : ℕ → MapOrder} {name : Text}
    (hend : self.onEndElement lib store orders name = .ok next) :
    ElementEnded lib store orders self name next := by
  unfold onEndElement at hend
  split_ifs at hend with hpage hrevision hcontributor
  · subst hpage
    obtain ⟨ended, hended, rfl⟩ := map_ok hend
    obtain ⟨page, hmake, rfl⟩ := map_ok hended
    exact .page hmake
  · subst hrevision
    cases hend
    exact .revision
  · subst hcontributor
    cases hend
    exact .contributor
  · obtain ⟨written, hwritten, rfl⟩ := map_ok hend
    exact .field hpage hrevision hcontributor hwritten

/-- The ways in which a callback that returns can change the parser. -/
inductive Called (lib : Library) (store : Store σ) (self : DumpParser σ) :
    Callback → DumpParser σ → Prop
  | startElement (name : Text) (orders : ℕ → MapOrder) :
      Called lib store self ⟨.startElement name, orders⟩ (self.onStartElement name)
  | endElement {name : Text} {orders : ℕ → MapOrder} {ended : DumpParser σ}
      (hended : ElementEnded lib store orders self name ended) :
      Called lib store self ⟨.endElement name, orders⟩ ended
  | characters (characters : Text) (orders : ℕ → MapOrder) :
      Called lib store self ⟨.characters characters, orders⟩
        (self.onCharacters characters)

theorem callback_called {call : Callback}
    (hcall : self.callback lib store call = .ok next) : Called lib store self call next := by
  obtain ⟨event, orders⟩ := call
  unfold DumpParser.callback at hcall
  cases event with
  | startElement name =>
      cases hcall
      exact .startElement name orders
  | endElement name => exact .endElement (onEndElement_ended hcall)
  | characters characters =>
      cases hcall
      exact .characters characters orders
  | warning text => cases hcall
  | error text => cases hcall
  | fatalError text => cases hcall

/-- What holds between callbacks, from the start of a parse on. -/
structure Valid (dump : DumpParser σ) : Prop where
  page : dump.toPageState.Valid
  idle : dump.inRevision = false → dump.currentRevision = {}

theorem pageState_valid_start : PageState.Valid {} where
  citations := rfl
  revisionsToStore := rfl
  known := by simp
  revisionId := by simp

theorem initializeParser_valid (self : DumpParser σ) : self.initializeParser.Valid where
  page := pageState_valid_start
  idle _ := rfl

theorem Valid.onEndRevision (hvalid : self.Valid) : self.onEndRevision.Valid where
  page := {
    citations := hvalid.page.citations
    revisionsToStore := hvalid.page.revisionsToStore
    known := by
      intro revision hrevision
      rw [DumpParser.onEndRevision, Std.ExtTreeMap.mem_insertIfNew]
      rcases List.mem_append.mp hrevision with hold | hnew
      · exact Or.inr (hvalid.page.known revision hold)
      · rw [List.mem_singleton] at hnew
        subst hnew
        exact Or.inl Std.ReflCmp.compare_self
    revisionId := by
      intro revisionId revision hrevision
      rw [DumpParser.onEndRevision, MapEntries.getElem?_insertIfNew,
        Option.or_eq_some_iff] at hrevision
      rcases hrevision with hold | ⟨-, hnew⟩
      · exact hvalid.page.revisionId revisionId revision hold
      · rw [Option.ite_none_right_eq_some, Option.some.injEq] at hnew
        exact hnew.2 ▸ hnew.1 }
  idle _ := rfl

theorem Valid.fieldWritten (hvalid : self.Valid) (hwritten : FieldWritten self next) :
    next.Valid := by
  cases hwritten with
  | page currentPage hcitations =>
      exact ⟨⟨hcitations.trans hvalid.page.citations, hvalid.page.revisionsToStore,
        hvalid.page.known, hvalid.page.revisionId⟩, hvalid.idle⟩
  | revision hrevision currentRevision =>
      refine ⟨hvalid.page, fun hidle => ?_⟩
      exact absurd (hrevision.symm.trans hidle) (by decide)
  | citations hrevision currentCitations => exact ⟨hvalid.page, hvalid.idle⟩
  | nothing => exact hvalid

theorem Valid.onStartElement (hvalid : self.Valid) (name : Text) :
    (self.onStartElement name).Valid := by
  unfold DumpParser.onStartElement
  split_ifs
  · exact ⟨hvalid.page, hvalid.idle⟩
  · exact ⟨hvalid.page, fun hidle => absurd hidle (by simp)⟩
  · exact ⟨hvalid.page, hvalid.idle⟩
  · exact ⟨hvalid.page, hvalid.idle⟩
  · exact ⟨hvalid.page, hvalid.idle⟩

theorem Valid.callback (hvalid : self.Valid) {call : Callback}
    (hcall : self.callback lib store call = .ok next) : next.Valid := by
  cases callback_called hcall with
  | startElement name => exact hvalid.onStartElement name
  | endElement hended =>
      cases hended with
      | page hmake => exact ⟨pageState_valid_start, hvalid.idle⟩
      | revision =>
          exact ⟨hvalid.onEndRevision.page, hvalid.onEndRevision.idle⟩
      | contributor => exact ⟨hvalid.page, hvalid.idle⟩
      | field hpage hrevision hcontributor hfield =>
          have hwritten := hvalid.fieldWritten (onEndField_written hfield)
          exact ⟨hwritten.page, hwritten.idle⟩
  | characters characters =>
      rw [onCharacters_eq]
      exact ⟨hvalid.page, hvalid.idle⟩

/-- Every state of a parse is valid, whatever the parser did before. -/
theorem startParser_valid (lib : Library) (store : Store σ) (self : DumpParser σ)
    (calls : List Callback) : (self.startParser lib store calls).state.Valid :=
  EventLoop.run_invariant Valid (fun _ _ _ hvalid hcall => hvalid.callback hcall)
    self.initializeParser_valid

/-- Revisions are put down at the end of a revision, and cleared at the end of a
page, when it is stored. -/
theorem callback_lists {call : Callback} (hcall : self.callback lib store call = .ok next) :
    (call.event = .endElement Tag.page.name ∧ next.citationsByRevision = [] ∧
      next.currentPageRevisions = ∅ ∧
      ∃ page, self.toPageState.makePageCitationList lib.sort call.orders = .ok page ∧
        next.stored = store page.revisionsToStore page.currentPage self.stored) ∨
    (call.event ≠ .endElement Tag.page.name ∧
      call.event = .endElement Tag.revision.name ∧
      next.citationsByRevision = self.citationsByRevision ++ [self.revisionEntry] ∧
      next.currentPageRevisions = self.currentPageRevisions.insertIfNew
        self.currentRevision.revisionId self.currentRevision ∧
      next.stored = self.stored) ∨
    (call.event ≠ .endElement Tag.page.name ∧
      next.citationsByRevision = self.citationsByRevision ∧
      next.currentPageRevisions = self.currentPageRevisions ∧
      next.stored = self.stored) := by
  cases callback_called hcall with
  | startElement name =>
      refine Or.inr (Or.inr ⟨by simp, ?_⟩)
      unfold DumpParser.onStartElement
      split_ifs <;> exact ⟨rfl, rfl, rfl⟩
  | endElement hended =>
      cases hended with
      | page hmake => exact Or.inl ⟨rfl, rfl, rfl, _, hmake, rfl⟩
      | revision => exact Or.inr (Or.inl ⟨by simp, rfl, rfl, rfl, rfl⟩)
      | contributor => exact Or.inr (Or.inr ⟨by simp, rfl, rfl, rfl⟩)
      | field hpage hrevision hcontributor hfield =>
          refine Or.inr (Or.inr ⟨by simpa using hpage, ?_⟩)
          cases onEndField_written hfield <;> exact ⟨rfl, rfl, rfl⟩
  | characters characters =>
      rw [onCharacters_eq]
      exact Or.inr (Or.inr ⟨by simp, rfl, rfl, rfl⟩)

/-- Only the end of a page stores anything. -/
theorem callback_stored {call : Callback}
    (hcall : self.callback lib store call = .ok next) :
    (call.event = .endElement Tag.page.name ∧
      ∃ page, self.toPageState.makePageCitationList lib.sort call.orders = .ok page ∧
        next.stored = store page.revisionsToStore page.currentPage self.stored) ∨
    (call.event ≠ .endElement Tag.page.name ∧ next.stored = self.stored) := by
  rcases callback_lists hcall with
    ⟨hpage, -, -, hpageStored⟩ | ⟨hpage, -, -, -, hstored⟩ | ⟨hpage, -, -, hstored⟩
  · exact Or.inl ⟨hpage, hpageStored⟩
  · exact Or.inr ⟨hpage, hstored⟩
  · exact Or.inr ⟨hpage, hstored⟩

/-- The revisions in the store are those that the citations in it name. -/
structure Closed (stored : InMemory) : Prop where
  revisions : ∀ revisionId, revisionId ∈ stored.revisions ↔
    ∃ page ∈ stored.pages, ∃ citation ∈ page.citations, citation.Names revisionId

theorem Closed.insertPage {stored : InMemory} (hclosed : Closed stored)
    {revisions : StdMap UInt64 Revision} {page : Page}
    (hpage : ∀ revisionId, revisionId ∈ revisions ↔
      ∃ citation ∈ page.citations, citation.Names revisionId) :
    Closed (InMemory.store revisions page stored) where
  revisions revisionId := by
    have hinserted := MapEntries.getElem?_insertAll_toList stored.revisions
      revisions revisionId
    simp only [InMemory.store]
    rw [Std.ExtTreeMap.mem_iff_isSome_getElem?, hinserted, Option.isSome_or,
      Bool.or_eq_true, ← Std.ExtTreeMap.mem_iff_isSome_getElem?,
      ← Std.ExtTreeMap.mem_iff_isSome_getElem?, hclosed.revisions, hpage]
    simp only [List.mem_append, List.mem_singleton, or_and_right, exists_or,
      exists_eq_left]

theorem Valid.callback_closed {self next : DumpParser InMemory} (hvalid : self.Valid)
    (hclosed : Closed self.stored) {call : Callback}
    (hcall : self.callback lib InMemory.store call = .ok next) :
    Closed next.stored := by
  rcases callback_stored hcall with ⟨-, page, hmake, hstored⟩ | ⟨-, hstored⟩
  · rw [hstored]
    exact hclosed.insertPage (hvalid.page.makePageCitationList_closed hmake).1
  · rwa [hstored]

theorem parseOutcome_closed (lib : Library) (self : DumpParser InMemory)
    (calls : List Callback) : Closed (parseOutcome lib self calls).state.stored := by
  have hboth : (parseOutcome lib self calls).state.Valid ∧
      Closed (parseOutcome lib self calls).state.stored := by
    apply EventLoop.run_invariant
      fun state : DumpParser InMemory => state.Valid ∧ Closed state.stored
    · intro state call next hstate hcall
      exact ⟨hstate.1.callback hcall, hstate.1.callback_closed hstate.2 hcall⟩
    · exact ⟨initializeParser_valid _, ⟨fun revisionId => by simp [initializeParser]⟩⟩
  exact hboth.2

/-- No dangling and no orphaned revision, whatever the parser did before: when
a page ends, the reference counts are right at every step of the loop, and so
is the set of revisions to store; and the revisions that a parse returns are
those that the citations it returns name. -/
theorem parseXML_revisions (lib : Library) (self : DumpParser InMemory)
    (calls : List Callback) :
    (∀ orders loop,
      CitationLoop.DuringLoop
          (parseOutcome lib self calls).state.currentPageRevisions
          ((parseOutcome lib self calls).state.rounds lib.sort orders)
          { revisionsToStore :=
              (parseOutcome lib self calls).state.revisionsToStore } loop →
        loop.RefCounted (parseOutcome lib self calls).state.currentPageRevisions) ∧
    ∀ pages revisions, parseXML lib self calls = .ok (pages, revisions) →
      ∀ revisionId, revisionId ∈ revisions ↔
        ∃ page ∈ pages, ∃ citation ∈ page.citations, citation.Names revisionId := by
  constructor
  · intro orders loop hduring
    have hvalid : (parseOutcome lib self calls).state.Valid :=
      startParser_valid lib InMemory.store _ calls
    rw [hvalid.page.revisionsToStore] at hduring
    exact hduring.counted.refCounted hvalid.page.revisionId
  · intro pages revisions hparse
    have hclosed := parseOutcome_closed lib self calls
    unfold parseXML at hparse
    split at hparse
    · cases hparse
    · simp only [Except.ok.injEq, Prod.mk.injEq] at hparse
      obtain ⟨rfl, rfl⟩ := hparse
      exact hclosed.revisions

/-- The orders in which protobuf maps are gone through make no difference to a
callback. -/
theorem Valid.callback_orders (hvalid : self.Valid) {call call' : Callback}
    (hevent : call.event = call'.event) :
    self.callback lib store call = self.callback lib store call' := by
  unfold DumpParser.callback onEndElement onEndPage
  rw [hevent, hvalid.page.makePageCitationList_orders lib.sort call.orders
    call'.orders]

/-- A parse depends on the events alone. -/
theorem startParser_events (lib : Library) (store : Store σ) (self : DumpParser σ)
    {calls calls' : List Callback}
    (hcalls : List.Forall₂ (fun call call' => call.event = call'.event) calls calls') :
    self.startParser lib store calls = self.startParser lib store calls' := by
  apply EventLoop.run_congr Valid _ _ _ hcalls self.initializeParser_valid
  · intro state call call' hvalid hevent
    exact hvalid.callback_orders hevent
  · intro state call next hvalid hcall
    exact hvalid.callback hcall

end DumpParser

/-- The callbacks of a document, with orders for the loops in each of them. -/
def callbacks (events : List Event) (orders : ℕ → ℕ → MapOrder) : List Callback :=
  events.mapIdx fun i event => ⟨event, orders i⟩

@[simp] theorem map_event_callbacks (events : List Event)
    (orders : ℕ → ℕ → MapOrder) :
    (callbacks events orders).map Callback.event = events := by
  rw [callbacks, List.mapIdx_eq_zipIdx_map, List.map_map]
  exact List.zipIdx_map_fst 0 events

theorem callbacks_same_events (events : List Event)
    (orders orders' : ℕ → ℕ → MapOrder) :
    List.Forall₂ (fun call call' => call.event = call'.event)
      (callbacks events orders) (callbacks events orders') := by
  rw [List.forall₂_iff_get]
  simp [callbacks]

end Citescoop
