/-
Parses of dumps up to their end or to the field that stops them: what is thrown, and what
has been stored by then.
-/
import Citescoop.RevisionOrder

namespace Citescoop

open EventLoop ExceptFold

/-- A field that is converted, and may fail to be. -/
inductive Field where
  | number (chunks : Chunks)
  | wikitext (chunks : Chunks)

def RevisionChild.fields : RevisionChild → List Field
  | .id chunks => [.number chunks]
  | .parentid chunks => [.number chunks]
  | .text chunks => [.wikitext chunks]
  | _ => []

def RevisionTree.fields (tree : RevisionTree) : List Field :=
  tree.children.flatMap RevisionChild.fields

def PageChild.fields : PageChild → List Field
  | .id chunks => [.number chunks]
  | .revision tree => tree.fields
  | _ => []

/-- The fields in document order. -/
def PageTree.fields (tree : PageTree) : List Field :=
  tree.children.flatMap PageChild.fields

def DocumentTree.fields (document : DocumentTree) : List Field :=
  document.pages.flatMap PageTree.fields

section Failures

variable (lib : Library)

/-- What is thrown where the field ends. -/
def Field.failure? : Field → Option DumpException
  | .number chunks => ExceptFold.failure? (strToId chunks.text)
  | .wikitext chunks =>
      ExceptFold.failure? ((lib.parser.parse chunks.text).mapError .templateParse)

theorem findSome?_flatMap {α β γ : Type} (f : α → List β) (g : β → Option γ) (items : List α) :
    (items.flatMap f).findSome? g = items.findSome? fun item => (f item).findSome? g := by
  induction items with
  | nil => rfl
  | cons item items ih =>
      rw [List.flatMap_cons, List.findSome?_append, ih, List.findSome?_cons]
      cases (f item).findSome? g <;> rfl

theorem RevisionChild.failure?_read (view : RevisionView) (child : RevisionChild) :
    failure? (child.read lib view) = child.fields.findSome? (Field.failure? lib) := by
  cases child with
  | filler between => rfl
  | id chunks =>
      rw [read, failure?_map, fields, List.findSome?_singleton]
      rfl
  | parentid chunks =>
      rw [read, failure?_map, fields, List.findSome?_singleton]
      rfl
  | timestamp chunks => rfl
  | text chunks =>
      rw [read, failure?_map, fields, List.findSome?_singleton]
      rfl
  | contributor tree => rfl

theorem RevisionTree.failure?_read (tree : RevisionTree) :
    failure? (tree.read lib) = tree.fields.findSome? (Field.failure? lib) := by
  rw [read, failure?_foldlM fun view child _ => child.failure?_read lib view, fields,
    findSome?_flatMap]

theorem PageChild.failure?_read (page : PageState) (child : PageChild) :
    failure? (child.read lib page) = child.fields.findSome? (Field.failure? lib) := by
  cases child with
  | filler between => rfl
  | title chunks => rfl
  | id chunks =>
      rw [read, failure?_map, fields, List.findSome?_singleton]
      rfl
  | contributor tree => rfl
  | revision tree =>
      rw [read, failure?_map]
      exact tree.failure?_read lib

theorem PageTree.failure?_read (tree : PageTree) :
    failure? (tree.read lib) = tree.fields.findSome? (Field.failure? lib) := by
  rw [read, failure?_foldlM fun page child _ => child.failure?_read lib page, fields,
    findSome?_flatMap]

variable {σ : Type} (store : Store σ)

/-- The end of a page that has been read does not throw. -/
theorem PageTree.ends_of_read {tree : PageTree} {page : PageState}
    (hread : tree.read lib = .ok page) :
    ∃ ended, tree.ends? lib = some ended ∧ ∀ stored : σ,
      (DocumentChild.page tree).read lib store stored = .ok (store ended.1 ended.2 stored) := by
  have hfound : page = tree.found lib
      (tree.id?.bind fun chunks => (strToId chunks.text).toOption) := tree.read_ok hread
  have hvalid := hfound ▸ tree.found_valid lib _
  obtain ⟨result, hmake⟩ :=
    PageState.makePageCitationList_returns lib.sort (fun _ => .ascending) hvalid.known
  refine ⟨(result.revisionsToStore, result.currentPage), ?_, fun stored => ?_⟩
  · rw [ends?, tree.walk_eq_read, hread]
    simp [Except.toOption, hmake, Except.map]
  · simp [DocumentChild.read, hread, Except.bind, hmake, Except.map]

theorem DocumentChild.failure?_read (stored : σ) (child : DocumentChild) :
    failure? (child.read lib store stored) =
      (child.page?.toList.flatMap PageTree.fields).findSome? (Field.failure? lib) := by
  cases child with
  | filler between => rfl
  | page tree =>
      have hpage := tree.failure?_read lib
      simp only [page?, Option.toList_some, List.flatMap_singleton]
      cases hread : tree.read lib with
      | error exception =>
          rw [hread] at hpage
          rw [read, hread, ← hpage]
          rfl
      | ok page =>
          obtain ⟨ended, -, hended⟩ := PageTree.ends_of_read lib store hread
          rw [hread] at hpage
          rw [hended, ← hpage]
          rfl

theorem DocumentTree.failure?_read (document : DocumentTree) (stored : σ) :
    failure? (document.read lib store stored) =
      document.fields.findSome? (Field.failure? lib) := by
  rw [read, failure?_foldlM fun stored child _ => child.failure?_read lib store stored,
    ← findSome?_flatMap, ← List.flatMap_assoc, ← List.filterMap_eq_flatMap_toList]
  rfl

end Failures

section Events

mutual

theorem filler_events_ne : (between : Filler) →
    ∀ event ∈ between.events, event ≠ .endElement Tag.page.name
  | .characters text => by simp [Filler.events]
  | .element name content => by
      intro event hevent
      rw [Filler.events, List.cons_append, List.mem_cons, List.mem_append,
        List.mem_singleton] at hevent
      rcases hevent with rfl | hinside | rfl
      · simp
      · exact fillers_events_ne content event hinside
      · simp [name.property .page]

theorem fillers_events_ne : (fillers : List Filler) →
    ∀ event ∈ Filler.eventsOf fillers, event ≠ .endElement Tag.page.name
  | [] => by simp [Filler.eventsOf]
  | between :: fillers => by
      intro event hevent
      rcases List.mem_append.mp hevent with hfirst | hrest
      · exact filler_events_ne between event hfirst
      · exact fillers_events_ne fillers event hrest

end

theorem leafEvents_ne {tag : Tag} (htag : tag ≠ .page) (chunks : Chunks) :
    ∀ event ∈ leafEvents tag.name chunks, event ≠ .endElement Tag.page.name := by
  intro event hevent
  simp only [leafEvents, List.cons_append, List.mem_cons, List.mem_append, List.mem_map,
    List.not_mem_nil, or_false] at hevent
  rcases hevent with rfl | ⟨characters, -, rfl⟩ | rfl
  · simp
  · simp
  · simpa using htag

/-- The events of an element that is no page. -/
theorem elementEvents_ne {tag : Tag} (htag : tag ≠ .page) {α : Type} {children : List α}
    {events : α → List Event}
    (hchildren : ∀ child ∈ children, ∀ event ∈ events child,
      event ≠ .endElement Tag.page.name) :
    ∀ event ∈ .startElement tag.name :: children.flatMap events ++ [.endElement tag.name],
      event ≠ .endElement Tag.page.name := by
  intro event hevent
  simp only [List.cons_append, List.mem_cons, List.mem_append, List.mem_flatMap,
    List.not_mem_nil, or_false] at hevent
  rcases hevent with rfl | ⟨child, hchild, hinside⟩ | rfl
  · simp
  · exact hchildren child hchild event hinside
  · simpa using htag

theorem ContributorTree.events_ne (tree : ContributorTree) :
    ∀ event ∈ tree.events, event ≠ .endElement Tag.page.name := by
  apply elementEvents_ne (by decide)
  intro child _
  cases child with
  | filler between => exact filler_events_ne between
  | username chunks => exact leafEvents_ne (by decide) chunks
  | id chunks => exact leafEvents_ne (by decide) chunks

theorem RevisionTree.events_ne (tree : RevisionTree) :
    ∀ event ∈ tree.events, event ≠ .endElement Tag.page.name := by
  apply elementEvents_ne (by decide)
  intro child _
  cases child with
  | filler between => exact filler_events_ne between
  | id chunks => exact leafEvents_ne (by decide) chunks
  | parentid chunks => exact leafEvents_ne (by decide) chunks
  | timestamp chunks => exact leafEvents_ne (by decide) chunks
  | text chunks => exact leafEvents_ne (by decide) chunks
  | contributor tree => exact tree.events_ne

theorem PageTree.openEvents_ne (tree : PageTree) :
    ∀ event ∈ tree.openEvents, event ≠ .endElement Tag.page.name := by
  intro event hevent
  rw [openEvents, List.mem_cons, List.mem_flatMap] at hevent
  rcases hevent with rfl | ⟨child, -, hinside⟩
  · simp
  · cases child with
    | filler between => exact filler_events_ne between event hinside
    | title chunks => exact leafEvents_ne (by decide) chunks event hinside
    | id chunks => exact leafEvents_ne (by decide) chunks event hinside
    | contributor tree => exact tree.events_ne event hinside
    | revision tree => exact tree.events_ne event hinside

end Events

section Runs

variable {σ : Type} (lib : Library) (store : Store σ)

/-- Store the pages, up to the first that cannot be read. -/
def storeUntil : List PageTree → σ → σ
  | [], stored => stored
  | page :: pages, stored =>
      match page.ends? lib with
      | some ended => storeUntil pages (store ended.1 ended.2 stored)
      | none => stored

namespace DumpParser

/-- Nothing is stored before a page ends. -/
theorem stored_run_openEvents (tree : PageTree) (self : DumpParser σ) :
    (run (readEvent lib store) self tree.openEvents).state.stored = self.stored := by
  refine run_invariant_mem (fun state : DumpParser σ => state.stored = self.stored) ?_ rfl
  intro state event hevent next hstate hstep
  rcases callback_stored hstep with ⟨hpage, -⟩ | ⟨-, hstored⟩
  · exact absurd hpage (tree.openEvents_ne event hevent)
  · rw [hstored, hstate]

theorem stored_run_children (children : List DocumentChild) (root : OtherName) (stored : σ)
    (hidden : Hidden) :
    (run (readEvent lib store) (betweenPages stored hidden)
        (children.flatMap DocumentChild.events ++ [.endElement root])).state.stored =
      storeUntil lib store (children.filterMap DocumentChild.page?) stored := by
  induction children generalizing stored hidden with
  | nil =>
      obtain ⟨hidden', hroot⟩ := (root_end_leads lib store root).ok stored hidden stored rfl
      rw [List.flatMap_nil, List.nil_append, (run_of_ok hroot).2]
      rfl
  | cons child children ih =>
      rw [List.flatMap_cons, List.append_assoc]
      cases child with
      | filler between =>
          obtain ⟨hidden', hfiller⟩ := (documentChild_leads lib store (.filler between)).ok
            stored hidden stored rfl
          rw [(run_append_of_ok hfiller _).1, ih]
          rfl
      | page tree =>
          have hpages : (DocumentChild.page tree :: children).filterMap DocumentChild.page? =
              tree :: children.filterMap DocumentChild.page? := rfl
          rw [hpages, storeUntil]
          cases hread : tree.read lib with
          | ok page =>
              obtain ⟨ended, hends, hstore⟩ := PageTree.ends_of_read lib store hread
              obtain ⟨hidden', hpage⟩ := (page_leads lib store tree).ok stored hidden _
                (hstore stored)
              rw [DocumentChild.events, (run_append_of_ok hpage _).1, ih, hends]
          | error exception =>
              have hends : tree.ends? lib = none := by
                rw [PageTree.ends?, tree.walk_eq_read, hread]
                rfl
              have hopen := (openPage_leads lib store tree).error stored hidden exception
                (by rw [hread]; rfl)
              rw [DocumentChild.events, PageTree.events, List.append_assoc,
                run_append_of_error hopen, stored_run_openEvents, hends]
              rfl

/-- Whatever a parser stores to, and for every document: what it throws is the failure of
the first field, in document order, that cannot be converted, and nothing if there is none;
and what has been stored by then are the pages before the one in which that field stands. -/
theorem startParser_stops (parser : DumpParser σ) (document : DocumentTree)
    (orders : ℕ → ℕ → MapOrder) :
    (parser.startParser lib store (callbacks document.events orders)).exception? =
        document.fields.findSome? (Field.failure? lib) ∧
      (parser.startParser lib store (callbacks document.events orders)).state.stored =
        storeUntil lib store document.pages parser.stored := by
  constructor
  · rw [← document.failure?_read lib store parser.stored]
    rcases startParser_read lib store parser document orders with
      ⟨stored, hread, hnone, -⟩ | ⟨exception, hread, hthrown⟩
    · rw [hread, hnone]
      rfl
    · rw [hread, hthrown]
      rfl
  · have hstart : parser.initializeParser =
        betweenPages parser.stored (parser.textBuf, parser.currentCitations) := rfl
    obtain ⟨hidden, hroot⟩ := (root_start_leads lib store document.root).ok parser.stored
      (parser.textBuf, parser.currentCitations) parser.stored rfl
    have hsplit : document.events = [.startElement document.root.val] ++
        (document.children.flatMap DocumentChild.events ++
          [.endElement document.root.val]) := by
      simp [DocumentTree.events, DocumentTree.openEvents]
    rw [startParser_callbacks, hstart, hsplit, (run_append_of_ok hroot _).1]
    exact stored_run_children lib store document.children document.root parser.stored hidden

end DumpParser

end Runs

end Citescoop
