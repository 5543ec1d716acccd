/-
A document tree read in document order, child after child and with the
exceptions on the way, against the direct walk, which looks up what it needs.
-/
import Citescoop.DocumentTree

namespace Citescoop

open ExceptFold

/-- What is known in the middle of a revision: what it has said about itself, and
its citations if its text has been read. -/
structure RevisionView where
  revision : Revision := {}
  citations? : Option RevisionCitations := none

section Read

variable (lib : Library)

def ContributorChild.read (view : RevisionView) : ContributorChild → RevisionView
  | .filler _ => view
  | .username chunks =>
      { view with revision := { view.revision with user? := some chunks.text } }
  | .id _ => view

def RevisionChild.read (view : RevisionView) :
    RevisionChild → Except DumpException RevisionView
  | .filler _ => .ok view
  | .id chunks => (strToId chunks.text).map fun revisionId =>
      { view with revision := { view.revision with revisionId? := some revisionId } }
  | .parentid chunks => (strToId chunks.text).map fun parentId =>
      { view with revision := { view.revision with parentId? := some parentId } }
  | .timestamp chunks => .ok { view with revision := { view.revision with
      timestamp? := some ((lib.timeFromString chunks.text).getD {}) } }
  | .text chunks => ((lib.parser.parse chunks.text).mapError .templateParse).map
      fun citations => { view with citations? := some citations }
  | .contributor tree => .ok (tree.children.foldl ContributorChild.read view)

def RevisionTree.read (tree : RevisionTree) : Except DumpException RevisionView :=
  tree.children.foldlM (RevisionChild.read lib) {}

def RevisionView.entry (view : RevisionView) : RevisionCitations :=
  { view.citations?.getD {} with revision? := some view.revision }

def PageState.addEntry (page : PageState) (entry : RevisionCitations) : PageState :=
  { page with
    citationsByRevision := page.citationsByRevision ++ [entry]
    currentPageRevisions :=
      page.currentPageRevisions.insertIfNew entry.revisionId entry.revision }

def PageChild.read (page : PageState) : PageChild → Except DumpException PageState
  | .filler _ => .ok page
  | .title chunks => .ok { page with
      currentPage := { page.currentPage with title? := some chunks.text } }
  | .id chunks => (strToId chunks.text).map fun pageId =>
      { page with currentPage := { page.currentPage with pageId? := some pageId } }
  | .contributor _ => .ok page
  | .revision tree => (tree.read lib).map fun view => page.addEntry view.entry

def PageTree.read (tree : PageTree) : Except DumpException PageState :=
  tree.children.foldlM (PageChild.read lib) {}

variable {σ : Type} (store : Store σ)

def DocumentChild.read (stored : σ) : DocumentChild → Except DumpException σ
  | .filler _ => .ok stored
  | .page tree => (tree.read lib).bind fun page =>
      (page.makePageCitationList lib.sort fun _ => .ascending).map fun ended =>
        store ended.revisionsToStore ended.currentPage stored

def DocumentTree.read (document : DocumentTree) (stored : σ) :
    Except DumpException σ :=
  document.children.foldlM (DocumentChild.read lib store) stored

end Read

namespace ContributorTree

theorem foldl_read (children : List ContributorChild) (view : RevisionView) :
    children.foldl ContributorChild.read view =
      { view with revision := { view.revision with
        user? := ((children.filterMap ContributorChild.username?).getLast?.map
          Chunks.text).or view.revision.user? } } := by
  induction children using List.reverseRecOn with
  | nil => simp
  | append_singleton children child ih =>
      rw [List.foldl_append, ih]
      cases child <;>
        simp [ContributorChild.read, ContributorChild.username?, List.filterMap_append]

/-- A contributor tells the user, and nothing else. -/
theorem foldl_read_children (tree : ContributorTree) (view : RevisionView) :
    tree.children.foldl ContributorChild.read view =
      { view with revision := { view.revision with
        user? := tree.user?.or view.revision.user? } } := by
  rw [foldl_read, tree.usernames, ContributorTree.user?]
  cases tree.username? <;> rfl

end ContributorTree

/-- A condition on the children of one kind, of which there is at most one. -/
theorem forall_kind {α β : Type} {kind : α → Option β} {children : List α}
    (only : Option β) (honly : children.filterMap kind = only.toList) (P : β → Prop) :
    (∀ child ∈ children, ∀ value ∈ kind child, P value) ↔ ∀ value ∈ only, P value := by
  apply List.forall_mem_filterMap.symm.trans
  rw [honly]
  simp

/-- A text from which an id can be read. -/
def IsId (chunks : Chunks) : Prop :=
  ∃ number, strToId chunks.text = .ok number

theorem toOption_strToId_eq_none {chunks : Chunks} (hid : ¬ IsId chunks) :
    (strToId chunks.text).toOption = none := by
  cases hconvert : strToId chunks.text with
  | error exception => rfl
  | ok number => exact absurd ⟨number, hconvert⟩ hid

theorem walkId?_of_isId {chunks? : Option Chunks}
    (hid : ∀ chunks ∈ chunks?, IsId chunks) :
    walkId? chunks? =
      some (chunks?.bind fun chunks => (strToId chunks.text).toOption) := by
  cases chunks? with
  | none => rfl
  | some chunks =>
      rcases hid chunks rfl with ⟨number, hconvert⟩
      simp [walkId?, hconvert, Except.toOption]

theorem walkId?_eq_none {chunks? : Option Chunks}
    (hid : ¬ ∀ chunks ∈ chunks?, IsId chunks) : walkId? chunks? = none := by
  cases chunks? with
  | none => simp at hid
  | some chunks =>
      have hnot : ¬ IsId chunks := by simpa using hid
      rw [walkId?, toOption_strToId_eq_none hnot, Option.map_none]

section Revision

variable {lib : Library}

/-- What a child of a revision adds to what is known of it. -/
theorem RevisionChild.read_ok {child : RevisionChild} {view next : RevisionView}
    (hread : child.read lib view = .ok next) :
    next = {
      revision := {
        revisionId? := (child.id?.bind fun chunks => (strToId chunks.text).toOption).or
          view.revision.revisionId?
        parentId? := (child.parentid?.bind fun chunks =>
          (strToId chunks.text).toOption).or view.revision.parentId?
        user? := (child.contributor?.bind ContributorTree.user?).or
          view.revision.user?
        timestamp? := (child.timestamp?.bind fun chunks =>
          some ((lib.timeFromString chunks.text).getD {})).or view.revision.timestamp? }
      citations? := (child.text?.bind fun chunks =>
        (lib.parser.parse chunks.text).toOption).or view.citations? } := by
  cases child with
  | filler between =>
      cases hread
      rfl
  | id chunks =>
      rcases map_ok hread with ⟨revisionId, hconvert, rfl⟩
      simp [RevisionChild.id?, RevisionChild.parentid?, RevisionChild.contributor?,
        RevisionChild.timestamp?, RevisionChild.text?, hconvert, Except.toOption]
  | parentid chunks =>
      rcases map_ok hread with ⟨parentId, hconvert, rfl⟩
      simp [RevisionChild.id?, RevisionChild.parentid?, RevisionChild.contributor?,
        RevisionChild.timestamp?, RevisionChild.text?, hconvert, Except.toOption]
  | timestamp chunks =>
      cases hread
      rfl
  | text chunks =>
      rcases map_ok hread with ⟨citations, hparse, rfl⟩
      simp [RevisionChild.id?, RevisionChild.parentid?, RevisionChild.contributor?,
        RevisionChild.timestamp?, RevisionChild.text?, mapError_ok hparse,
        Except.toOption]
  | contributor tree =>
      simp only [RevisionChild.read, tree.foldl_read_children, Except.ok.injEq] at hread
      rw [← hread]
      simp [RevisionChild.id?, RevisionChild.parentid?, RevisionChild.contributor?,
        RevisionChild.timestamp?, RevisionChild.text?]

theorem map_returns_iff {ε α β : Type} {result : Except ε α} {f : α → β} :
    (∃ value, result.map f = .ok value) ↔ ∃ inner, result = .ok inner := by
  cases result <;> simp [Except.map]

theorem mapError_returns_iff {ε ε' α : Type} {result : Except ε α} {f : ε → ε'} :
    (∃ value, result.mapError f = .ok value) ↔ ∃ value, result = .ok value := by
  cases result <;> simp [Except.mapError]

theorem RevisionChild.read_returns_iff (child : RevisionChild) (view : RevisionView) :
    (∃ next, child.read lib view = .ok next) ↔
      (∀ chunks ∈ child.id?, IsId chunks) ∧ (∀ chunks ∈ child.parentid?, IsId chunks) ∧
        ∀ chunks ∈ child.text?, ∃ citations,
          lib.parser.parse chunks.text = .ok citations := by
  cases child <;>
    simp [RevisionChild.read, RevisionChild.id?, RevisionChild.parentid?,
      RevisionChild.text?, map_returns_iff, mapError_returns_iff, IsId]

namespace RevisionTree

variable (tree : RevisionTree)

theorem read_ok {view : RevisionView} (hread : tree.read lib = .ok view) :
    view = {
      revision := {
        revisionId? := (strToId tree.id.text).toOption
        parentId? := tree.parentid?.bind fun chunks => (strToId chunks.text).toOption
        user? := tree.contributor?.bind ContributorTree.user?
        timestamp? := some ((lib.timeFromString tree.timestamp.text).getD {}) }
      citations? := (lib.parser.parse tree.text.text).toOption } := by
  have hid := foldlM_only_write (RevisionChild.read lib) (fun view => view.revision.revisionId?)
    RevisionChild.id? (some tree.id) (fun chunks => (strToId chunks.text).toOption)
    tree.ids (fun _ _ _ hchild => by rw [RevisionChild.read_ok hchild]) hread
  have hparent := foldlM_only_write (RevisionChild.read lib) (fun view => view.revision.parentId?)
    RevisionChild.parentid? tree.parentid? (fun chunks => (strToId chunks.text).toOption)
    tree.parentids (fun _ _ _ hchild => by rw [RevisionChild.read_ok hchild]) hread
  have huser := foldlM_only_write (RevisionChild.read lib) (fun view => view.revision.user?)
    RevisionChild.contributor? tree.contributor? ContributorTree.user?
    tree.contributors (fun _ _ _ hchild => by rw [RevisionChild.read_ok hchild]) hread
  have htime := foldlM_only_write (RevisionChild.read lib) (fun view => view.revision.timestamp?)
    RevisionChild.timestamp? (some tree.timestamp)
    (fun chunks => some ((lib.timeFromString chunks.text).getD {}))
    tree.timestamps (fun _ _ _ hchild => by rw [RevisionChild.read_ok hchild]) hread
  have hcitations := foldlM_only_write (RevisionChild.read lib) RevisionView.citations?
    RevisionChild.text? (some tree.text)
    (fun chunks => (lib.parser.parse chunks.text).toOption)
    tree.texts (fun _ _ _ hchild => by rw [RevisionChild.read_ok hchild]) hread
  rcases view with ⟨⟨revisionId?, parentId?, user?, timestamp?⟩, citations?⟩
  simp only [Option.or_none, Option.bind_some] at hid hparent huser htime hcitations
  rw [hid, hparent, huser, htime, hcitations]

/-- A revision is read to its end if all that has to be converted can be. -/
theorem read_returns_iff :
    (∃ view, tree.read lib = .ok view) ↔
      IsId tree.id ∧ (∀ chunks ∈ tree.parentid?, IsId chunks) ∧
        ∃ citations, lib.parser.parse tree.text.text = .ok citations := by
  have hids := forall_kind (some tree.id) tree.ids IsId
  have hparents := forall_kind tree.parentid? tree.parentids IsId
  have htexts := forall_kind (some tree.text) tree.texts fun chunks =>
    ∃ citations, lib.parser.parse chunks.text = .ok citations
  rw [read, foldlM_returns_iff fun view child => child.read_returns_iff view]
  simp only [imp_and, forall_and, hids, hparents, htexts]
  simp

theorem exists_citations {view : RevisionView} (hread : tree.read lib = .ok view) :
    ∃ citations, view.citations? = some citations := by
  rcases tree.read_returns_iff.mp ⟨view, hread⟩ with ⟨-, -, citations, hparse⟩
  exact ⟨citations, by rw [tree.read_ok hread, hparse]; rfl⟩

/-- The walk finds what is known when the revision has been read. -/
theorem walk_eq_read :
    tree.walk lib = (tree.read lib).toOption.map RevisionView.entry := by
  cases hread : tree.read lib with
  | error exception =>
      have hnot : ¬ ∃ view, tree.read lib = .ok view := by simp [hread]
      rw [read_returns_iff] at hnot
      change tree.walk lib = none
      by_cases hid : IsId tree.id
      · by_cases hparent : ∀ chunks ∈ tree.parentid?, IsId chunks
        · cases hparse : lib.parser.parse tree.text.text with
          | error thrown => simp [walk, hparse, Except.toOption]
          | ok citations => exact absurd ⟨hid, hparent, citations, hparse⟩ hnot
        · simp [walk, walkId?_eq_none hparent]
      · simp [walk, toOption_strToId_eq_none hid]
  | ok view =>
      rcases tree.read_returns_iff.mp ⟨view, hread⟩ with
        ⟨⟨revisionId, hid⟩, hparent, ⟨citations, hparse⟩⟩
      rw [tree.read_ok hread]
      simp [walk, walkId?_of_isId hparent, hid, hparse, Except.toOption,
        RevisionView.entry]

end RevisionTree

end Revision

theorem mapM_of_isSome {α β : Type} {f : α → Option β} {items : List α}
    (hitems : ∀ item ∈ items, (f item).isSome) :
    items.mapM f = some (items.filterMap f) := by
  induction items with
  | nil => rfl
  | cons item items ih =>
      rw [List.forall_mem_cons] at hitems
      rcases Option.isSome_iff_exists.mp hitems.1 with ⟨value, hvalue⟩
      simp [List.mapM_cons, ih hitems.2, hvalue]

theorem mapM_eq_none {α β : Type} {f : α → Option β} {items : List α}
    (hitems : ¬ ∀ item ∈ items, (f item).isSome) : items.mapM f = none := by
  induction items with
  | nil => simp at hitems
  | cons item items ih =>
      rw [List.forall_mem_cons, not_and_or] at hitems
      rw [List.mapM_cons]
      rcases hitems with hitem | hitems
      · rw [Option.not_isSome_iff_eq_none.mp hitem]
        rfl
      · rw [ih hitems]
        cases f item <;> rfl

section Page

variable {lib : Library}

/-- The entry of a child of a page that is a revision. -/
def PageChild.entry? (lib : Library) (child : PageChild) : Option RevisionCitations :=
  child.revision?.bind (RevisionTree.walk lib)

/-- What a child of a page adds to what is known of it. -/
theorem PageChild.read_ok {child : PageChild} {page next : PageState}
    (hread : child.read lib page = .ok next) :
    next = { page with
      currentPage := { page.currentPage with
        title? := (child.title?.bind fun chunks => some chunks.text).or
          page.currentPage.title?
        pageId? := (child.id?.bind fun chunks => (strToId chunks.text).toOption).or
          page.currentPage.pageId? }
      citationsByRevision := page.citationsByRevision ++ (child.entry? lib).toList
      currentPageRevisions := MapEntries.insertAll page.currentPageRevisions
        ((child.entry? lib).toList.map fun entry =>
          (entry.revisionId, entry.revision)) } := by
  cases child with
  | filler between =>
      cases hread
      simp [title?, id?, entry?, revision?, MapEntries.insertAll]
  | title chunks =>
      cases hread
      simp [title?, id?, entry?, revision?, MapEntries.insertAll]
  | id chunks =>
      rcases map_ok hread with ⟨pageId, hconvert, rfl⟩
      simp [title?, id?, entry?, revision?, MapEntries.insertAll, hconvert,
        Except.toOption]
  | contributor tree =>
      cases hread
      simp [title?, id?, entry?, revision?, MapEntries.insertAll]
  | revision tree =>
      rcases map_ok hread with ⟨view, hview, rfl⟩
      simp [title?, id?, entry?, revision?, MapEntries.insertAll, PageState.addEntry,
        tree.walk_eq_read, hview, Except.toOption]

theorem PageChild.read_returns_iff (child : PageChild) (page : PageState) :
    (∃ next, child.read lib page = .ok next) ↔
      (∀ chunks ∈ child.id?, IsId chunks) ∧
        ∀ tree ∈ child.revision?, (tree.walk lib).isSome := by
  cases child with
  | revision tree =>
      have hwalk : (tree.walk lib).isSome ↔ ∃ view, tree.read lib = .ok view := by
        rw [tree.walk_eq_read]
        cases tree.read lib <;> simp [Except.toOption]
      simp [PageChild.read, id?, revision?, map_returns_iff, hwalk]
  | _ => simp [PageChild.read, id?, revision?, map_returns_iff, IsId]

namespace PageTree

variable (tree : PageTree)

theorem filterMap_entry? (lib : Library) :
    tree.children.filterMap (PageChild.entry? lib) =
      tree.revisions.filterMap (RevisionTree.walk lib) := by
  rw [revisions, List.filterMap_filterMap]
  rfl

theorem read_ok {page : PageState} (hread : tree.read lib = .ok page) :
    page = {
      currentPage := {
        title? := tree.title?.map Chunks.text
        pageId? := tree.id?.bind fun chunks => (strToId chunks.text).toOption }
      citationsByRevision := tree.revisions.filterMap (RevisionTree.walk lib)
      currentPageRevisions := MapEntries.insertAll ∅
        ((tree.revisions.filterMap (RevisionTree.walk lib)).map fun entry =>
          (entry.revisionId, entry.revision)) } := by
  have htitle := foldlM_only_write (PageChild.read lib) (fun page => page.currentPage.title?)
    PageChild.title? tree.title? (fun chunks => some chunks.text) tree.titles
    (fun _ _ _ hchild => by rw [PageChild.read_ok hchild]) hread
  have hid := foldlM_only_write (PageChild.read lib) (fun page => page.currentPage.pageId?)
    PageChild.id? tree.id? (fun chunks => (strToId chunks.text).toOption) tree.ids
    (fun _ _ _ hchild => by rw [PageChild.read_ok hchild]) hread
  have hentries := foldlM_log (PageChild.read lib) PageState.citationsByRevision
    (fun child => (child.entry? lib).toList)
    (fun _ _ _ hchild => by rw [PageChild.read_ok hchild]) hread
  have hrest : page.currentPage.citations = [] ∧ page.revisionsToStore = ∅ ∧
      page.currentPageRevisions = MapEntries.insertAll ∅
        (page.citationsByRevision.map fun entry =>
          (entry.revisionId, entry.revision)) := by
    apply foldlM_invariant (fun page : PageState => page.currentPage.citations = [] ∧
      page.revisionsToStore = ∅ ∧ page.currentPageRevisions = MapEntries.insertAll ∅
        (page.citationsByRevision.map fun entry =>
          (entry.revisionId, entry.revision))) _ _ hread
    · intro page child _ next hpage hchild
      rw [PageChild.read_ok hchild]
      refine ⟨hpage.1, hpage.2.1, ?_⟩
      simp only [hpage.2.2, MapEntries.insertAll, List.map_append, List.foldl_append]
    · exact ⟨rfl, rfl, rfl⟩
  rw [← List.filterMap_eq_flatMap_toList, tree.filterMap_entry?,
    List.nil_append] at hentries
  rcases hrest with ⟨hcitations, hstore, hrevisions⟩
  rw [hentries] at hrevisions
  rcases page with ⟨⟨title?, pageId?, citations⟩, entries, revisions, revisionsToStore⟩
  simp only [Option.or_none] at *
  rw [htitle, hid, hentries, hcitations, hstore, hrevisions, Option.map_eq_bind]
  rfl

theorem read_returns_iff :
    (∃ page, tree.read lib = .ok page) ↔
      (∀ chunks ∈ tree.id?, IsId chunks) ∧
        ∀ revision ∈ tree.revisions, (revision.walk lib).isSome := by
  have hids := forall_kind tree.id? tree.ids IsId
  rw [read, foldlM_returns_iff fun page child => child.read_returns_iff page]
  simp only [imp_and, forall_and, hids, revisions, List.forall_mem_filterMap]
  rfl

/-- The walk finds what is known when the page has been read. -/
theorem walk_eq_read : tree.walk lib = (tree.read lib).toOption := by
  cases hread : tree.read lib with
  | error exception =>
      have hnot : ¬ ∃ page, tree.read lib = .ok page := by simp [hread]
      rw [read_returns_iff] at hnot
      change tree.walk lib = none
      by_cases hid : ∀ chunks ∈ tree.id?, IsId chunks
      · rw [walk, mapM_eq_none fun hrevisions => hnot ⟨hid, hrevisions⟩]
        cases walkId? tree.id? <;> rfl
      · rw [walk, walkId?_eq_none hid]
        rfl
  | ok page =>
      rcases tree.read_returns_iff.mp ⟨page, hread⟩ with ⟨hid, hrevisions⟩
      rw [tree.read_ok hread, walk, walkId?_of_isId hid, mapM_of_isSome hrevisions]
      rfl

end PageTree

/-- The walk finds what is stored when the document has been read. -/
theorem DocumentTree.walk_eq_read {σ : Type} (store : Store σ)
    (document : DocumentTree) (stored : σ) :
    document.walk lib store stored = (document.read lib store stored).toOption := by
  rw [DocumentTree.walk, DocumentTree.read, pages, List.foldlM_filterMap,
    toOption_foldlM]
  congr 1
  funext stored child
  cases child with
  | filler between => rfl
  | page tree =>
      simp only [DocumentChild.page?, DocumentChild.read, tree.walk_eq_read]
      cases tree.read lib with
      | error exception => rfl
      | ok page =>
          simp only [Except.toOption, Except.bind, Option.bind_eq_bind, Option.bind_some]
          cases page.makePageCitationList lib.sort fun _ => .ascending <;> rfl

end Page

end Citescoop
