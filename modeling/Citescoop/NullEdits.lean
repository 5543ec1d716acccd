/-
Edits that leave the titles of a page alone.  A revision with the titles of the one
before it leaves no trace in what is stored of the page, and it makes no difference how
many such revisions there are.
-/
import Citescoop.RevisionOrder

namespace Citescoop

open ExceptFold TieOrder

/-- The revisions that change which titles there are, after one that has these titles. -/
def titleChanges (titles : List Text) : List RevisionCitations → List RevisionCitations
  | [] => []
  | revision :: revisions =>
      if revision.citations.keys = titles then titleChanges titles revisions
      else revision :: titleChanges revision.citations.keys revisions

theorem mem_of_mem_titleChanges {titles : List Text} {revisions : List RevisionCitations}
    {revision : RevisionCitations} (hmem : revision ∈ titleChanges titles revisions) :
    revision ∈ revisions := by
  induction revisions generalizing titles with
  | nil => exact hmem
  | cons first revisions ih =>
      rw [titleChanges] at hmem
      split at hmem
      · exact List.mem_cons_of_mem first (ih hmem)
      · rcases List.mem_cons.mp hmem with rfl | hmem
        · exact List.mem_cons_self
        · exact List.mem_cons_of_mem first (ih hmem)

section LifeCycle

/-- The citation under a title when one more revision has been seen. -/
def citationAfter (key : Text) (citation? : Option Citation) (revision : RevisionCitations) :
    Option Citation :=
  (citation?.map (·.seenIn revision key)).or
    (revision.citations[key]?.map (Citation.addedIn revision))

theorem lifeCycle_eq_foldl (key : Text) (revisions : List RevisionCitations) :
    lifeCycle key revisions = revisions.foldl (citationAfter key) none := by
  induction revisions using List.reverseRecOn with
  | nil => rfl
  | append_singleton revisions revision ih =>
      rw [lifeCycle_concat, List.foldl_append, ← ih]
      rfl

/-- A citation that tells whether its title is one of those that were seen last. -/
structure TellsOf (titles : List Text) (key : Text) (citation? : Option Citation) : Prop where
  present : key ∈ titles → ∃ citation, citation? = some citation ∧
    citation.revisionRemoved? = none
  absent : key ∉ titles → ∀ citation, citation? = some citation →
    citation.revisionRemoved?.isSome

theorem tellsOf_citationAfter (key : Text) (citation? : Option Citation)
    (revision : RevisionCitations) :
    TellsOf revision.citations.keys key (citationAfter key citation? revision) where
  present hkey := by
    rw [Std.ExtTreeMap.mem_keys] at hkey
    rw [citationAfter]
    cases citation? with
    | none => simp [Std.ExtTreeMap.getElem?_eq_some_getElem hkey, Citation.addedIn]
    | some citation => simp [Citation.seenIn, hkey]
  absent hkey citation hcitation := by
    rw [Std.ExtTreeMap.mem_keys] at hkey
    rw [citationAfter] at hcitation
    cases citation? with
    | none => simp [hkey] at hcitation
    | some earlier =>
        simp only [Option.map_some, Option.some_or, Option.some.injEq] at hcitation
        rw [← hcitation, Citation.seenIn, if_neg hkey]
        cases earlier.revisionRemoved? <;> rfl

/-- Nothing happens to the mark when the titles are as they were. -/
theorem TellsOf.citationAfter_eq {key : Text} {citation? : Option Citation}
    {revision : RevisionCitations} (htells : TellsOf revision.citations.keys key citation?) :
    citationAfter key citation? revision = citation? := by
  have hmem : key ∈ revision.citations.keys ↔ key ∈ revision.citations :=
    Std.ExtTreeMap.mem_keys
  rw [citationAfter]
  by_cases hkey : key ∈ revision.citations
  · obtain ⟨citation, rfl, hremoved⟩ := htells.present (hmem.mpr hkey)
    rw [Option.map_some, Option.some_or, Citation.seenIn, if_pos hkey, ← hremoved]
  · cases citation? with
    | none => simp [hkey]
    | some citation =>
        obtain ⟨revisionId, hremoved⟩ := Option.isSome_iff_exists.mp
          (htells.absent (hmem.not.mpr hkey) citation rfl)
        rw [Option.map_some, Option.some_or, Citation.seenIn, if_neg hkey, hremoved,
          Option.some_or, ← hremoved]

theorem foldl_titleChanges {titles : List Text} {key : Text} {citation? : Option Citation}
    (htells : TellsOf titles key citation?) (revisions : List RevisionCitations) :
    (titleChanges titles revisions).foldl (citationAfter key) citation? =
      revisions.foldl (citationAfter key) citation? := by
  induction revisions generalizing titles citation? with
  | nil => rfl
  | cons revision revisions ih =>
      rw [titleChanges, List.foldl_cons]
      split
      · next hsame =>
        rw [← hsame] at htells
        rw [htells.citationAfter_eq, ← hsame]
        exact ih htells
      · rw [List.foldl_cons]
        exact ih (tellsOf_citationAfter key citation? revision)

/-- The life cycles of the citations, from the revisions that change the titles. -/
theorem lifeCycle_titleChanges (key : Text) (revisions : List RevisionCitations) :
    lifeCycle key (titleChanges [] revisions) = lifeCycle key revisions := by
  rw [lifeCycle_eq_foldl, lifeCycle_eq_foldl]
  apply foldl_titleChanges
  constructor
  · intro hkey
    cases hkey
  · intro _ citation hcitation
    cases hcitation

theorem exists_of_lifeCycle_names {key : Text} {revisions : List RevisionCitations}
    {citation : Citation} (hcitation : lifeCycle key revisions = some citation)
    {revisionId : UInt64} (hnames : citation.Names revisionId) :
    ∃ revision ∈ revisions, revision.revisionId = revisionId := by
  obtain ⟨first, hfirst, rfl⟩ := Option.map_eq_some_iff.mp hcitation
  rcases hnames with hadded | hremoved
  · exact ⟨first, List.mem_of_find?_eq_some hfirst, Option.some.inj hadded⟩
  · obtain ⟨next, hnext, hid⟩ := Option.map_eq_some_iff.mp hremoved
    have hsuffix := List.rtakeWhile_suffix (fun revision => decide (key ∉ revision.citations))
      (l := revisions)
    exact ⟨next, hsuffix.subset (List.mem_of_head? hnext), hid⟩

end LifeCycle

namespace CitationLoop

/-- A revision that is referred to is one of those that change the titles. -/
theorem exists_mem_titleChanges {currentPageRevisions : StdMap UInt64 Revision}
    {rounds : List (RevisionCitations × MapOrder)} {loop : CitationLoop}
    (hfold : rounds.foldlM (addRevision currentPageRevisions) {} = .ok loop)
    {revisionId : UInt64}
    (hcount : 0 < MapEntries.total (Citation.references revisionId) loop.discoveredCitations) :
    ∃ revision ∈ titleChanges [] (rounds.map Prod.fst), revision.revisionId = revisionId := by
  have htotal : MapEntries.total (Citation.references revisionId) loop.discoveredCitations =
      referenceCount (loop.discoveredCitations.toList.map Prod.snd) revisionId := by
    rw [MapEntries.total, ← sum_references, List.map_map]
    rfl
  rw [htotal, referenceCount_pos_iff] at hcount
  obtain ⟨citation, hcitation, hnames⟩ := hcount
  obtain ⟨key, hmark⟩ := MapEntries.mem_map_snd_toList.mp hcitation
  rw [foldlM_addRevision_marks rfl hfold, ← lifeCycle_titleChanges] at hmark
  exact exists_of_lifeCycle_names hmark hnames

end CitationLoop

namespace PageState

variable {page page' : PageState}

/-- The numbers of the revisions lead to what these say of themselves. -/
def KnowsRevisions (page : PageState) : Prop :=
  ∀ revision ∈ page.citationsByRevision,
    page.currentPageRevisions[revision.revisionId]? = some revision.revision

/-- Two pages on which the same revisions change the titles end as the same page. -/
theorem Valid.makePageCitationList_titleChanges (hvalid : page.Valid) (hvalid' : page'.Valid)
    (hpage : page'.currentPage = page.currentPage) (hknows : page.KnowsRevisions)
    (hknows' : page'.KnowsRevisions) (sort sort' : RevisionSort) (orders orders' : ℕ → MapOrder)
    (hchanges : titleChanges [] (sort'.sort page'.citationsByRevision) =
      titleChanges [] (sort.sort page.citationsByRevision)) :
    (page'.makePageCitationList sort' orders').map
        (fun ended => (ended.revisionsToStore, ended.currentPage)) =
      (page.makePageCitationList sort orders).map
        fun ended => (ended.revisionsToStore, ended.currentPage) := by
  rcases makePageCitationList_returns sort orders hvalid.known with ⟨result, hmake⟩
  rcases makePageCitationList_returns sort' orders' hvalid'.known with ⟨result', hmake'⟩
  rw [hmake, hmake']
  obtain ⟨loop, hfold, rfl⟩ := makePageCitationList_ok sort orders hmake
  obtain ⟨loop', hfold', rfl⟩ := makePageCitationList_ok sort' orders' hmake'
  rw [hvalid.revisionsToStore] at hfold
  rw [hvalid'.revisionsToStore] at hfold'
  have hmarks : loop'.discoveredCitations = loop.discoveredCitations := by
    apply Std.ExtTreeMap.ext_getElem?
    intro key
    rw [CitationLoop.foldlM_addRevision_marks rfl hfold,
      CitationLoop.foldlM_addRevision_marks rfl hfold', map_fst_rounds, map_fst_rounds,
      ← lifeCycle_titleChanges, hchanges, lifeCycle_titleChanges]
  have hcounted := (CitationLoop.counted_start _).revisions hfold
  have hcounted' := (CitationLoop.counted_start _).revisions hfold'
  unfold CitationLoop.Counted at hcounted hcounted'
  rw [hmarks] at hcounted'
  have hstores : loop'.revisionsToStore = loop.revisionsToStore := by
    apply hcounted'.stored_congr hcounted
    intro revisionId hcount
    obtain ⟨revision, hrevision, rfl⟩ := CitationLoop.exists_mem_titleChanges hfold hcount
    rw [map_fst_rounds] at hrevision
    have hmem := (sort.sort_perm _).mem_iff.mp (mem_of_mem_titleChanges hrevision)
    rw [← hchanges] at hrevision
    have hmem' := (sort'.sort_perm _).mem_iff.mp (mem_of_mem_titleChanges hrevision)
    rw [hknows revision hmem, hknows' revision hmem']
  simp only [Except.map, hmarks, hstores, hpage]

end PageState

/-- The same title and the same id, and revisions of which the same, in the order of their
times, change the titles of the page. -/
structure PageTree.SameChanges (lib : Library) (tree tree' : PageTree) : Prop where
  title : tree.title?.map Chunks.text = tree'.title?.map Chunks.text
  id : tree.id?.map Chunks.text = tree'.id?.map Chunks.text
  readable : ∀ revision ∈ tree.revisions, (revision.walk lib).isSome
  readable' : ∀ revision ∈ tree'.revisions, (revision.walk lib).isSome
  changes : ∃ sorted sorted',
    SortedBy RevisionCitations.time (tree.revisions.filterMap (RevisionTree.walk lib)) sorted ∧
    SortedBy RevisionCitations.time (tree'.revisions.filterMap (RevisionTree.walk lib)) sorted' ∧
    titleChanges [] sorted = titleChanges [] sorted'

section Trees

variable {lib : Library}

namespace PageTree

variable {tree tree' : PageTree}

theorem Settled.found_knows (hsettled : tree.Settled lib) (pageId? : Option UInt64) :
    (tree.found lib pageId?).KnowsRevisions := by
  intro revision hrevision
  have hkeys : (((tree.revisions.filterMap (RevisionTree.walk lib)).map fun entry =>
      (entry.revisionId, entry.revision)).map Prod.fst).Nodup := by
    rw [List.map_map]
    exact hsettled.numbers
  exact MapEntries.getElem?_insertAll_of_mem ∅ hkeys (List.mem_map_of_mem hrevision) (by simp)

/-- Ties being harmless, the page may as well be sorted in any way. -/
theorem Settled.makePageCitationList_returning (hsettled : tree.Settled lib)
    (pageId? : Option UInt64) {sorted : List RevisionCitations}
    (hsorted : SortedBy RevisionCitations.time
      (tree.revisions.filterMap (RevisionTree.walk lib)) sorted) (orders : ℕ → MapOrder) :
    (tree.found lib pageId?).makePageCitationList lib.sort orders =
      (tree.found lib pageId?).makePageCitationList (.returning hsorted) orders := by
  apply (tree.found_valid lib pageId?).makePageCitationList_congr
  exact tiesAgree_iff.mp hsettled.ties _ _ (lib.sort.sortedBy _)
    ((RevisionSort.returning hsorted).sortedBy _)

theorem SameChanges.ends?_eq (hsame : tree.SameChanges lib tree')
    (hsettled : tree.Settled lib) (hsettled' : tree'.Settled lib) :
    tree.ends? lib = tree'.ends? lib := by
  obtain ⟨sorted, sorted', hsorted, hsorted', hchanges⟩ := hsame.changes
  rw [ends?, ends?, walk_of_isSome hsame.readable, walk_of_isSome hsame.readable',
    walkId?_congr hsame.id]
  cases walkId? tree'.id? with
  | none => rfl
  | some pageId? =>
      simp only [Option.map_some, Option.bind_some]
      rw [hsettled.makePageCitationList_returning pageId? hsorted,
        hsettled'.makePageCitationList_returning pageId? hsorted']
      have hpage : (tree'.found lib pageId?).currentPage =
          (tree.found lib pageId?).currentPage := by
        simp only [found, hsame.title]
      have hends := (tree.found_valid lib pageId?).makePageCitationList_titleChanges
        (tree'.found_valid lib pageId?) hpage (hsettled.found_knows pageId?)
        (hsettled'.found_knows pageId?) (.returning hsorted) (.returning hsorted')
        (fun _ => .ascending) (fun _ => .ascending) (by
          rw [found, found, RevisionSort.sort_returning, RevisionSort.sort_returning, hchanges])
      rw [hends]

end PageTree

variable {σ : Type} (store : Store σ)

/-- Whatever a parser stores to: revisions that have the titles of the one before them may
be left out of a dump or put in, and it throws as before or it has stored the same. -/
theorem DumpParser.startParser_sameChanges (parser : DumpParser σ)
    {document document' : DocumentTree}
    (hpages : List.Forall₂ (PageTree.SameChanges lib) document.pages document'.pages)
    (hsettled : ∀ page ∈ document.pages, page.Settled lib)
    (hsettled' : ∀ page ∈ document'.pages, page.Settled lib) (orders orders' : ℕ → ℕ → MapOrder) :
    ((parser.startParser lib store (callbacks document.events orders)).exception?.isSome ↔
      (parser.startParser lib store (callbacks document'.events orders')).exception?.isSome) ∧
    ((parser.startParser lib store (callbacks document.events orders)).exception? = none →
      (parser.startParser lib store (callbacks document.events orders)).state.stored =
        (parser.startParser lib store (callbacks document'.events orders')).state.stored) := by
  apply startParser_congr
  obtain ⟨hlength, hget⟩ := List.forall₂_iff_get.mp hpages
  refine List.forall₂_iff_get.mpr ⟨hlength, fun i hi hi' => ?_⟩
  exact (hget i hi hi').ends?_eq (hsettled _ (List.get_mem _ _)) (hsettled' _ (List.get_mem _ _))

end Trees

section Sample

/-- The same page with an older revision, of unknown time, that has no citation. -/
def stubPage : PageTree where
  title? := some ["Page".toList]
  id? := some ["7".toList]
  children := [.title ["Page".toList], .id ["7".toList],
    .revision (historyRevision "4" "" "A {{stub}}."),
    .revision (historyRevision "6" "2001-09-09T01:46:41Z" "gone"),
    .revision (historyRevision "5" "2001-09-09T01:46:40Z" "{{a|title=T}}")]
  titles := rfl
  ids := rfl

def stubDocument : DocumentTree where
  root := mediawiki
  children := [.page stubPage]

theorem historyPage_sameChanges : historyPage.SameChanges historyLibrary stubPage where
  title := by decide +kernel
  id := by decide +kernel
  readable := by decide +kernel
  readable' := by decide +kernel
  changes := ⟨_, _, historyLibrary.sort.sortedBy _, historyLibrary.sort.sortedBy _, by
    decide +kernel⟩

theorem stubPage_settled : stubPage.Settled historyLibrary where
  ties := TiesAgree.of_nodup (by decide +kernel)
  numbers := by decide +kernel

theorem startParser_sameChanges_history :
    ((DumpParser.startParser historyLibrary InMemory.store { stored := {} }
        (callbacks historyDocument.events fun _ _ => .ascending)).exception?.isSome ↔
      (DumpParser.startParser historyLibrary InMemory.store { stored := {} }
        (callbacks stubDocument.events fun _ _ => .ascending)).exception?.isSome) ∧
    ((DumpParser.startParser historyLibrary InMemory.store { stored := {} }
        (callbacks historyDocument.events fun _ _ => .ascending)).exception? = none →
      (DumpParser.startParser historyLibrary InMemory.store { stored := {} }
          (callbacks historyDocument.events fun _ _ => .ascending)).state.stored =
        (DumpParser.startParser historyLibrary InMemory.store { stored := {} }
          (callbacks stubDocument.events fun _ _ => .ascending)).state.stored) := by
  have hpages : List.Forall₂ (PageTree.SameChanges historyLibrary) historyDocument.pages
      stubDocument.pages := .cons historyPage_sameChanges .nil
  have hsettled : ∀ page ∈ historyDocument.pages, page.Settled historyLibrary := by
    intro page hpage
    rw [List.mem_singleton.mp hpage]
    exact historyPage_settled
  have hsettled' : ∀ page ∈ stubDocument.pages, page.Settled historyLibrary := by
    intro page hpage
    rw [List.mem_singleton.mp hpage]
    exact stubPage_settled
  exact DumpParser.startParser_sameChanges InMemory.store { stored := {} } hpages hsettled
    hsettled' _ _

end Sample

end Citescoop
