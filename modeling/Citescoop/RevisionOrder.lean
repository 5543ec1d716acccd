/-
The order in which the revisions of a page stand in the dump.  It makes no difference to
what is stored, as long as the numbers of the revisions differ and ties among their
timestamps are harmless.
-/
import Citescoop.PageHistory

namespace Citescoop

open ExceptFold TieOrder

namespace PageState

/-- Two pages with the same revisions, in any order, end as the same page. -/
theorem Valid.makePageCitationList_perm {page page' : PageState} (hvalid : page.Valid)
    (hties : TiesAgree page.citationsByRevision) (hpage : page'.currentPage = page.currentPage)
    (hrevisions : page'.currentPageRevisions = page.currentPageRevisions)
    (hstore : page'.revisionsToStore = page.revisionsToStore)
    (hperm : page'.citationsByRevision.Perm page.citationsByRevision) (sort : RevisionSort)
    (orders orders' : ℕ → MapOrder) :
    (page'.makePageCitationList sort orders').map
        (fun ended => (ended.revisionsToStore, ended.currentPage)) =
      (page.makePageCitationList sort orders).map
        fun ended => (ended.revisionsToStore, ended.currentPage) := by
  have hsorted : SortedBy RevisionCitations.time page.citationsByRevision
      (sort.sort page'.citationsByRevision) :=
    ⟨(sort.sort_perm _).trans hperm, (sort.sortedBy _).pairwise⟩
  -- what the sort makes of the one order, another sort may make of the other
  have hrounds : page'.rounds sort orders' =
      page.rounds (RevisionSort.returning hsorted) orders' := by
    rw [rounds, rounds, RevisionSort.sort_returning]
  have hsame := hvalid.makePageCitationList_congr orders' orders fun key =>
    tiesAgree_iff.mp hties _ _ ((RevisionSort.returning hsorted).sortedBy _)
      (sort.sortedBy _) key
  rw [← hsame]
  simp only [makePageCitationList, hrounds, hrevisions, hstore, hpage, map_map]

end PageState

/-- The texts of a revision, however they are cut and wherever they stand in it. -/
structure RevisionWording where
  id : Text
  parentid? : Option Text
  user? : Option Text
  timestamp : Text
  text : Text
deriving DecidableEq

def RevisionTree.wording (tree : RevisionTree) : RevisionWording where
  id := tree.id.text
  parentid? := tree.parentid?.map Chunks.text
  user? := tree.contributor?.bind ContributorTree.user?
  timestamp := tree.timestamp.text
  text := tree.text.text

/-- The same title and the same id, and revisions that say the same, in any order. -/
structure PageTree.Reordered (tree tree' : PageTree) : Prop where
  title : tree.title?.map Chunks.text = tree'.title?.map Chunks.text
  id : tree.id?.map Chunks.text = tree'.id?.map Chunks.text
  revisions : (tree.revisions.map RevisionTree.wording).Perm
    (tree'.revisions.map RevisionTree.wording)

section Trees

variable {lib : Library}

theorem walkId?_congr {chunks? chunks?' : Option Chunks}
    (htext : chunks?.map Chunks.text = chunks?'.map Chunks.text) :
    walkId? chunks? = walkId? chunks?' := by
  cases chunks? with
  | none =>
      rw [Option.map_none, eq_comm, Option.map_eq_none_iff] at htext
      rw [htext]
  | some chunks =>
      rw [Option.map_some, eq_comm, Option.map_eq_some_iff] at htext
      obtain ⟨chunks', rfl, htext⟩ := htext
      rw [walkId?, walkId?, htext]

theorem RevisionTree.walk_congr {tree tree' : RevisionTree}
    (hsame : tree.wording = tree'.wording) : tree.walk lib = tree'.walk lib := by
  simp only [wording, RevisionWording.mk.injEq] at hsame
  obtain ⟨hid, hparent, huser, htime, htext⟩ := hsame
  simp only [walk, hid, walkId?_congr hparent, huser, htime, htext]

theorem RevisionTree.walk_perm {revisions revisions' : List RevisionTree}
    (hperm : (revisions.map wording).Perm (revisions'.map wording)) :
    (revisions.map (walk lib)).Perm (revisions'.map (walk lib)) := by
  have hfactors : (walk lib).FactorsThrough wording := fun _ _ hsame => walk_congr hsame
  have hmap : ∀ revisions : List RevisionTree, revisions.map (walk lib) =
      (revisions.map wording).map (Function.extend wording (walk lib) fun _ => none) := by
    intro revisions
    rw [List.map_map]
    apply List.map_congr_left
    intro revision _
    exact (hfactors.extend_apply _ revision).symm
  rw [hmap, hmap]
  exact hperm.map _

namespace PageTree

/-- What the revisions say settles how the page ends: their numbers differ, and ties among
their timestamps are harmless. -/
structure Settled (lib : Library) (tree : PageTree) : Prop where
  ties : TiesAgree (tree.revisions.filterMap (RevisionTree.walk lib))
  numbers : ((tree.revisions.filterMap (RevisionTree.walk lib)).map
    RevisionCitations.revisionId).Nodup

/-- What is stored of the page. -/
def ends? (lib : Library) (tree : PageTree) : Option (StdMap UInt64 Revision × Page) :=
  (tree.walk lib).bind fun state =>
    ((state.makePageCitationList lib.sort fun _ => .ascending).map fun ended =>
      (ended.revisionsToStore, ended.currentPage)).toOption

variable {tree tree' : PageTree}

/-- The page as it is found when all of its revisions can be read. -/
def found (lib : Library) (tree : PageTree) (pageId? : Option UInt64) : PageState where
  currentPage := { title? := tree.title?.map Chunks.text, pageId? := pageId? }
  citationsByRevision := tree.revisions.filterMap (RevisionTree.walk lib)
  currentPageRevisions := MapEntries.insertAll ∅
    ((tree.revisions.filterMap (RevisionTree.walk lib)).map fun entry =>
      (entry.revisionId, entry.revision))

theorem walk_of_isSome (hwalks : ∀ revision ∈ tree.revisions, (revision.walk lib).isSome) :
    tree.walk lib = (walkId? tree.id?).map (tree.found lib) := by
  rw [walk, mapM_of_isSome hwalks]
  cases walkId? tree.id? <;> rfl

theorem walk_eq_none (hwalks : ¬ ∀ revision ∈ tree.revisions, (revision.walk lib).isSome) :
    tree.walk lib = none := by
  rw [walk, mapM_eq_none hwalks]
  cases walkId? tree.id? <;> rfl

theorem found_valid (lib : Library) (tree : PageTree) (pageId? : Option UInt64) :
    (tree.found lib pageId?).Valid where
  citations := rfl
  revisionsToStore := rfl
  known revision hrevision := by
    rw [Std.ExtTreeMap.mem_iff_isSome_getElem?, found, MapEntries.getElem?_insertAll,
      Std.ExtTreeMap.getElem?_empty, Option.none_or, List.findSome?_isSome_iff]
    exact ⟨_, List.mem_map_of_mem hrevision, by simp⟩
  revisionId revisionId revision hknown := by
    rw [found, MapEntries.getElem?_insertAll, Std.ExtTreeMap.getElem?_empty,
      Option.none_or] at hknown
    obtain ⟨_, hentry, hsome⟩ := List.exists_of_findSome?_eq_some hknown
    obtain ⟨entry, -, rfl⟩ := List.mem_map.mp hentry
    rw [Option.ite_none_right_eq_some, Option.some.injEq] at hsome
    rw [← hsome.2, ← hsome.1]
    rfl

theorem Reordered.ends?_eq (hreordered : tree.Reordered tree') (hsettled : tree.Settled lib) :
    tree.ends? lib = tree'.ends? lib := by
  have hwalks : (tree.revisions.map (RevisionTree.walk lib)).Perm
      (tree'.revisions.map (RevisionTree.walk lib)) :=
    RevisionTree.walk_perm hreordered.revisions
  have hperm : (tree.revisions.filterMap (RevisionTree.walk lib)).Perm
      (tree'.revisions.filterMap (RevisionTree.walk lib)) := by
    have hvalues := hwalks.filterMap fun walked => walked
    rwa [List.filterMap_map, List.filterMap_map] at hvalues
  have hall : (∀ revision ∈ tree.revisions, (revision.walk lib).isSome) ↔
      ∀ revision ∈ tree'.revisions, (revision.walk lib).isSome := by
    have hmem : (∀ walked ∈ tree.revisions.map (RevisionTree.walk lib), walked.isSome) ↔
        ∀ walked ∈ tree'.revisions.map (RevisionTree.walk lib), walked.isSome := by
      simp only [hwalks.mem_iff]
    simpa only [List.forall_mem_map] using hmem
  by_cases hsome : ∀ revision ∈ tree.revisions, (revision.walk lib).isSome
  · rw [ends?, ends?, walk_of_isSome hsome, walk_of_isSome (hall.mp hsome),
      walkId?_congr hreordered.id]
    cases walkId? tree'.id? with
    | none => rfl
    | some pageId? =>
        have hpage : (tree'.found lib pageId?).currentPage =
            (tree.found lib pageId?).currentPage := by
          simp only [found, hreordered.title]
        have hrevisions : (tree'.found lib pageId?).currentPageRevisions =
            (tree.found lib pageId?).currentPageRevisions := by
          apply (MapEntries.insertAll_perm ∅ (hperm.map _) _).symm
          rw [List.map_map]
          exact hsettled.numbers
        have hends := (tree.found_valid lib pageId?).makePageCitationList_perm hsettled.ties hpage
          hrevisions rfl hperm.symm lib.sort (fun _ => .ascending) fun _ => .ascending
        exact congrArg Except.toOption hends.symm
  · rw [ends?, ends?, walk_eq_none hsome, walk_eq_none (hall.not.mp hsome)]

end PageTree

variable {σ : Type} (store : Store σ)

theorem DocumentTree.walk_eq_ends? (document : DocumentTree) (stored : σ) :
    document.walk lib store stored = document.pages.foldlM (fun stored page =>
      (page.ends? lib).map fun ended => store ended.1 ended.2 stored) stored := by
  rw [walk]
  congr 1
  funext stored page
  rw [PageTree.ends?]
  cases page.walk lib with
  | none => rfl
  | some state =>
      simp only [Option.bind_some, Option.bind_eq_bind]
      cases state.makePageCitationList lib.sort fun _ => .ascending <;> rfl

theorem DocumentTree.walk_congr {document document' : DocumentTree}
    (hpages : List.Forall₂ (fun page page' => page.ends? lib = page'.ends? lib)
      document.pages document'.pages) (stored : σ) :
    document.walk lib store stored = document'.walk lib store stored := by
  rw [walk_eq_ends?, walk_eq_ends?]
  generalize document.pages = pages at hpages
  generalize document'.pages = pages' at hpages
  induction hpages generalizing stored with
  | nil => rfl
  | cons hpage _ ih =>
      rw [List.foldlM_cons, List.foldlM_cons, hpage]
      congr 1
      funext next
      exact ih next

/-- Documents of which the pages end alike. -/
theorem DumpParser.startParser_congr (parser : DumpParser σ)
    {document document' : DocumentTree}
    (hpages : List.Forall₂ (fun page page' => page.ends? lib = page'.ends? lib)
      document.pages document'.pages) (orders orders' : ℕ → ℕ → MapOrder) :
    ((parser.startParser lib store (callbacks document.events orders)).exception?.isSome ↔
      (parser.startParser lib store (callbacks document'.events orders')).exception?.isSome) ∧
    ((parser.startParser lib store (callbacks document.events orders)).exception? = none →
      (parser.startParser lib store (callbacks document.events orders)).state.stored =
        (parser.startParser lib store (callbacks document'.events orders')).state.stored) := by
  have hwalk := DocumentTree.walk_congr store hpages parser.stored
  rw [document.walk_eq_read, document'.walk_eq_read] at hwalk
  rcases startParser_read lib store parser document orders with
    ⟨stored, hread, hnone, hstored⟩ | ⟨exception, hread, hthrown⟩ <;>
  rcases startParser_read lib store parser document' orders' with
    ⟨stored', hread', hnone', hstored'⟩ | ⟨exception', hread', hthrown'⟩ <;>
  rw [hread, hread'] at hwalk
  · cases hwalk
    simp [hnone, hnone', hstored, hstored']
  · cases hwalk
  · cases hwalk
  · simp [hthrown, hthrown']

/-- Whatever a parser stores to: when the revisions of each page of a dump are put in
another order, it throws as before, or it has stored the same. -/
theorem DumpParser.startParser_reordered (parser : DumpParser σ)
    {document document' : DocumentTree}
    (hpages : List.Forall₂ PageTree.Reordered document.pages document'.pages)
    (hsettled : ∀ page ∈ document.pages, page.Settled lib) (orders orders' : ℕ → ℕ → MapOrder) :
    ((parser.startParser lib store (callbacks document.events orders)).exception?.isSome ↔
      (parser.startParser lib store (callbacks document'.events orders')).exception?.isSome) ∧
    ((parser.startParser lib store (callbacks document.events orders)).exception? = none →
      (parser.startParser lib store (callbacks document.events orders)).state.stored =
        (parser.startParser lib store (callbacks document'.events orders')).state.stored) := by
  apply startParser_congr
  obtain ⟨hlength, hget⟩ := List.forall₂_iff_get.mp hpages
  refine List.forall₂_iff_get.mpr ⟨hlength, fun i hi hi' => ?_⟩
  exact (hget i hi hi').ends?_eq (hsettled _ (List.get_mem _ _))

end Trees

section Sample

/-- The same page with its revisions from the oldest to the newest. -/
def chronologicalPage : PageTree where
  title? := some ["Pa".toList, "ge".toList]
  id? := some ["7".toList]
  children := [.id ["7".toList], .title ["Pa".toList, "ge".toList],
    .revision (historyRevision "5" "2001-09-09T01:46:40Z" "{{a|title=T}}"),
    .filler (.characters " ".toList),
    .revision (historyRevision "6" "2001-09-09T01:46:41Z" "gone")]
  titles := rfl
  ids := rfl

def chronologicalDocument : DocumentTree where
  root := mediawiki
  children := [.page chronologicalPage]

theorem historyPage_reordered : historyPage.Reordered chronologicalPage where
  title := by decide +kernel
  id := by decide +kernel
  revisions := by decide +kernel

theorem historyPage_settled : historyPage.Settled historyLibrary where
  ties := TiesAgree.of_nodup (by decide +kernel)
  numbers := by decide +kernel

theorem startParser_reordered_history :
    ((DumpParser.startParser historyLibrary InMemory.store { stored := {} }
        (callbacks historyDocument.events fun _ _ => .ascending)).exception?.isSome ↔
      (DumpParser.startParser historyLibrary InMemory.store { stored := {} }
        (callbacks chronologicalDocument.events fun _ _ => .ascending)).exception?.isSome) ∧
    ((DumpParser.startParser historyLibrary InMemory.store { stored := {} }
        (callbacks historyDocument.events fun _ _ => .ascending)).exception? = none →
      (DumpParser.startParser historyLibrary InMemory.store { stored := {} }
          (callbacks historyDocument.events fun _ _ => .ascending)).state.stored =
        (DumpParser.startParser historyLibrary InMemory.store { stored := {} }
          (callbacks chronologicalDocument.events fun _ _ => .ascending)).state.stored) := by
  have hpages : List.Forall₂ PageTree.Reordered historyDocument.pages
      chronologicalDocument.pages := .cons historyPage_reordered .nil
  have hsettled : ∀ page ∈ historyDocument.pages, page.Settled historyLibrary := by
    intro page hpage
    rw [List.mem_singleton.mp hpage]
    exact historyPage_settled
  exact DumpParser.startParser_reordered InMemory.store { stored := {} } hpages hsettled _ _

end Sample

end Citescoop
