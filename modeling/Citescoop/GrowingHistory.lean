/-
Dumps of a wiki that has grown.  What the list of a page becomes when the page has newer
revisions follows from the list as it was and from these revisions alone.
-/
import Citescoop.NullEdits

namespace Citescoop

open ExceptFold TieOrder

/-- The title under which the citation is listed. -/
def Citation.title (citation : Citation) : Text :=
  (citation.citation?.getD {}).title

/-- The citation when newer revisions have been seen: a removal stands until one of them has
the title, and one that comes after these removes it anew. -/
def Citation.continued (title : Text) (news : List RevisionCitations) (citation : Citation) :
    Citation :=
  { citation with revisionRemoved? :=
      if ∀ revision ∈ news, title ∉ revision.citations then
        citation.revisionRemoved?.or (news.head?.map (·.revisionId))
      else (news.rtakeWhile (title ∉ ·.citations)).head?.map (·.revisionId) }

section LifeCycle

theorem rtakeWhile_append {α : Type} (p : α → Bool) (items items' : List α) :
    (items ++ items').rtakeWhile p =
      if ∀ item ∈ items', p item then items.rtakeWhile p ++ items' else items'.rtakeWhile p := by
  induction items' using List.reverseRecOn with
  | nil => simp
  | append_singleton items' item ih =>
      rw [← List.append_assoc, List.rtakeWhile_concat, List.rtakeWhile_concat, ih]
      by_cases hitem : p item = true
      · by_cases hall : ∀ other ∈ items', p other = true
        · have hall' : ∀ other ∈ items' ++ [item], p other = true := by
            simpa [or_imp, forall_and, hitem] using hall
          rw [if_pos hitem, if_pos hall, if_pos hall', List.append_assoc]
        · have hall' : ¬ ∀ other ∈ items' ++ [item], p other = true := fun h =>
            hall fun other hmem => h other (List.mem_append_left _ hmem)
          rw [if_pos hitem, if_neg hall, if_neg hall', if_pos hitem]
      · have hall : ¬ ∀ other ∈ items' ++ [item], p other = true := fun h =>
          hitem (h item (by simp))
        rw [if_neg hitem, if_neg hall, if_neg hitem]

/-- Older revisions and newer ones. -/
theorem lifeCycle_append (key : Text) (olds news : List RevisionCitations) :
    lifeCycle key (olds ++ news) =
      ((lifeCycle key olds).map (·.continued key news)).or (lifeCycle key news) := by
  simp only [lifeCycle, List.find?_append, rtakeWhile_append, decide_eq_true_eq]
  cases hfirst : olds.find? fun revision => key ∈ revision.citations with
  | some first =>
      simp only [Option.some_or, Option.map_some, Citation.continued, Option.some.injEq,
        Citation.mk.injEq, true_and]
      split
      · rw [List.head?_append, Option.map_or]
      · rfl
  | none =>
      cases hnew : news.find? fun revision => key ∈ revision.citations with
      | none => rfl
      | some first =>
          have hall : ¬ ∀ revision ∈ news, key ∉ revision.citations := by
            intro hnone
            exact hnone first (List.mem_of_find?_eq_some hnew) (by simpa using List.find?_some hnew)
          simp only [Option.none_or, Option.map_some, Option.map_none, if_neg hall]

/-- A citation is listed under the title of its own data. -/
theorem lifeCycle_title {key : Text} {revisions : List RevisionCitations}
    (htitled : ∀ revision ∈ revisions, revision.Titled) {citation : Citation}
    (hcitation : lifeCycle key revisions = some citation) : citation.title = key := by
  obtain ⟨first, hfirst, rfl⟩ := Option.map_eq_some_iff.mp hcitation
  have hkey : key ∈ first.citations := by simpa using List.find?_some hfirst
  have hlook := Std.ExtTreeMap.getElem?_eq_some_getElem hkey
  have htitle := htitled first (List.mem_of_find?_eq_some hfirst) key _ hlook
  rw [Citation.title, hlook, Option.getD_some, htitle]

end LifeCycle

/-- What a page has become: the old citations, continued, and those of titles that only newer
revisions have. -/
structure Page.GrownInto (news : List RevisionCitations) (page now : Page) : Prop where
  title : now.title? = page.title?
  pageId : now.pageId? = page.pageId?
  citations : ∀ citation, citation ∈ now.citations ↔
    (∃ old ∈ page.citations, citation = old.continued old.title news) ∨
      ∃ title, (∀ old ∈ page.citations, old.title ≠ title) ∧
        lifeCycle title news = some citation

/-- The lists of two maps, of which one continues the other key by key. -/
theorem mem_marks_continued {news : List RevisionCitations} {marks marks' : StdMap Text Citation}
    (hown : ∀ (key : Text) (citation : Citation), marks[key]? = some citation →
      citation.title = key)
    (hnext : ∀ key, marks'[key]? =
      ((marks[key]?).map (·.continued key news)).or (lifeCycle key news)) (citation : Citation) :
    citation ∈ marks'.toList.map Prod.snd ↔
      (∃ old ∈ marks.toList.map Prod.snd, citation = old.continued old.title news) ∨
        ∃ title, (∀ old ∈ marks.toList.map Prod.snd, old.title ≠ title) ∧
          lifeCycle title news = some citation := by
  simp only [MapEntries.mem_map_snd_toList]
  constructor
  · rintro ⟨key, hkey⟩
    rw [hnext] at hkey
    cases hmark : marks[key]? with
    | some old =>
        rw [hmark, Option.map_some, Option.some_or, Option.some.injEq] at hkey
        refine .inl ⟨old, ⟨key, hmark⟩, ?_⟩
        rw [hown key old hmark, hkey]
    | none =>
        rw [hmark, Option.map_none, Option.none_or] at hkey
        refine .inr ⟨key, ?_, hkey⟩
        rintro old ⟨other, hother⟩ rfl
        rw [hown other old hother, hother] at hmark
        cases hmark
  · rintro (⟨old, ⟨key, hkey⟩, rfl⟩ | ⟨title, hfresh, hnew⟩)
    · refine ⟨key, ?_⟩
      rw [hnext, hkey, hown key old hkey]
      rfl
    · refine ⟨title, ?_⟩
      have hmark : marks[title]? = none := by
        cases hmark : marks[title]? with
        | none => rfl
        | some old => exact absurd (hown title old hmark) (hfresh old ⟨title, hmark⟩)
      rw [hnext, hmark, hnew]
      rfl

/-- The revisions by which one tree is ahead of the other, all of them newer than those of the
other and in the order of their times. -/
structure PageTree.NewRevisions (lib : Library) (tree tree' : PageTree)
    (news : List RevisionCitations) : Prop where
  title : tree'.title?.map Chunks.text = tree.title?.map Chunks.text
  id : tree'.id?.map Chunks.text = tree.id?.map Chunks.text
  revisions : (tree'.revisions.filterMap (RevisionTree.walk lib)).Perm
    (tree.revisions.filterMap (RevisionTree.walk lib) ++ news)
  later : ∀ old ∈ tree.revisions.filterMap (RevisionTree.walk lib), ∀ new ∈ news,
    old.time < new.time
  inOrder : news.Pairwise fun first second => first.time ≤ second.time

section Trees

variable {lib : Library}

theorem RevisionTree.walk_titled {tree : RevisionTree} {entry : RevisionCitations}
    (hwalk : tree.walk lib = some entry) : entry.Titled := by
  intro title extracted hextracted
  simp only [RevisionTree.walk, Option.bind_eq_bind, Option.bind_eq_some_iff,
    Option.pure_def, Option.some.injEq] at hwalk
  obtain ⟨revisionId, -, parentId?, -, citations, hparse, rfl⟩ := hwalk
  cases hresult : lib.parser.parse tree.text.text with
  | error exception =>
      rw [hresult] at hparse
      cases hparse
  | ok found =>
      rw [hresult] at hparse
      cases hparse
      exact ParserImpl.parse_title hresult hextracted

namespace PageTree

variable {tree tree' : PageTree}

/-- The entries of a page, as they are found in its revisions. -/
theorem found_titled {revision : RevisionCitations}
    (hrevision : revision ∈ tree.revisions.filterMap (RevisionTree.walk lib)) :
    revision.Titled := by
  obtain ⟨source, -, hwalk⟩ := List.mem_filterMap.mp hrevision
  exact RevisionTree.walk_titled hwalk

/-- The page that is stored lists its citations by their life cycles. -/
theorem ends?_eq_some {ended : StdMap UInt64 Revision × Page}
    (hends : tree.ends? lib = some ended) :
    ended.2.title? = tree.title?.map Chunks.text ∧ walkId? tree.id? = some ended.2.pageId? ∧
      ∃ marks : StdMap Text Citation, ended.2.citations = marks.toList.map Prod.snd ∧
        ∀ key, marks[key]? = lifeCycle key
          (lib.sort.sort (tree.revisions.filterMap (RevisionTree.walk lib))) := by
  by_cases hwalks : ∀ revision ∈ tree.revisions, (revision.walk lib).isSome
  · rw [ends?, walk_of_isSome hwalks] at hends
    cases hid : walkId? tree.id? with
    | none =>
        rw [hid] at hends
        cases hends
    | some pageId? =>
        rw [hid, Option.map_some, Option.bind_some] at hends
        cases hmake : (tree.found lib pageId?).makePageCitationList lib.sort
            fun _ => .ascending with
        | error exception =>
            rw [hmake] at hends
            cases hends
        | ok result =>
            rw [hmake] at hends
            cases hends
            obtain ⟨loop, hfold, rfl⟩ := PageState.makePageCitationList_ok _ _ hmake
            refine ⟨rfl, rfl, loop.discoveredCitations, rfl, fun key => ?_⟩
            rw [CitationLoop.foldlM_addRevision_marks rfl hfold, PageState.map_fst_rounds]
            rfl
  · rw [ends?, walk_eq_none hwalks] at hends
    cases hends

/-- One page, when it has grown. -/
theorem NewRevisions.grownInto {news : List RevisionCitations}
    (hnews : tree.NewRevisions lib tree' news)
    (hties : TiesAgree (tree.revisions.filterMap (RevisionTree.walk lib)))
    {ended ended' : StdMap UInt64 Revision × Page} (hends : tree.ends? lib = some ended)
    (hends' : tree'.ends? lib = some ended') :
    ∃ sorted, tree.NewRevisions lib tree' sorted ∧ ended.2.GrownInto sorted ended'.2 := by
  obtain ⟨htitle, hid, marks, hcitations, hmarks⟩ := ends?_eq_some hends
  obtain ⟨htitle', hid', marks', hcitations', hmarks'⟩ := ends?_eq_some hends'
  -- the sort leaves the older revisions in front
  have hsorted' := lib.sort.sortedBy (tree'.revisions.filterMap (RevisionTree.walk lib))
  obtain ⟨before, after, hsplit, hbefore, hafter⟩ :=
    SortedBy.exists_append ⟨hsorted'.perm.trans hnews.revisions, hsorted'.pairwise⟩ hnews.later
  have hnext : ∀ key, marks'[key]? =
      ((marks[key]?).map (·.continued key after)).or (lifeCycle key after) := by
    intro key
    rw [hmarks', hmarks, hsplit, lifeCycle_append,
      tiesAgree_iff.mp hties _ _ hbefore (lib.sort.sortedBy _) key]
  have hown : ∀ (key : Text) (citation : Citation), marks[key]? = some citation →
      citation.title = key := by
    intro key citation hcitation
    rw [hmarks] at hcitation
    exact lifeCycle_title (fun revision hrevision =>
      found_titled ((lib.sort.sort_perm _).mem_iff.mp hrevision)) hcitation
  refine ⟨after, ⟨hnews.title, hnews.id, ?_, ?_, hafter.pairwise⟩, ⟨?_, ?_, ?_⟩⟩
  · exact hnews.revisions.trans (hafter.perm.symm.append_left _)
  · exact fun old hold new hnew => hnews.later old hold new (hafter.mem_iff.mp hnew)
  · rw [htitle', htitle, hnews.title]
  · rw [walkId?_congr hnews.id, hid] at hid'
    exact (Option.some.inj hid').symm
  · rw [hcitations, hcitations']
    exact mem_marks_continued hown hnext

end PageTree

/-- The pages that are held when a document has been walked are what its pages end as. -/
theorem DocumentTree.walk_pages {document : DocumentTree} {stored final : InMemory}
    (hwalk : document.walk lib InMemory.store stored = some final) :
    ∃ pages, final.pages = stored.pages ++ pages ∧
      List.Forall₂ (fun tree page => ∃ ended, PageTree.ends? lib tree = some ended ∧
        ended.2 = page) document.pages pages := by
  rw [walk_eq_ends?] at hwalk
  generalize document.pages = trees at hwalk
  induction trees generalizing stored with
  | nil =>
      cases hwalk
      exact ⟨[], (List.append_nil _).symm, .nil⟩
  | cons tree trees ih =>
      rw [List.foldlM_cons, Option.bind_eq_bind, Option.bind_eq_some_iff] at hwalk
      obtain ⟨next, hpage, hrest⟩ := hwalk
      obtain ⟨ended, hends, rfl⟩ := Option.map_eq_some_iff.mp hpage
      obtain ⟨pages, hpages, hall⟩ := ih hrest
      refine ⟨ended.2 :: pages, ?_, .cons ⟨ended, hends, rfl⟩ hall⟩
      rw [hpages]
      simp [InMemory.store]

theorem DumpParser.parseXML_ends {document : DocumentTree} {orders : ℕ → ℕ → MapOrder}
    {pages : List Page} {revisions : StdMap UInt64 Revision}
    (hparse : parseXML lib { stored := {} } (callbacks document.events orders) =
      .ok (pages, revisions)) :
    List.Forall₂ (fun tree page => ∃ ended, PageTree.ends? lib tree = some ended ∧
      ended.2 = page) document.pages pages := by
  rw [parseXML_document] at hparse
  obtain ⟨stored, hread, hresult⟩ := map_ok hparse
  have hwalk : document.walk lib InMemory.store {} = some stored := by
    rw [document.walk_eq_read, hread]
    rfl
  obtain ⟨pages', hpages, hall⟩ := DocumentTree.walk_pages hwalk
  cases hresult
  rw [hpages]
  exact hall

/-- When a dump of which each page has newer revisions than before is parsed, each page that
is returned has grown out of the page that was returned before. -/
theorem DumpParser.parseXML_grown {document document' : DocumentTree}
    (hgrown : List.Forall₂ (fun tree tree' => ∃ news, PageTree.NewRevisions lib tree tree' news)
      document.pages document'.pages)
    (hties : ∀ tree ∈ document.pages,
      TiesAgree (tree.revisions.filterMap (RevisionTree.walk lib)))
    {orders orders' : ℕ → ℕ → MapOrder} {pages pages' : List Page}
    {revisions revisions' : StdMap UInt64 Revision}
    (hparse : parseXML lib { stored := {} } (callbacks document.events orders) =
      .ok (pages, revisions))
    (hparse' : parseXML lib { stored := {} } (callbacks document'.events orders') =
      .ok (pages', revisions')) :
    List.Forall₂ (fun trees found => ∃ news, PageTree.NewRevisions lib trees.1 trees.2 news ∧
        Page.GrownInto news found.1 found.2)
      (document.pages.zip document'.pages) (pages.zip pages') := by
  have hends := parseXML_ends hparse
  have hends' := parseXML_ends hparse'
  generalize document.pages = trees at hgrown hties hends
  generalize document'.pages = trees' at hgrown hends'
  clear hparse hparse'
  induction hgrown generalizing pages pages' with
  | nil =>
      cases hends
      cases hends'
      exact .nil
  | cons htree _ ih =>
      obtain ⟨news, hnews⟩ := htree
      rw [List.forall_mem_cons] at hties
      cases hends with
      | cons hpage hpages =>
          cases hends' with
          | cons hpage' hpages' =>
              obtain ⟨ended, hended, rfl⟩ := hpage
              obtain ⟨ended', hended', rfl⟩ := hpage'
              exact .cons (hnews.grownInto hties.1 hended hended') (ih hties.2 hpages hpages')

end Trees

section Sample

/-- The page of the history before its citation was removed. -/
def youngPage : PageTree where
  title? := some ["Page".toList]
  id? := some ["7".toList]
  children := [.title ["Page".toList], .id ["7".toList],
    .revision (historyRevision "5" "2001-09-09T01:46:40Z" "{{a|title=T}}")]
  titles := rfl
  ids := rfl

def youngDocument : DocumentTree where
  root := mediawiki
  children := [.page youngPage]

def removal : List RevisionCitations :=
  [historyRevision "6" "2001-09-09T01:46:41Z" "gone"].filterMap
    (RevisionTree.walk historyLibrary)

theorem youngPage_newRevisions :
    youngPage.NewRevisions historyLibrary historyPage removal where
  title := by decide +kernel
  id := by decide +kernel
  revisions := by decide +kernel
  later := by decide +kernel
  inOrder := by decide +kernel

theorem parseXML_grown_history :
    ∃ pages revisions pages' revisions',
      DumpParser.parseXML historyLibrary { stored := {} }
          (callbacks youngDocument.events fun _ _ => .ascending) = .ok (pages, revisions) ∧
        DumpParser.parseXML historyLibrary { stored := {} }
          (callbacks historyDocument.events fun _ _ => .ascending) = .ok (pages', revisions') ∧
        List.Forall₂ (fun trees found => ∃ news,
            PageTree.NewRevisions historyLibrary trees.1 trees.2 news ∧
              Page.GrownInto news found.1 found.2)
          (youngDocument.pages.zip historyDocument.pages) (pages.zip pages') := by
  have hreturns : ∃ pages revisions, DumpParser.parseXML historyLibrary { stored := {} }
      (callbacks youngDocument.events fun _ _ => .ascending) = .ok (pages, revisions) :=
    ⟨_, _, rfl⟩
  have hreturns' : ∃ pages revisions, DumpParser.parseXML historyLibrary { stored := {} }
      (callbacks historyDocument.events fun _ _ => .ascending) = .ok (pages, revisions) :=
    ⟨_, _, rfl⟩
  obtain ⟨pages, revisions, hparse⟩ := hreturns
  obtain ⟨pages', revisions', hparse'⟩ := hreturns'
  have hties : ∀ tree ∈ youngDocument.pages,
      TiesAgree (tree.revisions.filterMap (RevisionTree.walk historyLibrary)) := by
    intro tree htree
    rw [List.mem_singleton.mp htree]
    exact TiesAgree.of_nodup (by decide +kernel)
  exact ⟨pages, revisions, pages', revisions', hparse, hparse',
    DumpParser.parseXML_grown (.cons ⟨removal, youngPage_newRevisions⟩ .nil) hties hparse hparse'⟩

end Sample

end Citescoop
