/-
What the list of a page says about the page's history, from the revisions alone:
which titles stand in it, when each was added and when it was removed.  Nothing here
speaks of the order in which the loops go.
-/
import Citescoop.DocumentRead
import Citescoop.ParseResult
import Citescoop.Streaming
import Citescoop.TimestampTies

namespace Citescoop

open ExceptFold TieOrder

/-- What a citation says of the revisions of its page: it is that of an earliest
revision with the title; what removed it follows the last that has the title; and
unless it was removed, no revision is later than all that have the title. -/
structure Recounts (revisions : List RevisionCitations) (title : Text)
    (citation : Citation) : Prop where
  added : ∃ first, Earliest RevisionCitations.time (title ∈ ·.citations) revisions first ∧
    citation.revisionAdded? = some first.revisionId ∧
    citation.citation? = first.citations[title]?
  removed : ∀ revisionId, citation.revisionRemoved? = some revisionId →
    ∃ next, Follows RevisionCitations.time (title ∈ ·.citations) revisions next ∧
      next.revisionId = revisionId
  kept : citation.revisionRemoved? = none →
    ∀ revision, ¬ Later RevisionCitations.time (title ∈ ·.citations) revisions revision

theorem lifeCycle_recounts {title : Text} {revisions sorted : List RevisionCitations}
    (hsorted : SortedBy RevisionCitations.time revisions sorted) {citation : Citation}
    (hcitation : lifeCycle title sorted = some citation) :
    Recounts revisions title citation := by
  obtain ⟨first, hfirst, rfl⟩ := Option.map_eq_some_iff.mp hcitation
  refine ⟨⟨first, hsorted.earliest hfirst, rfl, rfl⟩, ?_, ?_⟩
  · intro revisionId hremoved
    obtain ⟨next, hnext, hid⟩ := Option.map_eq_some_iff.mp hremoved
    exact ⟨next, hsorted.follows hnext, hid⟩
  · intro hremoved
    exact hsorted.not_later (Option.map_eq_none_iff.mp hremoved)

/-- The citations of a page, one for each title that some revision has, in ascending
order of the titles. -/
def Page.Recounts (page : Page) (revisions : List RevisionCitations) : Prop :=
  ∃ titles : List Text, titles.Pairwise (fun title title' => compare title title' = .lt) ∧
    (∀ title, title ∈ titles ↔ ∃ revision ∈ revisions, title ∈ revision.citations) ∧
    List.Forall₂ (Citescoop.Recounts revisions) titles page.citations

theorem PageState.makePageCitationList_recounts {sort : RevisionSort} {orders : ℕ → MapOrder}
    {page result : PageState} (hempty : page.currentPage.citations = [])
    (hmake : page.makePageCitationList sort orders = .ok result) :
    result.currentPage.Recounts page.citationsByRevision := by
  obtain ⟨loop, hfold, rfl⟩ := makePageCitationList_ok sort orders hmake
  have hmarks := CitationLoop.foldlM_addRevision_marks rfl hfold
  rw [map_fst_rounds] at hmarks
  have hsorted := sort.sortedBy page.citationsByRevision
  refine ⟨loop.discoveredCitations.keys, Std.ExtTreeMap.ordered_keys, ?_, ?_⟩
  · intro title
    rw [Std.ExtTreeMap.mem_keys, Std.ExtTreeMap.mem_iff_isSome_getElem?, hmarks,
      isSome_lifeCycle_iff]
    simp only [hsorted.mem_iff]
  · rw [hempty, List.nil_append, ← Std.ExtTreeMap.map_fst_toList_eq_keys,
      List.forall₂_map_left_iff, List.forall₂_map_right_iff, List.forall₂_same]
    intro entry hentry
    apply lifeCycle_recounts hsorted
    rw [← hmarks]
    exact Std.ExtTreeMap.mem_toList_iff_getElem?_eq_some.mp hentry

/-- Every citation comes under its own title. -/
def RevisionCitations.Titled (revision : RevisionCitations) : Prop :=
  ∀ (title : Text) (extracted : ExtractedCitation),
    revision.citations[title]? = some extracted → extracted.title = title

/-- Citations of which each was added by some revision, in ascending order of their own
titles. -/
def Page.Listed (page : Page) : Prop :=
  ∃ titles : List Text, titles.Pairwise (fun title title' => compare title title' = .lt) ∧
    List.Forall₂ (fun title citation => citation.revisionAdded?.isSome ∧
      ∃ extracted, citation.citation? = some extracted ∧ extracted.title = title)
      titles page.citations

theorem Page.Recounts.listed {page : Page} {revisions : List RevisionCitations}
    (hpage : page.Recounts revisions) (htitled : ∀ revision ∈ revisions, revision.Titled) :
    page.Listed := by
  obtain ⟨titles, hascending, -, hcitations⟩ := hpage
  refine ⟨titles, hascending, hcitations.imp ?_⟩
  intro title citation hrecounts
  obtain ⟨first, hfirst, hadded, hextracted⟩ := hrecounts.added
  obtain ⟨extracted, hlook⟩ := Std.ExtTreeMap.mem_iff_isSome_getElem?.trans
    Option.isSome_iff_exists |>.mp hfirst.holds
  refine ⟨by rw [hadded]; rfl, extracted, hextracted.trans hlook, ?_⟩
  exact htitled first hfirst.mem title extracted hlook

namespace DumpParser

section Titled

variable {σ : Type} {lib : Library} {store : Store σ} {self next : DumpParser σ}

structure Titled (dump : DumpParser σ) : Prop where
  current : dump.currentCitations.Titled
  entries : ∀ revision ∈ dump.citationsByRevision, revision.Titled

theorem onEndField_parsed {name : Text}
    (hend : self.onEndField lib name = .ok next) :
    next.citationsByRevision = self.citationsByRevision ∧
      (next.currentCitations = self.currentCitations ∨
        lib.parser.parse self.textBuf = .ok next.currentCitations) := by
  unfold onEndField at hend
  split_ifs at hend
  · cases hend
    exact ⟨rfl, Or.inl rfl⟩
  · obtain ⟨pageId, -, rfl⟩ := map_ok hend
    exact ⟨rfl, Or.inl rfl⟩
  · obtain ⟨revisionId, -, rfl⟩ := map_ok hend
    exact ⟨rfl, Or.inl rfl⟩
  · obtain ⟨parentId, -, rfl⟩ := map_ok hend
    exact ⟨rfl, Or.inl rfl⟩
  · cases hend
    exact ⟨rfl, Or.inl rfl⟩
  · obtain ⟨citations, hparse, rfl⟩ := map_ok hend
    exact ⟨rfl, Or.inr (mapError_ok hparse)⟩
  · cases hend
    exact ⟨rfl, Or.inl rfl⟩
  · cases hend
    exact ⟨rfl, Or.inl rfl⟩

theorem Titled.callback (htitled : self.Titled) {call : Callback}
    (hcall : self.callback lib store call = .ok next) : next.Titled := by
  cases callback_called hcall with
  | startElement name =>
      unfold onStartElement
      split_ifs <;> exact ⟨htitled.current, htitled.entries⟩
  | endElement hended =>
      cases hended with
      | page hmake => exact ⟨htitled.current, by simp⟩
      | revision =>
          refine ⟨htitled.current, ?_⟩
          intro revision hrevision
          rcases List.mem_append.mp hrevision with hold | hnew
          · exact htitled.entries revision hold
          · rw [List.mem_singleton.mp hnew]
            exact htitled.current
      | contributor => exact ⟨htitled.current, htitled.entries⟩
      | field _ _ _ hfield =>
          obtain ⟨hentries, hcitations⟩ := onEndField_parsed hfield
          refine ⟨?_, fun revision hrevision =>
            htitled.entries revision (hentries ▸ hrevision)⟩
          rcases hcitations with hkept | hparse
          · exact hkept.symm ▸ htitled.current
          · intro title extracted hlook
            exact ParserImpl.parse_title hparse hlook
  | characters characters =>
      rw [onCharacters_eq]
      exact ⟨htitled.current, htitled.entries⟩

/-- Titled citations and listed pages come out of a parse that starts from such. -/
theorem Titled.startParser (pages : σ → List Page)
    (hstore : ∀ revisions page stored,
      pages (store revisions page stored) = pages stored ++ [page])
    (htitled : self.currentCitations.Titled) (hpages : ∀ page ∈ pages self.stored, page.Listed)
    (calls : List Callback) :
    (self.startParser lib store calls).state.currentCitations.Titled ∧
      ∀ page ∈ pages (self.startParser lib store calls).state.stored, page.Listed := by
  have hall : (self.startParser lib store calls).state.Valid ∧
      (self.startParser lib store calls).state.Titled ∧
      ∀ page ∈ pages (self.startParser lib store calls).state.stored, page.Listed := by
    apply EventLoop.run_invariant fun state : DumpParser σ =>
      state.Valid ∧ state.Titled ∧ ∀ page ∈ pages state.stored, page.Listed
    · rintro state call next ⟨hvalid, htitled, hpages⟩ hcall
      refine ⟨hvalid.callback hcall, htitled.callback hcall, ?_⟩
      rcases callback_stored hcall with ⟨-, ended, hmake, hstored⟩ | ⟨-, hstored⟩
      · intro page hpage
        rw [hstored, hstore] at hpage
        rcases List.mem_append.mp hpage with hold | hnew
        · exact hpages page hold
        · rw [List.mem_singleton.mp hnew]
          have hrecounts := PageState.makePageCitationList_recounts hvalid.page.citations hmake
          exact hrecounts.listed htitled.entries
      · exact hstored.symm ▸ hpages
    · exact ⟨initializeParser_valid _, ⟨htitled, by simp [initializeParser]⟩, hpages⟩
  exact ⟨hall.2.1.current, hall.2.2⟩

theorem titled_new (stored : σ) :
    ({ stored := stored } : DumpParser σ).currentCitations.Titled := by
  intro title extracted hlook
  simp at hlook

end Titled

end DumpParser

/-- A parser after some parses from its creation on, whatever came of each of them. -/
def DumpParser.afterParses (lib : Library) (parses : List (List Callback)) :
    DumpParser InMemory :=
  parses.foldl (fun self calls => (DumpParser.parseOutcome lib self calls).state)
    { stored := {} }

/-- The same for a parser that streams what it finds. -/
def StreamingDumpParser.afterParses (lib : Library) (parses : List (List Callback)) :
    StreamingDumpParser :=
  parses.foldl (fun self calls => (StreamingDumpParser.parseOutcome lib self calls).state)
    { stored := {} }

theorem DumpParser.afterParses_titled (lib : Library) (parses : List (List Callback)) :
    (DumpParser.afterParses lib parses).currentCitations.Titled ∧
      ∀ page ∈ (DumpParser.afterParses lib parses).stored.pages, page.Listed := by
  induction parses using List.reverseRecOn with
  | nil => exact ⟨titled_new _, List.forall_mem_nil _⟩
  | append_singleton parses calls ih =>
      have hleft : ({ afterParses lib parses with stored := {} } :
          DumpParser InMemory).currentCitations.Titled := ih.1
      rw [afterParses, List.foldl_append]
      exact Titled.startParser InMemory.pages (fun _ _ _ => rfl) hleft
        (List.forall_mem_nil _) calls

theorem StreamingDumpParser.afterParses_titled (lib : Library)
    (parses : List (List Callback)) :
    (StreamingDumpParser.afterParses lib parses).currentCitations.Titled ∧
      ∀ page ∈ (StreamingDumpParser.afterParses lib parses).stored.pages, page.Listed := by
  induction parses using List.reverseRecOn with
  | nil => exact ⟨DumpParser.titled_new _, List.forall_mem_nil _⟩
  | append_singleton parses calls ih =>
      have hleft : ({ afterParses lib parses with
          stored := { (afterParses lib parses).stored with pages := [], revisions := [] } } :
          StreamingDumpParser).currentCitations.Titled := ih.1
      rw [afterParses, List.foldl_append]
      refine DumpParser.Titled.startParser Streamed.pages ?_ hleft (List.forall_mem_nil _) calls
      intro revisions page streamed
      rw [Streamed.store, Streamed.foldl_writeRevision]
      rfl

/-- At every point of every parse of a parser that may have parsed before, also where a
callback throws, the pages that have been stored list their citations in ascending order
of the titles, one for each, and each with the revision that added it. -/
theorem DumpParser.afterParses_listed (lib : Library) (parses : List (List Callback)) :
    (∀ page ∈ (DumpParser.afterParses lib parses).stored.pages, page.Listed) ∧
      ∀ page ∈ (StreamingDumpParser.afterParses lib parses).stored.pages, page.Listed :=
  ⟨(DumpParser.afterParses_titled lib parses).2,
    (StreamingDumpParser.afterParses_titled lib parses).2⟩

section Trees

variable (lib : Library)

namespace RevisionTree

variable (tree : RevisionTree)

/-- The id in the text of the revision. -/
def number : UInt64 :=
  (strToId tree.id.text).toOption.getD 0

def time : ℤ ×ₗ ℤ :=
  let timestamp := (lib.timeFromString tree.timestamp.text).getD {}
  toLex (timestamp.seconds, timestamp.nanos)

/-- A template with this title that the filter lets through stands in the wikitext. -/
def Cites (title : Text) : Prop :=
  ∃ entry ∈ (readTemplates tree.text.text).1,
    lib.parser.accepts entry = true ∧ entry.title = title

/-- What is recorded of the first such template. -/
def cited? (title : Text) : Option ExtractedCitation :=
  (readTemplates tree.text.text).1.findSome? (lib.parser.citationFor title)

variable {lib tree}

theorem walk_eq_some {entry : RevisionCitations} (hwalk : tree.walk lib = some entry) :
    entry.revisionId = tree.number ∧ entry.time = tree.time lib ∧
      (∀ title : Text, entry.citations[title]? = tree.cited? lib title) := by
  obtain ⟨revisionId, hid, hwalk⟩ := Option.bind_eq_some_iff.mp hwalk
  obtain ⟨parentId?, -, hwalk⟩ := Option.bind_eq_some_iff.mp hwalk
  obtain ⟨citations, hparse, hentry⟩ := Option.bind_eq_some_iff.mp hwalk
  cases hentry
  refine ⟨?_, rfl, ?_⟩
  · rw [number, hid]
    rfl
  · intro title
    cases hresult : lib.parser.parse tree.text.text with
    | error exception => rw [hresult] at hparse; cases hparse
    | ok result =>
        rw [hresult] at hparse
        cases hparse
        change citations.citations[title]? = _
        exact ParserImpl.parse_getElem? title hresult

theorem isSome_cited?_iff {title : Text} :
    (tree.cited? lib title).isSome ↔ tree.Cites lib title := by
  simp [cited?, Cites, ParserImpl.citationFor, List.findSome?_isSome_iff]

end RevisionTree

/-- What a citation says of the revisions of its page, as they stand in the dump. -/
structure Citation.Tells (revisions : List RevisionTree) (title : Text)
    (citation : Citation) : Prop where
  added : ∃ first, Earliest (RevisionTree.time lib) (·.Cites lib title) revisions first ∧
    citation.revisionAdded? = some first.number ∧
    citation.citation? = first.cited? lib title
  removed : ∀ revisionId, citation.revisionRemoved? = some revisionId →
    ∃ next, Follows (RevisionTree.time lib) (·.Cites lib title) revisions next ∧
      next.number = revisionId
  kept : citation.revisionRemoved? = none →
    ∀ revision, ¬ Later (RevisionTree.time lib) (·.Cites lib title) revisions revision

/-- A page with the title and the id that stand in the dump, and with one citation for
each title that some revision cites, in ascending order. -/
structure Page.Describes (page : Page) (tree : PageTree) : Prop where
  title : page.title? = tree.title?.map Chunks.text
  pageId : page.pageId? = tree.id?.bind fun chunks => (strToId chunks.text).toOption
  citations : ∃ titles : List Text,
    titles.Pairwise (fun title title' => compare title title' = .lt) ∧
    (∀ title, title ∈ titles ↔ ∃ revision ∈ tree.revisions, revision.Cites lib title) ∧
    List.Forall₂ (Citation.Tells lib tree.revisions) titles page.citations

variable {lib}

theorem Recounts.tells {revisions : List RevisionTree}
    (hwalks : ∀ revision ∈ revisions, (revision.walk lib).isSome) {title : Text}
    {citation : Citation}
    (hrecounts : Recounts (revisions.map fun revision => (revision.walk lib).getD {}) title
      citation) : citation.Tells lib revisions title := by
  have hentry : ∀ revision ∈ revisions,
      ((revision.walk lib).getD {}).revisionId = revision.number ∧
      ((revision.walk lib).getD {}).time = revision.time lib ∧
      ((revision.walk lib).getD {}).citations[title]? = revision.cited? lib title := by
    intro revision hrevision
    obtain ⟨entry, hwalk⟩ := Option.isSome_iff_exists.mp (hwalks revision hrevision)
    obtain ⟨hid, htime, hcitations⟩ := RevisionTree.walk_eq_some hwalk
    rw [hwalk]
    exact ⟨hid, htime, hcitations title⟩
  have hsame : ∀ revision ∈ revisions,
      ((revision.walk lib).getD {}).time = revision.time lib ∧
      (title ∈ ((revision.walk lib).getD {}).citations ↔ revision.Cites lib title) := by
    intro revision hrevision
    refine ⟨(hentry revision hrevision).2.1, ?_⟩
    rw [Std.ExtTreeMap.mem_iff_isSome_getElem?, (hentry revision hrevision).2.2,
      RevisionTree.isSome_cited?_iff]
  refine ⟨?_, ?_, ?_⟩
  · obtain ⟨_, hfirst, hadded, hcitation⟩ := hrecounts.added
    obtain ⟨first, rfl, hearliest⟩ := hfirst.of_map hsame
    rw [(hentry first hearliest.mem).1] at hadded
    rw [(hentry first hearliest.mem).2.2] at hcitation
    exact ⟨first, hearliest, hadded, hcitation⟩
  · intro revisionId hremoved
    obtain ⟨_, hnext, rfl⟩ := hrecounts.removed revisionId hremoved
    obtain ⟨next, rfl, hfollows⟩ := hnext.of_map hsame
    exact ⟨next, hfollows, (hentry next hfollows.mem).1.symm⟩
  · intro hkept revision hlater
    exact hrecounts.kept hkept _ (hlater.map hsame)

/-- A page that has been read and has ended. -/
theorem PageTree.describes {tree : PageTree} {page result : PageState} {sort : RevisionSort}
    {orders : ℕ → MapOrder} (hread : tree.read lib = .ok page)
    (hmake : page.makePageCitationList sort orders = .ok result) :
    result.currentPage.Describes lib tree := by
  obtain ⟨-, hwalks⟩ := tree.read_returns_iff.mp ⟨page, hread⟩
  have hentries : tree.revisions.filterMap (RevisionTree.walk lib) =
      tree.revisions.map fun revision => (revision.walk lib).getD {} := by
    rw [← List.filterMap_eq_map]
    apply List.filterMap_congr
    intro revision hrevision
    obtain ⟨entry, hwalk⟩ := Option.isSome_iff_exists.mp (hwalks revision hrevision)
    simp [hwalk]
  obtain rfl := tree.read_ok hread
  obtain ⟨titles, hascending, htitles, hcitations⟩ :=
    PageState.makePageCitationList_recounts rfl hmake
  obtain ⟨loop, -, rfl⟩ := PageState.makePageCitationList_ok sort orders hmake
  refine ⟨rfl, rfl, titles, hascending, ?_, ?_⟩
  · intro title
    rw [htitles]
    simp only [List.mem_filterMap]
    constructor
    · rintro ⟨entry, ⟨revision, hrevision, hwalk⟩, htitle⟩
      refine ⟨revision, hrevision, ?_⟩
      rwa [Std.ExtTreeMap.mem_iff_isSome_getElem?, (RevisionTree.walk_eq_some hwalk).2.2,
        RevisionTree.isSome_cited?_iff] at htitle
    · rintro ⟨revision, hrevision, hcites⟩
      obtain ⟨entry, hwalk⟩ := Option.isSome_iff_exists.mp (hwalks revision hrevision)
      refine ⟨entry, ⟨revision, hrevision, hwalk⟩, ?_⟩
      rwa [Std.ExtTreeMap.mem_iff_isSome_getElem?, (RevisionTree.walk_eq_some hwalk).2.2,
        RevisionTree.isSome_cited?_iff]
  · rw [hentries] at hcitations
    exact hcitations.imp fun title citation hrecounts => hrecounts.tells hwalks

/-- The revision of a tree with everything that it says about itself. -/
def RevisionTree.described? (lib : Library) (tree : RevisionTree) : Option Revision :=
  (tree.walk lib).map RevisionCitations.revision

/-- What a page stores, stands in it. -/
theorem PageTree.describes_stored {tree : PageTree} {page result : PageState}
    {sort : RevisionSort} {orders : ℕ → MapOrder} (hread : tree.read lib = .ok page)
    (hmake : page.makePageCitationList sort orders = .ok result) {revisionId : UInt64}
    {revision : Revision} (hstored : result.revisionsToStore[revisionId]? = some revision) :
    ∃ source ∈ tree.revisions,
      source.number = revisionId ∧ source.described? lib = some revision := by
  obtain rfl := tree.read_ok hread
  obtain ⟨loop, hfold, rfl⟩ := PageState.makePageCitationList_ok sort orders hmake
  have hcounted := (CitationLoop.counted_start _).revisions hfold
  have hknown := hcounted.stored_known hstored
  simp only [MapEntries.getElem?_insertAll, Std.ExtTreeMap.getElem?_empty,
    Option.none_or] at hknown
  obtain ⟨_, hentry, hsome⟩ := List.exists_of_findSome?_eq_some hknown
  obtain ⟨entry, hmem, rfl⟩ := List.mem_map.mp hentry
  obtain ⟨source, hsource, hwalk⟩ := List.mem_filterMap.mp hmem
  rw [Option.ite_none_right_eq_some, Option.some.injEq] at hsome
  refine ⟨source, hsource, ?_, ?_⟩
  · exact (RevisionTree.walk_eq_some hwalk).1.symm.trans hsome.1
  · rw [RevisionTree.described?, hwalk, Option.map_some]
    exact congrArg some hsome.2

/-- Pages that describe these, and revisions that stand in them. -/
structure InMemory.Describes (lib : Library) (stored : InMemory) (trees : List PageTree) :
    Prop where
  pages : List.Forall₂ (Page.Describes lib) stored.pages trees
  revisions : ∀ (revisionId : UInt64) (revision : Revision),
    stored.revisions[revisionId]? = some revision →
      ∃ tree ∈ trees, ∃ source ∈ tree.revisions,
        source.number = revisionId ∧ source.described? lib = some revision

theorem InMemory.Describes.child {stored next : InMemory} {trees : List PageTree}
    (hdescribes : stored.Describes lib trees) {child : DocumentChild}
    (hread : child.read lib InMemory.store stored = .ok next) :
    next.Describes lib (trees ++ child.page?.toList) := by
  cases child with
  | filler between =>
      cases hread
      simpa [DocumentChild.page?] using hdescribes
  | page tree =>
      obtain ⟨page, hpage, hended⟩ := bind_ok hread
      obtain ⟨result, hmake, rfl⟩ := map_ok hended
      refine ⟨?_, ?_⟩
      · exact List.rel_append hdescribes.pages (.cons (tree.describes hpage hmake) .nil)
      · intro revisionId revision hstored
        simp only [InMemory.store, MapEntries.getElem?_insertAll_toList,
          Option.or_eq_some_iff] at hstored
        rcases hstored with hold | ⟨-, hnew⟩
        · obtain ⟨other, hother, hsource⟩ := hdescribes.revisions revisionId revision hold
          exact ⟨other, List.mem_append_left _ hother, hsource⟩
        · exact ⟨tree, List.mem_append_right _ (List.mem_singleton_self tree),
            tree.describes_stored hpage hmake hnew⟩

theorem InMemory.Describes.children {children : List DocumentChild} {stored final : InMemory}
    {trees : List PageTree} (hdescribes : stored.Describes lib trees)
    (hread : children.foldlM (DocumentChild.read lib InMemory.store) stored = .ok final) :
    final.Describes lib (trees ++ children.filterMap DocumentChild.page?) := by
  induction children generalizing stored trees with
  | nil =>
      cases hread
      simpa using hdescribes
  | cons child children ih =>
      obtain ⟨next, hchild, hrest⟩ := foldlM_cons_ok.mp hread
      have hfinal := ih (hdescribes.child hchild) hrest
      rw [List.append_assoc] at hfinal
      cases hpage : child.page? <;> simpa [hpage] using hfinal

/-- For every document on which the parser returns, there is a page for each page of the
document, and its citations tell the history of the page: what each of them says is
settled by the revisions that stand there, by their timestamps and by the templates in
their texts.  The revisions that are returned are those that the citations name, and
each of them stands in the document. -/
theorem DumpParser.parseXML_describes (document : DocumentTree)
    (orders : ℕ → ℕ → MapOrder) {pages : List Page} {revisions : StdMap UInt64 Revision}
    (hparse : DumpParser.parseXML lib { stored := {} } (callbacks document.events orders) =
      .ok (pages, revisions)) :
    List.Forall₂ (Page.Describes lib) pages document.pages ∧
      (∀ revisionId, revisionId ∈ revisions ↔
        ∃ page ∈ pages, ∃ citation ∈ page.citations, citation.Names revisionId) ∧
      ∀ (revisionId : UInt64) (revision : Revision),
        revisions[revisionId]? = some revision →
          ∃ page ∈ document.pages, ∃ source ∈ page.revisions,
            source.number = revisionId ∧ source.described? lib = some revision := by
  have hclosed := parseOutcome_closed lib { stored := {} } (callbacks document.events orders)
  have hread := hparse
  rw [parseXML_document] at hread
  obtain ⟨stored, hstored, hresult⟩ := map_ok hread
  obtain ⟨rfl, rfl⟩ := Prod.mk.inj hresult
  have hempty : InMemory.Describes lib {} [] := ⟨.nil, by simp⟩
  have hdescribes := hempty.children hstored
  refine ⟨hdescribes.pages, ?_, hdescribes.revisions⟩
  unfold parseXML at hparse
  split at hparse
  · cases hparse
  · simp only [Except.ok.injEq, Prod.mk.injEq] at hparse
    rw [← hparse.1, ← hparse.2]
    exact hclosed.revisions

end Trees

section Sample

/-- A library that knows two times. -/
def historyLibrary : Library where
  parser := ⟨fun _ => true, {}⟩
  timeFromString text :=
    if text = "2001-09-09T01:46:40Z".toList then some ⟨1000000000, 0⟩
    else if text = "2001-09-09T01:46:41Z".toList then some ⟨1000000001, 0⟩
    else none
  sort := .insertion

/-- A page of which the later revision stands first and lacks the citation of the
other. -/
def historyPage : PageTree where
  title? := some ["Page".toList]
  id? := some ["7".toList]
  children := [.title ["Page".toList], .id ["7".toList],
    .revision (historyRevision "6" "2001-09-09T01:46:41Z" "gone"),
    .revision (historyRevision "5" "2001-09-09T01:46:40Z" "{{a|title=T}}")]
  titles := rfl
  ids := rfl

def historyDocument : DocumentTree where
  root := mediawiki
  children := [.page historyPage]

theorem parseXML_describes_history :
    ∃ pages revisions, DumpParser.parseXML historyLibrary { stored := {} }
        (callbacks historyDocument.events fun _ _ => .ascending) = .ok (pages, revisions) ∧
      List.Forall₂ (Page.Describes historyLibrary) pages historyDocument.pages ∧
      (∀ revisionId, revisionId ∈ revisions ↔
        ∃ page ∈ pages, ∃ citation ∈ page.citations, citation.Names revisionId) ∧
      ∀ (revisionId : UInt64) (revision : Revision),
        revisions[revisionId]? = some revision →
          ∃ page ∈ historyDocument.pages, ∃ source ∈ page.revisions,
            source.number = revisionId ∧
              source.described? historyLibrary = some revision := by
  have hreturns : ∃ pages revisions, DumpParser.parseXML historyLibrary { stored := {} }
      (callbacks historyDocument.events fun _ _ => .ascending) = .ok (pages, revisions) :=
    ⟨_, _, rfl⟩
  obtain ⟨pages, revisions, hparse⟩ := hreturns
  exact ⟨pages, revisions, hparse,
    DumpParser.parseXML_describes historyDocument (fun _ _ => .ascending) hparse⟩

example :
    (DumpParser.parseXML historyLibrary { stored := {} }
        (callbacks historyDocument.events fun _ _ => .ascending)).map
          (fun result => result.1.map Page.citations) =
      .ok [[⟨some { title? := some "T".toList }, some 5, some 6⟩]] := by
  rfl

end Sample

end Citescoop
