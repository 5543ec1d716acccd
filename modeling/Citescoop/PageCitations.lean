/-
The deduplicated citations of a page: the loop of `MakePageCitationList` over
the page's revisions, with `CheckExistingCitations` and `AddNewCitations`.
-/
import Citescoop.Messages
import Citescoop.ParserImpl

namespace Citescoop

/-- What a callback of the dump parser may throw. -/
inductive DumpException where
  | outOfRange
  | conversion (cause : ConversionError)
  | templateParse (exception : TemplateParseException)
  | dumpParse (message : Text)
deriving Repr, DecidableEq

/-- The order in which a loop goes through a protobuf map.  It is unspecified,
and need not be the same for two maps with the same contents. -/
structure MapOrder where
  entries : StdMap Text ExtractedCitation → List (Text × ExtractedCitation)
  entries_perm : ∀ m, (entries m).Perm m.toList

def MapOrder.ascending : MapOrder where
  entries m := m.toList
  entries_perm _ := List.Perm.refl _

/-- The comparison that revisions are sorted by. -/
def earlier (first second : RevisionCitations) : Bool :=
  if first.revision.timestamp.seconds == second.revision.timestamp.seconds then
    first.revision.timestamp.nanos < second.revision.timestamp.nanos
  else first.revision.timestamp.seconds < second.revision.timestamp.seconds

/-- `std::ranges::sort`.  It need not be stable, so the order of revisions with
one timestamp is left open. -/
structure RevisionSort where
  sort : List RevisionCitations → List RevisionCitations
  sort_perm : ∀ revisions, (sort revisions).Perm revisions
  sort_sorted : ∀ revisions,
    (sort revisions).Pairwise fun first second => earlier second first = false

/-- Sorting by insertion is one way to do it. -/
def RevisionSort.insertion : RevisionSort where
  sort := List.insertionSort fun first second => earlier second first = false
  sort_perm revisions := List.perm_insertionSort _ revisions
  sort_sorted revisions := by
    have htotal : Std.Total fun first second : RevisionCitations =>
        earlier second first = false := by
      constructor
      intro first second
      simp only [earlier]
      grind
    have htrans : IsTrans RevisionCitations fun first second =>
        earlier second first = false := by
      constructor
      intro first second third
      simp only [earlier]
      grind
    exact List.pairwise_insertionSort _ revisions

/-- The variables of the loop in `MakePageCitationList`; `citations` is the
loop variable, from which `CheckExistingCitations` removes what it has seen.  The
references are counted without the bound of an `int`, which `2 ^ 31` references to
one revision would exceed. -/
structure CitationLoop where
  discoveredCitations : StdMap Text Citation := ∅
  refCount : StdMap UInt64 Int := ∅
  revisionsToStore : StdMap UInt64 Revision := ∅
  citations : RevisionCitations := {}

namespace CitationLoop

variable (currentPageRevisions : StdMap UInt64 Revision)

/-- Note the revision for storing, and count the reference to it. -/
def reference (revisionId : UInt64) (loop : CitationLoop) :
    Except DumpException CitationLoop :=
  match currentPageRevisions[revisionId]? with
  | none => .error .outOfRange
  | some revision => .ok { loop with
      revisionsToStore := loop.revisionsToStore.insertIfNew revisionId revision
      refCount := loop.refCount.insert revisionId (loop.refCount.getD revisionId 0 + 1) }

/-- Take a reference back; a revision without references is not stored. -/
def dropReference (revisionId : UInt64) (loop : CitationLoop) : CitationLoop :=
  { loop with
    refCount := loop.refCount.insert revisionId (loop.refCount.getD revisionId 0 - 1)
    revisionsToStore :=
      if loop.refCount.getD revisionId 0 - 1 ≤ 0 then
        loop.revisionsToStore.erase revisionId
      else loop.revisionsToStore }

def setCitation (key : Text) (citation : Citation) (loop : CitationLoop) :
    CitationLoop :=
  { loop with discoveredCitations := loop.discoveredCitations.insert key citation }

def eraseKey (key : Text) (loop : CitationLoop) : CitationLoop :=
  { loop with citations :=
      { loop.citations with citations := loop.citations.citations.erase key } }

/-- The loop body of `CheckExistingCitations`, which writes to no other entry
of the map it goes through. -/
def checkExistingCitation (loop : CitationLoop) (entry : Text × Citation) :
    Except DumpException CitationLoop :=
  if entry.1 ∈ loop.citations.citations then
    if entry.2.revisionRemoved?.isSome then
      .ok (((loop.eraseKey entry.1).dropReference entry.2.revisionRemoved).setCitation
        entry.1 { entry.2 with revisionRemoved? := none })
    else .ok (loop.eraseKey entry.1)
  else if entry.2.revisionRemoved?.isSome then .ok loop
  else
    (loop.reference currentPageRevisions loop.citations.revisionId).map
      (setCitation entry.1
        { entry.2 with revisionRemoved? := some loop.citations.revisionId })

/-- The loop body of `AddNewCitations`. -/
def addNewCitation (loop : CitationLoop) (entry : Text × ExtractedCitation) :
    Except DumpException CitationLoop :=
  if entry.1 ∈ loop.discoveredCitations then .ok loop
  else
    (loop.reference currentPageRevisions loop.citations.revisionId).map
      (setCitation entry.1
        { citation? := some entry.2
          revisionAdded? := some loop.citations.revisionId })

def checkExistingCitations (loop : CitationLoop) : Except DumpException CitationLoop :=
  loop.discoveredCitations.toList.foldlM
    (checkExistingCitation currentPageRevisions) loop

def addNewCitations (order : MapOrder) (loop : CitationLoop) :
    Except DumpException CitationLoop :=
  (order.entries loop.citations.citations).foldlM
    (addNewCitation currentPageRevisions) loop

/-- One revision, with the order in which its citations are gone through. -/
def addRevision (loop : CitationLoop) (revision : RevisionCitations × MapOrder) :
    Except DumpException CitationLoop :=
  (checkExistingCitations currentPageRevisions
    { loop with citations := revision.1 }).bind
      (addNewCitations currentPageRevisions revision.2)

end CitationLoop

/-- The members of the dump parser that `MakePageCitationList` works on. -/
structure PageState where
  currentPage : Page := {}
  citationsByRevision : List RevisionCitations := []
  currentPageRevisions : StdMap UInt64 Revision := ∅
  revisionsToStore : StdMap UInt64 Revision := ∅

namespace PageState

/-- The revisions as the loop goes through them. -/
def rounds (page : PageState) (sort : RevisionSort) (orders : ℕ → MapOrder) :
    List (RevisionCitations × MapOrder) :=
  (sort.sort page.citationsByRevision).mapIdx fun i revision => (revision, orders i)

/-- The sorted and depleted `citations_by_revision_` is not kept: the caller
clears it at once. -/
def makePageCitationList (sort : RevisionSort) (orders : ℕ → MapOrder)
    (page : PageState) : Except DumpException PageState :=
  ((page.rounds sort orders).foldlM
    (CitationLoop.addRevision page.currentPageRevisions)
    { revisionsToStore := page.revisionsToStore }).map fun loop =>
      { page with
        revisionsToStore := loop.revisionsToStore
        currentPage := { page.currentPage with
          citations := page.currentPage.citations ++
            loop.discoveredCitations.toList.map Prod.snd } }

end PageState

end Citescoop
