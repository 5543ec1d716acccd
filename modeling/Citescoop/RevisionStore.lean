/-
Which revisions are stored for a page: at every step of the loop exactly those
that some citation of the page refers to.
-/
import Citescoop.CitationLifeCycle
import Citescoop.RefCount

namespace Citescoop

open ExceptFold

/-- How often a citation refers to a revision. -/
def Citation.references (revisionId : UInt64) (citation : Citation) : ℕ :=
  (if citation.revisionAdded? = some revisionId then 1 else 0) +
    if citation.revisionRemoved? = some revisionId then 1 else 0

/-- Whether a citation names a revision at all. -/
def Citation.Names (citation : Citation) (revisionId : UInt64) : Prop :=
  citation.revisionAdded? = some revisionId ∨
    citation.revisionRemoved? = some revisionId

/-- The number of citations that the revision added, and of those that it
removed. -/
def referenceCount (citations : List Citation) (revisionId : UInt64) : ℕ :=
  citations.countP (fun citation => citation.revisionAdded? = some revisionId) +
    citations.countP (fun citation => citation.revisionRemoved? = some revisionId)

theorem sum_references (revisionId : UInt64) (citations : List Citation) :
    (citations.map (Citation.references revisionId)).sum =
      referenceCount citations revisionId := by
  induction citations with
  | nil => rfl
  | cons citation citations ih =>
      rw [List.map_cons, List.sum_cons, ih]
      simp only [referenceCount, Citation.references, List.countP_cons,
        decide_eq_true_eq]
      omega

theorem referenceCount_pos_iff {citations : List Citation} {revisionId : UInt64} :
    0 < referenceCount citations revisionId ↔
      ∃ citation ∈ citations, citation.Names revisionId := by
  rw [referenceCount, Nat.add_pos_iff_pos_or_pos, List.countP_pos_iff,
    List.countP_pos_iff]
  simp only [decide_eq_true_eq, ← exists_or, ← and_or_left, Citation.Names]

namespace CitationLoop

/-- The reference counts are right, and so is the set of stored revisions. -/
structure RefCounted (currentPageRevisions : StdMap UInt64 Revision)
    (loop : CitationLoop) : Prop where
  refCount : ∀ revisionId, loop.refCount.getD revisionId 0 =
    referenceCount (loop.discoveredCitations.toList.map Prod.snd) revisionId
  stored : ∀ revisionId, revisionId ∈ loop.revisionsToStore ↔
    0 < loop.refCount.getD revisionId 0
  known : ∀ (revisionId : UInt64) (revision : Revision),
    loop.revisionsToStore[revisionId]? = some revision →
      currentPageRevisions[revisionId]? = some revision ∧
        revision.revisionId = revisionId

variable {currentPageRevisions : StdMap UInt64 Revision}
  {loop next : CitationLoop}

/-- The counters of the loop against the marks. -/
def Counted (currentPageRevisions : StdMap UInt64 Revision) (loop : CitationLoop) :
    Prop :=
  RefCount.Counts currentPageRevisions loop.revisionsToStore loop.refCount
    fun revisionId =>
      MapEntries.total (Citation.references revisionId) loop.discoveredCitations

theorem Counted.refCounted (hcounted : loop.Counted currentPageRevisions)
    (hids : ∀ (revisionId : UInt64) (revision : Revision),
      currentPageRevisions[revisionId]? = some revision →
        revision.revisionId = revisionId) :
    loop.RefCounted currentPageRevisions where
  refCount revisionId := by
    rw [hcounted.refs, MapEntries.total, ← sum_references, List.map_map]
    rfl
  stored := hcounted.mem_stored_iff
  known revisionId revision hstored := by
    have hknown := hcounted.stored_known hstored
    exact ⟨hknown, hids revisionId revision hknown⟩

theorem Counted.setCitations (hcounted : loop.Counted currentPageRevisions)
    (citations : RevisionCitations) :
    Counted currentPageRevisions { loop with citations := citations } :=
  hcounted

/-- The marks and counters of a round of `CheckExistingCitations` move
together. -/
theorem Counted.checkRound {entry : Text × Citation}
    (hcounted : loop.Counted currentPageRevisions)
    (hentry : loop.discoveredCitations[entry.1]? = some entry.2)
    (hcheck : loop.checkExistingCitation currentPageRevisions entry = .ok next) :
    next.Counted currentPageRevisions := by
  rcases entry with ⟨key, citation⟩
  simp only at hentry
  have htotal := fun revisionId => MapEntries.total_insert_of_some
    (Citation.references revisionId) hentry
  have hchecked : Checked currentPageRevisions loop key citation next :=
    checkExistingCitation_checked hcheck
  cases hchecked with
  | restored hkey hremoved =>
      apply RefCount.Counts.release hcounted
      intro other
      have hsum := htotal other { citation with revisionRemoved? := none }
      simp only [Citation.references, hremoved, reduceCtorEq, ↓reduceIte,
        Option.some.injEq] at hsum
      simp only [setCitation, dropReference, eraseKey]
      omega
  | present hkey hremoved => exact hcounted
  | gone hkey hremoved => exact hcounted
  | removed hkey hremoved href =>
      obtain ⟨revision, hrevision, rfl⟩ := reference_ok href
      apply RefCount.Counts.acquire hcounted hrevision
      intro other
      have hsum := htotal other
        { citation with revisionRemoved? := some loop.citations.revisionId }
      simp only [Citation.references, hremoved, reduceCtorEq, ↓reduceIte,
        Option.some.injEq] at hsum
      simp only [setCitation]
      omega

theorem Counted.addRound {entry : Text × ExtractedCitation}
    (hcounted : loop.Counted currentPageRevisions)
    (hadd : loop.addNewCitation currentPageRevisions entry = .ok next) :
    next.Counted currentPageRevisions := by
  unfold addNewCitation at hadd
  by_cases hkey : entry.1 ∈ loop.discoveredCitations
  · rw [if_pos hkey, Except.ok.injEq] at hadd
    exact hadd ▸ hcounted
  · rw [if_neg hkey] at hadd
    obtain ⟨middle, href, rfl⟩ := reference_map_ok hadd
    obtain ⟨revision, hrevision, rfl⟩ := reference_ok href
    have hnone : loop.discoveredCitations[entry.1]? = none := by simpa using hkey
    apply RefCount.Counts.acquire hcounted hrevision
    intro other
    simp only [setCitation, MapEntries.total_insert_of_none _ hnone]
    simp [Citation.references, add_comm]

theorem Counted.checkEntries {entries : List (Text × Citation)}
    (hcounted : loop.Counted currentPageRevisions)
    (hdone : entries <+: loop.discoveredCitations.toList)
    (hcheck : entries.foldlM (checkExistingCitation currentPageRevisions) loop =
      .ok next) : next.Counted currentPageRevisions := by
  apply checkEntries_invariant (Counted currentPageRevisions) _ _ _ hcounted hcheck
  · intro state entry after hstate hentry hround
    exact hstate.checkRound hentry hround
  · exact (hdone.sublist.map _).nodup (MapEntries.nodup_keys_toList _)
  · intro entry hentry
    exact Std.ExtTreeMap.mem_toList_iff_getElem?_eq_some.mp (hdone.subset hentry)

theorem Counted.addEntries {entries : List (Text × ExtractedCitation)}
    (hcounted : loop.Counted currentPageRevisions)
    (hadd : entries.foldlM (addNewCitation currentPageRevisions) loop = .ok next) :
    next.Counted currentPageRevisions :=
  foldlM_invariant (Counted currentPageRevisions)
    (fun _ _ _ _ hstate hround => hstate.addRound hround) hcounted hadd

theorem Counted.nextRevision {round : RevisionCitations × MapOrder}
    (hcounted : loop.Counted currentPageRevisions)
    (hadd : loop.addRevision currentPageRevisions round = .ok next) :
    next.Counted currentPageRevisions := by
  obtain ⟨middle, hcheck, hadd⟩ := addRevision_ok hadd
  have hmiddle : middle.Counted currentPageRevisions :=
    (hcounted.setCitations round.1).checkEntries List.prefix_rfl hcheck
  exact hmiddle.addEntries hadd

theorem Counted.revisions {rounds : List (RevisionCitations × MapOrder)}
    (hcounted : loop.Counted currentPageRevisions)
    (hfold : rounds.foldlM (addRevision currentPageRevisions) loop = .ok next) :
    next.Counted currentPageRevisions :=
  foldlM_invariant (Counted currentPageRevisions)
    (fun _ _ _ _ hstate hround => hstate.nextRevision hround) hcounted hfold

theorem counted_start (currentPageRevisions : StdMap UInt64 Revision) :
    Counted currentPageRevisions {} := by
  apply (RefCount.Counts.empty currentPageRevisions).congr
  intro revisionId
  exact MapEntries.total_empty _

/-- The states of the loop between two iterations, of the outer loop or of one
of the two inner ones. -/
inductive DuringLoop (currentPageRevisions : StdMap UInt64 Revision)
    (rounds : List (RevisionCitations × MapOrder)) (start : CitationLoop) :
    CitationLoop → Prop
  | between {before after : List (RevisionCitations × MapOrder)}
      {loop : CitationLoop} (hrounds : rounds = before ++ after)
      (hbefore : before.foldlM (addRevision currentPageRevisions) start = .ok loop) :
      DuringLoop currentPageRevisions rounds start loop
  | checking {before after : List (RevisionCitations × MapOrder)}
      {round : RevisionCitations × MapOrder} {loop state : CitationLoop}
      {done : List (Text × Citation)} (hrounds : rounds = before ++ round :: after)
      (hbefore : before.foldlM (addRevision currentPageRevisions) start = .ok loop)
      (hdone : done <+: loop.discoveredCitations.toList)
      (hcheck : done.foldlM (checkExistingCitation currentPageRevisions)
        { loop with citations := round.1 } = .ok state) :
      DuringLoop currentPageRevisions rounds start state
  | adding {before after : List (RevisionCitations × MapOrder)}
      {round : RevisionCitations × MapOrder} {loop checked state : CitationLoop}
      {done : List (Text × ExtractedCitation)}
      (hrounds : rounds = before ++ round :: after)
      (hbefore : before.foldlM (addRevision currentPageRevisions) start = .ok loop)
      (hchecked : checkExistingCitations currentPageRevisions
        { loop with citations := round.1 } = .ok checked)
      (hdone : done <+: round.2.entries checked.citations.citations)
      (hadd : done.foldlM (addNewCitation currentPageRevisions) checked = .ok state) :
      DuringLoop currentPageRevisions rounds start state

theorem DuringLoop.counted {rounds : List (RevisionCitations × MapOrder)}
    (hduring : DuringLoop currentPageRevisions rounds {} loop) :
    loop.Counted currentPageRevisions := by
  have hstart := counted_start currentPageRevisions
  cases hduring with
  | between hrounds hbefore => exact hstart.revisions hbefore
  | @checking _ _ round _ _ _ hrounds hbefore hdone hcheck =>
      have hloop := (hstart.revisions hbefore).setCitations round.1
      exact hloop.checkEntries hdone hcheck
  | @adding _ _ round _ _ _ _ hrounds hbefore hchecked hdone hadd =>
      have hloop := (hstart.revisions hbefore).setCitations round.1
      exact (hloop.checkEntries List.prefix_rfl hchecked).addEntries hadd

end CitationLoop

namespace PageState

/-- The members as every callback leaves them: nothing is stored ahead of the
end of the page, and the revisions of the page are known under their ids. -/
structure Valid (page : PageState) : Prop where
  citations : page.currentPage.citations = []
  revisionsToStore : page.revisionsToStore = ∅
  known : ∀ revision ∈ page.citationsByRevision,
    revision.revisionId ∈ page.currentPageRevisions
  revisionId : ∀ (revisionId : UInt64) (revision : Revision),
    page.currentPageRevisions[revisionId]? = some revision →
      revision.revisionId = revisionId

variable {sort : RevisionSort} {orders : ℕ → MapOrder} {page result : PageState}

/-- The revisions that a finished page stores are those its citations name. -/
theorem Valid.makePageCitationList_closed (hvalid : page.Valid)
    (hmake : page.makePageCitationList sort orders = .ok result) :
    (∀ revisionId, revisionId ∈ result.revisionsToStore ↔
      ∃ citation ∈ result.currentPage.citations, citation.Names revisionId) ∧
    ∀ (revisionId : UInt64) (revision : Revision),
      result.revisionsToStore[revisionId]? = some revision →
        revision.revisionId = revisionId := by
  obtain ⟨loop, hfold, rfl⟩ := makePageCitationList_ok sort orders hmake
  rw [hvalid.revisionsToStore] at hfold
  have hcounted := (CitationLoop.counted_start _).revisions hfold
  have hrefs := hcounted.refCounted hvalid.revisionId
  refine ⟨fun revisionId => ?_, fun revisionId revision hstored => ?_⟩
  · rw [hrefs.stored, hrefs.refCount, Int.natCast_pos, referenceCount_pos_iff,
      hvalid.citations, List.nil_append]
  · exact (hrefs.known revisionId revision hstored).2

/-- What a page ends as depends on the sort only through the life cycles of its
citations. -/
theorem Valid.makePageCitationList_congr (hvalid : page.Valid)
    {sort sort' : RevisionSort} (orders orders' : ℕ → MapOrder)
    (hsorts : ∀ key, lifeCycle key (sort.sort page.citationsByRevision) =
      lifeCycle key (sort'.sort page.citationsByRevision)) :
    page.makePageCitationList sort orders =
      page.makePageCitationList sort' orders' := by
  rcases makePageCitationList_returns sort orders hvalid.known with ⟨result, hmake⟩
  rcases makePageCitationList_returns sort' orders' hvalid.known with ⟨result', hmake'⟩
  rw [hmake, hmake']
  obtain ⟨loop, hfold, rfl⟩ := makePageCitationList_ok sort orders hmake
  obtain ⟨loop', hfold', rfl⟩ := makePageCitationList_ok sort' orders' hmake'
  rw [hvalid.revisionsToStore] at hfold hfold'
  have hmarks : loop.discoveredCitations = loop'.discoveredCitations := by
    apply Std.ExtTreeMap.ext_getElem?
    intro key
    rw [CitationLoop.foldlM_addRevision_marks rfl hfold,
      CitationLoop.foldlM_addRevision_marks rfl hfold', map_fst_rounds,
      map_fst_rounds, hsorts]
  have hcounted := (CitationLoop.counted_start _).revisions hfold
  have hcounted' := (CitationLoop.counted_start _).revisions hfold'
  unfold CitationLoop.Counted at hcounted hcounted'
  rw [← hmarks] at hcounted'
  rw [hmarks, hcounted.stored_unique hcounted']

/-- The orders in which protobuf maps are gone through leave no trace. -/
theorem Valid.makePageCitationList_orders (hvalid : page.Valid) (sort : RevisionSort)
    (orders orders' : ℕ → MapOrder) :
    page.makePageCitationList sort orders =
      page.makePageCitationList sort orders' :=
  hvalid.makePageCitationList_congr orders orders' fun _ => rfl

end PageState

end Citescoop
