/-
Revisions with equal timestamps.  `std::ranges::sort` may put them in any order,
so what a page's citations say depends on it wherever tied revisions disagree.
-/
import Citescoop.RevisionStore
import Citescoop.TieOrder

namespace Citescoop

open TieOrder

/-- The key that revisions are sorted by: seconds, then nanos. -/
def RevisionCitations.time (revision : RevisionCitations) : ℤ ×ₗ ℤ :=
  toLex (revision.revision.timestamp.seconds, revision.revision.timestamp.nanos)

theorem earlier_eq_false_iff {first second : RevisionCitations} :
    earlier second first = false ↔ first.time ≤ second.time := by
  simp only [earlier, RevisionCitations.time, Prod.Lex.toLex_le_toLex]
  grind

namespace RevisionSort

theorem sortedBy (sort : RevisionSort) (revisions : List RevisionCitations) :
    SortedBy RevisionCitations.time revisions (sort.sort revisions) :=
  ⟨sort.sort_perm revisions,
    (sort.sort_sorted revisions).imp fun hle => earlier_eq_false_iff.mp hle⟩

/-- A sort that may do as it likes with one list. -/
def returning {revisions sorted : List RevisionCitations}
    (hsorted : SortedBy RevisionCitations.time revisions sorted) : RevisionSort where
  sort other := if other = revisions then sorted else insertion.sort other
  sort_perm other := by
    split
    · next heq => exact heq ▸ hsorted.perm
    · exact insertion.sort_perm other
  sort_sorted other := by
    split
    · exact hsorted.pairwise.imp fun hle => earlier_eq_false_iff.mpr hle
    · exact insertion.sort_sorted other

theorem sort_returning {revisions sorted : List RevisionCitations}
    (hsorted : SortedBy RevisionCitations.time revisions sorted) :
    (returning hsorted).sort revisions = sorted :=
  if_pos rfl

/-- Revisions with equal timestamps keep the order in which they come. -/
def Stable (sort : RevisionSort) : Prop :=
  ∀ (revisions : List RevisionCitations) (time : ℤ ×ₗ ℤ),
    (sort.sort revisions).filter (·.time = time) = revisions.filter (·.time = time)

theorem insertion_stable : insertion.Stable := by
  intro revisions time
  have htotal : Std.Total fun first second : RevisionCitations =>
      earlier second first = false :=
    ⟨fun first second => by
      simp only [earlier_eq_false_iff]
      exact le_total _ _⟩
  have htrans : IsTrans RevisionCitations fun first second =>
      earlier second first = false :=
    ⟨fun first second third => by
      simp only [earlier_eq_false_iff]
      exact le_trans⟩
  have htied : (revisions.filter (·.time = time)).Pairwise fun first second =>
      earlier second first = false := by
    apply List.pairwise_of_forall_mem_list
    intro first hfirst second hsecond
    have hfirst := of_decide_eq_true (List.mem_filter.mp hfirst).2
    have hsecond := of_decide_eq_true (List.mem_filter.mp hsecond).2
    exact earlier_eq_false_iff.mpr (le_of_eq (hfirst.trans hsecond.symm))
  have hsublist := (List.sublist_insertionSort htied List.filter_sublist).filter (·.time = time)
  simp only [List.filter_filter, Bool.and_self] at hsublist
  apply (hsublist.eq_of_length _).symm
  exact ((insertion.sort_perm revisions).symm.filter _).length_eq

end RevisionSort

theorem isSome_lifeCycle_iff {key : Text} {revisions : List RevisionCitations} :
    (lifeCycle key revisions).isSome ↔ ∃ revision ∈ revisions, key ∈ revision.citations := by
  rw [lifeCycle, Option.isSome_map, List.find?_isSome]
  simp

/-- Life cycles agree when additions and removals do. -/
theorem lifeCycle_eq_iff {key : Text} {revisions revisions' : List RevisionCitations}
    (hkey : ∃ revision ∈ revisions, key ∈ revision.citations)
    (hkey' : ∃ revision ∈ revisions', key ∈ revision.citations) :
    lifeCycle key revisions = lifeCycle key revisions' ↔
      (revisions.find? (key ∈ ·.citations)).map
          (fun revision => (revision.revisionId, revision.citations[key]?)) =
        (revisions'.find? (key ∈ ·.citations)).map
          (fun revision => (revision.revisionId, revision.citations[key]?)) ∧
      (revisions.rtakeWhile (key ∉ ·.citations)).head?.map (·.revisionId) =
        (revisions'.rtakeWhile (key ∉ ·.citations)).head?.map (·.revisionId) := by
  rw [← isSome_lifeCycle_iff, lifeCycle, Option.isSome_map,
    Option.isSome_iff_exists] at hkey hkey'
  obtain ⟨first, hfirst⟩ := hkey
  obtain ⟨first', hfirst'⟩ := hkey'
  simp only [lifeCycle, hfirst, hfirst', Option.map_some, Option.some.injEq, Citation.mk.injEq,
    Prod.mk.injEq]
  tauto

/-- Revisions whose order among equal timestamps makes no difference: those that may be the
first with a citation agree on it, and so do those that may be the first without it
afterwards. -/
structure TiesAgree (revisions : List RevisionCitations) : Prop where
  added : ∀ key first second,
    Earliest RevisionCitations.time (key ∈ ·.citations) revisions first →
    Earliest RevisionCitations.time (key ∈ ·.citations) revisions second →
      first.revisionId = second.revisionId ∧ first.citations[key]? = second.citations[key]?
  removed : ∀ key, (∃ revision ∈ revisions, key ∈ revision.citations) → ∀ first second,
    Follows RevisionCitations.time (key ∈ ·.citations) revisions first →
    Follows RevisionCitations.time (key ∈ ·.citations) revisions second →
      first.revisionId = second.revisionId
  removed_later : ∀ key, (∃ revision ∈ revisions, key ∈ revision.citations) → ∀ first,
    Follows RevisionCitations.time (key ∈ ·.citations) revisions first →
      ∃ later, Later RevisionCitations.time (key ∈ ·.citations) revisions later

section Ties

variable {key : Text} {revisions : List RevisionCitations}

theorem lifeCycle_agrees_iff (hkey : ∃ revision ∈ revisions, key ∈ revision.citations) :
    (∀ sorted sorted', SortedBy RevisionCitations.time revisions sorted →
      SortedBy RevisionCitations.time revisions sorted' →
        lifeCycle key sorted = lifeCycle key sorted') ↔
      (∀ first second,
        Earliest RevisionCitations.time (key ∈ ·.citations) revisions first →
        Earliest RevisionCitations.time (key ∈ ·.citations) revisions second →
          (first.revisionId, first.citations[key]?) =
            (second.revisionId, second.citations[key]?)) ∧
      (∀ first second,
        Follows RevisionCitations.time (key ∈ ·.citations) revisions first →
        Follows RevisionCitations.time (key ∈ ·.citations) revisions second →
          first.revisionId = second.revisionId) ∧
      ∀ first, Follows RevisionCitations.time (key ∈ ·.citations) revisions first →
        ∃ later, Later RevisionCitations.time (key ∈ ·.citations) revisions later := by
  rw [← map_find?_eq_iff fun revision : RevisionCitations =>
      (revision.revisionId, revision.citations[key]?),
    ← map_head?_rtakeWhile_eq_iff RevisionCitations.revisionId]
  simp only [← forall_and]
  have hsome : ∀ sorted, SortedBy RevisionCitations.time revisions sorted →
      ∃ revision ∈ sorted, key ∈ revision.citations := by
    intro sorted hsorted
    simpa only [hsorted.mem_iff] using hkey
  apply forall₄_congr
  intro sorted sorted' hsorted hsorted'
  exact lifeCycle_eq_iff (hsome sorted hsorted) (hsome sorted' hsorted')

/-- Ties agree exactly when all ways to sort lead to the same life cycles. -/
theorem tiesAgree_iff :
    TiesAgree revisions ↔
      ∀ sorted sorted', SortedBy RevisionCitations.time revisions sorted →
        SortedBy RevisionCitations.time revisions sorted' →
          ∀ key, lifeCycle key sorted = lifeCycle key sorted' := by
  constructor
  · intro hties sorted sorted' hsorted hsorted' key
    by_cases hkey : ∃ revision ∈ revisions, key ∈ revision.citations
    · refine (lifeCycle_agrees_iff hkey).mpr ⟨?_, ?_, ?_⟩ sorted sorted' hsorted hsorted'
      · intro first second hfirst hsecond
        obtain ⟨hid, hcitation⟩ := hties.added key first second hfirst hsecond
        rw [hid, hcitation]
      · exact hties.removed key hkey
      · exact hties.removed_later key hkey
    · have hnone : ∀ other, SortedBy RevisionCitations.time revisions other →
          lifeCycle key other = none := by
        intro other hother
        rw [← Option.not_isSome_iff_eq_none, isSome_lifeCycle_iff]
        simpa only [hother.mem_iff] using hkey
      rw [hnone sorted hsorted, hnone sorted' hsorted']
  · intro hagree
    have hkeys := fun (key : Text) hkey => (lifeCycle_agrees_iff hkey).mp
      fun sorted sorted' hsorted hsorted' => hagree sorted sorted' hsorted hsorted' key
    refine ⟨?_, fun key hkey => (hkeys key hkey).2.1, fun key hkey => (hkeys key hkey).2.2⟩
    intro key first second hfirst hsecond
    have hsome := hkeys key ⟨first, hfirst.mem, hfirst.holds⟩
    exact Prod.mk.inj (hsome.1 first second hfirst hsecond)

/-- Ties agree where there are none. -/
theorem TiesAgree.of_nodup (htimes : (revisions.map RevisionCitations.time).Nodup) :
    TiesAgree revisions := by
  have hinj := List.inj_on_of_nodup_map htimes
  apply tiesAgree_iff.mpr
  intro sorted sorted' hsorted hsorted' key
  have hperm := hsorted.perm.trans hsorted'.perm.symm
  have heq : sorted = sorted' := by
    apply hperm.eq_of_pairwise _ hsorted.pairwise hsorted'.pairwise
    intro first second hfirst hsecond hle hge
    exact hinj (hsorted.mem_iff.mp hfirst) (hsorted'.mem_iff.mp hsecond) (le_antisymm hle hge)
  rw [heq]

end Ties

namespace PageState

/-- Whatever the sort does, the page ends as if its revisions were taken in document order
among equal timestamps. -/
def TiesInDocumentOrder (page : PageState) : Prop :=
  ∀ (sort stable : RevisionSort) (orders orders' : ℕ → MapOrder), stable.Stable →
    page.makePageCitationList sort orders = page.makePageCitationList stable orders'

variable {page : PageState}

theorem Valid.makePageCitationList_eq_iff (hvalid : page.Valid) {sort sort' : RevisionSort}
    (orders orders' : ℕ → MapOrder) :
    page.makePageCitationList sort orders = page.makePageCitationList sort' orders' ↔
      ∀ key, lifeCycle key (sort.sort page.citationsByRevision) =
        lifeCycle key (sort'.sort page.citationsByRevision) := by
  constructor
  · intro heq
    rcases makePageCitationList_returns sort orders hvalid.known with ⟨result, hmake⟩
    have hmake' := heq ▸ hmake
    obtain ⟨loop, hfold, rfl⟩ := makePageCitationList_ok sort orders hmake
    obtain ⟨loop', hfold', hresult⟩ := makePageCitationList_ok sort' orders' hmake'
    have hmarks := CitationLoop.foldlM_addRevision_marks rfl hfold
    have hmarks' := CitationLoop.foldlM_addRevision_marks rfl hfold'
    rw [map_fst_rounds] at hmarks hmarks'
    have hvalues : loop.discoveredCitations.toList.map Prod.snd =
        loop'.discoveredCitations.toList.map Prod.snd := by
      have hcitations := congrArg (fun result => result.currentPage.citations) hresult
      exact List.append_cancel_left hcitations
    have hmaps : loop.discoveredCitations = loop'.discoveredCitations := by
      apply MapEntries.eq_of_map_snd_toList _ hvalues
      intro key
      rw [Std.ExtTreeMap.mem_iff_isSome_getElem?, Std.ExtTreeMap.mem_iff_isSome_getElem?, hmarks,
        hmarks', isSome_lifeCycle_iff, isSome_lifeCycle_iff]
      simp only [(sort.sort_perm _).mem_iff, (sort'.sort_perm _).mem_iff]
    intro key
    rw [← hmarks, ← hmarks', hmaps]
  · exact hvalid.makePageCitationList_congr orders orders'

/-- Revisions with equal timestamps are in effect taken in document order exactly when
their order makes no difference. -/
theorem tiesInDocumentOrder_iff (hvalid : page.Valid) :
    page.TiesInDocumentOrder ↔ TiesAgree page.citationsByRevision := by
  rw [tiesAgree_iff]
  constructor
  · intro hties sorted sorted' hsorted hsorted' key
    have hsame : ∀ {other},
        SortedBy RevisionCitations.time page.citationsByRevision other →
          lifeCycle key other =
            lifeCycle key (RevisionSort.insertion.sort page.citationsByRevision) := by
      intro other hother
      have heq := hties (.returning hother) .insertion (fun _ => .ascending)
        (fun _ => .ascending) RevisionSort.insertion_stable
      rw [← (hvalid.makePageCitationList_eq_iff _ _).mp heq key, RevisionSort.sort_returning]
    rw [hsame hsorted, hsame hsorted']
  · intro hagree sort stable orders orders' _
    apply hvalid.makePageCitationList_congr
    exact hagree _ _ (sort.sortedBy _) (stable.sortedBy _)

theorem valid_twoRevisions : twoRevisions.Valid where
  citations := rfl
  revisionsToStore := rfl
  known := by decide
  revisionId := by
    intro revisionId revision hrevision
    simp only [twoRevisions, Std.ExtTreeMap.getElem?_insert] at hrevision
    split at hrevision
    · next heq =>
      rw [← Option.some.inj hrevision]
      exact Std.LawfulEqOrd.eq_of_compare heq
    · split at hrevision
      · next heq =>
        rw [← Option.some.inj hrevision]
        exact Std.LawfulEqOrd.eq_of_compare heq
      · simp at hrevision

theorem tiesInDocumentOrder_twoRevisions : twoRevisions.TiesInDocumentOrder :=
  (tiesInDocumentOrder_iff valid_twoRevisions).mpr (TiesAgree.of_nodup (by decide))

/-- One of some revisions with the same timestamp, of which the last has a citation. -/
def tiedRevision (index : ℕ) : RevisionCitations where
  revision? := some { revisionId? := some (.ofNat index), timestamp? := some ⟨10, 0⟩ }
  citations :=
    if index = 16 then (∅ : StdMap Text ExtractedCitation).insert "Title".toList {} else ∅

/-- Seventeen of them, one more than are sorted by insertion alone. -/
def tiedRevisions : PageState where
  citationsByRevision := (List.range 17).map tiedRevision
  currentPageRevisions := (List.range 17).foldl (fun revisions index =>
    revisions.insertIfNew (.ofNat index) (tiedRevision index).revision) ∅

/-- Partitioning them around the middle one puts them in this order. -/
def partitioned : List ℕ :=
  [8, 16, 15, 14, 13, 12, 11, 10, 9, 0, 7, 6, 5, 4, 3, 2, 1]

theorem sortedBy_partitioned :
    SortedBy RevisionCitations.time tiedRevisions.citationsByRevision
      (partitioned.map tiedRevision) where
  perm := List.Perm.map tiedRevision (by decide)
  pairwise := List.pairwise_map.mpr (List.pairwise_of_forall fun _ _ => le_rfl)

/-- Document order adds the citation with the last revision; the other order removes it again
with the one before. -/
theorem not_tiesInDocumentOrder_tiedRevisions : ¬ tiedRevisions.TiesInDocumentOrder := by
  intro hties
  have heq := hties (.returning sortedBy_partitioned) .insertion (fun _ => .ascending)
    (fun _ => .ascending) RevisionSort.insertion_stable
  have hcitations := congrArg
    (fun ended => ended.toOption.map fun page => page.currentPage.citations) heq
  exact absurd hcitations (by decide +kernel)

end PageState

end Citescoop
