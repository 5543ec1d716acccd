/-
When a citation of a page was added and when it was removed: the running marks
of the loop over the page's revisions in closed form.
-/
import Citescoop.ExceptFold
import Citescoop.MapEntries
import Citescoop.PageCitations

namespace Citescoop

open ExceptFold

/-- What a revision does to the mark of a citation that was there before. -/
def Citation.seenIn (revision : RevisionCitations) (key : Text)
    (citation : Citation) : Citation :=
  { citation with revisionRemoved? :=
      if key ∈ revision.citations then none
      else citation.revisionRemoved?.or (some revision.revisionId) }

/-- A citation that a revision brings in. -/
def Citation.addedIn (revision : RevisionCitations) (extracted : ExtractedCitation) :
    Citation :=
  { citation? := some extracted, revisionAdded? := some revision.revisionId }

/-- The citation under a key after the given revisions: brought in by the first
that has the key, and removed by the first of those at the end that lack it. -/
def lifeCycle (key : Text) (revisions : List RevisionCitations) : Option Citation :=
  (revisions.find? (key ∈ ·.citations)).map fun first =>
    { citation? := first.citations[key]?
      revisionAdded? := some first.revisionId
      revisionRemoved? :=
        (revisions.rtakeWhile (key ∉ ·.citations)).head?.map (·.revisionId) }

/-- One more revision takes a removal back, notes one, or brings the citation
in. -/
theorem lifeCycle_concat (key : Text) (revisions : List RevisionCitations)
    (revision : RevisionCitations) :
    lifeCycle key (revisions ++ [revision]) =
      ((lifeCycle key revisions).map (·.seenIn revision key)).or
        (revision.citations[key]?.map (Citation.addedIn revision)) := by
  have hremoval :
      ((revisions ++ [revision]).rtakeWhile (key ∉ ·.citations)).head?.map
          (·.revisionId) =
        if key ∈ revision.citations then none
        else ((revisions.rtakeWhile (key ∉ ·.citations)).head?.map
          (·.revisionId)).or (some revision.revisionId) := by
    rw [List.rtakeWhile_concat]
    by_cases hkey : key ∈ revision.citations
    · simp [hkey]
    · cases revisions.rtakeWhile (key ∉ ·.citations) <;> simp [hkey]
  simp only [lifeCycle, hremoval, List.find?_append]
  cases hfirst : revisions.find? (key ∈ ·.citations) with
  | some first => simp [Citation.seenIn]
  | none =>
      by_cases hkey : key ∈ revision.citations
      · simp [hkey, Citation.addedIn]
      · simp [hkey]

namespace CitationLoop

variable {currentPageRevisions : StdMap UInt64 Revision}
  {loop next : CitationLoop} {entry : Text × Citation}

theorem reference_ok {revisionId : UInt64}
    (href : loop.reference currentPageRevisions revisionId = .ok next) :
    ∃ revision, currentPageRevisions[revisionId]? = some revision ∧
      next = { loop with
        revisionsToStore := loop.revisionsToStore.insertIfNew revisionId revision
        refCount := loop.refCount.insert revisionId
          (loop.refCount.getD revisionId 0 + 1) } := by
  unfold reference at href
  cases hrevision : currentPageRevisions[revisionId]? with
  | none => simp [hrevision] at href
  | some revision =>
      simp only [hrevision, Except.ok.injEq] at href
      exact ⟨revision, rfl, href.symm⟩

theorem reference_map_ok {revisionId : UInt64} {f : CitationLoop → CitationLoop}
    (hmap : (loop.reference currentPageRevisions revisionId).map f = .ok next) :
    ∃ middle, loop.reference currentPageRevisions revisionId = .ok middle ∧
      next = f middle := by
  cases href : loop.reference currentPageRevisions revisionId with
  | error exception => simp [href, Except.map] at hmap
  | ok middle =>
      simp only [href, Except.map, Except.ok.injEq] at hmap
      exact ⟨middle, rfl, hmap.symm⟩

theorem reference_returns (loop : CitationLoop) {revisionId : UInt64}
    (hid : revisionId ∈ currentPageRevisions) :
    ∃ next, loop.reference currentPageRevisions revisionId = .ok next := by
  rw [Std.ExtTreeMap.mem_iff_isSome_getElem?, Option.isSome_iff_exists] at hid
  rcases hid with ⟨revision, hrevision⟩
  exact ⟨_, by rw [reference, hrevision]⟩

/-- The ways in which one round of `CheckExistingCitations` can change the loop. -/
inductive Checked (currentPageRevisions : StdMap UInt64 Revision) (loop : CitationLoop)
    (key : Text) (citation : Citation) : CitationLoop → Prop
  | restored {revisionId : UInt64} (hkey : key ∈ loop.citations.citations)
      (hremoved : citation.revisionRemoved? = some revisionId) :
      Checked currentPageRevisions loop key citation
        (((loop.eraseKey key).dropReference revisionId).setCitation key
          { citation with revisionRemoved? := none })
  | present (hkey : key ∈ loop.citations.citations)
      (hremoved : citation.revisionRemoved? = none) :
      Checked currentPageRevisions loop key citation (loop.eraseKey key)
  | gone {revisionId : UInt64} (hkey : key ∉ loop.citations.citations)
      (hremoved : citation.revisionRemoved? = some revisionId) :
      Checked currentPageRevisions loop key citation loop
  | removed {middle : CitationLoop} (hkey : key ∉ loop.citations.citations)
      (hremoved : citation.revisionRemoved? = none)
      (href : loop.reference currentPageRevisions loop.citations.revisionId = .ok middle) :
      Checked currentPageRevisions loop key citation
        (middle.setCitation key
          { citation with revisionRemoved? := some loop.citations.revisionId })

theorem checkExistingCitation_checked
    (hcheck : loop.checkExistingCitation currentPageRevisions entry = .ok next) :
    Checked currentPageRevisions loop entry.1 entry.2 next := by
  unfold checkExistingCitation at hcheck
  by_cases hkey : entry.1 ∈ loop.citations.citations
  · rw [if_pos hkey] at hcheck
    cases hremoved : entry.2.revisionRemoved? with
    | some revisionId =>
        simp only [hremoved, Citation.revisionRemoved, Option.isSome_some, ↓reduceIte,
          Option.getD_some, Except.ok.injEq] at hcheck
        exact hcheck ▸ .restored hkey hremoved
    | none =>
        simp only [hremoved, Option.isSome_none, Bool.false_eq_true, ↓reduceIte,
          Except.ok.injEq] at hcheck
        exact hcheck ▸ .present hkey hremoved
  · rw [if_neg hkey] at hcheck
    cases hremoved : entry.2.revisionRemoved? with
    | some revisionId =>
        simp only [hremoved, Option.isSome_some, ↓reduceIte, Except.ok.injEq] at hcheck
        exact hcheck ▸ .gone hkey hremoved
    | none =>
        simp only [hremoved, Option.isSome_none, Bool.false_eq_true, ↓reduceIte] at hcheck
        obtain ⟨middle, href, rfl⟩ := reference_map_ok hcheck
        exact .removed hkey hremoved href

/-- The marks after one round of `CheckExistingCitations`. -/
theorem checkExistingCitation_marks
    (hentry : loop.discoveredCitations[entry.1]? = some entry.2)
    (hcheck : loop.checkExistingCitation currentPageRevisions entry = .ok next) :
    next.discoveredCitations = loop.discoveredCitations.insert entry.1
        (entry.2.seenIn loop.citations entry.1) ∧
      next.citations = (loop.eraseKey entry.1).citations := by
  rcases entry with ⟨key, citation⟩
  have herase : key ∉ loop.citations.citations →
      loop.citations = (loop.eraseKey key).citations := by
    intro hkey
    have hnone : loop.citations.citations[key]? = none := by simpa using hkey
    rw [eraseKey, MapEntries.erase_of_getElem? hnone]
  have hchecked : Checked currentPageRevisions loop key citation next :=
    checkExistingCitation_checked hcheck
  cases hchecked with
  | restored hkey hremoved =>
      refine ⟨?_, rfl⟩
      simp [setCitation, dropReference, eraseKey, Citation.seenIn, hkey]
  | present hkey hremoved =>
      refine ⟨?_, rfl⟩
      have hseen : citation.seenIn loop.citations key = citation := by
        rw [Citation.seenIn, if_pos hkey, ← hremoved]
      rw [hseen, MapEntries.insert_of_getElem? hentry]
      rfl
  | gone hkey hremoved =>
      refine ⟨?_, herase hkey⟩
      have hseen : citation.seenIn loop.citations key = citation := by
        rw [Citation.seenIn, if_neg hkey, hremoved, Option.some_or, ← hremoved]
      rw [hseen, MapEntries.insert_of_getElem? hentry]
  | removed hkey hremoved href =>
      obtain ⟨revision, -, rfl⟩ := reference_ok href
      refine ⟨?_, herase hkey⟩
      simp [setCitation, Citation.seenIn, hkey, hremoved]

/-- A round writes no other entry, so every entry is as it was when its turn
comes: what such rounds keep, `CheckExistingCitations` keeps. -/
theorem checkEntries_invariant (invariant : CitationLoop → Prop)
    (hround : ∀ (state : CitationLoop) (entry : Text × Citation) next,
      invariant state → state.discoveredCitations[entry.1]? = some entry.2 →
      state.checkExistingCitation currentPageRevisions entry = .ok next →
      invariant next)
    {entries : List (Text × Citation)} {after : CitationLoop}
    (hnodup : (entries.map Prod.fst).Nodup)
    (hentries : ∀ entry ∈ entries,
      loop.discoveredCitations[entry.1]? = some entry.2)
    (hloop : invariant loop)
    (hcheck : entries.foldlM (checkExistingCitation currentPageRevisions) loop =
      .ok after) : invariant after := by
  induction entries generalizing loop with
  | nil =>
      simp only [foldlM_nil, Except.ok.injEq] at hcheck
      exact hcheck ▸ hloop
  | cons entry entries ih =>
      obtain ⟨next, hnext, hrest⟩ := foldlM_cons_ok.mp hcheck
      have hentry := hentries entry List.mem_cons_self
      rw [List.map_cons, List.nodup_cons] at hnodup
      apply ih hnodup.2 _ (hround loop entry next hloop hentry hnext) hrest
      intro entry' hmem
      have hne : entry.1 ≠ entry'.1 := by
        intro heq
        exact hnodup.1 (heq ▸ List.mem_map_of_mem hmem)
      rw [(checkExistingCitation_marks hentry hnext).1,
        MapEntries.getElem?_insert_of_ne _ _ hne]
      exact hentries entry' (List.mem_cons_of_mem _ hmem)

/-- The marks after some rounds of `CheckExistingCitations`, key by key. -/
theorem checkEntries_marks {entries : List (Text × Citation)} {after : CitationLoop}
    (hnodup : (entries.map Prod.fst).Nodup)
    (hentries : ∀ entry ∈ entries,
      loop.discoveredCitations[entry.1]? = some entry.2)
    (hcheck : entries.foldlM (checkExistingCitation currentPageRevisions) loop =
      .ok after) :
    after.citations.revision? = loop.citations.revision? ∧
      ∀ key : Text,
        after.discoveredCitations[key]? =
          (if key ∈ entries.map Prod.fst then
            loop.discoveredCitations[key]?.map (·.seenIn loop.citations key)
          else loop.discoveredCitations[key]?) ∧
        after.citations.citations[key]? =
          if key ∈ entries.map Prod.fst then none
          else loop.citations.citations[key]? := by
  induction entries generalizing loop with
  | nil =>
      simp only [foldlM_nil, Except.ok.injEq] at hcheck
      simp [hcheck]
  | cons entry entries ih =>
      obtain ⟨next, hnext, hrest⟩ := foldlM_cons_ok.mp hcheck
      obtain ⟨hmarks, hcitations⟩ :=
        checkExistingCitation_marks (hentries entry List.mem_cons_self) hnext
      rw [List.map_cons, List.nodup_cons] at hnodup
      have hother : ∀ key, key ∈ entries.map Prod.fst → entry.1 ≠ key := by
        rintro key hkey rfl
        exact hnodup.1 hkey
      have hentries' : ∀ entry' ∈ entries,
          next.discoveredCitations[entry'.1]? = some entry'.2 := by
        intro entry' hmem
        rw [hmarks, MapEntries.getElem?_insert_of_ne _ _
          (hother _ (List.mem_map_of_mem hmem))]
        exact hentries entry' (List.mem_cons_of_mem _ hmem)
      obtain ⟨hrevision, hkeys⟩ := ih hnodup.2 hentries' hrest
      refine ⟨hrevision.trans (by rw [hcitations]; rfl), fun key => ?_⟩
      obtain ⟨hdiscovered, hleft⟩ := hkeys key
      rw [hdiscovered, hleft, hmarks, hcitations]
      by_cases hkey : key ∈ entries.map Prod.fst
      · have hne := hother key hkey
        have hseen : ∀ citation : Citation,
            citation.seenIn (loop.eraseKey entry.1).citations key =
              citation.seenIn loop.citations key := by
          intro citation
          simp [Citation.seenIn, eraseKey, RevisionCitations.revisionId,
            RevisionCitations.revision, hne]
        simp only [hkey, ↓reduceIte, List.map_cons, List.mem_cons, or_true,
          MapEntries.getElem?_insert_of_ne _ _ hne, hseen, and_self]
      · by_cases hself : entry.1 = key
        · subst hself
          simp [hkey, hentries entry List.mem_cons_self, eraseKey]
        · simp [hkey, Ne.symm hself, MapEntries.getElem?_insert_of_ne _ _ hself,
            eraseKey, MapEntries.getElem?_erase_of_ne _ hself]

theorem checkExistingCitations_marks {after : CitationLoop}
    (hcheck : loop.checkExistingCitations currentPageRevisions = .ok after) :
    after.citations.revision? = loop.citations.revision? ∧
      ∀ key : Text,
        after.discoveredCitations[key]? =
          loop.discoveredCitations[key]?.map (·.seenIn loop.citations key) ∧
        after.citations.citations[key]? =
          if key ∈ loop.discoveredCitations then none
          else loop.citations.citations[key]? := by
  obtain ⟨hrevision, hkeys⟩ := checkEntries_marks
    (MapEntries.nodup_keys_toList loop.discoveredCitations)
    (fun entry hentry =>
      Std.ExtTreeMap.mem_toList_iff_getElem?_eq_some.mp hentry) hcheck
  refine ⟨hrevision, fun key => ?_⟩
  obtain ⟨hdiscovered, hleft⟩ := hkeys key
  rw [Std.ExtTreeMap.map_fst_toList_eq_keys] at hdiscovered hleft
  simp only [Std.ExtTreeMap.mem_keys] at hdiscovered hleft
  refine ⟨?_, hleft⟩
  rw [hdiscovered]
  by_cases hkey : key ∈ loop.discoveredCitations
  · rw [if_pos hkey]
  · have hnone : loop.discoveredCitations[key]? = none := by simpa using hkey
    simp [hnone]

/-- One round of `AddNewCitations` writes a mark where there is none. -/
theorem addNewCitation_marks {entry : Text × ExtractedCitation} (key : Text)
    (hadd : loop.addNewCitation currentPageRevisions entry = .ok next) :
    next.citations = loop.citations ∧
      next.discoveredCitations[key]? = loop.discoveredCitations[key]?.or
        (if entry.1 = key then some (Citation.addedIn loop.citations entry.2)
          else none) := by
  unfold addNewCitation at hadd
  by_cases hkey : entry.1 ∈ loop.discoveredCitations
  · rw [if_pos hkey, Except.ok.injEq] at hadd
    subst hadd
    refine ⟨rfl, ?_⟩
    by_cases hself : entry.1 = key
    · subst hself
      rw [Std.ExtTreeMap.mem_iff_isSome_getElem?, Option.isSome_iff_exists] at hkey
      rcases hkey with ⟨citation, hcitation⟩
      rw [hcitation, Option.some_or]
    · rw [if_neg hself, Option.or_none]
  · rw [if_neg hkey] at hadd
    obtain ⟨middle, href, rfl⟩ := reference_map_ok hadd
    obtain ⟨revision, -, rfl⟩ := reference_ok href
    refine ⟨rfl, ?_⟩
    have hnone : loop.discoveredCitations[entry.1]? = none := by simpa using hkey
    by_cases hself : entry.1 = key
    · subst hself
      simp [setCitation, hnone, Citation.addedIn]
    · simp [setCitation, hself, MapEntries.getElem?_insert_of_ne _ _ hself]

theorem addNewCitations_marks {order : MapOrder}
    (hadd : loop.addNewCitations currentPageRevisions order = .ok next) (key : Text) :
    next.discoveredCitations[key]? = loop.discoveredCitations[key]?.or
      (loop.citations.citations[key]?.map (Citation.addedIn loop.citations)) := by
  rw [← MapEntries.findSome?_entries _ (order.entries_perm loop.citations.citations)]
  apply foldlM_first_write (addNewCitation currentPageRevisions)
    (fun state => state.citations = loop.citations)
    (fun state => state.discoveredCitations[key]?) _ _ rfl hadd
  intro state entry next hstate hnext
  obtain ⟨hcitations, hmark⟩ := addNewCitation_marks key hnext
  rw [hstate] at hcitations hmark
  exact ⟨hcitations, hmark⟩

theorem addRevision_ok {round : RevisionCitations × MapOrder}
    (hadd : loop.addRevision currentPageRevisions round = .ok next) :
    ∃ middle,
      checkExistingCitations currentPageRevisions
          { loop with citations := round.1 } = .ok middle ∧
        addNewCitations currentPageRevisions round.2 middle = .ok next := by
  unfold addRevision at hadd
  cases hcheck : checkExistingCitations currentPageRevisions
      { loop with citations := round.1 } with
  | error exception => simp [hcheck, Except.bind] at hadd
  | ok middle => exact ⟨middle, rfl, by simpa [hcheck, Except.bind] using hadd⟩

/-- The mark under a key after one more revision. -/
theorem addRevision_marks {revision : RevisionCitations × MapOrder}
    (hadd : loop.addRevision currentPageRevisions revision = .ok next) (key : Text) :
    next.discoveredCitations[key]? =
      (loop.discoveredCitations[key]?.map (·.seenIn revision.1 key)).or
        (revision.1.citations[key]?.map (Citation.addedIn revision.1)) := by
  obtain ⟨middle, hcheck, hadd⟩ := addRevision_ok hadd
  obtain ⟨hrevision, hkeys⟩ := checkExistingCitations_marks hcheck
  obtain ⟨hdiscovered, hleft⟩ := hkeys key
  have hadded : Citation.addedIn middle.citations = Citation.addedIn revision.1 := by
    funext extracted
    simp only [Citation.addedIn, RevisionCitations.revisionId,
      RevisionCitations.revision, hrevision]
  rw [addNewCitations_marks hadd, hdiscovered, hleft, hadded]
  simp only
  rcases hmark : loop.discoveredCitations[key]? with _ | citation
  · have hkey : ¬ key ∈ loop.discoveredCitations := by simpa using hmark
    simp [hkey]
  · simp

/-- The marks of the loop are the life cycles of the citations. -/
theorem foldlM_addRevision_marks
    {rounds : List (RevisionCitations × MapOrder)} {start : CitationLoop}
    (hstart : start.discoveredCitations = ∅)
    (hfold : rounds.foldlM (addRevision currentPageRevisions) start = .ok loop)
    (key : Text) :
    loop.discoveredCitations[key]? = lifeCycle key (rounds.map Prod.fst) := by
  induction rounds using List.reverseRecOn generalizing loop with
  | nil =>
      simp only [foldlM_nil, Except.ok.injEq] at hfold
      subst hfold
      simp [hstart, lifeCycle]
  | append_singleton rounds round ih =>
      obtain ⟨middle, hmiddle, hround⟩ := foldlM_append_ok.mp hfold
      obtain ⟨last, hlast, hdone⟩ := foldlM_cons_ok.mp hround
      simp only [foldlM_nil, Except.ok.injEq] at hdone
      subst hdone
      rw [addRevision_marks hlast, ih hmiddle, List.map_append, List.map_singleton,
        lifeCycle_concat]

theorem checkExistingCitation_returns (entry : Text × Citation)
    (hid : loop.citations.revisionId ∈ currentPageRevisions) :
    ∃ next, loop.checkExistingCitation currentPageRevisions entry = .ok next ∧
      next.citations.revision? = loop.citations.revision? := by
  unfold checkExistingCitation
  split_ifs
  · exact ⟨_, rfl, rfl⟩
  · exact ⟨_, rfl, rfl⟩
  · exact ⟨_, rfl, rfl⟩
  · rcases reference_returns loop hid with ⟨next, hnext⟩
    refine ⟨_, by rw [hnext]; rfl, ?_⟩
    obtain ⟨revision, -, rfl⟩ := reference_ok hnext
    rfl

theorem addNewCitation_returns (entry : Text × ExtractedCitation)
    (hid : loop.citations.revisionId ∈ currentPageRevisions) :
    ∃ next, loop.addNewCitation currentPageRevisions entry = .ok next ∧
      next.citations.revision? = loop.citations.revision? := by
  unfold addNewCitation
  split_ifs
  · exact ⟨_, rfl, rfl⟩
  · rcases reference_returns loop hid with ⟨next, hnext⟩
    refine ⟨_, by rw [hnext]; rfl, ?_⟩
    obtain ⟨revision, -, rfl⟩ := reference_ok hnext
    rfl

theorem revisionId_eq_of_revision? {first second : RevisionCitations}
    (hrevision : first.revision? = second.revision?) :
    first.revisionId = second.revisionId := by
  rw [RevisionCitations.revisionId, RevisionCitations.revision, hrevision]
  rfl

/-- The look-up in `current_page_revisions_` succeeds for a revision of the
page. -/
theorem addRevision_returns (loop : CitationLoop) (revision : RevisionCitations × MapOrder)
    (hid : revision.1.revisionId ∈ currentPageRevisions) :
    ∃ next, loop.addRevision currentPageRevisions revision = .ok next := by
  have hkept : ∀ state : CitationLoop,
      state.citations.revision? = revision.1.revision? →
        state.citations.revisionId ∈ currentPageRevisions := by
    intro state hstate
    rwa [revisionId_eq_of_revision? hstate]
  obtain ⟨middle, hcheck, hmiddle⟩ := foldlM_returns
    (checkExistingCitation currentPageRevisions)
    (fun state => state.citations.revision? = revision.1.revision?)
    loop.discoveredCitations.toList { loop with citations := revision.1 }
    (fun state entry _ hstate => by
      obtain ⟨next, hnext, hsame⟩ :=
        checkExistingCitation_returns entry (hkept state hstate)
      exact ⟨next, hnext, hsame.trans hstate⟩) rfl
  obtain ⟨next, hadd, -⟩ := foldlM_returns (addNewCitation currentPageRevisions)
    (fun state => state.citations.revision? = revision.1.revision?)
    (revision.2.entries middle.citations.citations) middle
    (fun state entry _ hstate => by
      obtain ⟨next, hnext, hsame⟩ :=
        addNewCitation_returns entry (hkept state hstate)
      exact ⟨next, hnext, hsame.trans hstate⟩) hmiddle
  refine ⟨next, ?_⟩
  unfold addRevision checkExistingCitations
  rw [hcheck]
  exact hadd

theorem foldlM_addRevision_returns (loop : CitationLoop)
    {rounds : List (RevisionCitations × MapOrder)}
    (hids : ∀ round ∈ rounds, round.1.revisionId ∈ currentPageRevisions) :
    ∃ final, rounds.foldlM (addRevision currentPageRevisions) loop = .ok final := by
  obtain ⟨final, hfinal, -⟩ := foldlM_returns (addRevision currentPageRevisions)
    (fun _ => True) rounds loop
    (fun state round hround _ => by
      rcases addRevision_returns state round (hids round hround)
        with ⟨next, hnext⟩
      exact ⟨next, hnext, trivial⟩) trivial
  exact ⟨final, hfinal⟩

end CitationLoop

/-- What a citation in the list of a page says about the page's revisions. -/
structure LifeCycle (revisions : List RevisionCitations) (key : Text)
    (citation : Citation) : Prop where
  added : ∃ i, ∃ hi : i < revisions.length,
    key ∈ revisions[i].citations ∧
      (∀ j, ∀ hj : j < i, key ∉ revisions[j].citations) ∧
      citation.revisionAdded? = some revisions[i].revisionId ∧
      citation.citation? = revisions[i].citations[key]?
  removed_iff : citation.revisionRemoved?.isSome ↔
    ∀ last, revisions.getLast? = some last → key ∉ last.citations
  removed_at : ∀ j, ∀ hj : j + 1 < revisions.length,
    key ∈ revisions[j].citations →
      (∀ l, ∀ hl : l < revisions.length, j < l → key ∉ revisions[l].citations) →
      citation.revisionRemoved? = some revisions[j + 1].revisionId

theorem lifeCycle_eq_some {revisions : List RevisionCitations} {key : Text}
    {citation : Citation} (hcitation : lifeCycle key revisions = some citation) :
    LifeCycle revisions key citation := by
  obtain ⟨first, hfirst, rfl⟩ := Option.map_eq_some_iff.mp hcitation
  obtain ⟨hkey, i, hi, rfl, hbefore⟩ := List.find?_eq_some_iff_getElem.mp hfirst
  refine ⟨⟨i, hi, by simpa using hkey, ?_, rfl, rfl⟩, ?_, ?_⟩
  · intro j hj
    simpa using hbefore j hj
  · rcases List.eq_nil_or_concat revisions with rfl | ⟨before, last, rfl⟩
    · simp at hi
    · simp only [List.concat_eq_append, List.rtakeWhile_concat]
      by_cases hlast : key ∈ last.citations <;> simp [hlast]
  · intro j hj hpresent hafter
    have hsplit : revisions = revisions.take j ++ revisions[j] ::
        revisions.drop (j + 1) := by simp
    have hall : ∀ revision ∈ (revisions.drop (j + 1)).reverse,
        decide (key ∉ revision.citations) = true := by
      intro revision hmem
      obtain ⟨l, hl, rfl⟩ := List.mem_drop_iff_getElem.mp (List.mem_reverse.mp hmem)
      simpa using hafter (j + 1 + l) (by omega) (by omega)
    have htail : revisions.rtakeWhile (key ∉ ·.citations) =
        revisions.drop (j + 1) := by
      conv_lhs => rw [hsplit]
      rw [List.rtakeWhile, List.reverse_append, List.reverse_cons,
        List.append_assoc, List.takeWhile_append_of_pos hall]
      simp [hpresent]
    rw [htail]
    simp [hj]

namespace PageState

variable (sort : RevisionSort) (orders : ℕ → MapOrder)

theorem map_fst_rounds (page : PageState) :
    (page.rounds sort orders).map Prod.fst = sort.sort page.citationsByRevision := by
  apply List.ext_getElem <;> simp [rounds]

theorem makePageCitationList_ok {page result : PageState}
    (hmake : page.makePageCitationList sort orders = .ok result) :
    ∃ loop, (page.rounds sort orders).foldlM
        (CitationLoop.addRevision page.currentPageRevisions)
        { revisionsToStore := page.revisionsToStore } = .ok loop ∧
      result = { page with
        revisionsToStore := loop.revisionsToStore
        currentPage := { page.currentPage with
          citations := page.currentPage.citations ++
            loop.discoveredCitations.toList.map Prod.snd } } := by
  unfold makePageCitationList at hmake
  cases hfold : (page.rounds sort orders).foldlM
      (CitationLoop.addRevision page.currentPageRevisions)
      { revisionsToStore := page.revisionsToStore } with
  | error exception => simp [hfold, Except.map] at hmake
  | ok loop =>
      simp only [hfold, Except.map, Except.ok.injEq] at hmake
      exact ⟨loop, rfl, hmake.symm⟩

theorem makePageCitationList_returns {page : PageState}
    (hids : ∀ revision ∈ page.citationsByRevision,
      revision.revisionId ∈ page.currentPageRevisions) :
    ∃ result, page.makePageCitationList sort orders = .ok result := by
  have hrounds : ∀ round ∈ page.rounds sort orders,
      round.1.revisionId ∈ page.currentPageRevisions := by
    intro round hround
    apply hids
    rw [← (sort.sort_perm page.citationsByRevision).mem_iff,
      ← map_fst_rounds sort orders]
    exact List.mem_map_of_mem hround
  rcases CitationLoop.foldlM_addRevision_returns
    { revisionsToStore := page.revisionsToStore } hrounds with ⟨loop, hloop⟩
  exact ⟨_, by rw [makePageCitationList, hloop]; rfl⟩

/-- The citation list of a page whose revisions are known and whose list is
still empty: one citation for each key of some revision, in ascending order of
the keys, and each with the life cycle of its key. -/
theorem makePageCitationList_lifeCycle {page : PageState}
    (hids : ∀ revision ∈ page.citationsByRevision,
      revision.revisionId ∈ page.currentPageRevisions)
    (hempty : page.currentPage.citations = []) :
    ∃ result keys, page.makePageCitationList sort orders = .ok result ∧
      keys.Pairwise (fun key key' => compare key key' = .lt) ∧
      (∀ key, key ∈ keys ↔
        ∃ revision ∈ sort.sort page.citationsByRevision, key ∈ revision.citations) ∧
      List.Forall₂ (LifeCycle (sort.sort page.citationsByRevision)) keys
        result.currentPage.citations := by
  rcases makePageCitationList_returns sort orders hids with ⟨result, hmake⟩
  obtain ⟨loop, hfold, rfl⟩ := makePageCitationList_ok sort orders hmake
  have hmarks := CitationLoop.foldlM_addRevision_marks rfl hfold
  rw [map_fst_rounds] at hmarks
  refine ⟨_, loop.discoveredCitations.keys, hmake,
    Std.ExtTreeMap.ordered_keys, fun key => ?_, ?_⟩
  · rw [Std.ExtTreeMap.mem_keys, Std.ExtTreeMap.mem_iff_isSome_getElem?, hmarks,
      lifeCycle, Option.isSome_map, List.find?_isSome]
    simp
  · rw [hempty, List.nil_append, ← Std.ExtTreeMap.map_fst_toList_eq_keys,
      List.forall₂_map_left_iff, List.forall₂_map_right_iff, List.forall₂_same]
    intro entry hentry
    apply lifeCycle_eq_some
    rw [← hmarks]
    exact Std.ExtTreeMap.mem_toList_iff_getElem?_eq_some.mp hentry

/-- A citation that the later of two revisions drops. -/
def twoRevisions : PageState where
  citationsByRevision := [
    { revision? := some { revisionId? := some 6, timestamp? := some ⟨20, 0⟩ } },
    { revision? := some { revisionId? := some 5, timestamp? := some ⟨10, 0⟩ }
      citations := (∅ : StdMap Text ExtractedCitation).insert "Title".toList {} }]
  currentPageRevisions :=
    ((∅ : StdMap UInt64 Revision).insert 5 { revisionId? := some 5 }).insert 6
      { revisionId? := some 6 }

theorem makePageCitationList_lifeCycle_twoRevisions :
    ∃ result keys,
      twoRevisions.makePageCitationList .insertion (fun _ => .ascending) =
          .ok result ∧
        keys.Pairwise (fun key key' => compare key key' = .lt) ∧
        (∀ key, key ∈ keys ↔ ∃ revision ∈
          RevisionSort.insertion.sort twoRevisions.citationsByRevision,
            key ∈ revision.citations) ∧
        List.Forall₂ (LifeCycle
            (RevisionSort.insertion.sort twoRevisions.citationsByRevision)) keys
          result.currentPage.citations :=
  makePageCitationList_lifeCycle .insertion (fun _ => .ascending) (by decide) rfl

example :
    (twoRevisions.makePageCitationList .insertion fun _ => .ascending).map
        (fun result => result.currentPage.citations) =
      .ok [⟨some {}, some 5, some 6⟩] := by
  rfl

end PageState

end Citescoop
