/-
How the streamed revisions belong to the streamed pages: they come in blocks, one for each
page and in the order of the pages.
-/
import Citescoop.Streaming

namespace Citescoop

/-- The revisions that go with a page: one for each number that a citation of the page
names, in ascending order of the numbers. -/
structure Page.Accompanied (page : Page) (revisions : List Revision) : Prop where
  ascending : (revisions.map Revision.revisionId).Pairwise fun first second =>
    compare first second = .lt
  named : ∀ revisionId, revisionId ∈ revisions.map Revision.revisionId ↔
    ∃ citation ∈ page.citations, citation.Names revisionId

/-- Every page with its block of revisions. -/
def Streamed.Blocks (streamed : Streamed) : Prop :=
  ∃ blocks : List (List Revision), streamed.revisions = blocks.flatten ∧
    List.Forall₂ Page.Accompanied streamed.pages blocks

/-- Revisions that are stored under their own numbers. -/
theorem map_revisionId_toList {revisions : StdMap UInt64 Revision}
    (hids : ∀ (revisionId : UInt64) (revision : Revision),
      revisions[revisionId]? = some revision → revision.revisionId = revisionId) :
    (revisions.toList.map Prod.snd).map Revision.revisionId = revisions.keys := by
  rw [← Std.ExtTreeMap.map_fst_toList_eq_keys, List.map_map]
  apply List.map_congr_left
  intro entry hentry
  exact hids entry.1 entry.2 (Std.ExtTreeMap.mem_toList_iff_getElem?_eq_some.mp hentry)

theorem Streamed.Blocks.store {streamed : Streamed} (hblocks : streamed.Blocks)
    {revisions : StdMap UInt64 Revision} {page : Page}
    (hpage : page.Accompanied (revisions.toList.map Prod.snd)) :
    (Streamed.store revisions page streamed).Blocks := by
  obtain ⟨blocks, hrevisions, hpages⟩ := hblocks
  refine ⟨blocks ++ [revisions.toList.map Prod.snd], ?_, ?_⟩
  · rw [Streamed.store, foldl_writeRevision, List.flatten_append, List.flatten_singleton,
      ← hrevisions]
    rfl
  · rw [Streamed.store, foldl_writeRevision]
    exact List.rel_append hpages (.cons hpage .nil)

theorem PageState.Valid.accompanied {page result : PageState} (hvalid : page.Valid)
    {sort : RevisionSort} {orders : ℕ → MapOrder}
    (hmake : page.makePageCitationList sort orders = .ok result) :
    result.currentPage.Accompanied (result.revisionsToStore.toList.map Prod.snd) := by
  obtain ⟨hnamed, hids⟩ := hvalid.makePageCitationList_closed hmake
  constructor
  · rw [map_revisionId_toList hids]
    exact Std.ExtTreeMap.ordered_keys
  · intro revisionId
    rw [map_revisionId_toList hids, Std.ExtTreeMap.mem_keys]
    exact hnamed revisionId

/-- At every point of a parse to streams, also where a callback throws and whatever the parser
did before, the revisions that are written out stand in the order of the pages, and with each
page those that its citations name, once and in ascending order of their numbers. -/
theorem StreamingDumpParser.parseOutcome_blocks (lib : Library) (self : StreamingDumpParser)
    (calls : List Callback) :
    (StreamingDumpParser.parseOutcome lib self calls).state.stored.Blocks := by
  have hboth : (parseOutcome lib self calls).state.Valid ∧
      (parseOutcome lib self calls).state.stored.Blocks := by
    apply EventLoop.run_invariant
      fun state : StreamingDumpParser => state.Valid ∧ state.stored.Blocks
    · rintro state call next ⟨hvalid, hblocks⟩ hcall
      refine ⟨hvalid.callback hcall, ?_⟩
      rcases DumpParser.callback_stored hcall with ⟨-, ended, hmake, hstored⟩ | ⟨-, hstored⟩
      · rw [hstored]
        exact hblocks.store (hvalid.page.accompanied hmake)
      · rwa [hstored]
    · exact ⟨DumpParser.initializeParser_valid _, [], rfl, .nil⟩
  exact hboth.2

end Citescoop
