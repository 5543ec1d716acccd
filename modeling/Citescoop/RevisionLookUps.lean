/-
The look-ups that the dump parser makes in its maps of revisions and of counts,
when a page ends: they find what they look for, whatever callbacks came before.
-/
import Citescoop.DumpRun

namespace Citescoop

open ExceptFold

namespace CitationLoop

variable {currentPageRevisions : StdMap UInt64 Revision} {loop : CitationLoop}

/-- A citation that is marked as removed has a count to go with the mark. -/
theorem RefCounted.removed_mem (hcounted : loop.RefCounted currentPageRevisions)
    {key : Text} {citation : Citation} {revisionId : UInt64}
    (hcitation : loop.discoveredCitations[key]? = some citation)
    (hremoved : citation.revisionRemoved? = some revisionId) :
    revisionId ∈ loop.refCount := by
  by_contra hmissing
  have hentry := Std.ExtTreeMap.mem_toList_iff_getElem?_eq_some.mpr hcitation
  have hpos : 0 < referenceCount (loop.discoveredCitations.toList.map Prod.snd) revisionId :=
    referenceCount_pos_iff.mpr ⟨citation, List.mem_map_of_mem hentry, Or.inr hremoved⟩
  have hcount := hcounted.refCount revisionId
  rw [Std.ExtTreeMap.getD_eq_fallback hmissing] at hcount
  omega

end CitationLoop

namespace DumpParser

variable {σ : Type} {lib : Library} {store : Store σ} {self : DumpParser σ}

theorem strToId_error {text : Text} {exception : DumpException}
    (hthrow : strToId text = .error exception) : ∃ cause, exception = .conversion cause := by
  obtain ⟨cause, -, rfl⟩ := mapError_error (map_error hthrow)
  exact ⟨cause, rfl⟩

/-- A field fails by its own text. -/
theorem onEndField_error {name : Text} {exception : DumpException}
    (hend : self.onEndField lib name = .error exception) :
    (∃ cause, exception = .conversion cause) ∨ ∃ cause, exception = .templateParse cause := by
  unfold onEndField at hend
  split_ifs at hend
  · exact Or.inl (strToId_error (map_error hend))
  · exact Or.inl (strToId_error (map_error hend))
  · exact Or.inl (strToId_error (map_error hend))
  · obtain ⟨cause, -, rfl⟩ := mapError_error (map_error hend)
    exact Or.inr ⟨cause, rfl⟩

/-- The end of a page throws nothing. -/
theorem Valid.onEndPage_returns (hvalid : self.Valid) (lib : Library) (store : Store σ)
    (orders : ℕ → MapOrder) :
    ∃ next, self.onEndPage lib store orders = .ok next := by
  rcases PageState.makePageCitationList_returns lib.sort orders hvalid.page.known
    with ⟨page, hpage⟩
  exact ⟨_, by rw [onEndPage, hpage]; rfl⟩

theorem Valid.callback_error (hvalid : self.Valid) {call : Callback}
    {exception : DumpException} (hcall : self.callback lib store call = .error exception) :
    exception ≠ .outOfRange := by
  unfold DumpParser.callback at hcall
  cases hevent : call.event with
  | startElement name => simp [hevent] at hcall
  | endElement name =>
      simp only [hevent, onEndElement] at hcall
      have hended := map_error hcall
      split_ifs at hended
      · rcases hvalid.onEndPage_returns lib store call.orders with ⟨next, hnext⟩
        rw [hnext] at hended
        cases hended
      · rcases onEndField_error hended with ⟨cause, rfl⟩ | ⟨cause, rfl⟩ <;> simp
  | characters characters => simp [hevent] at hcall
  | warning text =>
      simp only [hevent, Except.error.injEq] at hcall
      simp [← hcall]
  | error text =>
      simp only [hevent, Except.error.injEq] at hcall
      simp [← hcall]
  | fatalError text =>
      simp only [hevent, Except.error.injEq] at hcall
      simp [← hcall]

/-- After any callbacks at all, the ids by which revisions are looked up are those
of known revisions, and every mark of a removal has its count, at every step of
the loop; so the end of a page returns, and no callback fails on a look-up. -/
theorem startParser_lookUps (lib : Library) (store : Store σ) (self : DumpParser σ)
    (calls : List Callback) :
    (self.startParser lib store calls).exception? ≠ some .outOfRange ∧
      (∀ revision ∈ (self.startParser lib store calls).state.citationsByRevision,
        revision.revisionId ∈
          (self.startParser lib store calls).state.currentPageRevisions) ∧
      ∀ orders,
        (∃ page, (self.startParser lib store calls).state.makePageCitationList
          lib.sort orders = .ok page) ∧
        ∀ loop, CitationLoop.DuringLoop
            (self.startParser lib store calls).state.currentPageRevisions
            ((self.startParser lib store calls).state.rounds lib.sort orders)
            { revisionsToStore :=
                (self.startParser lib store calls).state.revisionsToStore } loop →
          ∀ (key : Text) (citation : Citation) (revisionId : UInt64),
            loop.discoveredCitations[key]? = some citation →
              citation.revisionRemoved? = some revisionId →
                revisionId ∈ loop.refCount := by
  have hvalid := startParser_valid lib store self calls
  refine ⟨?_, hvalid.page.known, fun orders => ⟨?_, ?_⟩⟩
  · intro hthrown
    obtain ⟨before, call, after, state, -, hbefore, hcall⟩ :=
      EventLoop.run_exception?_eq_some_iff.mp hthrown
    have hstate : state.Valid :=
      (EventLoop.run_of_ok hbefore).2 ▸ startParser_valid lib store self before
    exact hstate.callback_error hcall rfl
  · exact PageState.makePageCitationList_returns lib.sort orders hvalid.page.known
  · intro loop hduring key citation revisionId hcitation hremoved
    rw [hvalid.page.revisionsToStore] at hduring
    have hcounted := hduring.counted.refCounted hvalid.page.revisionId
    exact hcounted.removed_mem hcitation hremoved

end DumpParser

end Citescoop
