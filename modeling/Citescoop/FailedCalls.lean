/-
Calls that throw.  The ids marked before the exception stay marked, so what was
not handed over by then is never emitted.
-/
import Citescoop.Deduplication

namespace Citescoop

open FirstSeen

section Runs

variable (lib : SnapshotLibrary)

def Throws (session : Session) (call : Call) : Prop :=
  ∃ exception final, (perform lib call).run session = .error exception final

/-- What a call that throws comes by before the exception and does not hand over
had been seen before: for the overload that returns its results this is all of
it, for the one that writes them it is the line that fails. -/
def LosesNothing (session : Session) (call : Call) : Prop :=
  match call.overload with
  | .inMemory =>
      ∀ entity ∈ considered lib (getLines call.input),
        entity.openalexId ∈ session.seenIds
  | .streaming =>
      ∃ done line rest, getLines call.input = done ++ line :: rest ∧
        (linesWalk lib done).failure? = none ∧ (readLine lib line).failure? ≠ none ∧
        ∀ entity ∈ (readLine lib line).items,
          entity.openalexId ∈
            session.seenIds ∪ keys Entity.openalexId (considered lib done)

/-- The caller has received what the processor has seen. -/
def Session.Settled (session : Session) : Prop :=
  emittedIds session.received = session.seenIds

theorem throws_iff {session : Session} {call : Call} :
    Throws lib session call ↔ (linesWalk lib (getLines call.input)).failure? ≠ none := by
  rw [Throws]
  cases hwalk : (linesWalk lib (getLines call.input)).failure? with
  | none =>
      rcases run_perform_of_ok lib hwalk session with ⟨returned, hrun⟩
      simp [hrun]
  | some exception => simp [run_perform_of_error lib hwalk]

theorem step_of_not_throws {session : Session} {call : Call}
    (hcall : ¬ Throws lib session call) :
    session.step lib call = session.next lib call := by
  rw [throws_iff, not_not] at hcall
  rcases run_perform_of_ok lib hcall session with ⟨returned, hrun⟩
  rw [Session.step, hrun]

theorem Session.Settled.next {session : Session} (hsettled : session.Settled) {call : Call}
    (hcall : ¬ Throws lib session call) : (session.next lib call).Settled := by
  rw [throws_iff, not_not] at hcall
  exact emittedIds_union_fresh hsettled (call.delivers_emissions lib hcall session.seenIds)

/-- Where the overload that writes its results stands when a line fails. -/
theorem through_of_failure {done rest : List Text} {line : Text}
    (hdone : (linesWalk lib done).failure? = none)
    (hline : (readLine lib line).failure? ≠ none) (session : Session) :
    session.through lib (done ++ line :: rest) = {
      seenIds := session.seenIds ∪ keys Entity.openalexId (considered lib done) ∪
        keys Entity.openalexId (readLine lib line).items
      received := session.received ++ lineEmissions lib session.seenIds done } := by
  rcases Option.ne_none_iff_exists'.mp hline with ⟨exception, hfailure⟩
  have hitems : (linesWalk lib (line :: rest)).items = (readLine lib line).items := by
    rw [linesWalk, Walk.each, Walk.append_of_failure hfailure]
  rw [Session.through, linesWalk_append, Walk.append_of_failure?_eq_none hdone, hitems,
    keys_append, lineEmissions_append lib hdone, lineEmissions_cons_of_error lib hfailure,
    List.append_nil, Finset.union_assoc]
  rfl

/-- After a call that throws, received has been seen, and the other way round
when the call loses nothing. -/
theorem step_of_throws {session : Session} (hsettled : session.Settled) {call : Call}
    (hcall : Throws lib session call) :
    emittedIds (session.step lib call).received ⊆ (session.step lib call).seenIds ∧
      ((session.step lib call).seenIds ⊆ emittedIds (session.step lib call).received ↔
        LosesNothing lib session call) := by
  rcases Option.ne_none_iff_exists'.mp ((throws_iff lib).mp hcall) with
    ⟨exception, hwalk⟩
  rw [Session.step, run_perform_of_error lib hwalk, LosesNothing]
  cases call.overload with
  | inMemory =>
      rw [hsettled]
      refine ⟨Finset.subset_union_left, ?_⟩
      rw [Finset.union_subset_iff]
      simp [considered, Finset.subset_iff]
  | streaming =>
      -- wherever the stream is cut at a line that fails, the state is this one
      have hcut : ∀ done line rest, getLines call.input = done ++ line :: rest →
          (linesWalk lib done).failure? = none → (readLine lib line).failure? ≠ none →
          (session.through lib (getLines call.input)).seenIds =
              session.seenIds ∪ keys Entity.openalexId (considered lib done) ∪
                keys Entity.openalexId (readLine lib line).items ∧
            emittedIds (session.through lib (getLines call.input)).received =
              session.seenIds ∪ keys Entity.openalexId (considered lib done) := by
        intro done line rest hlines hdone hline
        rw [hlines, through_of_failure lib hdone hline]
        exact ⟨rfl, emittedIds_union_fresh hsettled (delivers_lineEmissions lib hdone _)⟩
      rcases Walk.exists_of_failure?_each hwalk with
        ⟨done, line, rest, hlines, hdone, hline, -⟩
      have hdoneWalk := Walk.failure?_each_eq_none_iff.mpr hdone
      have hfails : (readLine lib line).failure? ≠ none := by simp [hline]
      rcases hcut done line rest hlines hdoneWalk hfails with ⟨hseen, hemitted⟩
      refine ⟨?_, ?_, ?_⟩
      · rw [hseen, hemitted]
        exact Finset.subset_union_left
      · intro hsubset
        rw [hseen, hemitted, Finset.union_subset_iff] at hsubset
        refine ⟨done, line, rest, hlines, hdoneWalk, hfails, ?_⟩
        intro entity hentity
        exact hsubset.2 ((mem_keys _ _).mpr ⟨entity, hentity, rfl⟩)
      · rintro ⟨done', line', rest', hlines', hdone', hline', hmarked⟩
        rcases hcut done' line' rest' hlines' hdone' hline' with ⟨hseen', hemitted'⟩
        rw [hseen', hemitted', Finset.union_subset_iff]
        refine ⟨Finset.Subset.refl _, ?_⟩
        intro id hid
        rcases (mem_keys _ _).mp hid with ⟨entity, hentity, rfl⟩
        exact hmarked entity hentity

theorem after_append (session : Session) (calls : List Call) (call : Call) :
    session.after lib (calls ++ [call]) = (session.after lib calls).step lib call := by
  rw [Session.after, List.foldl_append]
  rfl

/-- As long as calls that throw hand over what they mark, received is what has
been seen. -/
theorem settled_after {calls : List Call}
    (hcalls : ∀ done call rest, calls = done ++ call :: rest →
      Throws lib (Session.after lib {} done) call → (Session.after lib {} done).Settled →
      ((Session.after lib {} done).step lib call).seenIds ⊆
        emittedIds ((Session.after lib {} done).step lib call).received) :
    (Session.after lib {} calls).Settled := by
  induction calls using List.reverseRecOn with
  | nil => rfl
  | append_singleton calls call ih =>
      have hbefore : (Session.after lib {} calls).Settled := by
        apply ih
        intro done other rest hcut
        exact hcalls done other (rest ++ [call]) (by simp [hcut])
      rw [after_append]
      by_cases hthrows : Throws lib (Session.after lib {} calls) call
      · exact (step_of_throws lib hbefore hthrows).1.antisymm
          (hcalls calls call [] rfl hthrows hbefore)
      · rw [step_of_not_throws lib hthrows]
        exact hbefore.next lib hthrows

/-- After every call of a run that throws the caller has received all authors
and institutions that the processor has seen, exactly when no call of the run
that throws marks what it does not hand over. -/
theorem received_after_throws_iff (calls : List Call) :
    (∀ done call rest, calls = done ++ call :: rest →
      Throws lib (Session.after lib {} done) call →
      ∀ id ∈ (Session.after lib {} (done ++ [call])).seenIds,
        id ∈ emittedIds (Session.after lib {} (done ++ [call])).received) ↔
    ∀ done call rest, calls = done ++ call :: rest →
      Throws lib (Session.after lib {} done) call →
      LosesNothing lib (Session.after lib {} done) call := by
  constructor
  · intro hreceived done call rest hcut hthrows
    have hsettled : (Session.after lib {} done).Settled := by
      apply settled_after
      intro done' other rest' hcut' hthrows' _
      rw [← after_append]
      exact hreceived done' other (rest' ++ call :: rest) (by simp [hcut, hcut']) hthrows'
    rw [← (step_of_throws lib hsettled hthrows).2, ← after_append]
    exact hreceived done call rest hcut hthrows
  · intro hcalls done call rest hcut hthrows id hid
    have hsettled : (Session.after lib {} (done ++ [call])).Settled := by
      apply settled_after
      intro done' other rest' hcut' hthrows' hsettled'
      have hcut'' : calls = done' ++ other :: (rest' ++ rest) := by
        rw [hcut, ← List.singleton_append, ← List.append_assoc, hcut']
        simp
      exact (step_of_throws lib hsettled' hthrows').2.mpr
        (hcalls done' other (rest' ++ rest) hcut'' hthrows')
    rw [hsettled]
    exact hid

end Runs

/-- The author of a line before the one that fails is marked, and the caller has
not got it. -/
theorem loses_author :
    Throws oneAuthorLibrary {} ⟨.inMemory, unlines spoiledLines⟩ ∧
      "A1".toList ∈
        (Session.after oneAuthorLibrary {} [⟨.inMemory, unlines spoiledLines⟩]).seenIds ∧
      "A1".toList ∉ emittedIds
        (Session.after oneAuthorLibrary {} [⟨.inMemory, unlines spoiledLines⟩]).received := by
  refine ⟨(throws_iff oneAuthorLibrary).mpr ?_, ?_, ?_⟩
  · decide +kernel
  · decide +kernel
  · decide +kernel

end Citescoop
