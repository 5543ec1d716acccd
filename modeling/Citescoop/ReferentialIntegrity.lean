/-
The references of emitted works.  Authors and institutions share one set of
seen ids, so a reference resolves when the first record with its id, over all
lines processed, is of the kind that it is referred to as.
-/
import Citescoop.Deduplication
import Citescoop.WorkReferences

namespace Citescoop

open FirstSeen

/-- Every id of an emitted work belongs to a message of its kind that has been
emitted before. -/
def Resolves (log : List Emission) : Prop :=
  ∀ before work after, log = before ++ .work work :: after →
    (∀ authorId ∈ work.authorIds, ∃ message : Author,
      .entity (.author message) ∈ before ∧ message.openalexId = authorId) ∧
    ∀ institutionId ∈ work.institutionIds, ∃ message : Institution,
      .entity (.institution message) ∈ before ∧ message.openalexId = institutionId

section Runs

variable (lib : SnapshotLibrary)

/-- The first record with the id of an author is an author, and the first one
with the id of an institution that a work refers to is an institution. -/
def KindsAgree (lines : List Text) : Prop :=
  ∀ line ∈ lines, line ≠ [] → ∀ data, lib.parse line = some data →
    (∀ author authorId, ListsAuthor data author authorId → ∃ message,
      (considered lib lines).find? (fun entity => entity.openalexId = authorId) =
        some (.author message)) ∧
    ∀ institutionId, ReferencesInstitution data institutionId → ∃ message,
      (considered lib lines).find? (fun entity => entity.openalexId = institutionId) =
        some (.institution message)

/-- In a log of some lines, every work comes from one of them and stands behind
what is new on the lines up to it. -/
def WorksFollow (seenIds : SeenIds) (log : List Emission) (lines : List Text) : Prop :=
  ∀ before work after, log = before ++ .work work :: after →
    ∃ earlier line later, lines = earlier ++ line :: later ∧ line ≠ [] ∧
      work = lineWork lib line ∧
      ∀ entity ∈ fresh Entity.openalexId seenIds (considered lib (earlier ++ [line])),
        .entity entity ∈ before

theorem considered_append {lines : List Text}
    (hwalk : (linesWalk lib lines).failure? = none) (lines' : List Text) :
    considered lib (lines ++ lines') = considered lib lines ++ considered lib lines' := by
  rw [considered, linesWalk_append, Walk.append_of_failure?_eq_none hwalk]
  rfl

theorem Delivers.entity_mem_iff {log : List Emission} {entities : List Entity}
    {works : List Work} (hlog : Delivers log entities works) {entity : Entity} :
    .entity entity ∈ log ↔ entity ∈ entities := by
  rw [← hlog.perm.mem_iff, entitiesIn, List.mem_filterMap]
  constructor
  · intro hmem
    exact ⟨_, hmem, rfl⟩
  · rintro ⟨emission, hmem, hentity⟩
    cases emission with
    | entity message =>
        cases hentity
        exact hmem
    | work message => cases hentity

theorem Delivers.work_mem_iff {log : List Emission} {entities : List Entity}
    {works : List Work} (hlog : Delivers log entities works) {work : Work} :
    .work work ∈ log ↔ work ∈ works := by
  rw [← hlog.works, worksIn, List.mem_filterMap]
  constructor
  · intro hmem
    exact ⟨_, hmem, rfl⟩
  · rintro ⟨emission, hmem, hwork⟩
    cases emission with
    | entity message => cases hwork
    | work message =>
        cases hwork
        exact hmem

theorem mem_lineWorks_iff {lines : List Text} {work : Work} :
    work ∈ lineWorks lib lines ↔ ∃ line ∈ lines, line ≠ [] ∧ work = lineWork lib line := by
  simp only [lineWorks, List.mem_map, List.mem_filter]
  constructor
  · rintro ⟨line, ⟨hmem, hne⟩, rfl⟩
    exact ⟨line, hmem, by simpa using hne, rfl⟩
  · rintro ⟨line, hmem, hne, rfl⟩
    exact ⟨line, ⟨hmem, by simpa using hne⟩, rfl⟩

/-- In a batch the works stand at the end. -/
theorem worksFollow_batch {lines : List Text}
    (hwalk : (linesWalk lib lines).failure? = none) (seenIds : SeenIds) :
    WorksFollow lib seenIds
      (Batch.of (fresh Entity.openalexId seenIds (considered lib lines))
        (lineWorks lib lines)).emissions lines := by
  intro before work after hlog
  have hdelivers := Batch.delivers_emissions
    (fresh Entity.openalexId seenIds (considered lib lines)) (lineWorks lib lines)
  have hwork : work ∈ lineWorks lib lines := by
    rw [← hdelivers.work_mem_iff, hlog]
    exact List.mem_append_right _ List.mem_cons_self
  rcases (mem_lineWorks_iff lib).mp hwork with ⟨line, hmem, hne, hsame⟩
  rcases List.append_of_mem hmem with ⟨earlier, later, hlines⟩
  refine ⟨earlier, line, later, hlines, hne, hsame, ?_⟩
  intro entity hentity
  have hcut : lines = (earlier ++ [line]) ++ later := by simp [hlines]
  have hall : entity ∈ fresh Entity.openalexId seenIds (considered lib lines) := by
    rw [hcut, failure?_linesWalk_append] at hwalk
    rw [hcut, considered_append lib hwalk.1, fresh_append]
    exact List.mem_append_left _ hentity
  have hemitted := hdelivers.entity_mem_iff.mpr hall
  rw [Batch.emissions, List.mem_append] at hemitted
  have hfront := hemitted.resolve_right (by simp)
  rw [Batch.emissions] at hlog
  rcases List.append_eq_append_iff.mp hlog with ⟨rest, hbefore, -⟩ | ⟨rest, hfirst, hrest⟩
  · rw [hbefore]
    exact List.mem_append_left _ hfront
  · cases rest with
    | nil => simpa [hfirst] using hfront
    | cons head rest =>
        rw [List.cons_append, List.cons.injEq] at hrest
        have hhead : Emission.work work ∈ before ++ head :: rest := by simp [← hrest.1]
        rw [← hfirst] at hhead
        simp at hhead

theorem WorksFollow.append {seenIds : SeenIds} {log log' : List Emission}
    {lines lines' : List Text} (hwalk : (linesWalk lib lines).failure? = none)
    (hlog : WorksFollow lib seenIds log lines)
    (hentities : ∀ entity ∈ fresh Entity.openalexId seenIds (considered lib lines),
      .entity entity ∈ log)
    (hlog' : WorksFollow lib (seenIds ∪ keys Entity.openalexId (considered lib lines)) log'
      lines') :
    WorksFollow lib seenIds (log ++ log') (lines ++ lines') := by
  intro before work after hboth
  have hsecond : ∀ middle, before = log ++ middle → log' = middle ++ .work work :: after →
      ∃ earlier line later, lines ++ lines' = earlier ++ line :: later ∧ line ≠ [] ∧
        work = lineWork lib line ∧
        ∀ entity ∈ fresh Entity.openalexId seenIds (considered lib (earlier ++ [line])),
          .entity entity ∈ before := by
    intro middle hbefore hmiddle
    rcases hlog' middle work after hmiddle with
      ⟨earlier, line, later, hlines', hne, hwork, hnew⟩
    refine ⟨lines ++ earlier, line, later, by simp [hlines'], hne, hwork, ?_⟩
    intro entity hentity
    rw [List.append_assoc, considered_append lib hwalk, fresh_append,
      List.mem_append] at hentity
    rw [hbefore, List.mem_append]
    exact hentity.imp (hentities entity) (hnew entity)
  rcases List.append_eq_append_iff.mp hboth with
    ⟨middle, hbefore, hmiddle⟩ | ⟨middle, hfirst, hmiddle⟩
  · exact hsecond middle hbefore hmiddle
  · cases middle with
    | nil => exact hsecond [] (by simpa using hfirst.symm) (by simpa using hmiddle.symm)
    | cons head middle =>
        rw [List.cons_append, List.cons.injEq] at hmiddle
        rw [← hmiddle.1] at hfirst
        rcases hlog before work middle hfirst with
          ⟨earlier, line, later, hlines, hne, hwork, hnew⟩
        exact ⟨earlier, line, later ++ lines', by simp [hlines], hne, hwork, hnew⟩

theorem worksFollow_lineEmissions {lines : List Text}
    (hwalk : (linesWalk lib lines).failure? = none) (seenIds : SeenIds) :
    WorksFollow lib seenIds (lineEmissions lib seenIds lines) lines := by
  induction lines generalizing seenIds with
  | nil =>
      intro before work after hlog
      simp [lineEmissions] at hlog
  | cons line lines ih =>
      rw [← List.singleton_append, failure?_linesWalk_append] at hwalk
      have hline : (readLine lib line).failure? = none :=
        Walk.failure?_each_eq_none_iff.mp hwalk.1 line List.mem_cons_self
      have hitems : considered lib [line] = (readLine lib line).items := by
        simp [considered, linesWalk, Walk.each, Walk.append, hline]
      rw [lineEmissions_cons_of_ok lib hline, ← hitems]
      change WorksFollow lib seenIds _ ([line] ++ lines)
      apply WorksFollow.append lib hwalk.1 _ _ (ih hwalk.2 _)
      · rw [lineEmissions_singleton lib hline, ← hitems]
        exact worksFollow_batch lib hwalk.1 seenIds
      · intro entity hentity
        exact (delivers_lineEmissions lib hwalk.1 seenIds).entity_mem_iff.mpr hentity

theorem worksFollow_emissions {call : Call}
    (hwalk : (linesWalk lib (getLines call.input)).failure? = none) (seenIds : SeenIds) :
    WorksFollow lib seenIds (call.emissions lib seenIds) (getLines call.input) := by
  rw [Call.emissions]
  cases call.overload with
  | inMemory => exact worksFollow_batch lib hwalk seenIds
  | streaming => exact worksFollow_lineEmissions lib hwalk seenIds

theorem worksFollow_foldl_next {calls : List Call}
    (hwalk : (linesWalk lib (callLines calls)).failure? = none) (session : Session) :
    ∃ log, (calls.foldl (Session.next lib) session).received = session.received ++ log ∧
      WorksFollow lib session.seenIds log (callLines calls) := by
  induction calls generalizing session with
  | nil =>
      refine ⟨[], by simp, ?_⟩
      intro before work after hlog
      simp at hlog
  | cons call calls ih =>
      rw [callLines_cons] at hwalk ⊢
      rcases (failure?_linesWalk_append lib).mp hwalk with ⟨hcall, hcalls⟩
      rcases ih hcalls (session.next lib call) with ⟨log, hlog, hfollow⟩
      refine ⟨call.emissions lib session.seenIds ++ log, ?_, ?_⟩
      · rw [List.foldl_cons, hlog, Session.next, List.append_assoc]
      · apply WorksFollow.append lib hcall (worksFollow_emissions lib hcall _) _ hfollow
        intro entity hentity
        exact (call.delivers_emissions lib hcall _).entity_mem_iff.mpr hentity

/-- What the work of a line refers to. -/
theorem lineWork_references {line : Text} (hline : (lineWalk lib line).failure? = none) :
    ∃ data, lib.parse line = some data ∧
      (∀ authorId, authorId ∈ (lineWork lib line).authorIds ↔
        ∃ author, ListsAuthor data author authorId) ∧
      ∀ institutionId, institutionId ∈ (lineWork lib line).institutionIds ↔
        ReferencesInstitution data institutionId := by
  rcases of_failure?_lineWalk_eq_none lib hline with ⟨data, work, hparse, hwork, hsame, -⟩
  rcases extractWork_authorIds hwork with ⟨hwalk, hauthors⟩
  rw [hsame]
  refine ⟨data, hparse, ?_, (extractWork_institutionIds hwork).2⟩
  intro authorId
  rw [hauthors, List.mem_map, exists_mem_authorWalk_iff hwalk]

theorem failure?_lineWalk_of_mem {lines : List Text}
    (hwalk : (linesWalk lib lines).failure? = none) {line : Text} (hmem : line ∈ lines)
    (hne : line ≠ []) : (lineWalk lib line).failure? = none := by
  have hread := Walk.failure?_each_eq_none_iff.mp hwalk line hmem
  rwa [readLine, if_neg (mt List.isEmpty_iff.mp hne)] at hread

/-- The first record with an id that a line computes is emitted with that line at the
latest. -/
theorem mem_fresh_of_computesId {earlier later : List Text} {line : Text}
    (hwalk : (linesWalk lib (earlier ++ line :: later)).failure? = none) (hne : line ≠ [])
    {id : Text} (hcomputes : ComputesId lib line id) {entity : Entity}
    (hfirst : (considered lib (earlier ++ line :: later)).find?
      (fun other => other.openalexId = id) = some entity) :
    entity.openalexId = id ∧
      entity ∈ fresh Entity.openalexId ∅ (considered lib (earlier ++ [line])) := by
  rw [← List.singleton_append, ← List.append_assoc] at hwalk hfirst
  have hbefore := ((failure?_linesWalk_append lib).mp hwalk).1
  have hid : id ∈ keys Entity.openalexId (considered lib (earlier ++ [line])) :=
    (mem_keys_considered_iff lib hbefore).mpr ⟨line, by simp, hne, hcomputes⟩
  have hmet : ((considered lib (earlier ++ [line])).find?
      (fun other => other.openalexId = id)).isSome := by
    rcases (mem_keys _ _).mp hid with ⟨other, hother, hsame⟩
    exact List.find?_isSome.mpr ⟨other, hother, by simpa using hsame⟩
  rw [considered_append lib hbefore, List.find?_append, Option.or_of_isSome hmet] at hfirst
  have hsame : entity.openalexId = id := by simpa using List.find?_some hfirst
  exact ⟨hsame, mem_fresh_iff.mpr ⟨Finset.notMem_empty _, hsame ▸ hfirst⟩⟩

/-- Works whose references resolve refer to records that are first with their id. -/
theorem kindsAgree_of_resolves {lines : List Text}
    (hwalk : (linesWalk lib lines).failure? = none) {log : List Emission}
    (hdelivers : Delivers log (fresh Entity.openalexId ∅ (considered lib lines))
      (lineWorks lib lines)) (hresolves : Resolves log) : KindsAgree lib lines := by
  intro line hmem hne data hparse
  rcases lineWork_references lib (failure?_lineWalk_of_mem lib hwalk hmem hne) with
    ⟨data', hparse', hauthors, hinstitutions⟩
  have hdata : data' = data := Option.some_injective _ (hparse'.symm.trans hparse)
  subst hdata
  have hwork : .work (lineWork lib line) ∈ log :=
    hdelivers.work_mem_iff.mpr ((mem_lineWorks_iff lib).mpr ⟨line, hmem, hne, rfl⟩)
  rcases List.append_of_mem hwork with ⟨before, after, hcut⟩
  have hfound : ∀ entity : Entity, .entity entity ∈ before →
      (considered lib lines).find? (fun other => other.openalexId = entity.openalexId) =
        some entity := by
    intro entity hentity
    apply hdelivers.find?_eq_some
    have hlogged : .entity entity ∈ log := hcut ▸ List.mem_append_left _ hentity
    exact hdelivers.perm.mem_iff.mpr (hdelivers.entity_mem_iff.mp hlogged)
  rcases hresolves before _ after hcut with ⟨hauthorIds, hinstitutionIds⟩
  refine ⟨?_, ?_⟩
  · intro author authorId hlists
    rcases hauthorIds authorId ((hauthors authorId).mpr ⟨author, hlists⟩) with
      ⟨message, hmessage, rfl⟩
    exact ⟨message, hfound _ hmessage⟩
  · intro institutionId hreferences
    rcases hinstitutionIds institutionId ((hinstitutions institutionId).mpr hreferences)
      with ⟨message, hmessage, rfl⟩
    exact ⟨message, hfound _ hmessage⟩

theorem resolves_of_kindsAgree {lines : List Text}
    (hwalk : (linesWalk lib lines).failure? = none) {log : List Emission}
    (hfollow : WorksFollow lib ∅ log lines) (hagree : KindsAgree lib lines) :
    Resolves log := by
  intro before work after hwork
  rcases hfollow before work after hwork with ⟨earlier, line, later, rfl, hne, rfl, hnew⟩
  have hmem : line ∈ earlier ++ line :: later := by simp
  rcases lineWork_references lib (failure?_lineWalk_of_mem lib hwalk hmem hne) with
    ⟨data, hparse, hauthors, hinstitutions⟩
  rcases hagree line hmem hne data hparse with ⟨hfirstAuthors, hfirstInstitutions⟩
  refine ⟨?_, ?_⟩
  · intro authorId hauthorId
    rcases (hauthors authorId).mp hauthorId with ⟨author, hlists⟩
    rcases hfirstAuthors author authorId hlists with ⟨message, hfirst⟩
    rcases mem_fresh_of_computesId lib hwalk hne ⟨data, hparse, Or.inl ⟨author, hlists⟩⟩
      hfirst with ⟨hid, hfresh⟩
    exact ⟨message, hnew _ hfresh, hid⟩
  · intro institutionId hinstitutionId
    have hreferences := (hinstitutions institutionId).mp hinstitutionId
    rcases hfirstInstitutions institutionId hreferences with ⟨message, hfirst⟩
    rcases mem_fresh_of_computesId lib hwalk hne ⟨data, hparse, Or.inr hreferences.lists⟩
      hfirst with ⟨hid, hfresh⟩
    exact ⟨message, hnew _ hfresh, hid⟩

/-- The references of the works resolve exactly when, over the lines of all
calls, the kinds of the first records agree. -/
theorem resolves_iff {calls : List Call} {returned : List Returned} {session : Session}
    (hrun : (performAll lib calls).run {} = .ok returned session) :
    Resolves session.received ↔ KindsAgree lib (callLines calls) := by
  rcases of_run_performAll lib hrun with ⟨hwalk, rfl⟩
  rcases foldl_next lib hwalk {} with ⟨-, log, hlog, hdelivers⟩
  rcases worksFollow_foldl_next lib hwalk {} with ⟨log', hlog', hfollow⟩
  have hsame : log' = log := List.append_cancel_left (hlog'.symm.trans hlog)
  subst hsame
  rw [hlog, List.nil_append]
  constructor
  · exact kindsAgree_of_resolves lib hwalk hdelivers
  · exact resolves_of_kindsAgree lib hwalk hfollow

end Runs

/-- A record with an author and an institution, and another one with the same ids. -/
theorem resolves_iff_affiliations :
    ∃ returned session, (performAll affiliationLibrary affiliationCalls).run {} =
        .ok returned session ∧ Resolves session.received := by
  rcases run_performAll_of_ok affiliationLibrary linesWalk_affiliationCalls {} with
    ⟨returned, hrun⟩
  refine ⟨returned, _, hrun, (resolves_iff affiliationLibrary hrun).mpr ?_⟩
  have hwalk := linesWalk_affiliationCalls
  rw [callLines_affiliationCalls] at hwalk ⊢
  intro line hmem hne data hparse
  have hline := failure?_lineWalk_of_mem affiliationLibrary hwalk hmem hne
  rcases of_failure?_lineWalk_eq_none affiliationLibrary hline with
    ⟨data', -, hparse', -, -, hauthors, hinstitutions⟩
  obtain rfl : data' = data := Option.some_injective _ (hparse'.symm.trans hparse)
  have hids : (∀ message ∈ (authorWalk data').items, message.openalexId = "A1".toList) ∧
      ∀ message ∈ (institutionWalk data').items, message.openalexId = "I1".toList := by
    rcases List.mem_cons.mp hmem with rfl | hmem
    · rw [parse_firstLine, Option.some.injEq] at hparse
      subst hparse
      decide +kernel
    · rw [List.mem_singleton.mp hmem, parse_laterLine, Option.some.injEq] at hparse
      subst hparse
      decide +kernel
  constructor
  · intro author authorId hlists
    rcases (exists_mem_authorWalk_iff hauthors).mpr ⟨author, hlists⟩ with
      ⟨message, hmessage, rfl⟩
    rw [hids.1 message hmessage]
    exact ⟨⟨"A1".toList, some "A. Name".toList, some "O1".toList⟩, by decide +kernel⟩
  · intro institutionId hreferences
    rcases (exists_mem_institutionWalk_iff hinstitutions).mpr hreferences.lists with
      ⟨message, hmessage, rfl⟩
    rw [hids.2 message hmessage]
    exact ⟨⟨"I1".toList, some "A place".toList, some "R1".toList⟩, by decide +kernel⟩

/-- The text of a record with an author and an institution of one name, and
nothing else to tell them by. -/
def sharedNameLine : Text :=
  minimalLine ("\x7b\"author\":\x7b\"display_name\":\"Curie\"\x7d," ++
    "\"institutions\":[\x7b\"display_name\":\"Curie\"\x7d]\x7d")

def sharedNameLibrary : SnapshotLibrary :=
  tableLibrary [(sharedNameLine, minimalRecord [.object [
    ("author".toList, .object [("display_name".toList, .string "Curie".toList)]),
    ("institutions".toList, .array [
      .object [("display_name".toList, .string "Curie".toList)]])]])]

/-- Whichever of the two calls is made first, it takes the id of the author and the
institution, and the message of the other is never emitted. -/
theorem not_resolves_shared_name :
    ¬ ∃ order, ∀ returned session, (performAll (sharedNameLibrary.evaluating order)
        [⟨.inMemory, sharedNameLine⟩]).run {} = .ok returned session →
      Resolves session.received := by
  rintro ⟨order, hresolves⟩
  have hlines : callLines [⟨.inMemory, sharedNameLine⟩] = [sharedNameLine] := by decide +kernel
  have hwalk : (linesWalk (sharedNameLibrary.evaluating order)
      (callLines [⟨.inMemory, sharedNameLine⟩])).failure? = none := by
    rw [failure?_linesWalk_evaluating]
    decide +kernel
  rcases run_performAll_of_ok (sharedNameLibrary.evaluating order) hwalk {} with
    ⟨returned, hrun⟩
  rcases foldl_next (sharedNameLibrary.evaluating order) hwalk {} with
    ⟨-, log, hlog, hdelivers⟩
  replace hresolves := hresolves returned _ hrun
  rw [hlog, List.nil_append] at hresolves
  have hwork : .work (lineWork sharedNameLibrary sharedNameLine) ∈ log := by
    rw [hdelivers.work_mem_iff, hlines, mem_lineWorks_iff]
    exact ⟨sharedNameLine, List.mem_singleton_self _, by decide +kernel,
      (lineWork_evaluating sharedNameLibrary order sharedNameLine).symm⟩
  have hauthor : "UNKNOWN_Curie".toList ∈
      (lineWork sharedNameLibrary sharedNameLine).authorIds := by
    decide +kernel
  have hinstitution : "UNKNOWN_Curie".toList ∈
      (lineWork sharedNameLibrary sharedNameLine).institutionIds := by
    decide +kernel
  rcases List.append_of_mem hwork with ⟨before, after, hcut⟩
  rcases (hresolves before _ after hcut).1 _ hauthor with ⟨message, hmessage, hid⟩
  rcases (hresolves before _ after hcut).2 _ hinstitution with ⟨message', hmessage', hid'⟩
  -- every id is emitted once, and these two messages share one
  have hmem : ∀ entity : Entity, .entity entity ∈ before →
      entity ∈ fresh Entity.openalexId ∅
        (linesWalk (sharedNameLibrary.evaluating order) [sharedNameLine]).items := by
    intro entity hentity
    rw [← hlines]
    exact hdelivers.entity_mem_iff.mp (hcut ▸ List.mem_append_left _ hentity)
  have hsame := List.inj_on_of_nodup_map (nodup_fresh _ _) (hmem _ hmessage)
    (hmem _ hmessage') (hid.trans hid'.symm)
  cases hsame

end Citescoop
