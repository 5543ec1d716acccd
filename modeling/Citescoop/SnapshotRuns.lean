/-
Calls of `ProcessWorksSnapshot` as deduplications: what a call returns or
writes, and what sequences of calls deliver.
-/
import Citescoop.ConsideredRecords

namespace Citescoop

open FirstSeen

/-- The tuple of what is new on several lines. -/
def Batch.of (entities : List Entity) (works : List Work) : Batch where
  authors := entities.filterMap Entity.author?
  institutions := entities.filterMap Entity.institution?
  works := works

/-- What is written of one line, in this order. -/
def Extracted.emissions (extracted : Extracted) : List Emission :=
  extracted.authors.map (.entity ∘ .author) ++
    extracted.institutions.map (.entity ∘ .institution) ++ [.work extracted.work]

/-- The numbers of messages of each kind. -/
def Counts.of (log : List Emission) : Counts where
  authors := .ofNat (authorsIn log).length
  institutions := .ofNat (institutionsIn log).length
  works := .ofNat (worksIn log).length

def Counts.add (counts other : Counts) : Counts where
  authors := counts.authors + other.authors
  institutions := counts.institutions + other.institutions
  works := counts.works + other.works

@[simp] theorem Counts.add_of_nil (counts : Counts) : counts.add (.of []) = counts := by
  simp [add, of, authorsIn, institutionsIn, worksIn, entitiesIn]

@[simp] theorem Counts.add_of_append (counts : Counts) (log log' : List Emission) :
    counts.add (.of (log ++ log')) = (counts.add (.of log)).add (.of log') := by
  simp [add, of, authorsIn, institutionsIn, worksIn, entitiesIn, add_assoc]

section Lines

variable (lib : SnapshotLibrary)

/-- An empty line is passed over. -/
def readLine (line : Text) : Walk SnapshotException Entity :=
  if line.isEmpty then ⟨[], none⟩ else lineWalk lib line

def linesWalk (lines : List Text) : Walk SnapshotException Entity :=
  Walk.each (readLine lib) lines

theorem linesWalk_append (lines lines' : List Text) :
    linesWalk lib (lines ++ lines') = (linesWalk lib lines).append (linesWalk lib lines') :=
  Walk.each_append _ _ _

theorem failure?_linesWalk_append {lines lines' : List Text} :
    (linesWalk lib (lines ++ lines')).failure? = none ↔
      (linesWalk lib lines).failure? = none ∧ (linesWalk lib lines').failure? = none := by
  rw [linesWalk_append, Walk.failure?_append_eq_none_iff]

/-- The same program from a compiler that makes the calls in this order. -/
def SnapshotLibrary.evaluating (lib : SnapshotLibrary) (order : EvaluationOrder) :
    SnapshotLibrary :=
  { lib with order }

theorem lineWork_evaluating (order : EvaluationOrder) (line : Text) :
    lineWork (lib.evaluating order) line = lineWork lib line := rfl

/-- Whether a line can be processed does not depend on the order. -/
theorem failure?_readLine_evaluating (order : EvaluationOrder) (line : Text) :
    (readLine (lib.evaluating order) line).failure? = none ↔
      (readLine lib line).failure? = none := by
  have hcalls : ∀ data,
      (Walk.each (Extractor.walk lib data) order.extractors).failure? = none ↔
        (Walk.each (Extractor.walk lib data) lib.order.extractors).failure? = none := by
    intro data
    simp only [Walk.failure?_each_eq_none_iff, order.perm.mem_iff, lib.order.perm.mem_iff]
  rw [readLine, readLine]
  split
  · rfl
  · rw [lineWalk, lineWalk, Walk.failure?_ofExcept_eq_none_iff,
      Walk.failure?_ofExcept_eq_none_iff]
    apply exists_congr
    intro data
    exact and_congr_right fun _ => hcalls data

theorem failure?_linesWalk_evaluating (order : EvaluationOrder) (lines : List Text) :
    (linesWalk (lib.evaluating order) lines).failure? = none ↔
      (linesWalk lib lines).failure? = none := by
  rw [linesWalk, linesWalk, Walk.failure?_each_eq_none_iff, Walk.failure?_each_eq_none_iff]
  simp only [failure?_readLine_evaluating]

def lineWorks (lines : List Text) : List Work :=
  (lines.filter fun line => !line.isEmpty).map (lineWork lib)

theorem lineWorks_append (lines lines' : List Text) :
    lineWorks lib (lines ++ lines') = lineWorks lib lines ++ lineWorks lib lines' := by
  simp [lineWorks]

theorem lineWorks_cons (line : Text) (lines : List Text) :
    lineWorks lib (line :: lines) = lineWorks lib [line] ++ lineWorks lib lines :=
  lineWorks_append lib [line] lines

/-- What the lines before the first one that fails are written as. -/
def lineEmissions (seenIds : SeenIds) : List Text → List Emission
  | [] => []
  | line :: lines =>
      if line.isEmpty then lineEmissions seenIds lines
      else
        match (lineWalk lib line).failure? with
        | some _ => []
        | none =>
            (Extracted.of (fresh Entity.openalexId seenIds (lineWalk lib line).items)
              (lineWork lib line)).emissions ++
            lineEmissions (seenIds ∪ keys Entity.openalexId (lineWalk lib line).items) lines

theorem run_collectLine (found : List Entity) (works : List Work) (line : Text)
    (seenIds : SeenIds) :
    (collectLine lib (.of found works) line).run seenIds =
      match (readLine lib line).collect Entity.openalexId found seenIds with
      | .ok entities seenIds' =>
          .ok (.of entities (works ++ lineWorks lib [line])) seenIds'
      | .error exception seenIds' => .error exception seenIds' := by
  rw [collectLine, readLine, lineWorks]
  by_cases hempty : line.isEmpty = true
  · simp [hempty, Walk.collect_nil]
  · simp only [hempty, if_false, Bool.false_eq_true, EStateM.run_bind, run_processLine]
    cases hwalk : (lineWalk lib line).failure? with
    | some exception => simp [Walk.collect_of_failure hwalk]
    | none => simp [Walk.collect_of_failure?_eq_none hwalk, Batch.of, Extracted.of, hempty]

theorem run_foldlM_collectLine (lines : List Text) (found : List Entity)
    (works : List Work) (seenIds : SeenIds) :
    (lines.foldlM (collectLine lib) (.of found works)).run seenIds =
      match (linesWalk lib lines).collect Entity.openalexId found seenIds with
      | .ok entities seenIds' =>
          .ok (.of entities (works ++ lineWorks lib lines)) seenIds'
      | .error exception seenIds' => .error exception seenIds' := by
  induction lines generalizing found works seenIds with
  | nil => simp [linesWalk, lineWorks, Walk.each, Walk.collect_nil]
  | cons line lines ih =>
      rw [List.foldlM_cons, EStateM.run_bind, lineWorks_cons, run_collectLine, linesWalk,
        Walk.each, Walk.collect_append, ← List.append_assoc]
      cases (readLine lib line).collect Entity.openalexId found seenIds with
      | error exception seenIds' => rfl
      | ok entities seenIds' => exact ih entities _ seenIds'

/-- The loop over the lines returns what is new on its walk through them. -/
theorem run_collectLines (lines : List Text) (seenIds : SeenIds) :
    (collectLines lib lines).run seenIds =
      match (linesWalk lib lines).collect Entity.openalexId [] seenIds with
      | .ok entities seenIds' => .ok (.of entities (lineWorks lib lines)) seenIds'
      | .error exception seenIds' => .error exception seenIds' :=
  run_foldlM_collectLine lib lines [] [] seenIds

theorem run_foldlM_write {α : Type} {write : Counts → α → Caller Counts}
    {emission : α → Emission}
    (hwrite : ∀ counts message session, (write counts message).run session =
      .ok (counts.add (.of [emission message]))
        { session with received := session.received ++ [emission message] })
    (messages : List α) (counts : Counts) (session : Session) :
    (messages.foldlM write counts).run session =
      .ok (counts.add (.of (messages.map emission)))
        { session with received := session.received ++ messages.map emission } := by
  induction messages generalizing counts session with
  | nil => simp
  | cons message messages ih =>
      have hmessages : (message :: messages).map emission =
          [emission message] ++ messages.map emission := rfl
      rw [List.foldlM_cons, EStateM.run_bind, hwrite, hmessages, Counts.add_of_append,
        ← List.append_assoc]
      exact ih _ _

theorem run_writeAuthor (counts : Counts) (author : Author) (session : Session) :
    (writeAuthor counts author).run session =
      .ok (counts.add (.of [.entity (.author author)]))
        { session with received := session.received ++ [.entity (.author author)] } := by
  simp [writeAuthor, writeMessage, receive, Counts.add, Counts.of, authorsIn,
    institutionsIn, worksIn, entitiesIn]
  exact ⟨rfl, rfl⟩

theorem run_writeInstitution (counts : Counts) (institution : Institution)
    (session : Session) :
    (writeInstitution counts institution).run session =
      .ok (counts.add (.of [.entity (.institution institution)]))
        { session with
          received := session.received ++ [.entity (.institution institution)] } := by
  simp [writeInstitution, writeMessage, receive, Counts.add, Counts.of, authorsIn,
    institutionsIn, worksIn, entitiesIn]
  exact ⟨rfl, rfl⟩

theorem run_writeWork (counts : Counts) (work : Work) (session : Session) :
    (writeWork counts work).run session =
      .ok (counts.add (.of [.work work]))
        { session with received := session.received ++ [.work work] } := by
  simp [writeWork, writeMessage, receive, Counts.add, Counts.of, authorsIn,
    institutionsIn, worksIn, entitiesIn]
  exact ⟨rfl, rfl⟩

theorem run_onProcessor_of_ok {α : Type} {action : Processor α} {session : Session}
    {value : α} {seenIds : SeenIds} (haction : action.run session.seenIds = .ok value seenIds) :
    (onProcessor action).run session = .ok value { session with seenIds } := by
  simp [onProcessor, EStateM.run] at haction ⊢
  rw [haction]

theorem run_onProcessor_of_error {α : Type} {action : Processor α} {session : Session}
    {exception : SnapshotException} {seenIds : SeenIds}
    (haction : action.run session.seenIds = .error exception seenIds) :
    (onProcessor action).run session = .error exception { session with seenIds } := by
  simp [onProcessor, EStateM.run] at haction ⊢
  rw [haction]

/-- What a line that can be processed is written as. -/
theorem run_streamLine_of_ok {line : Text} (hline : (readLine lib line).failure? = none)
    (counts : Counts) (session : Session) :
    (streamLine lib counts line).run session =
      .ok (counts.add (.of (lineEmissions lib session.seenIds [line])))
        { seenIds := session.seenIds ∪ keys Entity.openalexId (readLine lib line).items
          received := session.received ++ lineEmissions lib session.seenIds [line] } := by
  rw [streamLine, lineEmissions]
  rw [readLine] at hline ⊢
  by_cases hempty : line.isEmpty = true
  · simp [hempty, lineEmissions]
  · simp only [hempty, if_false, Bool.false_eq_true] at hline ⊢
    have hprocess := run_processLine_of_ok lib hline session.seenIds
    rw [EStateM.run_bind, run_onProcessor_of_ok hprocess, hline]
    simp only [EStateM.run_bind, run_foldlM_write run_writeAuthor,
      run_foldlM_write run_writeInstitution, run_writeWork, lineEmissions,
      Extracted.emissions, List.append_nil, Counts.add_of_append, List.append_assoc]
    rfl

theorem run_streamLine_of_error {line : Text} {exception : SnapshotException}
    (hline : (readLine lib line).failure? = some exception) (counts : Counts)
    (session : Session) :
    (streamLine lib counts line).run session =
      .error exception { session with
        seenIds := session.seenIds ∪ keys Entity.openalexId (readLine lib line).items } := by
  rw [streamLine]
  rw [readLine] at hline ⊢
  by_cases hempty : line.isEmpty = true
  · simp [hempty] at hline
  · simp only [hempty, if_false, Bool.false_eq_true] at hline ⊢
    have hprocess := run_processLine_of_error lib hline session.seenIds
    rw [EStateM.run_bind, run_onProcessor_of_error hprocess]

theorem lineEmissions_cons_of_ok {line : Text}
    (hline : (readLine lib line).failure? = none) (seenIds : SeenIds) (lines : List Text) :
    lineEmissions lib seenIds (line :: lines) =
      lineEmissions lib seenIds [line] ++
        lineEmissions lib (seenIds ∪ keys Entity.openalexId (readLine lib line).items)
          lines := by
  rw [readLine] at hline ⊢
  by_cases hempty : line.isEmpty = true
  · simp [lineEmissions, hempty]
  · simp only [hempty, if_false, Bool.false_eq_true] at hline ⊢
    simp [lineEmissions, hempty, hline]

theorem lineEmissions_cons_of_error {line : Text} {exception : SnapshotException}
    (hline : (readLine lib line).failure? = some exception) (seenIds : SeenIds)
    (lines : List Text) : lineEmissions lib seenIds (line :: lines) = [] := by
  rw [readLine] at hline
  by_cases hempty : line.isEmpty = true
  · simp [hempty] at hline
  · simp only [hempty, if_false, Bool.false_eq_true] at hline
    simp [lineEmissions, hempty, hline]

theorem lineEmissions_append {lines : List Text}
    (hwalk : (linesWalk lib lines).failure? = none) (seenIds : SeenIds)
    (lines' : List Text) :
    lineEmissions lib seenIds (lines ++ lines') =
      lineEmissions lib seenIds lines ++
        lineEmissions lib (seenIds ∪ keys Entity.openalexId (linesWalk lib lines).items)
          lines' := by
  induction lines generalizing seenIds with
  | nil => simp [linesWalk, Walk.each, lineEmissions]
  | cons line lines ih =>
      rcases Walk.failure?_append_eq_none_iff.mp hwalk with ⟨hline, hlines⟩
      rw [List.cons_append, lineEmissions_cons_of_ok lib hline,
        lineEmissions_cons_of_ok lib hline seenIds lines, ih hlines, List.append_assoc,
        linesWalk, linesWalk, Walk.each, Walk.append_of_failure?_eq_none hline,
        keys_append, Finset.union_assoc]

/-- A session after the lines of a stream, up to the first one that fails. -/
def Session.through (session : Session) (lines : List Text) : Session where
  seenIds := session.seenIds ∪ keys Entity.openalexId (linesWalk lib lines).items
  received := session.received ++ lineEmissions lib session.seenIds lines

theorem run_foldlM_streamLine (lines : List Text) (counts : Counts) (session : Session) :
    (lines.foldlM (streamLine lib) counts).run session =
      match (linesWalk lib lines).failure? with
      | none =>
          .ok (counts.add (.of (lineEmissions lib session.seenIds lines)))
            (session.through lib lines)
      | some exception => .error exception (session.through lib lines) := by
  induction lines generalizing counts session with
  | nil => simp [linesWalk, Walk.each, lineEmissions, Session.through]
  | cons line lines ih =>
      rw [List.foldlM_cons, EStateM.run_bind, Session.through, linesWalk, Walk.each]
      cases hline : (readLine lib line).failure? with
      | some exception =>
          rw [run_streamLine_of_error lib hline, Walk.append_of_failure hline, hline,
            lineEmissions_cons_of_error lib hline, List.append_nil]
      | none =>
          rw [run_streamLine_of_ok lib hline, Walk.append_of_failure?_eq_none hline,
            lineEmissions_cons_of_ok lib hline session.seenIds lines]
          simp only [ih, Session.through, linesWalk, keys_append, Finset.union_assoc,
            List.append_assoc, Counts.add_of_append]

/-- The loop over the lines writes what is new, up to the first line that fails. -/
theorem run_streamLines (lines : List Text) (session : Session) :
    (streamLines lib lines).run session =
      match (linesWalk lib lines).failure? with
      | none =>
          .ok (.of (lineEmissions lib session.seenIds lines)) (session.through lib lines)
      | some exception => .error exception (session.through lib lines) := by
  have hzero : (({} : Counts)).add (.of (lineEmissions lib session.seenIds lines)) =
      .of (lineEmissions lib session.seenIds lines) := by
    simp [Counts.add]
  rw [streamLines, run_foldlM_streamLine, hzero]

end Lines

/-- A log whose messages of each kind are, in their order, those given. -/
structure Delivers (log : List Emission) (entities : List Entity) (works : List Work) :
    Prop where
  authors : authorsIn log = entities.filterMap Entity.author?
  institutions : institutionsIn log = entities.filterMap Entity.institution?
  works : worksIn log = works

theorem Delivers.nil : Delivers [] [] [] := ⟨rfl, rfl, rfl⟩

theorem Delivers.append {log log' : List Emission} {entities entities' : List Entity}
    {works works' : List Work} (hlog : Delivers log entities works)
    (hlog' : Delivers log' entities' works') :
    Delivers (log ++ log') (entities ++ entities') (works ++ works') := by
  refine ⟨?_, ?_, ?_⟩
  · rw [List.filterMap_append, ← hlog.authors, ← hlog'.authors]
    simp [authorsIn, entitiesIn]
  · rw [List.filterMap_append, ← hlog.institutions, ← hlog'.institutions]
    simp [institutionsIn, entitiesIn]
  · rw [← hlog.works, ← hlog'.works]
    simp [worksIn]

theorem Batch.delivers_emissions (entities : List Entity) (works : List Work) :
    Delivers (Batch.of entities works).emissions entities works := by
  refine ⟨?_, ?_, ?_⟩
  · simp [Batch.emissions, Batch.of, authorsIn, entitiesIn, Function.comp_def]
  · simp [Batch.emissions, Batch.of, institutionsIn, entitiesIn, Function.comp_def]
  · simp [Batch.emissions, Batch.of, worksIn, Function.comp_def]

theorem Extracted.emissions_of (entities : List Entity) (work : Work) :
    (Extracted.of entities work).emissions = (Batch.of entities [work]).emissions :=
  rfl

theorem perm_authors_institutions (entities : List Entity) :
    entities.Perm ((entities.filterMap Entity.author?).map .author ++
      (entities.filterMap Entity.institution?).map .institution) := by
  induction entities with
  | nil => exact .nil
  | cons entity entities ih =>
      cases entity with
      | author message => exact ih.cons _
      | institution message =>
          exact (ih.cons _).trans (List.perm_middle.symm)

/-- The entities of a log, whatever their order. -/
theorem Delivers.perm {log : List Emission} {entities : List Entity} {works : List Work}
    (hlog : Delivers log entities works) : (entitiesIn log).Perm entities := by
  have hperm := perm_authors_institutions (entitiesIn log)
  have hauthors : (entitiesIn log).filterMap Entity.author? = _ := hlog.authors
  have hinstitutions : (entitiesIn log).filterMap Entity.institution? = _ :=
    hlog.institutions
  rw [hauthors, hinstitutions] at hperm
  exact hperm.trans (perm_authors_institutions entities).symm

section Calls

variable (lib : SnapshotLibrary)

/-- What the caller receives from a call. -/
def Call.emissions (call : Call) (seenIds : SeenIds) : List Emission :=
  match call.overload with
  | .inMemory =>
      (Batch.of (fresh Entity.openalexId seenIds (linesWalk lib (getLines call.input)).items)
        (lineWorks lib (getLines call.input))).emissions
  | .streaming => lineEmissions lib seenIds (getLines call.input)

/-- A session after a call that returns. -/
def Session.next (session : Session) (call : Call) : Session where
  seenIds := session.seenIds ∪
    keys Entity.openalexId (linesWalk lib (getLines call.input)).items
  received := session.received ++ call.emissions lib session.seenIds

theorem run_perform_of_ok {call : Call}
    (hwalk : (linesWalk lib (getLines call.input)).failure? = none) (session : Session) :
    ∃ returned, (perform lib call).run session = .ok returned (session.next lib call) := by
  cases hoverload : call.overload with
  | inMemory =>
      have hcollect := run_collectLines lib (getLines call.input) session.seenIds
      rw [Walk.collect_of_failure?_eq_none hwalk] at hcollect
      rw [perform, hoverload, Session.next, Call.emissions, hoverload]
      simp only [EStateM.run_bind, run_onProcessor_of_ok hcollect, processWorksSnapshot,
        receive, EStateM.run_modify, EStateM.run_pure, List.nil_append]
      exact ⟨_, rfl⟩
  | streaming =>
      have hstream := run_streamLines lib (getLines call.input) session
      rw [hwalk] at hstream
      rw [perform, hoverload, Session.next, Call.emissions, hoverload]
      simp only [EStateM.run_bind, processWorksSnapshotStreaming, hstream,
        EStateM.run_pure]
      exact ⟨_, rfl⟩

theorem run_perform_of_error {call : Call} {exception : SnapshotException}
    (hwalk : (linesWalk lib (getLines call.input)).failure? = some exception)
    (session : Session) :
    (perform lib call).run session =
      .error exception (match call.overload with
        | .inMemory => { session with
            seenIds := session.seenIds ∪
              keys Entity.openalexId (linesWalk lib (getLines call.input)).items }
        | .streaming => session.through lib (getLines call.input)) := by
  cases hoverload : call.overload with
  | inMemory =>
      have hcollect := run_collectLines lib (getLines call.input) session.seenIds
      rw [Walk.collect_of_failure hwalk] at hcollect
      simp only [perform, hoverload, EStateM.run_bind, processWorksSnapshot,
        run_onProcessor_of_error hcollect]
  | streaming =>
      have hstream := run_streamLines lib (getLines call.input) session
      rw [hwalk] at hstream
      simp only [perform, hoverload, EStateM.run_bind, processWorksSnapshotStreaming,
        hstream]

/-- A line is written as a batch of its own. -/
theorem lineEmissions_singleton {line : Text} (hline : (readLine lib line).failure? = none)
    (seenIds : SeenIds) :
    lineEmissions lib seenIds [line] =
      (Batch.of (fresh Entity.openalexId seenIds (readLine lib line).items)
        (lineWorks lib [line])).emissions := by
  rw [readLine] at hline ⊢
  by_cases hempty : line.isEmpty = true
  · simp [lineEmissions, lineWorks, hempty, fresh, Batch.emissions, Batch.of]
  · rw [if_neg hempty] at hline ⊢
    simp [lineEmissions, lineWorks, hempty, hline, Extracted.emissions_of]

theorem delivers_lineEmissions {lines : List Text}
    (hwalk : (linesWalk lib lines).failure? = none) (seenIds : SeenIds) :
    Delivers (lineEmissions lib seenIds lines)
      (fresh Entity.openalexId seenIds (linesWalk lib lines).items)
      (lineWorks lib lines) := by
  induction lines generalizing seenIds with
  | nil => exact .nil
  | cons line lines ih =>
      rcases Walk.failure?_append_eq_none_iff.mp hwalk with ⟨hline, hlines⟩
      rw [lineEmissions_cons_of_ok lib hline, linesWalk, Walk.each,
        Walk.append_of_failure?_eq_none hline, fresh_append, lineWorks_cons]
      apply Delivers.append
      · rw [lineEmissions_singleton lib hline]
        exact Batch.delivers_emissions _ _
      · exact ih hlines _

theorem Call.delivers_emissions {call : Call}
    (hwalk : (linesWalk lib (getLines call.input)).failure? = none) (seenIds : SeenIds) :
    Delivers (call.emissions lib seenIds)
      (fresh Entity.openalexId seenIds (linesWalk lib (getLines call.input)).items)
      (lineWorks lib (getLines call.input)) := by
  rw [Call.emissions]
  cases call.overload with
  | inMemory => exact Batch.delivers_emissions _ _
  | streaming => exact delivers_lineEmissions lib hwalk seenIds

/-- The lines of all the calls, one call after the other. -/
def callLines (calls : List Call) : List Text :=
  calls.flatMap fun call => getLines call.input

theorem callLines_cons (call : Call) (calls : List Call) :
    callLines (call :: calls) = getLines call.input ++ callLines calls :=
  List.flatMap_cons

/-- A run in which no line fails is a run that returns. -/
theorem run_performAll_of_ok {calls : List Call}
    (hwalk : (linesWalk lib (callLines calls)).failure? = none) (session : Session) :
    ∃ returned, (performAll lib calls).run session =
      .ok returned (calls.foldl (Session.next lib) session) := by
  induction calls generalizing session with
  | nil => exact ⟨[], rfl⟩
  | cons call calls ih =>
      rw [callLines_cons, failure?_linesWalk_append] at hwalk
      rcases run_perform_of_ok lib hwalk.1 session with ⟨returned, hcall⟩
      rcases ih hwalk.2 (session.next lib call) with ⟨rest, hcalls⟩
      refine ⟨returned :: rest, ?_⟩
      simp only [performAll, EStateM.run_bind, hcall, hcalls, EStateM.run_pure,
        List.foldl_cons]

theorem of_run_performAll {calls : List Call} {session final : Session}
    {returned : List Returned} (hrun : (performAll lib calls).run session = .ok returned final) :
    (linesWalk lib (callLines calls)).failure? = none ∧
      final = calls.foldl (Session.next lib) session := by
  induction calls generalizing session returned final with
  | nil =>
      simp only [performAll, EStateM.run_pure, EStateM.Result.ok.injEq] at hrun
      exact ⟨rfl, hrun.2.symm⟩
  | cons call calls ih =>
      rw [callLines_cons, failure?_linesWalk_append]
      rw [performAll, EStateM.run_bind] at hrun
      cases hwalk : (linesWalk lib (getLines call.input)).failure? with
      | some exception =>
          rw [run_perform_of_error lib hwalk] at hrun
          cases hrun
      | none =>
          rcases run_perform_of_ok lib hwalk session with ⟨head, hcall⟩
          rw [hcall] at hrun
          simp only [EStateM.run_bind] at hrun
          cases hrest : (performAll lib calls).run (session.next lib call) with
          | error exception state =>
              rw [hrest] at hrun
              cases hrun
          | ok rest state =>
              rw [hrest] at hrun
              simp only [EStateM.run_pure, EStateM.Result.ok.injEq] at hrun
              rcases ih hrest with ⟨hcalls, hstate⟩
              exact ⟨⟨rfl, hcalls⟩, hrun.2.symm.trans hstate⟩

/-- What a run adds to a session, whatever its cut into calls. -/
theorem foldl_next {calls : List Call}
    (hwalk : (linesWalk lib (callLines calls)).failure? = none) (session : Session) :
    (calls.foldl (Session.next lib) session).seenIds =
        session.seenIds ∪ keys Entity.openalexId (linesWalk lib (callLines calls)).items ∧
      ∃ log, (calls.foldl (Session.next lib) session).received = session.received ++ log ∧
        Delivers log
          (fresh Entity.openalexId session.seenIds (linesWalk lib (callLines calls)).items)
          (lineWorks lib (callLines calls)) := by
  induction calls generalizing session with
  | nil =>
      refine ⟨by simp [callLines, linesWalk, Walk.each], [], by simp, .nil⟩
  | cons call calls ih =>
      rw [callLines_cons, linesWalk_append] at hwalk ⊢
      rcases Walk.failure?_append_eq_none_iff.mp hwalk with ⟨hcall, hcalls⟩
      rcases ih hcalls (session.next lib call) with ⟨hseen, log, hlog, hdelivers⟩
      rw [Walk.append_of_failure?_eq_none hcall, List.foldl_cons]
      refine ⟨?_, call.emissions lib session.seenIds ++ log, ?_, ?_⟩
      · rw [hseen, Session.next, keys_append, Finset.union_assoc]
      · rw [hlog, Session.next, List.append_assoc]
      · rw [fresh_append, lineWorks_append]
        exact (call.delivers_emissions lib hcall session.seenIds).append hdelivers

end Calls

end Citescoop
