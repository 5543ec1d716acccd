/-
The overload of `ProcessWorksSnapshot` that writes to streams, down to the bytes of
the three files, against the messages that it hands to its writers.
-/
import Citescoop.Deduplication
import Citescoop.PbfMessages
import Citescoop.StateSimulation

namespace Citescoop

open FirstSeen StateSimulation

/-- The streams for authors, institutions and works. -/
structure SnapshotOutputs where
  authors : List UInt8 := []
  institutions : List UInt8 := []
  works : List UInt8 := []
deriving Repr, DecidableEq

/-- A processor, and the streams that its caller has it write to. -/
structure FileSession where
  seenIds : SeenIds := ∅
  outputs : SnapshotOutputs := {}

abbrev FileCaller := EStateM SnapshotException FileSession

section Program

variable {Stream : Type} (pbf : PbfLibrary Stream) (lib : SnapshotLibrary)

def onProcessorTo {α : Type} (action : Processor α) : FileCaller α := fun session =>
  match action.run session.seenIds with
  | .ok value seenIds => .ok value { session with seenIds }
  | .error exception seenIds => .error exception { session with seenIds }

def writeAuthorTo (counts : Counts) (author : Author) : FileCaller Counts := do
  modify fun session => { session with outputs := { session.outputs with
    authors := ((pbf.writeMessage (.author author)).run session.outputs.authors).2 } }
  return { counts with authors := counts.authors + 1 }

def writeInstitutionTo (counts : Counts) (institution : Institution) :
    FileCaller Counts := do
  modify fun session => { session with outputs := { session.outputs with
    institutions :=
      ((pbf.writeMessage (.institution institution)).run session.outputs.institutions).2 } }
  return { counts with institutions := counts.institutions + 1 }

def writeWorkTo (counts : Counts) (work : Work) : FileCaller Counts := do
  modify fun session => { session with outputs := { session.outputs with
    works := ((pbf.writeMessage (.work work)).run session.outputs.works).2 } }
  return { counts with works := counts.works + 1 }

/-- One round of the loop over the lines. -/
def streamLineTo (counts : Counts) (line : Text) : FileCaller Counts :=
  if line.isEmpty then return counts
  else do
    let extracted ← onProcessorTo (processLine lib line)
    let counts ← extracted.authors.foldlM (writeAuthorTo pbf) counts
    let counts ← extracted.institutions.foldlM (writeInstitutionTo pbf) counts
    writeWorkTo pbf counts extracted.work

/-- `ProcessWorksSnapshot` on three output streams. -/
def processWorksSnapshotTo (input : Text) : FileCaller Counts :=
  (getLines input).foldlM (streamLineTo pbf lib) {}

/-- Calls on one processor, one after the other, on the same three streams. -/
def processAllTo (inputs : List Text) :
    StateM FileSession (List (Except SnapshotException Counts)) :=
  attemptAll (inputs.map (processWorksSnapshotTo pbf lib))

/-- The same calls, on writers of messages. -/
def processAll (inputs : List Text) :
    StateM Session (List (Except SnapshotException Counts)) :=
  attemptAll (inputs.map (processWorksSnapshotStreaming lib))

end Program

section Simulation

variable {Stream : Type} {pbf : PbfLibrary Stream}

/-- What the three files hold when these messages have been handed to the writers. -/
def SnapshotOutputs.of (pbf : PbfLibrary Stream) (log : List Emission) :
    SnapshotOutputs where
  authors := pbf.written [] ((authorsIn log).map .author)
  institutions := pbf.written [] ((institutionsIn log).map .institution)
  works := pbf.written [] ((worksIn log).map .work)

/-- The same processor, with the messages in the files. -/
structure FileSession.Holds (pbf : PbfLibrary Stream) (session : Session)
    (files : FileSession) : Prop where
  seenIds : files.seenIds = session.seenIds
  outputs : files.outputs = .of pbf session.received

theorem SnapshotOutputs.of_append (log log' : List Emission) :
    SnapshotOutputs.of pbf (log ++ log') = {
      authors := pbf.written (SnapshotOutputs.of pbf log).authors
        ((authorsIn log').map .author)
      institutions := pbf.written (SnapshotOutputs.of pbf log).institutions
        ((institutionsIn log').map .institution)
      works := pbf.written (SnapshotOutputs.of pbf log).works ((worksIn log').map .work) } := by
  simp only [of, authorsIn, institutionsIn, worksIn, entitiesIn, List.filterMap_append,
    List.map_append, Protobuf.written_append]

theorem onProcessor_simulates {α : Type} (action : Processor α) :
    Simulates (FileSession.Holds pbf) (onProcessor action) (onProcessorTo action) := by
  rintro session files ⟨hseen, houtputs⟩
  cases hrun : action.run session.seenIds with
  | ok value seenIds =>
      refine Or.inl ⟨value, _, { files with seenIds }, run_onProcessor_of_ok hrun, ?_,
        rfl, houtputs⟩
      rw [← hseen] at hrun
      simp only [EStateM.run] at hrun ⊢
      simp only [onProcessorTo, EStateM.run, hrun]
  | error exception seenIds =>
      refine Or.inr ⟨exception, _, { files with seenIds }, run_onProcessor_of_error hrun, ?_,
        rfl, houtputs⟩
      rw [← hseen] at hrun
      simp only [EStateM.run] at hrun ⊢
      simp only [onProcessorTo, EStateM.run, hrun]

/-- A message handed to a writer and written out by it. -/
theorem write_simulates {write : Caller Counts} {writeTo : FileCaller Counts}
    {counts : Counts} {emission : Emission}
    (hwrite : ∀ session : Session, write.run session =
      .ok counts { session with received := session.received ++ [emission] })
    (hwriteTo : ∀ files : FileSession, writeTo.run files = .ok counts { files with
      outputs := {
        authors := pbf.written files.outputs.authors ((authorsIn [emission]).map .author)
        institutions := pbf.written files.outputs.institutions
          ((institutionsIn [emission]).map .institution)
        works := pbf.written files.outputs.works ((worksIn [emission]).map .work) } }) :
    Simulates (FileSession.Holds pbf) write writeTo := by
  rintro session files ⟨hseen, houtputs⟩
  refine Or.inl ⟨counts, _, _, hwrite session, hwriteTo files, hseen, ?_⟩
  rw [SnapshotOutputs.of_append, ← houtputs]

theorem Counts.add_of_author (counts : Counts) (author : Author) :
    counts.add (.of [.entity (.author author)]) =
      { counts with authors := counts.authors + 1 } := by
  simp [Counts.add, Counts.of, authorsIn, institutionsIn, worksIn, entitiesIn]
  exact ⟨rfl, rfl⟩

theorem Counts.add_of_institution (counts : Counts) (institution : Institution) :
    counts.add (.of [.entity (.institution institution)]) =
      { counts with institutions := counts.institutions + 1 } := by
  simp [Counts.add, Counts.of, authorsIn, institutionsIn, worksIn, entitiesIn]
  exact ⟨rfl, rfl⟩

theorem Counts.add_of_work (counts : Counts) (work : Work) :
    counts.add (.of [.work work]) = { counts with works := counts.works + 1 } := by
  simp [Counts.add, Counts.of, authorsIn, institutionsIn, worksIn, entitiesIn]
  exact ⟨rfl, rfl⟩

theorem streamLine_simulates (lib : SnapshotLibrary) (counts : Counts) (line : Text) :
    Simulates (FileSession.Holds pbf) (streamLine lib counts line)
      (streamLineTo pbf lib counts line) := by
  unfold streamLine streamLineTo
  split
  · exact .pure counts
  · apply (onProcessor_simulates (processLine lib line)).bind
    intro extracted
    apply Simulates.bind
    · apply Simulates.foldlM
      intro counts author _
      exact write_simulates (run_writeAuthor counts author) fun _ => by
        rw [Counts.add_of_author]
        rfl
    · intro counts
      apply Simulates.bind
      · apply Simulates.foldlM
        intro counts institution _
        exact write_simulates (run_writeInstitution counts institution) fun _ => by
          rw [Counts.add_of_institution]
          rfl
      · intro counts
        exact write_simulates (run_writeWork counts extracted.work) fun _ => by
          rw [Counts.add_of_work]
          rfl

theorem processAll_simulates (lib : SnapshotLibrary) (inputs : List Text) :
    ((processAll lib inputs).run {}).1 = ((processAllTo pbf lib inputs).run {}).1 ∧
      FileSession.Holds pbf ((processAll lib inputs).run {}).2
        ((processAllTo pbf lib inputs).run {}).2 := by
  apply attemptAll_simulates
  · rw [List.forall₂_map_left_iff, List.forall₂_map_right_iff, List.forall₂_same]
    intro input _
    apply Simulates.foldlM
    intro counts line _
    exact streamLine_simulates lib counts line
  · exact ⟨rfl, rfl⟩

end Simulation

section Lines

variable (lib : SnapshotLibrary)

theorem Session.through_append {lines : List Text}
    (hwalk : (linesWalk lib lines).failure? = none) (session : Session) (lines' : List Text) :
    session.through lib (lines ++ lines') = (session.through lib lines).through lib lines' := by
  simp only [Session.through, linesWalk_append, Walk.append_of_failure?_eq_none hwalk,
    keys_append, Finset.union_assoc, lineEmissions_append lib hwalk, List.append_assoc]

/-- A session after streaming calls, each up to the first line that fails. -/
theorem run_processAll (inputs : List Text) (session : Session) :
    ((processAll lib inputs).run session).2 =
      inputs.foldl (fun session input => session.through lib (getLines input)) session := by
  induction inputs generalizing session with
  | nil => rfl
  | cons input inputs ih =>
      have hnext : ((attempt (processWorksSnapshotStreaming lib input)).run session).2 =
          session.through lib (getLines input) := by
        have hrun := run_streamLines lib (getLines input) session
        rw [← processWorksSnapshotStreaming] at hrun
        simp only [attempt, StateT.run, hrun]
        cases (linesWalk lib (getLines input)).failure? <;> rfl
      rw [List.foldl_cons, ← hnext, ← ih, processAll, List.map_cons, run_attemptAll_cons]
      rfl

/-- Calls that do not throw, as one call. -/
theorem foldl_through {inputs : List Text}
    (hwalk : (linesWalk lib (inputs.flatMap getLines)).failure? = none) (session : Session) :
    inputs.foldl (fun session input => session.through lib (getLines input)) session =
      session.through lib (inputs.flatMap getLines) := by
  induction inputs generalizing session with
  | nil => simp [Session.through, linesWalk, Walk.each, lineEmissions]
  | cons input inputs ih =>
      rw [List.flatMap_cons, failure?_linesWalk_append] at hwalk
      rw [List.foldl_cons, ih hwalk.2, List.flatMap_cons, Session.through_append lib hwalk.1]

/-- What the overload without streams returns for all the lines at once, the calls
with streams have written. -/
theorem processAll_collects {inputs : List Text} {batch : Batch} {seenIds : SeenIds}
    (hcollect : (collectLines lib (inputs.flatMap getLines)).run ∅ = .ok batch seenIds) :
    ((processAll lib inputs).run {}).2.seenIds = seenIds ∧
      batch = {
        authors := authorsIn ((processAll lib inputs).run {}).2.received
        institutions := institutionsIn ((processAll lib inputs).run {}).2.received
        works := worksIn ((processAll lib inputs).run {}).2.received } := by
  rw [run_collectLines] at hcollect
  cases hwalk : (linesWalk lib (inputs.flatMap getLines)).failure? with
  | some exception => rw [Walk.collect_of_failure hwalk] at hcollect; cases hcollect
  | none =>
      rw [Walk.collect_of_failure?_eq_none hwalk, List.nil_append] at hcollect
      obtain ⟨rfl, rfl⟩ := EStateM.Result.ok.inj hcollect
      have hdelivers := delivers_lineEmissions lib hwalk ∅
      rw [run_processAll, foldl_through lib hwalk]
      refine ⟨rfl, ?_⟩
      simp only [Session.through, List.nil_append, hdelivers.authors, hdelivers.institutions,
        hdelivers.works, Batch.of]

variable {Stream : Type} {pbf : PbfLibrary Stream}

/-- Any sequence of calls on one processor, with calls that throw among them, leaves
three files.  They are read back as the messages that were handed to the writers, and
where no line fails as what one call without streams returns for all the lines. -/
theorem processAllTo_readBack {inputs : List Text}
    {returned : List (Except SnapshotException Counts)} {session : Session}
    (hrun : (processAll lib inputs).run {} = (returned, session))
    (hauthors :
      pbf.framedLength ((authorsIn session.received).map .author) ≤ totalBytesLimit)
    (hinstitutions :
      pbf.framedLength ((institutionsIn session.received).map .institution) ≤ totalBytesLimit)
    (hworks : pbf.framedLength ((worksIn session.received).map .work) ≤ totalBytesLimit) :
    ∃ files, (processAllTo pbf lib inputs).run {} = (returned, files) ∧
      files.seenIds = session.seenIds ∧
      pbf.Reads .author files.outputs.authors ((authorsIn session.received).map .author) ∧
      pbf.Reads .institution files.outputs.institutions
        ((institutionsIn session.received).map .institution) ∧
      pbf.Reads .work files.outputs.works ((worksIn session.received).map .work) ∧
      ∀ batch seenIds,
        (collectLines lib (inputs.flatMap getLines)).run ∅ = .ok batch seenIds →
          seenIds = session.seenIds ∧ batch = ⟨authorsIn session.received,
            institutionsIn session.received, worksIn session.received⟩ := by
  have hsimulates : _ ∧ FileSession.Holds pbf _ _ := processAll_simulates lib inputs
  obtain ⟨hreturned, hseen, houtputs⟩ := hsimulates
  rw [hrun] at hreturned hseen houtputs
  have hkind : ∀ {α : Type} (messages : List α) (embed : α → PbfMessage) (kind : PbfKind),
      (∀ message, (embed message).kind = kind) →
        ∀ message ∈ messages.map embed, pbf.kindOf message = kind := by
    intro α messages embed kind hembed message hmessage
    obtain ⟨value, -, rfl⟩ := List.mem_map.mp hmessage
    rw [pbf.kindOf_eq, hembed]
  refine ⟨_, Prod.ext hreturned.symm rfl, hseen, ?_, ?_, ?_, ?_⟩
  · rw [houtputs]
    exact Protobuf.reads_written (hkind _ _ _ fun _ => rfl) hauthors
  · rw [houtputs]
    exact Protobuf.reads_written (hkind _ _ _ fun _ => rfl) hinstitutions
  · rw [houtputs]
    exact Protobuf.reads_written (hkind _ _ _ fun _ => rfl) hworks
  · intro batch seenIds hcollect
    have hcollects := processAll_collects lib hcollect
    rw [hrun] at hcollects
    exact hcollects.imp Eq.symm id

end Lines

/-- The session in which a file with one record is processed, and one that holds none. -/
def spoiledSession : Session := ((processAll oneAuthorLibrary spoiledLines).run {}).2

theorem received_spoiledSession : spoiledSession.received =
    [.entity (.author ⟨"A1".toList, none, none⟩),
      .work { openalexId := "W1".toList, oaStatus := .gold, authorIds := ["A1".toList] }] := by
  have hspoiled : spoiledLines.map getLines = [[oneAuthorLine], ["oops".toList]] := by
    simp only [spoiledLines, List.map_cons, getLines_oneAuthorLine, List.map_nil]
    rfl
  have hsession : spoiledSession = (spoiledLines.map getLines).foldl
      (Session.through oneAuthorLibrary) {} := by
    rw [spoiledSession, run_processAll, List.foldl_map]
  rw [hsession, hspoiled]
  decide +kernel

theorem processAllTo_readBack_spoiled :
    ∃ files, (processAllTo samplePbf oneAuthorLibrary spoiledLines).run {} =
        (((processAll oneAuthorLibrary spoiledLines).run {}).1, files) ∧
      files.seenIds = spoiledSession.seenIds ∧
      samplePbf.Reads .author files.outputs.authors
        ((authorsIn spoiledSession.received).map .author) ∧
      samplePbf.Reads .institution files.outputs.institutions
        ((institutionsIn spoiledSession.received).map .institution) ∧
      samplePbf.Reads .work files.outputs.works ((worksIn spoiledSession.received).map .work) ∧
      ∀ batch seenIds,
        (collectLines oneAuthorLibrary (spoiledLines.flatMap getLines)).run ∅ =
            .ok batch seenIds →
          seenIds = spoiledSession.seenIds ∧ batch = ⟨authorsIn spoiledSession.received,
            institutionsIn spoiledSession.received, worksIn spoiledSession.received⟩ :=
  processAllTo_readBack oneAuthorLibrary (by rw [spoiledSession, Prod.mk.eta])
    (by rw [received_spoiledSession]; decide +kernel)
    (by rw [received_spoiledSession]; decide +kernel)
    (by rw [received_spoiledSession]; decide +kernel)

end Citescoop
