/-
Deduplication over the life of a processor: every id is emitted once, and how
the lines are cut into calls does not matter.
-/
import Citescoop.ListedRecords

namespace Citescoop

open FirstSeen

variable (lib : SnapshotLibrary)

/-- An id that `GetAuthorId` computes for a non-empty author of a line, or
`GetInstitutionId` for a non-empty institution. -/
def ComputesId (line : Text) (id : Text) : Prop :=
  ∃ data, lib.parse line = some data ∧
    ((∃ author, ListsAuthor data author id) ∨
      ∃ institution, ListsInstitution data institution id)

/-- The messages of the authors and institutions of some lines, in the order in
which they are processed. -/
def considered (lines : List Text) : List Entity :=
  (linesWalk lib lines).items

def emittedIds (log : List Emission) : Finset Text :=
  keys Entity.openalexId (entitiesIn log)

/-- A session after some lines of a call that is being processed: what the call
is going to return counts as received. -/
def Session.during (session : Session) (overload : Overload) (lines : List Text) :
    Session :=
  match overload with
  | .inMemory =>
      match (collectLines lib lines).run session.seenIds with
      | .ok batch seenIds => ⟨seenIds, session.received ++ batch.emissions⟩
      | .error _ seenIds => { session with seenIds }
  | .streaming =>
      match (streamLines lib lines).run session with
      | .ok _ final => final
      | .error _ final => final

theorem Delivers.emittedIds_eq {log : List Emission} {entities : List Entity}
    {works : List Work} (hlog : Delivers log entities works) :
    emittedIds log = keys Entity.openalexId entities := by
  ext id
  simp only [emittedIds, mem_keys, hlog.perm.mem_iff]

/-- What a new processor has delivered is the first record with its id. -/
theorem Delivers.find?_eq_some {log : List Emission} {entities : List Entity}
    {works : List Work} (hlog : Delivers log (fresh Entity.openalexId ∅ entities) works)
    {entity : Entity} (hentity : entity ∈ entitiesIn log) :
    entities.find? (fun other => other.openalexId = entity.openalexId) = some entity :=
  (mem_fresh_iff.mp (hlog.perm.mem_iff.mp hentity)).2

theorem emittedIds_append (log log' : List Emission) :
    emittedIds (log ++ log') = emittedIds log ∪ emittedIds log' := by
  simp [emittedIds, entitiesIn]

theorem mem_keys_lineWalk_iff {line : Text} (hline : (lineWalk lib line).failure? = none)
    {id : Text} :
    id ∈ keys Entity.openalexId (lineWalk lib line).items ↔ ComputesId lib line id := by
  rcases of_failure?_lineWalk_eq_none lib hline with
    ⟨data, work, hparse, -, -, hauthors, hinstitutions⟩
  have hcomputes : ComputesId lib line id ↔
      (∃ message ∈ (authorWalk data).items, message.openalexId = id) ∨
        ∃ message ∈ (institutionWalk data).items, message.openalexId = id := by
    rw [exists_mem_authorWalk_iff hauthors, exists_mem_institutionWalk_iff hinstitutions,
      ComputesId, hparse]
    simp
  rw [hcomputes, mem_keys]
  simp only [mem_lineWalk_iff lib hline hparse]
  constructor
  · rintro ⟨_, ⟨message, hmessage, rfl⟩ | ⟨message, hmessage, rfl⟩, rfl⟩
    · exact Or.inl ⟨message, hmessage, rfl⟩
    · exact Or.inr ⟨message, hmessage, rfl⟩
  · rintro (⟨message, hmessage, rfl⟩ | ⟨message, hmessage, rfl⟩)
    · exact ⟨_, Or.inl ⟨message, hmessage, rfl⟩, rfl⟩
    · exact ⟨_, Or.inr ⟨message, hmessage, rfl⟩, rfl⟩

theorem mem_keys_considered_iff {lines : List Text}
    (hwalk : (linesWalk lib lines).failure? = none) {id : Text} :
    id ∈ keys Entity.openalexId (considered lib lines) ↔
      ∃ line ∈ lines, line ≠ [] ∧ ComputesId lib line id := by
  have hlines := Walk.failure?_each_eq_none_iff.mp hwalk
  have hline : ∀ line ∈ lines,
      (id ∈ keys Entity.openalexId (readLine lib line).items ↔
        line ≠ [] ∧ ComputesId lib line id) := by
    intro line hmem
    have hread := hlines line hmem
    rw [readLine] at hread ⊢
    by_cases hempty : line.isEmpty = true
    · simp [List.isEmpty_iff.mp hempty]
    · simp only [hempty, if_false, Bool.false_eq_true] at hread ⊢
      rw [mem_keys_lineWalk_iff lib hread]
      simp [mt List.isEmpty_iff.mpr hempty]
  rw [considered, linesWalk, Walk.items_each hlines]
  simp only [mem_keys, List.mem_flatMap] at hline ⊢
  constructor
  · rintro ⟨entity, ⟨line, hmem, hentity⟩, hid⟩
    exact ⟨line, hmem, (hline line hmem).mp ⟨entity, hentity, hid⟩⟩
  · rintro ⟨line, hmem, hcomputes⟩
    rcases (hline line hmem).mpr hcomputes with ⟨entity, hentity, hid⟩
    exact ⟨entity, ⟨line, hmem, hentity⟩, hid⟩

/-- The invariant of a fresh processor: what it has seen has been received. -/
theorem emittedIds_received {calls : List Call} {returned : List Returned}
    {session : Session} (hrun : (performAll lib calls).run {} = .ok returned session) :
    emittedIds session.received = session.seenIds := by
  rcases of_run_performAll lib hrun with ⟨hwalk, rfl⟩
  rcases foldl_next lib hwalk {} with ⟨hseen, log, hlog, hdelivers⟩
  rw [hseen, hlog, List.nil_append, hdelivers.emittedIds_eq, keys_fresh]
  simp

theorem emittedIds_union_fresh {received log : List Emission} {seenIds : SeenIds}
    {entities : List Entity} {works : List Work}
    (hreceived : emittedIds received = seenIds)
    (hlog : Delivers log (fresh Entity.openalexId seenIds entities) works) :
    emittedIds (received ++ log) = seenIds ∪ keys Entity.openalexId entities := by
  rw [emittedIds_append, hreceived, hlog.emittedIds_eq, union_keys_fresh]

/-- After some lines of a call, seen and received have moved on together. -/
theorem during_eq {lines : List Text} (hwalk : (linesWalk lib lines).failure? = none)
    (session : Session) (overload : Overload) :
    ∃ log, session.during lib overload lines =
        ⟨session.seenIds ∪ keys Entity.openalexId (considered lib lines),
          session.received ++ log⟩ ∧
      Delivers log (fresh Entity.openalexId session.seenIds (considered lib lines))
        (lineWorks lib lines) := by
  cases overload with
  | inMemory =>
      have hcollect := run_collectLines lib lines session.seenIds
      rw [Walk.collect_of_failure?_eq_none hwalk] at hcollect
      refine ⟨_, ?_, Batch.delivers_emissions _ _⟩
      simp only [Session.during, hcollect, List.nil_append, considered]
  | streaming =>
      have hstream := run_streamLines lib lines session
      rw [hwalk] at hstream
      refine ⟨_, ?_, delivers_lineEmissions lib hwalk session.seenIds⟩
      simp only [Session.during, hstream, Session.through, considered]

/-- Every id is emitted exactly once over the life of a processor, with the
fields of the first record that has it, and seen is what has been emitted after
every line. -/
theorem emitted_once {calls : List Call} {returned : List Returned} {session : Session}
    (hrun : (performAll lib calls).run {} = .ok returned session) :
    (∀ line ∈ callLines calls, line ≠ [] → ∀ id, ComputesId lib line id →
      ((entitiesIn session.received).map Entity.openalexId).count id = 1) ∧
    (∀ entity ∈ entitiesIn session.received,
      (∃ line ∈ callLines calls, line ≠ [] ∧ ComputesId lib line entity.openalexId) ∧
      ∃ listed, (listedIn lib (callLines calls)).find?
          (fun listed => listed.id? = some entity.openalexId) = some listed ∧
        entity.Carries listed) ∧
    ∀ done call rest before after, calls = done ++ call :: rest →
      getLines call.input = before ++ after →
      ∃ returned' session', (performAll lib done).run {} = .ok returned' session' ∧
        (session'.during lib call.overload before).seenIds =
          emittedIds (session'.during lib call.overload before).received := by
  rcases of_run_performAll lib hrun with ⟨hwalk, rfl⟩
  rcases foldl_next lib hwalk {} with ⟨hseen, log, hlog, hdelivers⟩
  rw [hlog, List.nil_append]
  refine ⟨?_, ?_, ?_⟩
  · intro line hline hne id hcomputes
    have hid : id ∈ keys Entity.openalexId (considered lib (callLines calls)) :=
      (mem_keys_considered_iff lib hwalk).mpr ⟨line, hline, hne, hcomputes⟩
    rw [(hdelivers.perm.map Entity.openalexId).count_eq, count_fresh, if_pos]
    exact Finset.mem_sdiff.mpr ⟨hid, Finset.notMem_empty id⟩
  · intro entity hentity
    have hfirst := hdelivers.find?_eq_some hentity
    refine ⟨(mem_keys_considered_iff lib hwalk).mp ?_, ?_⟩
    · exact (mem_keys _ _).mpr ⟨entity, List.mem_of_find?_eq_some hfirst, rfl⟩
    · rw [find?_items_linesWalk lib hwalk] at hfirst
      rcases Option.bind_eq_some_iff.mp hfirst with ⟨listed, hlisted, hmessage⟩
      exact ⟨listed, hlisted, Listed.carries_of_message? hmessage⟩
  · intro done call rest before after hcalls hlines
    have hcut : callLines calls =
        callLines done ++ (before ++ (after ++ callLines rest)) := by
      rw [hcalls, callLines, List.flatMap_append, List.flatMap_cons, hlines]
      simp [callLines]
    rw [hcut, failure?_linesWalk_append, failure?_linesWalk_append] at hwalk
    rcases run_performAll_of_ok lib hwalk.1 {} with ⟨returned', hdone⟩
    refine ⟨returned', _, hdone, ?_⟩
    rcases during_eq lib hwalk.2.1 (done.foldl (Session.next lib) {}) call.overload with
      ⟨log', hduring, hlog'⟩
    rw [hduring, emittedIds_union_fresh (emittedIds_received lib hdone) hlog']

/-- The text of a record with one author and no institution. -/
def oneAuthorLine : Text :=
  minimalLine "\x7b\"author\":\x7b\"id\":\"A1\"\x7d,\"institutions\":[]\x7d"

def oneAuthorLibrary : SnapshotLibrary :=
  tableLibrary [(oneAuthorLine, minimalRecord [.object [
    ("author".toList, .object [("id".toList, .string "A1".toList)]),
    ("institutions".toList, .array [])]])]

/-- The record, and a line that is no JSON. -/
def spoiledLines : List Text := [oneAuthorLine, "oops".toList]

theorem newline_notMem_oneAuthorLine : '\n' ∉ oneAuthorLine := by
  decide +kernel

theorem oneAuthorLine_ne_nil : oneAuthorLine ≠ [] := by
  simp [oneAuthorLine, minimalLine]

theorem getLines_oneAuthorLine : getLines oneAuthorLine = [oneAuthorLine] :=
  getLines_of_notMem oneAuthorLine_ne_nil newline_notMem_oneAuthorLine

theorem lineWalk_oneAuthorLine :
    (lineWalk oneAuthorLibrary oneAuthorLine).items = [.author ⟨"A1".toList, none, none⟩] ∧
      (lineWalk oneAuthorLibrary oneAuthorLine).failure? = none := by
  decide +kernel

theorem linesWalk_oneAuthorLine (count : ℕ) :
    (linesWalk oneAuthorLibrary (List.replicate count oneAuthorLine)).failure? = none := by
  apply Walk.failure?_each_eq_none_iff.mpr
  intro line hline
  have hempty := mt List.isEmpty_iff.mp oneAuthorLine_ne_nil
  rw [List.eq_of_mem_replicate hline, readLine, if_neg hempty]
  exact lineWalk_oneAuthorLine.2

/-- An object of strings. -/
def stringsObject (members : List (String × String)) : Json :=
  .object (members.map fun member => (member.1.toList, .string member.2.toList))

def stringsText (members : List (String × String)) : Text :=
  "\x7b".toList ++ [','].intercalate (members.map fun member =>
    "\"".toList ++ member.1.toList ++ "\":\"".toList ++ member.2.toList ++ "\"".toList) ++
      "\x7d".toList

/-- A record with one author at one institution. -/
def affiliationRecord (author institution : List (String × String)) : Json :=
  minimalRecord [.object [("author".toList, stringsObject author),
    ("institutions".toList, .array [stringsObject institution])]]

def affiliationLine (author institution : List (String × String)) : Text :=
  "\x7b\"authorships\":[\x7b\"author\":".toList ++ stringsText author ++
    ",\"institutions\":[".toList ++ stringsText institution ++
    "]\x7d],\"id\":\"W1\",\"ids\":\x7b\x7d,".toList ++
    "\"open_access\":\x7b\"oa_status\":\"gold\",\"oa_url\":null\x7d\x7d".toList

def firstAuthor : List (String × String) :=
  [("id", "A1"), ("display_name", "A. Name"), ("orcid", "O1")]

def firstInstitution : List (String × String) :=
  [("id", "I1"), ("display_name", "A place"), ("ror", "R1")]

def laterAuthor : List (String × String) :=
  [("id", "A1"), ("display_name", "Another name"), ("orcid", "O2")]

def laterInstitution : List (String × String) :=
  [("id", "I1"), ("display_name", "Another place"), ("ror", "R2")]

def firstLine : Text :=
  affiliationLine firstAuthor firstInstitution

def laterLine : Text :=
  affiliationLine laterAuthor laterInstitution

def affiliationLibrary : SnapshotLibrary :=
  tableLibrary [(firstLine, affiliationRecord firstAuthor firstInstitution),
    (laterLine, affiliationRecord laterAuthor laterInstitution)]

/-- The one in memory, the other streaming. -/
def affiliationCalls : List Call :=
  [⟨.inMemory, firstLine⟩, ⟨.streaming, laterLine⟩]

theorem callLines_affiliationCalls : callLines affiliationCalls = [firstLine, laterLine] := by
  decide +kernel

theorem parse_firstLine : affiliationLibrary.parse firstLine =
    some (affiliationRecord firstAuthor firstInstitution) := by
  simp [affiliationLibrary, tableLibrary]

theorem parse_laterLine : affiliationLibrary.parse laterLine =
    some (affiliationRecord laterAuthor laterInstitution) := by
  have hne : firstLine ≠ laterLine := by decide +kernel
  simp [affiliationLibrary, tableLibrary, hne]

theorem listedIn_affiliations :
    listedIn affiliationLibrary [firstLine, laterLine] =
      [.author (stringsObject firstAuthor), .institution (stringsObject firstInstitution),
        .author (stringsObject laterAuthor), .institution (stringsObject laterInstitution)] := by
  have hempty : ∀ line ∈ [firstLine, laterLine], line.isEmpty = false := by decide +kernel
  simp only [listedIn, List.flatMap_cons, List.flatMap_nil, parse_firstLine, parse_laterLine]
  rw [hempty _ List.mem_cons_self, hempty _ (List.mem_cons_of_mem _ List.mem_cons_self)]
  rfl

theorem linesWalk_affiliationCalls :
    (linesWalk affiliationLibrary (callLines affiliationCalls)).failure? = none := by
  decide +kernel

/-- The same ids in two calls, with other names and identifiers in the second. -/
theorem emitted_once_two_calls :
    ∃ returned session, (performAll affiliationLibrary affiliationCalls).run {} =
        .ok returned session ∧
      .author ⟨"A1".toList, some "A. Name".toList, some "O1".toList⟩ ∈
        entitiesIn session.received ∧
      .institution ⟨"I1".toList, some "A place".toList, some "R1".toList⟩ ∈
        entitiesIn session.received := by
  obtain ⟨returned, session, hrun⟩ : ∃ returned session,
      (performAll affiliationLibrary affiliationCalls).run {} = .ok returned session :=
    (run_performAll_of_ok affiliationLibrary linesWalk_affiliationCalls {}).imp
      fun _ hrun => ⟨_, hrun⟩
  refine ⟨returned, session, hrun, ?_⟩
  have hne : firstLine ≠ [] := by decide +kernel
  have honce := emitted_once affiliationLibrary hrun
  rw [callLines_affiliationCalls, listedIn_affiliations] at honce
  have hcomputes : ∀ id ∈ ["A1".toList, "I1".toList],
      ComputesId affiliationLibrary firstLine id := by
    intro id hid
    rw [← mem_keys_lineWalk_iff affiliationLibrary (by decide +kernel)]
    revert id hid
    decide +kernel
  have hreceived : ∀ id ∈ ["A1".toList, "I1".toList],
      ∃ entity ∈ entitiesIn session.received, entity.openalexId = id := by
    intro id hid
    have hcount := honce.1 firstLine List.mem_cons_self hne id (hcomputes id hid)
    exact List.mem_map.mp (List.count_pos_iff.mp (hcount ▸ Nat.one_pos))
  constructor
  · rcases hreceived _ List.mem_cons_self with ⟨entity, hentity, hid⟩
    rcases (honce.2.1 entity hentity).2 with ⟨listed, hfind, hcarries⟩
    rw [hid, List.find?_cons_of_pos (by decide +kernel), Option.some.injEq] at hfind
    subst hfind
    rw [← hid, ← hcarries.eq_author rfl rfl]
    exact hentity
  · rcases hreceived _ (List.mem_cons_of_mem _ List.mem_cons_self) with ⟨entity, hentity, hid⟩
    rcases (honce.2.1 entity hentity).2 with ⟨listed, hfind, hcarries⟩
    rw [hid, List.find?_cons_of_neg (by decide +kernel),
      List.find?_cons_of_pos (by decide +kernel), Option.some.injEq] at hfind
    subst hfind
    rw [← hid, ← hcarries.eq_institution rfl rfl]
    exact hentity

theorem failure?_lineWalk_of_processLine {line : Text} {seenIds seenIds' : SeenIds}
    {extracted : Extracted}
    (hprocess : (processLine lib line).run seenIds = .ok extracted seenIds') :
    (lineWalk lib line).failure? = none := by
  cases hwalk : (lineWalk lib line).failure? with
  | none => rfl
  | some exception =>
      rw [run_processLine_of_error lib hwalk] at hprocess
      cases hprocess

/-- Lines that can be processed are walked through. -/
theorem failure?_linesWalk_of_processLine {lines : List Text}
    (hprocess : ∀ line ∈ lines, line ≠ [] → ∃ seenIds extracted seenIds',
      (processLine lib line).run seenIds = .ok extracted seenIds') :
    (linesWalk lib lines).failure? = none := by
  apply Walk.failure?_each_eq_none_iff.mpr
  intro line hline
  rw [readLine]
  by_cases hempty : line.isEmpty = true
  · simp [hempty]
  · rcases hprocess line hline (mt List.isEmpty_iff.mpr hempty) with
      ⟨seenIds, extracted, seenIds', hrun⟩
    rw [if_neg hempty]
    exact failure?_lineWalk_of_processLine lib hrun

theorem forall₂_lineWorks {lines : List Text}
    (hwalk : (linesWalk lib lines).failure? = none) :
    List.Forall₂ (fun line work => ∃ data, lib.parse line = some data ∧
        extractWork lib.timeFromString data = .ok work)
      (lines.filter fun line => !line.isEmpty) (lineWorks lib lines) := by
  rw [lineWorks, List.forall₂_map_right_iff, List.forall₂_same]
  intro line hline
  rcases List.mem_filter.mp hline with ⟨hmem, hne⟩
  have hread := Walk.failure?_each_eq_none_iff.mp hwalk line hmem
  rw [readLine, if_neg (by simpa using hne)] at hread
  rcases of_failure?_lineWalk_eq_none lib hread with ⟨data, work, hparse, hwork, hline, -⟩
  exact ⟨data, hparse, hline ▸ hwork⟩

/-- However the lines of a stream are cut into calls, and whichever overload is
called, the processor delivers what one call on the whole stream returns. -/
theorem cut_agrees {input : Text}
    (hprocess : ∀ line ∈ getLines input, line ≠ [] → ∃ seenIds extracted seenIds',
      (processLine lib line).run seenIds = .ok extracted seenIds')
    {calls : List Call} (hcut : callLines calls = getLines input) (seenIds : SeenIds) :
    ∃ batch seenIds', (processWorksSnapshot lib input).run seenIds = .ok batch seenIds' ∧
      List.Forall₂ (fun line work => ∃ data, lib.parse line = some data ∧
          extractWork lib.timeFromString data = .ok work)
        ((getLines input).filter fun line => !line.isEmpty) batch.works ∧
      (∃ returned session, (performAll lib calls).run ⟨seenIds, []⟩ = .ok returned session ∧
        authorsIn session.received = batch.authors ∧
        institutionsIn session.received = batch.institutions ∧
        worksIn session.received = batch.works ∧ session.seenIds = seenIds') ∧
      ∀ stream session counts session',
        (processWorksSnapshotStreaming lib stream).run session = .ok counts session' →
        ∃ written, session'.received = session.received ++ written ∧
          counts = .of written := by
  have hwalk := failure?_linesWalk_of_processLine lib hprocess
  have hcollect := run_collectLines lib (getLines input) seenIds
  rw [Walk.collect_of_failure?_eq_none hwalk] at hcollect
  refine ⟨_, _, hcollect, forall₂_lineWorks lib hwalk, ?_, ?_⟩
  · rw [← hcut] at hwalk
    rcases run_performAll_of_ok lib hwalk ⟨seenIds, []⟩ with ⟨returned, hrun⟩
    rcases foldl_next lib hwalk ⟨seenIds, []⟩ with ⟨hseen, log, hlog, hdelivers⟩
    rw [hcut] at hseen hdelivers
    refine ⟨returned, _, hrun, ?_, ?_, ?_, hseen⟩
    · rw [hlog]
      exact hdelivers.authors
    · rw [hlog]
      exact hdelivers.institutions
    · rw [hlog]
      exact hdelivers.works
  · intro stream session counts session' hstream
    rw [processWorksSnapshotStreaming, run_streamLines] at hstream
    cases hfailure : (linesWalk lib (getLines stream)).failure? with
    | some exception =>
        rw [hfailure] at hstream
        cases hstream
    | none =>
        rw [hfailure] at hstream
        cases hstream
        exact ⟨_, rfl, rfl⟩

/-- The same record twice, in one call and in a call of each overload. -/
theorem cut_agrees_two_calls :
    ∃ batch seenIds, (processWorksSnapshot oneAuthorLibrary
        (unlines [oneAuthorLine, oneAuthorLine])).run ∅ = .ok batch seenIds ∧
      ∃ returned session, (performAll oneAuthorLibrary
          [⟨.inMemory, unlines [oneAuthorLine]⟩, ⟨.streaming, oneAuthorLine⟩]).run {} =
            .ok returned session ∧
        authorsIn session.received = batch.authors := by
  have hlines : ∀ count, getLines (unlines (List.replicate count oneAuthorLine)) =
      List.replicate count oneAuthorLine := by
    intro count
    apply getLines_unlines
    intro line hline
    exact List.eq_of_mem_replicate hline ▸ newline_notMem_oneAuthorLine
  have hcut : callLines [⟨.inMemory, unlines [oneAuthorLine]⟩, ⟨.streaming, oneAuthorLine⟩] =
      getLines (unlines [oneAuthorLine, oneAuthorLine]) := by
    have hone := hlines 1
    have htwo := hlines 2
    simp only [List.replicate] at hone htwo
    simp [callLines, getLines_oneAuthorLine, hone, htwo]
  have hprocess : ∀ line ∈ getLines (unlines [oneAuthorLine, oneAuthorLine]), line ≠ [] →
      ∃ seenIds extracted seenIds',
        (processLine oneAuthorLibrary line).run seenIds = .ok extracted seenIds' := by
    intro line hmem hne
    have hsame : line ∈ List.replicate 2 oneAuthorLine := (hlines 2).symm ▸ hmem
    rw [List.eq_of_mem_replicate hsame]
    exact ⟨∅, _, _, run_processLine_of_ok oneAuthorLibrary lineWalk_oneAuthorLine.2 ∅⟩
  rcases cut_agrees oneAuthorLibrary hprocess hcut ∅ with
    ⟨batch, seenIds, hwhole, -, ⟨returned, session, hrun, hauthors, -⟩, -⟩
  exact ⟨batch, seenIds, hwhole, returned, session, hrun, hauthors⟩

end Citescoop
