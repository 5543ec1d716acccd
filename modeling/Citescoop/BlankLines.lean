/-
Blank lines and blanks around the lines of an OpenAlex snapshot, and what they do
to both overloads of `ProcessWorksSnapshot`.
-/
import Citescoop.SnapshotRuns

namespace Citescoop

open ExceptFold

section ParseErrors

theorem field_ne_parseError (data : Json) (name : String) :
    data.field name ≠ .error (.json .parseError) := by
  unfold Json.field JsonValue.index
  cases data with
  | object members =>
      simp only
      split <;> simp [Except.mapError]
  | _ => simp [Except.mapError]

theorem text_ne_parseError (data : Json) : data.text ≠ .error (.json .parseError) := by
  cases data <;> simp [Json.text, JsonValue.getString, Except.mapError]

theorem getRecordId_ne_parseError (fallback : String) (record : Json) :
    getRecordId fallback record ≠ .error (.json .parseError) := by
  unfold getRecordId
  split
  · simp
  · split
    · simp
    · apply bind_ne_error (field_ne_parseError record _)
      intro name
      exact bind_ne_error (text_ne_parseError name) (by simp [pure, Except.pure])

theorem parsePubmedId_ne_parseError (pubmedId : Text) :
    parsePubmedId pubmedId ≠ .error (.json .parseError) := by
  intro hparse
  obtain ⟨cause, -, hcause⟩ := mapError_error (map_error hparse)
  cases hcause

theorem extractIdentifiers_ne_parseError (data : Json) :
    extractIdentifiers data ≠ .error (.json .parseError) := by
  apply bind_ne_error (field_ne_parseError data _)
  intro ids
  cases ids.string? "pmid" with
  | none => simp [pure, Except.pure]
  | some pmid =>
      exact bind_ne_error (parsePubmedId_ne_parseError pmid) (by simp [pure, Except.pure])

theorem addInstitution_ne_parseError (references : References) (institution : Json) :
    addInstitution references institution ≠ .error (.json .parseError) := by
  unfold addInstitution
  split_ifs
  · simp
  · apply bind_ne_error (getRecordId_ne_parseError _ institution)
    intro institutionId
    split_ifs <;> simp [pure, Except.pure]

theorem addAuthorship_ne_parseError (references : References) (authorship : Json) :
    addAuthorship references authorship ≠ .error (.json .parseError) := by
  apply bind_ne_error (field_ne_parseError authorship _)
  intro author
  split_ifs
  · simp [pure, Except.pure]
  · apply bind_ne_error (getRecordId_ne_parseError _ author)
    intro authorId
    apply bind_ne_error (field_ne_parseError authorship _)
    intro institutions
    exact foldlM_ne_error addInstitution_ne_parseError _ _

theorem extractWork_ne_parseError (timeFromString : Text → Option Timestamp) (data : Json) :
    extractWork timeFromString data ≠ .error (.json .parseError) := by
  apply bind_ne_error (field_ne_parseError data _)
  intro id
  apply bind_ne_error (text_ne_parseError id)
  intro idText
  apply bind_ne_error (field_ne_parseError data _)
  intro openAccess
  apply bind_ne_error (field_ne_parseError openAccess _)
  intro oaStatus
  apply bind_ne_error (text_ne_parseError oaStatus)
  intro oaStatusText
  apply bind_ne_error (field_ne_parseError data _)
  intro openAccess'
  apply bind_ne_error (field_ne_parseError openAccess' _)
  intro oaUrl
  apply bind_ne_error (field_ne_parseError data _)
  intro authorships
  apply bind_ne_error (foldlM_ne_error addAuthorship_ne_parseError _ _)
  intro references
  exact bind_ne_error (extractIdentifiers_ne_parseError data) (by simp [pure, Except.pure])

theorem failure?_considerAuthor_ne_parseError (authorship : Json) :
    (considerAuthor authorship).failure? ≠ some (.json .parseError) := by
  apply Walk.failure?_ofExcept_ne (field_ne_parseError authorship _)
  intro author
  split_ifs
  · simp
  · exact Walk.failure?_ofExcept_ne (getRecordId_ne_parseError _ author) (by simp)

theorem failure?_considerInstitutions_ne_parseError (authorship : Json) :
    (considerInstitutions authorship).failure? ≠ some (.json .parseError) := by
  apply Walk.failure?_ofExcept_ne (field_ne_parseError authorship _)
  intro listed
  apply Walk.failure?_each_ne
  intro institution
  simp [failure?_considerInstitution institution]

variable (lib : SnapshotLibrary)

theorem Extractor.failure?_walk_ne_parseError (data : Json) (extractor : Extractor) :
    (extractor.walk lib data).failure? ≠ some (.json .parseError) := by
  cases extractor with
  | authors =>
      exact Walk.failure?_ofExcept_ne (field_ne_parseError data _) fun authorships =>
        Walk.failure?_each_ne failure?_considerAuthor_ne_parseError authorships.items
  | institutions =>
      exact Walk.failure?_ofExcept_ne (field_ne_parseError data _) fun authorships =>
        Walk.failure?_each_ne failure?_considerInstitutions_ne_parseError authorships.items
  | work => exact Walk.failure?_ofExcept_ne (extractWork_ne_parseError _ data) (by simp)

/-- Only the parser of JSON ends in an error of the parser. -/
theorem failure?_lineWalk_eq_parseError_iff {line : Text} :
    (lineWalk lib line).failure? = some (.json .parseError) ↔ lib.parse line = none := by
  unfold lineWalk parseLine
  cases lib.parse line with
  | none => simp [Walk.ofExcept, Walk.fail]
  | some data =>
      simp only [Walk.ofExcept, reduceCtorEq, iff_false]
      exact Walk.failure?_each_ne (Extractor.failure?_walk_ne_parseError lib data) _

end ParseErrors

/-- The whitespace of JSON, as far as it can stand in a line. -/
def OnlyWhitespace (s : Text) : Prop :=
  ∀ c ∈ s, c = ' ' ∨ c = '\t' ∨ c = '\r'

/-- The three bytes that `json::parse` skips at the start of a text, and only there. -/
def byteOrderMark : Text :=
  [Char.ofNat 0xEF, Char.ofNat 0xBB, Char.ofNat 0xBF]

/-- `json::parse` passes over whitespace around a value, and throws on a text
without a value.  A byte order mark behind whitespace is the start of no value. -/
structure SnapshotLibrary.IgnoresWhitespace (lib : SnapshotLibrary) : Prop where
  around : ∀ before line after, OnlyWhitespace before → OnlyWhitespace after →
    (byteOrderMark <+: line → before = []) →
      lib.parse (before ++ line ++ after) = lib.parse line
  alone : ∀ line, OnlyWhitespace line → lib.parse line = none
  marked : ∀ before line, OnlyWhitespace before → before ≠ [] → byteOrderMark <+: line →
    lib.parse (before ++ line) = none

/-- The lines with blank lines put in anywhere, and whitespace at the ends of any. -/
inductive WhitespaceAdded : List Text → List Text → Prop
  | nil : WhitespaceAdded [] []
  | blank {blank : Text} {lines lines' : List Text} (hblank : OnlyWhitespace blank)
      (hadded : WhitespaceAdded lines lines') : WhitespaceAdded lines (blank :: lines')
  | around {before after : Text} (line : Text) {lines lines' : List Text}
      (hbefore : OnlyWhitespace before) (hafter : OnlyWhitespace after)
      (hadded : WhitespaceAdded lines lines') :
      WhitespaceAdded (line :: lines) ((before ++ line ++ after) :: lines')

/-- The lines that are processed. -/
def records (lines : List Text) : List Text :=
  lines.filter fun line => !line.isEmpty

/-- Both overloads do the same, with any ids seen before. -/
structure SameResults (lib : SnapshotLibrary) (input input' : Text) : Prop where
  inMemory : ∀ seenIds, (processWorksSnapshot lib input').run seenIds =
    (processWorksSnapshot lib input).run seenIds
  streaming : ∀ session, (processWorksSnapshotStreaming lib input').run session =
    (processWorksSnapshotStreaming lib input).run session

/-- A line that has whitespace in front, and then its end or a byte order mark. -/
def Unreadable (line : Text) : Prop :=
  ∃ before rest, line = before ++ rest ∧ OnlyWhitespace before ∧ before ≠ [] ∧
    (rest = [] ∨ byteOrderMark <+: rest)

/-- Where the processing comes to a blank line that is not empty, or to a byte order
mark behind blanks, the next record of the original is no JSON either. -/
def BlanksHarmless (lib : SnapshotLibrary) (lines lines' : List Text) : Prop :=
  ∀ before blank after, lines' = before ++ blank :: after → Unreadable blank →
    (linesWalk lib before).failure? = none →
      ∃ line, (records lines)[(records before).length]? = some line ∧ lib.parse line = none

section Whitespace

variable {lib : SnapshotLibrary} {lines lines' : List Text} {line : Text}

theorem unreadable_of_onlyWhitespace (hline : OnlyWhitespace line) (hne : line ≠ []) :
    Unreadable line :=
  ⟨line, [], (List.append_nil line).symm, hline, hne, .inl rfl⟩

theorem Unreadable.ne_nil (hline : Unreadable line) : line ≠ [] := by
  obtain ⟨before, rest, rfl, -, hne, -⟩ := hline
  simp [hne]

theorem SnapshotLibrary.IgnoresWhitespace.unreadable (hlib : lib.IgnoresWhitespace)
    (hline : Unreadable line) : lib.parse line = none := by
  obtain ⟨before, rest, rfl, hblank, hne, rfl | hmark⟩ := hline
  · rw [List.append_nil]
    exact hlib.alone before hblank
  · exact hlib.marked before rest hblank hne hmark

theorem records_cons (hline : line ≠ []) (lines : List Text) :
    records (line :: lines) = line :: records lines := by
  simp [records, hline]

@[simp] theorem records_cons_nil (lines : List Text) :
    records ([] :: lines) = records lines := by
  simp [records]

theorem records_append (lines lines' : List Text) :
    records (lines ++ lines') = records lines ++ records lines' :=
  List.filter_append lines lines'

theorem linesWalk_cons_nil (lines : List Text) :
    linesWalk lib ([] :: lines) = linesWalk lib lines := by
  rw [linesWalk, Walk.each, Walk.append_of_failure?_eq_none (by simp [readLine])]
  simp [readLine, linesWalk]

theorem lineEmissions_cons_nil (seenIds : SeenIds) (lines : List Text) :
    lineEmissions lib seenIds ([] :: lines) = lineEmissions lib seenIds lines := by
  simp [lineEmissions]

theorem linesWalk_records (lines : List Text) :
    linesWalk lib (records lines) = linesWalk lib lines := by
  induction lines with
  | nil => rfl
  | cons line lines ih =>
      by_cases hline : line = []
      · rw [hline, records_cons_nil, linesWalk_cons_nil, ih]
      · rw [records_cons hline, linesWalk, linesWalk, Walk.each, Walk.each, ← linesWalk,
          ← linesWalk, ih]

theorem lineEmissions_records (seenIds : SeenIds) (lines : List Text) :
    lineEmissions lib seenIds (records lines) = lineEmissions lib seenIds lines := by
  induction lines generalizing seenIds with
  | nil => rfl
  | cons line lines ih =>
      by_cases hline : line = []
      · rw [hline, records_cons_nil, lineEmissions_cons_nil, ih]
      · rw [records_cons hline, lineEmissions, lineEmissions]
        simp only [ih]

theorem readLine_of_unparsed (hline : line ≠ []) (hparse : lib.parse line = none) :
    readLine lib line = Walk.fail (.json .parseError) := by
  simp [readLine, hline, lineWalk, parseLine, hparse, Walk.ofExcept]

/-- A line that is no JSON ends the processing. -/
theorem linesWalk_of_unparsed (hfirst : (records lines)[0]? = some line)
    (hparse : lib.parse line = none) :
    linesWalk lib lines = Walk.fail (.json .parseError) ∧
      ∀ seenIds, lineEmissions lib seenIds lines = [] := by
  have hmem : line ∈ records lines := List.mem_of_getElem? hfirst
  have hline : line ≠ [] := by simpa [records] using (List.mem_filter.mp hmem).2
  have hread := readLine_of_unparsed hline hparse
  cases hrecords : records lines with
  | nil => simp [hrecords] at hmem
  | cons first rest =>
      obtain rfl : first = line := by simpa [hrecords] using hfirst
      constructor
      · rw [← linesWalk_records, hrecords, linesWalk, Walk.each, hread]
        rfl
      · intro seenIds
        rw [← lineEmissions_records, hrecords]
        exact lineEmissions_cons_of_error lib (by rw [hread]; rfl) seenIds rest

/-- The lines are processed with the same outcome. -/
structure SameOutcome (lib : SnapshotLibrary) (lines lines' : List Text) : Prop where
  walk : linesWalk lib lines' = linesWalk lib lines
  emissions : ∀ seenIds, lineEmissions lib seenIds lines' = lineEmissions lib seenIds lines
  works : (linesWalk lib lines).failure? = none → lineWorks lib lines' = lineWorks lib lines

theorem SameOutcome.of_unparsed {line' : Text} (hfirst : (records lines)[0]? = some line)
    (hparse : lib.parse line = none) (hfirst' : (records lines')[0]? = some line')
    (hparse' : lib.parse line' = none) : SameOutcome lib lines lines' := by
  obtain ⟨hwalk, hemissions⟩ := linesWalk_of_unparsed hfirst hparse
  obtain ⟨hwalk', hemissions'⟩ := linesWalk_of_unparsed hfirst' hparse'
  refine ⟨hwalk'.trans hwalk.symm, fun seenIds => ?_, fun hnone => ?_⟩
  · rw [hemissions, hemissions']
  · rw [hwalk] at hnone
    cases hnone

theorem lineWalk_congr {line' : Text} (hparse : lib.parse line' = lib.parse line) :
    lineWalk lib line' = lineWalk lib line := by
  rw [lineWalk, lineWalk, parseLine, parseLine, hparse]

theorem readLine_congr {line' : Text} (hline : line ≠ []) (hline' : line' ≠ [])
    (hparse : lib.parse line' = lib.parse line) : readLine lib line' = readLine lib line := by
  simp [readLine, hline, hline', lineWalk_congr hparse]

/-- One more line on both sides, with the same JSON. -/
theorem SameOutcome.cons {line' : Text} (hline : line ≠ []) (hline' : line' ≠ [])
    (hparse : lib.parse line' = lib.parse line)
    (hsame : (readLine lib line).failure? = none → SameOutcome lib lines lines') :
    SameOutcome lib (line :: lines) (line' :: lines') := by
  have hwork : lineWork lib line' = lineWork lib line := by
    rw [lineWork, lineWork, hparse]
  have hread := readLine_congr hline hline' hparse
  cases hfailure : (readLine lib line).failure? with
  | some exception =>
      refine ⟨?_, fun seenIds => ?_, fun hnone => ?_⟩
      · rw [linesWalk, linesWalk, Walk.each, Walk.each, hread,
          Walk.append_of_failure hfailure, Walk.append_of_failure hfailure]
      · rw [lineEmissions_cons_of_error lib hfailure,
          lineEmissions_cons_of_error lib (hread ▸ hfailure)]
      · rw [linesWalk, Walk.each, Walk.append_of_failure hfailure, hfailure] at hnone
        cases hnone
  | none =>
      have hrest := hsame hfailure
      have hemissions : ∀ seenIds,
          lineEmissions lib seenIds [line'] = lineEmissions lib seenIds [line] := by
        intro seenIds
        simp [lineEmissions, hline, hline', lineWalk_congr hparse, hwork]
      have hworks : lineWorks lib [line'] = lineWorks lib [line] := by
        simp [lineWorks, hline, hline', hwork]
      refine ⟨?_, fun seenIds => ?_, fun hnone => ?_⟩
      · rw [linesWalk, linesWalk, Walk.each, Walk.each, hread, ← linesWalk, ← linesWalk,
          hrest.walk]
      · rw [lineEmissions_cons_of_ok lib hfailure,
          lineEmissions_cons_of_ok lib (hread ▸ hfailure), hread, hemissions,
          hrest.emissions]
      · have hnone' := (Walk.failure?_append_eq_none_iff.mp hnone).2
        rw [lineWorks_cons, lineWorks_cons lib line, hworks, hrest.works hnone']

theorem BlanksHarmless.tail {line' : Text} (hrecord : line = [] ↔ line' = [])
    (hharmless : BlanksHarmless lib (line :: lines) (line' :: lines'))
    (hread : (readLine lib line').failure? = none) : BlanksHarmless lib lines lines' := by
  rintro before blank after rfl hblank hwalk
  have hbefore : (linesWalk lib (line' :: before)).failure? = none :=
    Walk.failure?_append_eq_none_iff.mpr ⟨hread, hwalk⟩
  obtain ⟨other, hother, hparse⟩ :=
    hharmless (line' :: before) blank after rfl hblank hbefore
  refine ⟨other, ?_, hparse⟩
  by_cases hline : line = []
  · rwa [hline, hrecord.mp hline, records_cons_nil, records_cons_nil] at hother
  · have hline' := mt hrecord.mpr hline
    rwa [records_cons hline, records_cons hline', List.length_cons,
      List.getElem?_cons_succ] at hother

theorem BlanksHarmless.tail_blank (hharmless : BlanksHarmless lib lines ([] :: lines')) :
    BlanksHarmless lib lines lines' := by
  rintro before blank after rfl hblank hwalk
  obtain ⟨other, hother, hparse⟩ :=
    hharmless ([] :: before) blank after rfl hblank (by rwa [linesWalk_cons_nil])
  exact ⟨other, by rwa [records_cons_nil] at hother, hparse⟩

/-- A line that is come to first and cannot be read has its counterpart in the original. -/
theorem BlanksHarmless.sameOutcome_head {blank : Text} (hlib : lib.IgnoresWhitespace)
    (hharmless : BlanksHarmless lib lines (blank :: lines')) (hblank : Unreadable blank) :
    SameOutcome lib lines (blank :: lines') := by
  obtain ⟨line, hfirst, hparse⟩ := hharmless [] blank lines' rfl hblank rfl
  have hfirst' : (records (blank :: lines'))[0]? = some blank := by
    rw [records_cons hblank.ne_nil]
    rfl
  exact .of_unparsed hfirst hparse hfirst' (hlib.unreadable hblank)

theorem onlyWhitespace_append {s t : Text} (hs : OnlyWhitespace s) (ht : OnlyWhitespace t) :
    OnlyWhitespace (s ++ t) :=
  List.forall_mem_append.mpr ⟨hs, ht⟩

/-- The outcome is the same as long as no blank line does harm. -/
theorem BlanksHarmless.sameOutcome (hlib : lib.IgnoresWhitespace)
    (hadded : WhitespaceAdded lines lines') (hharmless : BlanksHarmless lib lines lines') :
    SameOutcome lib lines lines' := by
  induction hadded with
  | nil => exact ⟨rfl, fun _ => rfl, fun _ => rfl⟩
  | @blank blank lines lines' hblank hadded ih =>
      by_cases hne : blank = []
      · subst hne
        have hsame := ih hharmless.tail_blank
        exact ⟨(linesWalk_cons_nil lines').trans hsame.walk, hsame.emissions,
          fun hnone => hsame.works hnone⟩
      · exact hharmless.sameOutcome_head hlib (unreadable_of_onlyWhitespace hblank hne)
  | @around before after line lines lines' hbefore hafter hadded ih =>
      by_cases hunreadable : Unreadable (before ++ line ++ after)
      · exact hharmless.sameOutcome_head hlib hunreadable
      · have hmarked : byteOrderMark <+: line → before = [] := by
          intro hmark
          by_contra hne
          exact hunreadable ⟨before, line ++ after, List.append_assoc _ _ _, hbefore, hne,
            .inr (hmark.trans (List.prefix_append _ _))⟩
        have hparse := hlib.around before line after hbefore hafter hmarked
        by_cases hline : line = []
        · subst hline
          rw [List.append_nil] at hunreadable hharmless ⊢
          have hblank := onlyWhitespace_append hbefore hafter
          have hempty : before ++ after = [] :=
            of_not_not (mt (unreadable_of_onlyWhitespace hblank) hunreadable)
          rw [hempty] at hharmless ⊢
          have hsame := ih (hharmless.tail Iff.rfl rfl)
          exact ⟨by rw [linesWalk_cons_nil, linesWalk_cons_nil, hsame.walk], hsame.emissions,
            fun hnone => hsame.works (by rwa [linesWalk_cons_nil] at hnone)⟩
        · have hline' : before ++ line ++ after ≠ [] := by simp [hline]
          refine .cons hline hline' hparse fun hread => ih (hharmless.tail (by simp [hline]) ?_)
          rwa [readLine_congr hline hline' hparse]

theorem SameOutcome.results {input input' : Text}
    (hsame : SameOutcome lib (getLines input) (getLines input')) :
    SameResults lib input input' := by
  constructor
  · intro seenIds
    rw [processWorksSnapshot, processWorksSnapshot, run_collectLines, run_collectLines,
      hsame.walk]
    cases hwalk : (linesWalk lib (getLines input)).failure? with
    | some exception => rw [Walk.collect_of_failure hwalk]
    | none => rw [Walk.collect_of_failure?_eq_none hwalk, hsame.works hwalk]
  · intro session
    simp only [processWorksSnapshotStreaming, run_streamLines, Session.through, hsame.walk,
      hsame.emissions]

/-- A cut through the lines with whitespace is a cut through the original. -/
theorem WhitespaceAdded.split {before rest : List Text}
    (hadded : WhitespaceAdded lines (before ++ rest)) :
    ∃ start last, lines = start ++ last ∧ WhitespaceAdded start before ∧
      WhitespaceAdded last rest := by
  induction before generalizing lines with
  | nil => exact ⟨[], lines, rfl, .nil, hadded⟩
  | cons line before ih =>
      rw [List.cons_append] at hadded
      cases hadded with
      | blank hblank hadded =>
          obtain ⟨start, last, rfl, hstart, hlast⟩ := ih hadded
          exact ⟨start, last, rfl, .blank hblank hstart, hlast⟩
      | around line hbefore hafter hadded =>
          obtain ⟨start, last, rfl, hstart, hlast⟩ := ih hadded
          exact ⟨line :: start, last, rfl, .around line hbefore hafter hstart, hlast⟩

/-- Lines that are processed to their end have no blank line that does harm. -/
theorem blanksHarmless_of_walk (hlib : lib.IgnoresWhitespace)
    (hwalk : (linesWalk lib lines').failure? = none) (lines : List Text) :
    BlanksHarmless lib lines lines' := by
  intro before blank after hlines hblank _
  have hread := Walk.failure?_each_eq_none_iff.mp hwalk blank (by simp [hlines])
  rw [readLine_of_unparsed hblank.ne_nil (hlib.unreadable hblank)] at hread
  cases hread

/-- A record that is processed is written. -/
theorem lineEmissions_ne_nil (hfirst : (records lines)[0]? = some line)
    (hread : (readLine lib line).failure? = none) (seenIds : SeenIds) :
    lineEmissions lib seenIds lines ≠ [] := by
  have hmem : line ∈ records lines := List.mem_of_getElem? hfirst
  have hline : line ≠ [] := by simpa [records] using (List.mem_filter.mp hmem).2
  cases hrecords : records lines with
  | nil => simp [hrecords] at hmem
  | cons first rest =>
      obtain rfl : first = line := by simpa [hrecords] using hfirst
      rw [← lineEmissions_records, hrecords, lineEmissions_cons_of_ok lib hread,
        lineEmissions_singleton lib hread]
      simp [Batch.emissions, Batch.of, lineWorks, hline]

/-- Lines on which the processing fails at once, as it does on a line that is no
JSON. -/
theorem exists_unparsed (hfailure : (linesWalk lib lines).failure? = some (.json .parseError))
    {seenIds : SeenIds} (hemissions : lineEmissions lib seenIds lines = []) :
    ∃ line, (records lines)[0]? = some line ∧ lib.parse line = none := by
  cases hrecords : records lines with
  | nil =>
      rw [← linesWalk_records, hrecords] at hfailure
      cases hfailure
  | cons line rest =>
      have hfirst : (records lines)[0]? = some line := by rw [hrecords]; rfl
      have hmem : line ∈ records lines := List.mem_of_getElem? hfirst
      have hline : line ≠ [] := by simpa [records] using (List.mem_filter.mp hmem).2
      cases hread : (readLine lib line).failure? with
      | none => exact absurd hemissions (lineEmissions_ne_nil hfirst hread seenIds)
      | some exception =>
          rw [← linesWalk_records, hrecords, linesWalk, Walk.each,
            Walk.append_of_failure hread] at hfailure
          rw [readLine, if_neg (by simpa using hline)] at hfailure
          exact ⟨line, rfl, (failure?_lineWalk_eq_parseError_iff lib).mp hfailure⟩

/-- Same results show that a blank line has done no harm. -/
theorem SameResults.blanksHarmless (hlib : lib.IgnoresWhitespace) {input input' : Text}
    (hadded : WhitespaceAdded (getLines input) (getLines input'))
    (hsame : SameResults lib input input') :
    BlanksHarmless lib (getLines input) (getLines input') := by
  intro before blank after hlines hblank hwalk
  rw [hlines] at hadded
  obtain ⟨start, last, hstart, hbefore, hlast⟩ := hadded.split
  have hequal := (blanksHarmless_of_walk hlib hwalk start).sameOutcome hlib hbefore
  have hstartWalk : (linesWalk lib start).failure? = none := hequal.walk ▸ hwalk
  have hfirst : (records (blank :: after))[0]? = some blank := by
    rw [records_cons hblank.ne_nil]
    rfl
  obtain ⟨hfail, hsilent⟩ := linesWalk_of_unparsed hfirst (hlib.unreadable hblank)
  have hrun := hsame.streaming {}
  rw [processWorksSnapshotStreaming, processWorksSnapshotStreaming, run_streamLines,
    run_streamLines, Session.through, Session.through, hlines, hstart,
    linesWalk_append, linesWalk_append, lineEmissions_append lib hwalk,
    lineEmissions_append lib hstartWalk, hsilent, hequal.emissions, hfail,
    Walk.append_of_failure?_eq_none hwalk,
    Walk.append_of_failure?_eq_none hstartWalk] at hrun
  cases hlastWalk : (linesWalk lib last).failure? with
  | none => simp [hlastWalk, Walk.fail] at hrun
  | some exception =>
      simp only [hlastWalk, Walk.fail, EStateM.Result.error.injEq, Session.mk.injEq,
        List.append_nil, List.nil_append, List.self_eq_append_right] at hrun
      obtain ⟨rfl, -, hnothing⟩ := hrun
      obtain ⟨line, hfirst, hparse⟩ := exists_unparsed hlastWalk hnothing
      refine ⟨line, ?_, hparse⟩
      have hlength := congrArg List.length (hequal.works hstartWalk)
      rw [lineWorks, lineWorks, List.length_map, List.length_map, ← records,
        ← records] at hlength
      rw [hstart, records_append, hlength, List.getElem?_append_right le_rfl, Nat.sub_self]
      exact hfirst

/-- Whitespace between the records of a snapshot and around them changes nothing
exactly when each blank line that is not empty, and that the processing comes to,
stands where the original has a record that is no JSON; and so for each byte order
mark behind whitespace. -/
theorem sameResults_iff (hlib : lib.IgnoresWhitespace) {input input' : Text}
    (hadded : WhitespaceAdded (getLines input) (getLines input')) :
    SameResults lib input input' ↔
      BlanksHarmless lib (getLines input) (getLines input') := by
  constructor
  · exact fun hsame => hsame.blanksHarmless hlib hadded
  · exact fun hharmless => (hharmless.sameOutcome hlib hadded).results

theorem blanksHarmless_of_readable (hreadable : ∀ line ∈ lines', ¬ Unreadable line) :
    BlanksHarmless lib lines lines' := by
  rintro before blank after rfl hblank
  exact absurd hblank (hreadable blank (by simp))

end Whitespace

/-- A library that takes blanks off the ends of a text first, and knows no byte order
mark. -/
def SnapshotLibrary.trimming (lib : SnapshotLibrary) : SnapshotLibrary :=
  { lib with parse := fun line =>
      if trimCopy line = [] ∨ byteOrderMark <+: trimCopy line then none
      else lib.parse (trimCopy line) }

theorem OnlyWhitespace.blank {s : Text} (hs : OnlyWhitespace s) : Blank s := by
  intro c hc
  rcases hs c hc with rfl | rfl | rfl <;> rfl

theorem byteOrderMark_prefix_trimCopy {s : Text} (hmark : byteOrderMark <+: s) :
    byteOrderMark <+: trimCopy s := by
  obtain ⟨rest, rfl⟩ := hmark
  have hstart : (byteOrderMark ++ rest).dropWhile isSpace = byteOrderMark ++ rest := rfl
  have hend : byteOrderMark.reverse.dropWhile isSpace = byteOrderMark.reverse := rfl
  rw [trimCopy, hstart, List.rdropWhile, List.reverse_append, List.dropWhile_append, hend]
  split <;> simp

theorem Unreadable.trimCopy {line : Text} (hline : Unreadable line) :
    trimCopy line = [] ∨ byteOrderMark <+: trimCopy line := by
  obtain ⟨before, rest, rfl, hblank, -, hrest⟩ := hline
  have htrim := @trimCopy_pad before [] rest hblank.blank (by simp [Blank])
  rw [List.append_nil] at htrim
  rw [htrim]
  rcases hrest with rfl | hmark
  · exact .inl rfl
  · exact .inr (byteOrderMark_prefix_trimCopy hmark)

theorem SnapshotLibrary.ignoresWhitespace_trimming (lib : SnapshotLibrary) :
    lib.trimming.IgnoresWhitespace where
  around before line after hbefore hafter _ := by
    simp only [trimming, trimCopy_pad line hbefore.blank hafter.blank]
  alone line hline := by
    simp [trimming, (trimCopy_eq_nil_iff line).mpr hline.blank]
  marked before line hbefore hne hmark :=
    if_pos (Unreadable.trimCopy ⟨before, line, rfl, hbefore, hne, .inr hmark⟩)

section Samples

/-- A library that knows the minimal record. -/
def minimalLibrary : SnapshotLibrary :=
  (tableLibrary [(minimalLine "", minimalRecord [])]).trimming

/-- An empty line in front of an indented one with another line end. -/
theorem sameResults_indented :
    SameResults minimalLibrary (unlines [minimalLine ""])
      (unlines [[], "  ".toList ++ minimalLine "" ++ "\r".toList]) := by
  have hlines : getLines (unlines [minimalLine ""]) = [minimalLine ""] :=
    getLines_unlines (by decide)
  have hlines' : getLines (unlines [[], "  ".toList ++ minimalLine "" ++ "\r".toList]) =
      [[], "  ".toList ++ minimalLine "" ++ "\r".toList] :=
    getLines_unlines (by decide)
  refine (sameResults_iff (SnapshotLibrary.ignoresWhitespace_trimming _) ?_).mpr ?_
  · rw [hlines, hlines']
    exact .blank (by simp [OnlyWhitespace])
      (.around _ (by simp [OnlyWhitespace]) (by simp [OnlyWhitespace]) .nil)
  · rw [hlines, hlines']
    apply blanksHarmless_of_readable
    intro line hline hblank
    rcases List.mem_cons.mp hline with hline | hline
    · exact hblank.ne_nil hline
    · rw [List.mem_singleton.mp hline] at hblank
      exact absurd hblank.trimCopy (by decide)

/-- A line of its own for the line end. -/
theorem not_sameResults_carriageReturn :
    ¬ ∀ (lib : SnapshotLibrary) (input input' : Text), lib.IgnoresWhitespace →
      WhitespaceAdded (getLines input) (getLines input') → SameResults lib input input' := by
  intro hsame
  have hlines : getLines (unlines [minimalLine ""]) = [minimalLine ""] :=
    getLines_unlines (by decide)
  have hlines' : getLines (unlines [minimalLine "", "\r".toList]) =
      [minimalLine "", "\r".toList] := getLines_unlines (by decide)
  have hadded : WhitespaceAdded [minimalLine ""] [minimalLine "", "\r".toList] :=
    @WhitespaceAdded.around [] [] _ _ _ (by simp [OnlyWhitespace]) (by simp [OnlyWhitespace])
      (.blank (by simp [OnlyWhitespace]) .nil)
  rw [← hlines, ← hlines'] at hadded
  have hlib : minimalLibrary.IgnoresWhitespace :=
    SnapshotLibrary.ignoresWhitespace_trimming _
  have hharmless := (hsame minimalLibrary _ _ hlib hadded).blanksHarmless hlib hadded
  rw [hlines, hlines'] at hharmless
  obtain ⟨line, hline, -⟩ := hharmless [minimalLine ""] "\r".toList [] rfl
    (unreadable_of_onlyWhitespace (by simp [OnlyWhitespace]) (by decide)) rfl
  cases hline

end Samples

end Citescoop
