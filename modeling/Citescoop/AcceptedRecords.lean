/-
Which records the processor accepts: what `ProcessLine` insists on, over the three calls
together, and from there which streams are processed to their end.
-/
import Citescoop.IdentifierPaths
import Citescoop.WorkReferences
import Citescoop.SnapshotRuns

namespace Citescoop

open ExceptFold

/-- An author may lack anything, but one who has a ROR must have something that an id can be
made from: the guard asks for a ROR, and `GetAuthorId` for an ORCID. -/
def Identifiable (author : Json) : Prop :=
  (author.string? "ror").isSome →
    (author.string? "id").isSome ∨ (author.string? "orcid").isSome ∨
      (author.string? "display_name").isSome

structure WellFormedAuthorship (authorship : Json) : Prop where
  author : ∃ author, authorship.field "author" = .ok author ∧ Identifiable author
  institutions : ∃ institutions, authorship.field "institutions" = .ok institutions

/-- A record with all that is read without a guard. -/
structure WellFormedRecord (data : Json) : Prop where
  id : ∃ id, data.field "id" = .ok (.string id)
  openAccess : ∃ access status url, data.field "open_access" = .ok access ∧
    access.field "oa_status" = .ok (.string status) ∧ access.field "oa_url" = .ok url
  authorships : ∃ authorships, data.field "authorships" = .ok authorships ∧
    ∀ authorship ∈ authorships.items, WellFormedAuthorship authorship
  ids : ∃ ids, data.field "ids" = .ok ids ∧
    ∀ pmid, ids.string? "pmid" = some pmid → ∃ number, parsePubmedId pmid = .ok number

theorem getAuthorId_returns_iff {author : Json} :
    (isAuthorEmpty author = false → ∃ authorId, getAuthorId author = .ok authorId) ↔
      Identifiable author := by
  simp only [Identifiable, getAuthorId, getRecordId_eq_ok_iff, ← Option.isSome_iff_exists,
    ← Option.ne_none_iff_isSome, Ne, recordKey?_eq_none_iff, isAuthorEmpty, isRecordEmpty]
  cases author.string? "id" <;> cases author.string? "display_name" <;>
    cases author.string? "ror" <;> cases author.string? "orcid" <;> simp

theorem considerAuthor_returns_iff {authorship : Json} :
    (considerAuthor authorship).failure? = none ↔
      ∃ author, authorship.field "author" = .ok author ∧ Identifiable author := by
  rw [failure?_considerAuthor_eq_none_iff]
  simp only [getAuthorId_returns_iff]

theorem considerInstitutions_returns_iff {authorship : Json} :
    (considerInstitutions authorship).failure? = none ↔
      ∃ institutions, authorship.field "institutions" = .ok institutions := by
  rw [considerInstitutions, Walk.failure?_ofExcept_eq_none_iff]
  simp [Walk.failure?_each_eq_none_iff, failure?_considerInstitution]

/-- Two loops over the same authorships. -/
theorem walks_return_iff {data : Json} :
    (authorWalk data).failure? = none ∧ (institutionWalk data).failure? = none ↔
      ∃ authorships, data.field "authorships" = .ok authorships ∧
        ∀ authorship ∈ authorships.items, WellFormedAuthorship authorship := by
  rw [authorWalk, institutionWalk, Walk.failure?_ofExcept_eq_none_iff,
    Walk.failure?_ofExcept_eq_none_iff]
  simp only [Walk.failure?_each_eq_none_iff, considerAuthor_returns_iff,
    considerInstitutions_returns_iff]
  constructor
  · rintro ⟨⟨authorships, hread, hauthors⟩, other, hread', hinstitutions⟩
    cases hread.symm.trans hread'
    exact ⟨authorships, hread, fun authorship hmem =>
      ⟨hauthors authorship hmem, hinstitutions authorship hmem⟩⟩
  · rintro ⟨authorships, hread, hall⟩
    exact ⟨⟨authorships, hread, fun authorship hmem => (hall authorship hmem).author⟩,
      authorships, hread, fun authorship hmem => (hall authorship hmem).institutions⟩

section Work

theorem addInstitution_returns (references : References) (institution : Json) :
    ∃ next, addInstitution references institution = .ok next := by
  rw [addInstitution]
  cases hempty : isInstitutionEmpty institution with
  | true => exact ⟨references, rfl⟩
  | false =>
      obtain ⟨institutionId, hid⟩ := exists_getInstitutionId hempty
      by_cases hseen : institutionId ∈ references.seenInstitutionIds
      · exact ⟨references, by simp [hid, hseen, bind, Except.bind, pure, Except.pure]⟩
      · exact ⟨_, by
          simp only [hid, hseen, bind, Except.bind, pure, Except.pure, Bool.false_eq_true, if_false]
          rfl⟩

/-- What the loop of `ExtractWork` insists on is insisted on by the others, too. -/
theorem WellFormedAuthorship.addAuthorship {authorship : Json}
    (hauthorship : WellFormedAuthorship authorship) (references : References) :
    ∃ next, addAuthorship references authorship = .ok next := by
  obtain ⟨author, hauthor, hguard⟩ := hauthorship.author
  obtain ⟨institutions, hinstitutions⟩ := hauthorship.institutions
  rw [Citescoop.addAuthorship, hauthor]
  cases hempty : isAuthorEmpty author with
  | true => exact ⟨references, by simp [hempty, bind, Except.bind, pure, Except.pure]⟩
  | false =>
      obtain ⟨authorId, hid⟩ := getAuthorId_returns_iff.mpr hguard hempty
      obtain ⟨next, hfold, -⟩ := foldlM_returns addInstitution (fun _ => True)
        institutions.items { references with authorIds := references.authorIds ++ [authorId] }
        (fun state institution _ _ =>
          (addInstitution_returns state institution).imp fun _ hnext => ⟨hnext, trivial⟩) trivial
      exact ⟨next, by simp [hempty, hid, hinstitutions, hfold, bind, Except.bind]⟩

theorem WellFormedRecord.extractWork {data : Json} (hdata : WellFormedRecord data)
    (timeFromString : Text → Option Timestamp) :
    ∃ work, extractWork timeFromString data = .ok work := by
  obtain ⟨id, hid⟩ := hdata.id
  obtain ⟨access, status, url, haccess, hstatus, hurl⟩ := hdata.openAccess
  obtain ⟨authorships, hauthorships, hall⟩ := hdata.authorships
  obtain ⟨identifiers, hidentifiers⟩ := extractIdentifiers_returns_iff.mpr hdata.ids
  obtain ⟨references, hreferences, -⟩ := foldlM_returns addAuthorship (fun _ => True)
    authorships.items {} (fun state authorship hmem _ =>
      ((hall authorship hmem).addAuthorship state).imp fun _ hnext => ⟨hnext, trivial⟩) trivial
  exact ⟨_, by
    simp only [Citescoop.extractWork, hid, haccess, hstatus, hurl, hauthorships, hreferences,
      hidentifiers, bind, Except.bind, Json.text, JsonValue.getString, Except.mapError, pure,
      Except.pure]
    rfl⟩

/-- What `ExtractWork` insists on beside the authorships. -/
theorem extractWork_wellFormed {timeFromString : Text → Option Timestamp} {data : Json}
    {work : Work} (hwork : extractWork timeFromString data = .ok work) :
    (∃ id, data.field "id" = .ok (.string id)) ∧
      (∃ access status url, data.field "open_access" = .ok access ∧
        access.field "oa_status" = .ok (.string status) ∧ access.field "oa_url" = .ok url) ∧
      ∃ ids, data.field "ids" = .ok ids ∧
        ∀ pmid, ids.string? "pmid" = some pmid → ∃ number, parsePubmedId pmid = .ok number := by
  rw [Citescoop.extractWork] at hwork
  obtain ⟨idField, hid, hwork⟩ := bind_ok hwork
  obtain ⟨id, hidText, hwork⟩ := bind_ok hwork
  obtain ⟨access, haccess, hwork⟩ := bind_ok hwork
  obtain ⟨statusField, hstatus, hwork⟩ := bind_ok hwork
  obtain ⟨status, hstatusText, hwork⟩ := bind_ok hwork
  obtain ⟨access', haccess', hwork⟩ := bind_ok hwork
  obtain ⟨url, hurl, hwork⟩ := bind_ok hwork
  obtain ⟨authorships, -, hwork⟩ := bind_ok hwork
  obtain ⟨references, -, hwork⟩ := bind_ok hwork
  obtain ⟨identifiers, hidentifiers, -⟩ := bind_ok hwork
  cases haccess.symm.trans haccess'
  rw [text_eq_ok_iff] at hidText hstatusText
  rw [hidText] at hid
  rw [hstatusText] at hstatus
  exact ⟨⟨id, hid⟩, ⟨access, status, url, haccess, hstatus, hurl⟩,
    extractIdentifiers_returns_iff.mp ⟨identifiers, hidentifiers⟩⟩

end Work

section Lines

variable (lib : SnapshotLibrary)

theorem lineWalk_returns_iff {line : Text} :
    (lineWalk lib line).failure? = none ↔
      ∃ data, lib.parse line = some data ∧ WellFormedRecord data := by
  constructor
  · intro hline
    obtain ⟨data, work, hparse, hwork, -, hauthors, hinstitutions⟩ :=
      of_failure?_lineWalk_eq_none lib hline
    obtain ⟨hid, haccess, hids⟩ := extractWork_wellFormed hwork
    exact ⟨data, hparse, hid, haccess, walks_return_iff.mp ⟨hauthors, hinstitutions⟩, hids⟩
  · rintro ⟨data, hparse, hdata⟩
    obtain ⟨hauthors, hinstitutions⟩ := walks_return_iff.mpr hdata.authorships
    obtain ⟨work, hwork⟩ := hdata.extractWork lib.timeFromString
    rw [lineWalk, Walk.failure?_ofExcept_eq_none_iff]
    refine ⟨data, by rw [parseLine, hparse], ?_⟩
    rw [Walk.failure?_each_eq_none_iff]
    intro extractor _
    cases extractor with
    | authors => exact hauthors
    | institutions => exact hinstitutions
    | work => rw [Extractor.walk, hwork]; rfl

/-- Calls on a processor return, whatever it has seen before and whichever overloads are
called, exactly when every line that is not empty is the text of a well-formed record. -/
theorem performAll_returns_iff (calls : List Call) (session : Session) :
    (∃ returned final, (performAll lib calls).run session = .ok returned final) ↔
      ∀ line ∈ callLines calls, line ≠ [] →
        ∃ data, lib.parse line = some data ∧ WellFormedRecord data := by
  have hlines : (linesWalk lib (callLines calls)).failure? = none ↔
      ∀ line ∈ callLines calls, line ≠ [] →
        ∃ data, lib.parse line = some data ∧ WellFormedRecord data := by
    rw [linesWalk, Walk.failure?_each_eq_none_iff]
    refine forall₂_congr fun line _ => ?_
    rw [readLine, ← lineWalk_returns_iff, Ne, ← List.isEmpty_iff]
    by_cases hempty : line.isEmpty = true <;> simp [hempty]
  rw [← hlines]
  constructor
  · rintro ⟨returned, final, hrun⟩
    exact (of_run_performAll lib hrun).1
  · intro hwalk
    obtain ⟨returned, hrun⟩ := run_performAll_of_ok lib hwalk session
    exact ⟨returned, _, hrun⟩

end Lines

end Citescoop
