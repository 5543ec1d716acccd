/-
What `SnapshotProcessor` extracts from one record of an OpenAlex works
snapshot: the work, and the authors and institutions that it had not met.
-/
import Citescoop.ExceptFold
import Citescoop.JsonValue
import Citescoop.Languages
import Citescoop.Walk

namespace Citescoop

abbrev Json := JsonValue Text

inductive SnapshotException where
  | json (failure : JsonValue.Failure)
  | conversion (failure : ConversionError)
deriving Repr, DecidableEq

/-- `data[key]`. -/
def Json.field (data : Json) (key : String) : Except SnapshotException Json :=
  (data.index key.toList).mapError .json

/-- `data.get<std::string>()`. -/
def Json.text (data : Json) : Except SnapshotException Text :=
  data.getString.mapError .json

/-- The string read under the guard
`data.contains(key) && data[key].is_string()`. -/
def Json.string? (data : Json) (key : String) : Option Text :=
  data.stringAt? key.toList

structure Author where
  openalexId : Text
  name? : Option Text := none
  orcid? : Option Text := none
deriving Repr, DecidableEq

structure Institution where
  openalexId : Text
  name? : Option Text := none
  ror? : Option Text := none
deriving Repr, DecidableEq

inductive OaCategory where
  | unspecified
  | diamond
  | gold
  | green
  | hybrid
  | bronze
  | closed
deriving Repr, DecidableEq

structure Work where
  openalexId : Text
  title? : Option Text := none
  publicationDate? : Option Timestamp := none
  language? : Option Language := none
  oaStatus : OaCategory := .unspecified
  oaUrl? : Option Text := none
  authorIds : List Text := []
  institutionIds : List Text := []
  ids : Identifiers := {}
deriving Repr, DecidableEq

def removePrefix (str start : Text) : Text :=
  if start.isPrefixOf str then eraseFirstCopy start str else str

def trimOpenAlexId (openalexId : Text) : Text :=
  removePrefix openalexId "https://openalex.org/".toList

/-- The cast to `uint32_t` drops the upper half. -/
def parsePubmedId (pubmedId : Text) : Except SnapshotException UInt32 :=
  ((stoul (removePrefix pubmedId "https://pubmed.ncbi.nlm.nih.gov/".toList)).mapError
    .conversion).map UInt64.toUInt32

def stringToOaCategory (category : Text) : OaCategory :=
  if category = "diamond".toList then .diamond
  else if category = "gold".toList then .gold
  else if category = "green".toList then .green
  else if category = "hybrid".toList then .hybrid
  else if category = "bronze".toList then .bronze
  else if category = "closed".toList then .closed
  else .unspecified

/-- The id of an author or institution: its own, or one made from `fallback` or
from its name. -/
def getRecordId (fallback : String) (record : Json) : Except SnapshotException Text :=
  match record.string? "id" with
  | some id => .ok (trimOpenAlexId id)
  | none =>
      match record.string? fallback with
      | some text => .ok ("UNKNOWN_".toList ++ text)
      | none => do
          let name ← (← record.field "display_name").text
          return "UNKNOWN_".toList ++ name

def getInstitutionId (institution : Json) : Except SnapshotException Text :=
  getRecordId "ror" institution

def getAuthorId (author : Json) : Except SnapshotException Text :=
  getRecordId "orcid" author

def isRecordEmpty (third : String) (record : Json) : Bool :=
  (record.string? "id").isNone && (record.string? "display_name").isNone &&
    (record.string? third).isNone

def isInstitutionEmpty (institution : Json) : Bool :=
  isRecordEmpty "ror" institution

/-- What is missing for the third is called an ORCID, but it is the ROR that is
looked up. -/
def isAuthorEmpty (author : Json) : Bool :=
  isRecordEmpty "ror" author

def authorMessage (authorId : Text) (author : Json) : Author where
  openalexId := authorId
  name? := author.string? "display_name"
  orcid? := author.string? "orcid"

def institutionMessage (institutionId : Text) (institution : Json) : Institution where
  openalexId := institutionId
  name? := institution.string? "display_name"
  ror? := institution.string? "ror"

def extractIdentifiers (data : Json) : Except SnapshotException Identifiers := do
  let ids ← data.field "ids"
  let doi? := (ids.string? "doi").map fun doi => removePrefix doi "https://doi.org/".toList
  match ids.string? "pmid" with
  | some pmid => return { doi?, pmid? := some (← parsePubmedId pmid) }
  | none => return { doi? }

/-- What the loop over the authorships adds to a work. -/
structure References where
  authorIds : List Text := []
  seenInstitutionIds : Finset Text := ∅
  institutionIds : List Text := []

def addInstitution (references : References) (institution : Json) :
    Except SnapshotException References :=
  if isInstitutionEmpty institution then .ok references
  else do
    let institutionId ← getInstitutionId institution
    if institutionId ∈ references.seenInstitutionIds then return references
    else return { references with
      seenInstitutionIds := insert institutionId references.seenInstitutionIds
      institutionIds := references.institutionIds ++ [institutionId] }

/-- The institutions of an authorship without an author are passed over. -/
def addAuthorship (references : References) (authorship : Json) :
    Except SnapshotException References := do
  let author ← authorship.field "author"
  if isAuthorEmpty author then return references
  else
    let authorId ← getAuthorId author
    let institutions ← authorship.field "institutions"
    institutions.items.foldlM addInstitution
      { references with authorIds := references.authorIds ++ [authorId] }

/-- A date that `TimeUtil::FromString` does not accept leaves the timestamp at
its default. -/
def extractWork (timeFromString : Text → Option Timestamp) (data : Json) :
    Except SnapshotException Work := do
  let id ← (← data.field "id").text
  let oaStatus ← (← (← data.field "open_access").field "oa_status").text
  let oaUrl ← (← data.field "open_access").field "oa_url"
  let authorships ← data.field "authorships"
  let references ← authorships.items.foldlM addAuthorship {}
  let ids ← extractIdentifiers data
  return {
    openalexId := trimOpenAlexId id
    title? := data.string? "title"
    publicationDate? := (data.string? "publication_date").map fun date =>
      (timeFromString date).getD {}
    language? := (data.string? "language").map isoToLanguage
    oaStatus := stringToOaCategory oaStatus
    oaUrl? := oaUrl.getString.toOption
    authorIds := references.authorIds
    institutionIds := references.institutionIds
    ids }

/-- `seen_ids_`, which outlives an exception. -/
abbrev SeenIds := Finset Text

abbrev Processor := EStateM SnapshotException SeenIds

open MonadExcept (ofExcept)

def extractAuthors (data : Json) : Processor (List Author) := do
  let authorships ← ofExcept (data.field "authorships")
  authorships.items.foldlM (fun authors (authorship : Json) => do
    let author ← ofExcept (authorship.field "author")
    if isAuthorEmpty author then return authors
    else
      let authorId ← ofExcept (getAuthorId author)
      if authorId ∈ (← get) then return authors
      else
        modify (insert authorId)
        return authors ++ [authorMessage authorId author]) []

def extractInstitutions (data : Json) : Processor (List Institution) := do
  let authorships ← ofExcept (data.field "authorships")
  authorships.items.foldlM (fun institutions (authorship : Json) => do
    let listed ← ofExcept (authorship.field "institutions")
    listed.items.foldlM (fun institutions (institution : Json) =>
      if isInstitutionEmpty institution then return institutions
      else do
        let institutionId ← ofExcept (getInstitutionId institution)
        if institutionId ∈ (← get) then return institutions
        else
          modify (insert institutionId)
          return institutions ++ [institutionMessage institutionId institution])
      institutions) []

section Records

variable {fallback third : String} {record : Json} {key : Text}

/-- The key that the names of a record give, in the order of preference. -/
def recordKey? (fallback : String) (record : Json) : Option Text :=
  ((record.string? "id").map trimOpenAlexId).or
    (((record.string? fallback).or (record.string? "display_name")).map fun text =>
      "UNKNOWN_".toList ++ text)

theorem field_eq_ok_iff {data member : Json} {name : String} :
    data.field name = .ok member ↔ data.member? name.toList = some member := by
  rw [Json.field, ← JsonValue.index_eq_ok_iff]
  cases data.index name.toList <;> simp [Except.mapError]

theorem text_eq_ok_iff {data : Json} {text : Text} :
    data.text = .ok text ↔ data = .string text := by
  rw [Json.text, ← JsonValue.getString_eq_ok_iff]
  cases data.getString <;> simp [Except.mapError]

theorem string?_eq_some_iff {data : Json} {name : String} {text : Text} :
    data.string? name = some text ↔ data.field name = .ok (.string text) := by
  rw [Json.string?, JsonValue.stringAt?_eq_some_iff, field_eq_ok_iff]

/-- `GetInstitutionId` and `GetAuthorId` return when there is a key. -/
theorem getRecordId_eq_ok_iff :
    getRecordId fallback record = .ok key ↔ recordKey? fallback record = some key := by
  rw [getRecordId, recordKey?]
  cases record.string? "id" with
  | some id => simp
  | none =>
      cases record.string? fallback with
      | some text => simp
      | none =>
          cases hname : record.string? "display_name" with
          | some text =>
              rw [string?_eq_some_iff] at hname
              simp [hname, bind, Except.bind, pure, Except.pure, Json.text,
                JsonValue.getString, Except.mapError]
          | none =>
              simp only [Option.map_none, Option.or_none, reduceCtorEq, iff_false]
              intro hread
              rcases ExceptFold.bind_ok hread with ⟨member, hmember, hread⟩
              rcases ExceptFold.bind_ok hread with ⟨text, htext, -⟩
              rw [text_eq_ok_iff] at htext
              rw [htext, ← string?_eq_some_iff, hname] at hmember
              cases hmember

theorem recordKey?_eq_none_iff :
    recordKey? fallback record = none ↔ isRecordEmpty fallback record = true := by
  simp [recordKey?, isRecordEmpty, and_assoc, and_comm]

/-- The guard on institutions and their id agree. -/
theorem exists_getInstitutionId {institution : Json}
    (hempty : isInstitutionEmpty institution = false) :
    ∃ institutionId, getInstitutionId institution = .ok institutionId := by
  have hkey : recordKey? "ror" institution ≠ none := by
    rw [Ne, recordKey?_eq_none_iff, Bool.not_eq_true]
    exact hempty
  rcases Option.ne_none_iff_exists'.mp hkey with ⟨institutionId, hkey⟩
  exact ⟨institutionId, getRecordId_eq_ok_iff.mpr hkey⟩

end Records

end Citescoop
