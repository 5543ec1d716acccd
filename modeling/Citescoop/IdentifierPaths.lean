/-
PubMed ids and DOIs on their two ways into the data: as parameters of a template
and as identifiers of an OpenAlex work.
-/
import Citescoop.NumericIdentifiers
import Citescoop.SnapshotExtract

namespace Citescoop

/-- The record has a string among its identifiers. -/
def HasIdent (data : Json) (name : String) (text : Text) : Prop :=
  ∃ ids, data.field "ids" = .ok ids ∧ ids.string? name = some text

/-- The part of a PubMed id that has to be a number. -/
def pubmedText (pubmedId : Text) : Text :=
  withoutPrefix "https://pubmed.ncbi.nlm.nih.gov/".toList pubmedId

theorem removePrefix_eq (str start : Text) : removePrefix str start = withoutPrefix start str := by
  rw [removePrefix, withoutPrefix]
  split
  · next hstarts => rw [eraseFirstCopy_of_isPrefixOf hstarts]
  · rfl

theorem parsePubmedId_eq_ok_iff {pubmedId : Text} {number : UInt32} :
    parsePubmedId pubmedId = .ok number ↔
      ∃ value, LeadingInteger (pubmedText pubmedId) value ∧ value.natAbs < 2 ^ 64 ∧
        number = UInt32.ofInt value := by
  have hstoul : parsePubmedId pubmedId = .ok number ↔
      ∃ read, stoul (pubmedText pubmedId) = .ok read ∧ read.toUInt32 = number := by
    rw [parsePubmedId, removePrefix_eq, ← pubmedText]
    cases stoul (pubmedText pubmedId) <;> simp [Except.map, Except.mapError]
  rw [hstoul]
  constructor
  · rintro ⟨read, hread, rfl⟩
    obtain ⟨value, hleading, hrange, rfl⟩ := stoul_eq_ok_iff.mp hread
    exact ⟨value, hleading, hrange, toUInt32_ofInt value⟩
  · rintro ⟨value, hleading, hrange, rfl⟩
    exact ⟨UInt64.ofInt value, stoul_eq_ok_iff.mpr ⟨value, hleading, hrange, rfl⟩,
      toUInt32_ofInt value⟩

section Record

variable {data : Json} {pubmedId doi : Text} {identifiers : Identifiers}

theorem HasIdent.unique {name : String} {text text' : Text}
    (hident : HasIdent data name text) (hident' : HasIdent data name text') :
    text = text' := by
  obtain ⟨ids, hids, htext⟩ := hident
  obtain ⟨ids', hids', htext'⟩ := hident'
  rw [hids, Except.ok.injEq] at hids'
  rw [← hids', htext] at htext'
  exact Option.some.inj htext'

theorem extractIdentifiers_returns_iff {data : Json} :
    (∃ identifiers, extractIdentifiers data = .ok identifiers) ↔
      ∃ ids, data.field "ids" = .ok ids ∧
        ∀ pmid, ids.string? "pmid" = some pmid → ∃ number, parsePubmedId pmid = .ok number := by
  rw [extractIdentifiers]
  cases data.field "ids" with
  | error exception => simp [bind, Except.bind]
  | ok ids =>
      cases hpmid : ids.string? "pmid" with
      | none => simp [bind, Except.bind, hpmid, pure, Except.pure]
      | some pmid =>
          cases hnumber : parsePubmedId pmid <;>
            simp [bind, Except.bind, hpmid, hnumber, pure, Except.pure]

theorem extractIdentifiers_pmid (hpmid : HasIdent data "pmid" pubmedId) :
    (extractIdentifiers data).map Identifiers.pmid? = (parsePubmedId pubmedId).map some := by
  obtain ⟨ids, hids, htext⟩ := hpmid
  simp only [extractIdentifiers, hids, bind, Except.bind, htext]
  cases parsePubmedId pubmedId <;> rfl

theorem extractIdentifiers_doi (hdoi : HasIdent data "doi" doi)
    (hextract : extractIdentifiers data = .ok identifiers) :
    identifiers.doi? = some (withoutPrefix "https://doi.org/".toList doi) := by
  obtain ⟨ids, hids, htext⟩ := hdoi
  simp only [extractIdentifiers, hids, bind, Except.bind, htext] at hextract
  split at hextract
  · split at hextract
    · cases hextract
    · cases hextract
      simp [removePrefix_eq]
  · cases hextract
    simp [removePrefix_eq]

theorem exists_extractIdentifiers_iff (hpmid : HasIdent data "pmid" pubmedId)
    {number : UInt32} :
    (∃ identifiers, extractIdentifiers data = .ok identifiers ∧
      identifiers.pmid? = some number) ↔ parsePubmedId pubmedId = .ok number := by
  have hmap := extractIdentifiers_pmid hpmid
  cases hextract : extractIdentifiers data with
  | error exception =>
      rw [hextract] at hmap
      cases hparse : parsePubmedId pubmedId <;> simp [hparse, Except.map] at hmap ⊢
  | ok identifiers =>
      rw [hextract] at hmap
      cases hparse : parsePubmedId pubmedId <;> simp_all [Except.map]

theorem exists_pmid (hpmid : HasIdent data "pmid" pubmedId)
    (hextract : extractIdentifiers data = .ok identifiers) :
    ∃ number, identifiers.pmid? = some number := by
  have hmap := extractIdentifiers_pmid hpmid
  rw [hextract] at hmap
  obtain ⟨number, -, hnumber⟩ := ExceptFold.map_ok hmap.symm
  exact ⟨number, hnumber.symm⟩

/-- The PubMed id of a work is the number in the record, or an error. -/
structure PubmedStored (data : Json) (pubmedId : Text) : Prop where
  stored : ∀ identifiers number, extractIdentifiers data = .ok identifiers →
    identifiers.pmid? = some number → Numeral (pubmedText pubmedId) number.toNat
  tooLarge : ∀ number, 2 ^ 32 ≤ number → Numeral (pubmedText pubmedId) number →
    ∃ exception, extractIdentifiers data = .error exception

/-- A string that begins with an integer within the range of `std::stoul` is a number
of 32 bits and nothing else. -/
def PlainPubmedId (pubmedId : Text) : Prop :=
  ∀ value, LeadingInteger (pubmedText pubmedId) value → value.natAbs < 2 ^ 64 →
    value < 2 ^ 32 ∧ ∀ c ∈ pubmedText pubmedId, c.isDigit = true

theorem plainPubmedId_of_numeral {number : ℕ} (hnumeral : Numeral (pubmedText pubmedId) number)
    (hsmall : number < 2 ^ 32) : PlainPubmedId pubmedId := by
  intro value hleading _
  have hvalue := hleading.unique hnumeral.leading
  exact ⟨by omega, hnumeral.digits⟩

theorem PlainPubmedId.stored (hplain : PlainPubmedId pubmedId)
    (hpmid : HasIdent data "pmid" pubmedId) : PubmedStored data pubmedId := by
  have hstored : ∀ identifiers number, extractIdentifiers data = .ok identifiers →
      identifiers.pmid? = some number → Numeral (pubmedText pubmedId) number.toNat := by
    intro identifiers number hextract hnumber
    have hparse := (exists_extractIdentifiers_iff hpmid).mp ⟨identifiers, hextract, hnumber⟩
    obtain ⟨value, hleading, hrange, rfl⟩ := parsePubmedId_eq_ok_iff.mp hparse
    obtain ⟨hsmall, hdigits⟩ := hplain value hleading hrange
    obtain ⟨value, rfl, hnumeral⟩ := hleading.numeral hdigits
    have hvalue : (UInt32.ofInt value).toNat = value := by
      rw [toNat_ofInt]
      omega
    rwa [hvalue]
  refine ⟨hstored, ?_⟩
  intro number hlarge hnumeral
  rw [ExceptFold.exists_error_iff]
  rintro ⟨identifiers, hextract⟩
  obtain ⟨recorded, hrecorded⟩ := exists_pmid hpmid hextract
  have hnumber := (hstored identifiers recorded hextract hrecorded).unique hnumeral
  have hbound := recorded.toNat_lt
  omega

/-- PubMed ids are stored unchanged or rejected exactly when they are plain, and ids
that are plain are told apart. -/
theorem pubmedStored_iff (hpmid : HasIdent data "pmid" pubmedId) :
    (PubmedStored data pubmedId ↔ PlainPubmedId pubmedId) ∧
      ∀ data' pubmedId' identifiers identifiers' number number',
        HasIdent data' "pmid" pubmedId' → PlainPubmedId pubmedId → PlainPubmedId pubmedId' →
          Numeral (pubmedText pubmedId) number → Numeral (pubmedText pubmedId') number' →
            extractIdentifiers data = .ok identifiers →
              extractIdentifiers data' = .ok identifiers' →
                identifiers.pmid? = identifiers'.pmid? → number = number' := by
  refine ⟨⟨?_, fun hplain => hplain.stored hpmid⟩, ?_⟩
  · intro hstored value hleading hrange
    have hparse := parsePubmedId_eq_ok_iff.mpr ⟨value, hleading, hrange, rfl⟩
    obtain ⟨identifiers, hextract, hnumber⟩ :=
      (exists_extractIdentifiers_iff hpmid).mpr hparse
    have hnumeral := hstored.stored identifiers _ hextract hnumber
    have hvalue := hleading.unique hnumeral.leading
    have hbound := (UInt32.ofInt value).toNat_lt
    exact ⟨by omega, hnumeral.digits⟩
  · intro data' pubmedId' identifiers identifiers' number number' hpmid' hplain hplain'
      hnumeral hnumeral' hextract hextract' hsame
    obtain ⟨recorded, hrecorded⟩ := exists_pmid hpmid hextract
    have hread := (hplain.stored hpmid).stored identifiers recorded hextract hrecorded
    have hread' := (hplain'.stored hpmid').stored identifiers' recorded hextract'
      (hsame ▸ hrecorded)
    exact (hnumeral.unique hread).trans (hread'.unique hnumeral')

/-- A string that the wikitext parser converts is one that `ParsePubmedId` converts, to
the same number. -/
theorem parsePubmedId_of_stoi {text : Text} {read : Int}
    (hread : stoi (trimCopy text) = .ok read) : parsePubmedId text = .ok (.ofInt read) := by
  obtain ⟨hleading, hlow, hhigh⟩ := stoi_eq_ok_iff.mp hread
  rw [← decimalPrefix_eq_some_iff, decimalPrefix_trimCopy] at hleading
  have hkept : pubmedText text = text := by
    rw [pubmedText, withoutPrefix, if_neg]
    intro hstarts
    obtain ⟨rest, rfl⟩ := List.isPrefixOf_iff_prefix.mp hstarts
    have hletter : decimalPrefix ("https://pubmed.ncbi.nlm.nih.gov/".toList ++ rest) = none :=
      decimalPrefix_of_letter (c := 'h') (by decide) _
    rw [hletter] at hleading
    cases hleading
  rw [decimalPrefix_eq_some_iff, ← hkept] at hleading
  exact parsePubmedId_eq_ok_iff.mpr ⟨read, hleading, by omega, rfl⟩

/-- The parameter has the value, under the key. -/
def ParameterEntry.Gives (param : ParameterEntry) (key : ParamKey) (value : Text) : Prop :=
  param.value = some value ∧ param.normalisedKey = key.text

theorem records_doi (options : ParserOptions) {param : ParameterEntry} {text : Text}
    (hparam : param.Gives .doi text) :
    Records options Identifiers.doi? param
      (withoutPrefix "https://doi.org/".toList (trimCopy text)) := by
  intro name before citation hbuild
  refine ⟨citation.updateIdentifiers
    fun identifiers => { identifiers with doi? := some (parseDoi (trimCopy text)) }, ?_, ?_⟩
  · rw [buildCitation_append_singleton hbuild]
    simp [buildParam, hparam.1, hparam.2, checkForIdentKey, Except.map]
  · simp [parseDoi_eq]

/-- A PubMed id or a DOI is the same number or string, on whichever way it comes into the
data; and it comes in on both, unless it cannot be converted. -/
theorem identifierPaths_agree (options : ParserOptions) {text : Text}
    {pmidParam doiParam : ParameterEntry} {pmidData doiData : Json}
    (hpmidParam : pmidParam.Gives .pmid text) (hpmidData : HasIdent pmidData "pmid" text)
    (hdoiParam : doiParam.Gives .doi text) (hdoiData : HasIdent doiData "doi" text) :
    (∀ number, Records options Identifiers.pmid? pmidParam number →
      parsePubmedId text = .ok number ∧
        ∀ identifiers number', extractIdentifiers pmidData = .ok identifiers →
          identifiers.pmid? = some number' → number' = number) ∧
    (∀ read, stoi (trimCopy text) = .ok read →
      Records options Identifiers.pmid? pmidParam (.ofInt read) ∧
        ∃ identifiers, extractIdentifiers pmidData = .ok identifiers ∧
          identifiers.pmid? = some (.ofInt read)) ∧
    (trimCopy text = text →
      Records options Identifiers.doi? doiParam
          (withoutPrefix "https://doi.org/".toList text) ∧
        (∀ identifiers, extractIdentifiers doiData = .ok identifiers →
          identifiers.doi? = some (withoutPrefix "https://doi.org/".toList text)) ∧
        ((∀ pubmedId, HasIdent doiData "pmid" pubmedId →
            ∃ number, parsePubmedId pubmedId = .ok number) →
          ∃ identifiers, extractIdentifiers doiData = .ok identifiers)) := by
  have hkey : pmidParam.normalisedKey = NumericIdent.pmid.key.text := hpmidParam.2
  refine ⟨?_, ?_, ?_⟩
  · intro number hrecords
    obtain ⟨read, hread, rfl⟩ := (records_iff hpmidParam.1 hkey).mp hrecords
    have hparse := parsePubmedId_of_stoi hread
    refine ⟨hparse, fun identifiers number' hextract hnumber => ?_⟩
    have hparse' := (exists_extractIdentifiers_iff hpmidData).mp ⟨identifiers, hextract, hnumber⟩
    rw [hparse, Except.ok.injEq] at hparse'
    exact hparse'.symm
  · intro read hread
    exact ⟨(records_iff hpmidParam.1 hkey).mpr ⟨read, hread, rfl⟩,
      (exists_extractIdentifiers_iff hpmidData).mpr (parsePubmedId_of_stoi hread)⟩
  · intro htrimmed
    have hrecords := records_doi options hdoiParam
    rw [htrimmed] at hrecords
    refine ⟨hrecords, fun identifiers hextract => extractIdentifiers_doi hdoiData hextract, ?_⟩
    intro hpmid
    obtain ⟨ids, hids, -⟩ := hdoiData
    exact extractIdentifiers_returns_iff.mpr
      ⟨ids, hids, fun pmid hpmidText => hpmid pmid ⟨ids, hids, hpmidText⟩⟩

end Record

section Samples

/-- A record with a single identifier. -/
def identRecord (name text : String) : Json :=
  .object [("ids".toList, .object [(name.toList, .string text.toList)])]

/-- A record whose only identifier is the PubMed id. -/
def pubmedRecord (pubmedId : String) : Json :=
  identRecord "pmid" pubmedId

theorem hasIdent_pubmedRecord (pubmedId : String) :
    HasIdent (pubmedRecord pubmedId) "pmid" pubmedId.toList :=
  ⟨_, rfl, rfl⟩

theorem hasIdent_doiRecord (doi : String) :
    HasIdent (identRecord "doi" doi) "doi" doi.toList :=
  ⟨_, rfl, rfl⟩

theorem numeral_twelve : Numeral (pubmedText "12".toList) 12 := by
  have htext : pubmedText "12".toList = ['1', '2'] := by decide
  rw [htext]
  exact ⟨by decide, by simp, by decide⟩

theorem pubmedStored_twelve :
    PubmedStored (pubmedRecord "12") "12".toList :=
  (pubmedStored_iff (hasIdent_pubmedRecord "12")).1.mpr
    (plainPubmedId_of_numeral numeral_twelve (by decide))

/-- The number is cut down to 32 bits: this is the id of another article. -/
theorem not_pubmedStored_large :
    ¬ PubmedStored (pubmedRecord "https://pubmed.ncbi.nlm.nih.gov/4294967297")
      "https://pubmed.ncbi.nlm.nih.gov/4294967297".toList := by
  intro hstored
  have hnumeral := hstored.stored { pmid? := some 1 } 1 rfl rfl
  exact absurd hnumeral.value (by decide)

/-- A number with blanks, a sign and letters behind it, and a DOI with its prefix. -/
theorem identifierPaths_agree_signed :
    (Records {} Identifiers.pmid? ⟨"PMID".toList, some " -12th ".toList⟩ 4294967284 ∧
      ∃ identifiers, extractIdentifiers (pubmedRecord " -12th ") = .ok identifiers ∧
        identifiers.pmid? = some 4294967284) ∧
    (Records {} Identifiers.doi? ⟨"DOI".toList, some "https://doi.org/10.1000/182".toList⟩
        "10.1000/182".toList ∧
      ∃ identifiers,
        extractIdentifiers (identRecord "doi" "https://doi.org/10.1000/182") = .ok identifiers ∧
          identifiers.doi? = some "10.1000/182".toList) := by
  have hpmidParam : ParameterEntry.Gives ⟨"PMID".toList, some " -12th ".toList⟩ .pmid
      " -12th ".toList := ⟨rfl, by decide⟩
  have hnumberParam : ParameterEntry.Gives ⟨"DOI".toList, some " -12th ".toList⟩ .doi
      " -12th ".toList := ⟨rfl, by decide⟩
  have hlinkParam : ParameterEntry.Gives
      ⟨"PMID".toList, some "https://doi.org/10.1000/182".toList⟩ .pmid
      "https://doi.org/10.1000/182".toList := ⟨rfl, by decide⟩
  have hdoiParam : ParameterEntry.Gives
      ⟨"DOI".toList, some "https://doi.org/10.1000/182".toList⟩ .doi
      "https://doi.org/10.1000/182".toList := ⟨rfl, by decide⟩
  obtain ⟨-, hnumber, -⟩ := identifierPaths_agree {} hpmidParam
    (hasIdent_pubmedRecord " -12th ") hnumberParam (hasIdent_doiRecord " -12th ")
  obtain ⟨-, -, hlink⟩ := identifierPaths_agree {} hlinkParam
    (hasIdent_pubmedRecord "https://doi.org/10.1000/182") hdoiParam
    (hasIdent_doiRecord "https://doi.org/10.1000/182")
  obtain ⟨hrecords, hdoi, hreturns⟩ := hlink (by decide)
  obtain ⟨identifiers, hextract⟩ := hreturns fun pubmedId hpmid => by
    obtain ⟨ids, hids, htext⟩ := hpmid
    cases hids
    cases htext
  have hvalue : UInt32.ofInt (-12) = 4294967284 := by decide
  have hsigned := hnumber (-12) (by decide)
  rw [hvalue] at hsigned
  exact ⟨hsigned, hrecords, identifiers, hextract, hdoi identifiers hextract⟩

end Samples

end Citescoop
