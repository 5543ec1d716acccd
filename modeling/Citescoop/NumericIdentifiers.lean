/-
The two numeric identifiers of a citation: which values are converted, what is
recorded for them, and what is left of a value that cannot be converted.
-/
import Citescoop.CitationFields
import Citescoop.Numerals

namespace Citescoop

open ExceptFold

inductive NumericIdent where
  | pmid
  | pmcid
deriving Repr, DecidableEq

namespace NumericIdent

def key : NumericIdent → ParamKey
  | pmid => .pmid
  | pmcid => .pmc

def field : NumericIdent → Identifiers → Option UInt32
  | pmid => Identifiers.pmid?
  | pmcid => Identifiers.pmcid?

def set : NumericIdent → UInt32 → Identifiers → Identifiers
  | pmid => fun number identifiers => { identifiers with pmid? := some number }
  | pmcid => fun number identifiers => { identifiers with pmcid? := some number }

/-- The part of a value that has to be a number. -/
def text : NumericIdent → Text → Text
  | pmid, value => trimCopy value
  | pmcid, value => withoutPrefix "PMC".toList (trimCopy value)

@[simp] theorem field_set (ident : NumericIdent) (number : UInt32)
    (identifiers : Identifiers) :
    ident.field (ident.set number identifiers) = some number := by
  cases ident <;> rfl

end NumericIdent

/-- The parameter gives an identifier that `std::stoi` cannot convert. -/
def ParameterEntry.InvalidIdent (param : ParameterEntry) : Prop :=
  ∃ (ident : NumericIdent) (value : Text), param.value = some value ∧
    param.normalisedKey = ident.key.text ∧
    ∃ failure, stoi (ident.text value) = .error failure

theorem parseDoi_eq (doi : Text) : parseDoi doi = withoutPrefix "https://doi.org/".toList doi := by
  rw [parseDoi, withoutPrefix]
  split
  · next hstarts => rw [eraseFirstCopy_of_isPrefixOf hstarts]
  · rfl

theorem parsePmcId_eq (pmcid : Text) :
    parsePmcId pmcid = strToIntIdent (withoutPrefix "PMC".toList pmcid) := by
  rw [parsePmcId, withoutPrefix]
  split
  · next hstarts => rw [eraseFirstCopy_of_isPrefixOf hstarts]
  · rfl

section Round

variable {options : ParserOptions} {param : ParameterEntry} {value : Text}
  {ident : NumericIdent}

/-- The round of `BuildCitation` for a numeric identifier. -/
theorem buildParam_numeric (hvalue : param.value = some value)
    (hkey : param.normalisedKey = ident.key.text) (citation : ExtractedCitation) :
    buildParam options citation param =
      match stoi (ident.text value) with
      | .ok number => .ok (citation.updateIdentifiers (ident.set (.ofInt number)))
      | .error failure =>
          if options.ignoreInvalidIdent then .ok (citation.updateIdentifiers id)
          else .error (.failedToParseIdent failure) := by
  cases ident with
  | pmid =>
      simp only [NumericIdent.key] at hkey
      simp only [buildParam, hvalue, hkey, checkForIdentKey, ParamKey.text_inj, reduceCtorEq,
        ↓reduceIte, handlePmIdKey, handleNumericKey, NumericIdent.text, strToIntIdent]
      cases stoi (trimCopy value) with
      | ok number => rfl
      | error failure => cases hignore : options.ignoreInvalidIdent <;> rfl
  | pmcid =>
      simp only [NumericIdent.key] at hkey
      simp only [buildParam, hvalue, hkey, checkForIdentKey, ParamKey.text_inj, reduceCtorEq,
        ↓reduceIte, handlePmcIdKey, handleNumericKey, NumericIdent.text, parsePmcId_eq,
        strToIntIdent]
      cases stoi (withoutPrefix "PMC".toList (trimCopy value)) with
      | ok number => rfl
      | error failure => cases hignore : options.ignoreInvalidIdent <;> rfl

theorem buildParam_returns_of_not_numeric
    (hkey : ∀ ident : NumericIdent, param.normalisedKey ≠ ident.key.text)
    (citation : ExtractedCitation) :
    ∃ next, buildParam options citation param = .ok next := by
  have hpmid := hkey .pmid
  have hpmc := hkey .pmcid
  simp only [NumericIdent.key] at hpmid hpmc
  unfold buildParam
  split
  · exact ⟨_, rfl⟩
  · simp only [checkForIdentKey, hpmid, hpmc, ↓reduceIte]
    split_ifs <;> exact ⟨_, rfl⟩

theorem buildParam_returns_iff (citation : ExtractedCitation) :
    (∃ next, buildParam options citation param = .ok next) ↔
      options.ignoreInvalidIdent = true ∨ ¬ param.InvalidIdent := by
  constructor
  · rintro ⟨next, hbuild⟩
    by_contra hneither
    simp only [not_or, not_not, Bool.not_eq_true] at hneither
    obtain ⟨hignore, ident, value, hvalue, hkey, failure, hfailure⟩ := hneither
    rw [buildParam_numeric hvalue hkey, hfailure] at hbuild
    simp [hignore] at hbuild
  · intro hreturns
    by_cases hnumeric : ∃ ident : NumericIdent, param.normalisedKey = ident.key.text
    · obtain ⟨ident, hkey⟩ := hnumeric
      cases hvalue : param.value with
      | none => exact ⟨citation, by simp [buildParam, hvalue]⟩
      | some value =>
          rw [buildParam_numeric hvalue hkey]
          cases hread : stoi (ident.text value) with
          | ok number => exact ⟨_, rfl⟩
          | error failure =>
              rcases hreturns with hignore | hvalid
              · exact ⟨citation.updateIdentifiers id, by simp [hignore]⟩
              · exact absurd ⟨ident, value, hvalue, hkey, failure, hread⟩ hvalid
    · exact buildParam_returns_of_not_numeric (not_exists.mp hnumeric) citation

theorem buildParam_error {citation : ExtractedCitation} {exception : TemplateParseException}
    (hbuild : buildParam options citation param = .error exception) :
    ∃ cause, exception = .failedToParseIdent cause := by
  have hinvalid : ¬ (options.ignoreInvalidIdent = true ∨ ¬ param.InvalidIdent) := by
    rw [← buildParam_returns_iff citation]
    rintro ⟨next, hnext⟩
    rw [hnext] at hbuild
    cases hbuild
  rw [not_or, not_not, Bool.not_eq_true] at hinvalid
  obtain ⟨hignore, ident, value, hvalue, hkey, failure, hfailure⟩ := hinvalid
  rw [buildParam_numeric hvalue hkey, hfailure] at hbuild
  simp only [hignore, Bool.false_eq_true, ↓reduceIte, Except.error.injEq] at hbuild
  exact ⟨failure, hbuild.symm⟩

end Round

section Build

variable {options : ParserOptions} {entry : TemplateEntry}

/-- A citation is built unless an invalid identifier is an error. -/
theorem exists_buildCitation_iff (options : ParserOptions) (entry : TemplateEntry) :
    (∃ citation, buildCitation options entry = .ok citation) ↔
      options.ignoreInvalidIdent = true ∨ ∀ param ∈ entry.params, ¬ param.InvalidIdent := by
  have hround : ∀ (citation : ExtractedCitation) (param : ParameterEntry),
      (∃ next, buildParam options citation param = .ok next) ↔
        (options.ignoreInvalidIdent = true ∨ ¬ param.InvalidIdent) :=
    fun citation param => buildParam_returns_iff citation
  refine (foldlM_returns_iff hround).trans ?_
  by_cases hignore : options.ignoreInvalidIdent = true <;> simp [hignore]

theorem buildCitation_eq_ok_iff {citation : ExtractedCitation} :
    buildCitation options entry = .ok citation ↔
      (options.ignoreInvalidIdent = true ∨ ∀ param ∈ entry.params, ¬ param.InvalidIdent) ∧
        citation = entry.recorded := by
  rw [← exists_buildCitation_iff]
  constructor
  · intro hbuild
    exact ⟨⟨citation, hbuild⟩, buildCitation_recorded hbuild⟩
  · rintro ⟨⟨built, hbuild⟩, rfl⟩
    rw [hbuild, buildCitation_recorded hbuild]

theorem buildCitation_append_singleton {name : Text} {before : List ParameterEntry}
    {citation : ExtractedCitation}
    (hbuild : buildCitation options ⟨name, before⟩ = .ok citation) (param : ParameterEntry) :
    buildCitation options ⟨name, before ++ [param]⟩ = buildParam options citation param := by
  rw [buildCitation, foldlM_append_of_ok hbuild, foldlM_singleton]

end Build

section Ignored

variable {param : ParameterEntry}

/-- The parameter writes to the sub-message of the identifiers. -/
def ParameterEntry.IsIdentifier (param : ParameterEntry) : Prop :=
  param.value ≠ none ∧ ∃ key ∈ [ParamKey.doi, .isbn, .pmid, .pmc, .issn],
    param.normalisedKey = key.text

theorem ParameterEntry.isSome_identifiersWrite :
    param.identifiersWrite.isSome = true ↔ param.IsIdentifier := by
  cases hvalue : param.value <;>
    simp [identifiersWrite, valueFor, IsIdentifier, hvalue, or_assoc]

/-- What an invalid identifier writes: the sub-message, and nothing else. -/
theorem ParameterEntry.InvalidIdent.writes (hinvalid : param.InvalidIdent) :
    param.IsIdentifier ∧ param.titleWrite = none ∧ param.doiWrite = none ∧
      param.isbnWrite = none ∧ param.pmidWrite = none ∧ param.pmcidWrite = none ∧
      param.issnWrite = none ∧ param.urlWrite = [] := by
  obtain ⟨ident, value, hvalue, hkey, failure, hfailure⟩ := hinvalid
  cases ident with
  | pmid =>
      simp only [NumericIdent.key, NumericIdent.text] at hkey hfailure
      have hread : (strToIntIdent (trimCopy value)).toOption = none := by
        rw [strToIntIdent, hfailure]
        rfl
      simp [IsIdentifier, titleWrite, doiWrite, isbnWrite, pmidWrite, pmcidWrite,
        issnWrite, urlWrite, valueFor, hvalue, hkey, hread]
  | pmcid =>
      simp only [NumericIdent.key, NumericIdent.text] at hkey hfailure
      have hread : (parsePmcId (trimCopy value)).toOption = none := by
        rw [parsePmcId_eq, strToIntIdent, hfailure]
        rfl
      simp [IsIdentifier, titleWrite, doiWrite, isbnWrite, pmidWrite, pmcidWrite,
        issnWrite, urlWrite, valueFor, hvalue, hkey, hread]

theorem lastWrite_cons_of_none {β : Type} {write : ParameterEntry → Option β}
    (hnone : write param = none) (name : Text) (before after : List ParameterEntry) :
    TemplateEntry.lastWrite ⟨name, before ++ param :: after⟩ write =
      TemplateEntry.lastWrite ⟨name, before ++ after⟩ write := by
  simp [TemplateEntry.lastWrite, hnone]

theorem isSome_lastWrite_identifiersWrite (name : Text) (params : List ParameterEntry) :
    (TemplateEntry.lastWrite ⟨name, params⟩ ParameterEntry.identifiersWrite).isSome = true ↔
      ∃ param ∈ params, param.IsIdentifier := by
  simp only [TemplateEntry.lastWrite, List.getLast?_isSome, ne_eq,
    List.filterMap_eq_nil_iff, not_forall, ← ParameterEntry.isSome_identifiersWrite,
    ← Option.isSome_iff_ne_none, exists_prop]

/-- With `ignore_invalid_ident` an invalid identifier leaves the citation as it is
without it exactly when another parameter makes the sub-message appear. -/
theorem ignored_eq_deleted_iff {options : ParserOptions}
    (hignore : options.ignoreInvalidIdent = true) (hinvalid : param.InvalidIdent)
    (name : Text) (before after : List ParameterEntry) :
    buildCitation options ⟨name, before ++ param :: after⟩ =
        buildCitation options ⟨name, before ++ after⟩ ↔
      ∃ other ∈ before ++ after, other.IsIdentifier := by
  have hbuild : ∀ entry : TemplateEntry, buildCitation options entry = .ok entry.recorded :=
    fun entry => buildCitation_eq_ok_iff.mpr ⟨Or.inl hignore, rfl⟩
  obtain ⟨hidentifier, htitle, hdoi, hisbn, hpmid, hpmcid, hissn, hurl⟩ := hinvalid.writes
  have hwith : (TemplateEntry.lastWrite ⟨name, before ++ param :: after⟩
      ParameterEntry.identifiersWrite).isSome = true :=
    (isSome_lastWrite_identifiersWrite name _).mpr ⟨param, by simp, hidentifier⟩
  obtain ⟨⟨⟩, hwith⟩ := Option.isSome_iff_exists.mp hwith
  rw [hbuild, hbuild, Except.ok.injEq, ← isSome_lastWrite_identifiersWrite name]
  simp only [TemplateEntry.recorded, lastWrite_cons_of_none htitle,
    lastWrite_cons_of_none hdoi, lastWrite_cons_of_none hisbn, lastWrite_cons_of_none hpmid,
    lastWrite_cons_of_none hpmcid, lastWrite_cons_of_none hissn, hwith, List.flatMap_append,
    List.flatMap_cons, hurl, List.nil_append, ExtractedCitation.mk.injEq, true_and, and_true]
  cases TemplateEntry.lastWrite ⟨name, before ++ after⟩ ParameterEntry.identifiersWrite <;>
    simp

/-- An invalid PubMed id beside an ISBN. -/
theorem ignored_eq_deleted_isbn :
    buildCitation ⟨true⟩ ⟨"cite journal".toList, [] ++ ⟨"pmid".toList, some "abc123".toList⟩ ::
        [⟨"isbn".toList, some "1".toList⟩]⟩ =
      buildCitation ⟨true⟩ ⟨"cite journal".toList, [] ++ [⟨"isbn".toList, some "1".toList⟩]⟩ :=
  (ignored_eq_deleted_iff rfl
    ⟨.pmid, "abc123".toList, rfl, by decide, .invalidArgument, rfl⟩ _ [] _).mpr
      ⟨⟨"isbn".toList, some "1".toList⟩, by simp, by simp, .isbn, by decide, by decide⟩

/-- The sub-message of the identifiers is left behind, and it is empty. -/
theorem ignored_leaves_identifiers :
    buildCitation ⟨true⟩ ⟨"cite journal".toList, [⟨"pmid".toList, some "abc123".toList⟩]⟩ =
        .ok { identifiers? := some {} } ∧
      buildCitation ⟨true⟩ ⟨"cite journal".toList, []⟩ = .ok {} :=
  ⟨rfl, rfl⟩

end Ignored

section Stored

variable {α : Type} {options : ParserOptions} {param : ParameterEntry}

/-- Whatever parameters stand before it, the parameter sets a field of the
identifiers to the value. -/
def Records (options : ParserOptions) (field : Identifiers → Option α)
    (param : ParameterEntry) (value : α) : Prop :=
  ∀ name before citation, buildCitation options ⟨name, before⟩ = .ok citation →
    ∃ next, buildCitation options ⟨name, before ++ [param]⟩ = .ok next ∧
      field next.identifiers = some value

/-- The parameter is passed over, or it is an error. -/
def Rejects (options : ParserOptions) (field : Identifiers → Option α)
    (param : ParameterEntry) : Prop :=
  ∀ name before citation, buildCitation options ⟨name, before⟩ = .ok citation →
    if options.ignoreInvalidIdent then
      ∃ next, buildCitation options ⟨name, before ++ [param]⟩ = .ok next ∧
        field next.identifiers = field citation.identifiers
    else ∃ exception, buildCitation options ⟨name, before ++ [param]⟩ = .error exception

/-- A numeric identifier is stored as it stands in the text, or treated as
invalid; and every number that fits an `int` is stored. -/
structure StoredOrRejected (options : ParserOptions) (ident : NumericIdent)
    (param : ParameterEntry) (value : Text) : Prop where
  stored : ∀ number, Records options ident.field param number →
    Numeral (ident.text value) number.toNat
  rejected : (∃ number, Records options ident.field param number) ∨
    Rejects options ident.field param
  accepted : ∀ number < 2 ^ 31, Numeral (ident.text value) number →
    Records options ident.field param (.ofNat number)

variable {ident : NumericIdent} {value : Text}

theorem records_iff (hvalue : param.value = some value)
    (hkey : param.normalisedKey = ident.key.text) {number : UInt32} :
    Records options ident.field param number ↔
      ∃ read, stoi (ident.text value) = .ok read ∧ number = .ofInt read := by
  constructor
  · intro hrecords
    obtain ⟨next, hbuild, hfield⟩ := hrecords [] [] {} rfl
    rw [buildCitation_append_singleton rfl, buildParam_numeric hvalue hkey] at hbuild
    cases hread : stoi (ident.text value) with
    | ok read =>
        simp only [hread, Except.ok.injEq] at hbuild
        subst hbuild
        simp only [ExtractedCitation.identifiers_updateIdentifiers, NumericIdent.field_set,
          Option.some.injEq] at hfield
        exact ⟨read, rfl, hfield.symm⟩
    | error failure =>
        simp only [hread] at hbuild
        split at hbuild
        · simp only [Except.ok.injEq] at hbuild
          subst hbuild
          cases ident <;> cases hfield
        · cases hbuild
  · rintro ⟨read, hread, rfl⟩ name before citation hbuild
    refine ⟨citation.updateIdentifiers (ident.set (.ofInt read)), ?_, by simp⟩
    rw [buildCitation_append_singleton hbuild, buildParam_numeric hvalue hkey, hread]

theorem rejects_of_stoi_error (hvalue : param.value = some value)
    (hkey : param.normalisedKey = ident.key.text) {failure : ConversionError}
    (hread : stoi (ident.text value) = .error failure) :
    Rejects options ident.field param := by
  intro name before citation hbuild
  rw [buildCitation_append_singleton hbuild, buildParam_numeric hvalue hkey, hread]
  split
  · exact ⟨_, rfl, by simp⟩
  · exact ⟨_, rfl⟩

/-- Numeric identifiers are stored unchanged or rejected exactly when a value that
begins with an `int` has nothing but digits. -/
theorem storedOrRejected_iff (options : ParserOptions) (hvalue : param.value = some value)
    (hkey : param.normalisedKey = ident.key.text) :
    StoredOrRejected options ident param value ↔
      ∀ read, LeadingInteger (ident.text value) read →
        -2 ^ 31 ≤ read → read ≤ 2 ^ 31 - 1 → ∀ c ∈ ident.text value, c.isDigit = true := by
  constructor
  · intro hstored read hleading hlow hhigh
    have hread := stoi_eq_ok_iff.mpr ⟨hleading, hlow, hhigh⟩
    exact (hstored.stored _ ((records_iff hvalue hkey).mpr ⟨read, hread, rfl⟩)).digits
  · intro hdigits
    refine ⟨?_, ?_, ?_⟩
    · intro number hrecords
      obtain ⟨read, hread, rfl⟩ := (records_iff hvalue hkey).mp hrecords
      obtain ⟨hleading, hlow, hhigh⟩ := stoi_eq_ok_iff.mp hread
      obtain ⟨read, rfl, hnumeral⟩ :=
        hleading.numeral (hdigits read hleading hlow hhigh)
      have hnumber : (UInt32.ofInt read).toNat = read := by
        rw [toNat_ofInt]
        omega
      rwa [hnumber]
    · cases hread : stoi (ident.text value) with
      | ok read => exact Or.inl ⟨_, (records_iff hvalue hkey).mpr ⟨read, hread, rfl⟩⟩
      | error failure => exact Or.inr (rejects_of_stoi_error hvalue hkey hread)
    · intro number hnumber hnumeral
      have hread := stoi_eq_ok_iff.mpr ⟨hnumeral.leading, by omega, by omega⟩
      refine (records_iff hvalue hkey).mpr ⟨number, hread, ?_⟩
      apply UInt32.toNat_inj.mp
      rw [toNat_ofInt, UInt32.toNat_ofNat']
      omega

theorem storedOrRejected_seven :
    StoredOrRejected {} .pmcid ⟨"PMC".toList, some " PMC7 ".toList⟩ " PMC7 ".toList := by
  have htext : NumericIdent.pmcid.text " PMC7 ".toList = "7".toList := by decide
  refine (storedOrRejected_iff {} rfl (by decide)).mpr fun read _ _ _ => ?_
  rw [htext]
  exact List.forall_mem_singleton.mpr (by decide)

/-- The digits in front of a letter are stored. -/
theorem not_storedOrRejected_letter :
    ¬ StoredOrRejected {} .pmid ⟨"pmid".toList, some "12x".toList⟩ "12x".toList := by
  intro hstored
  have hrecords : Records {} NumericIdent.pmid.field ⟨"pmid".toList, some "12x".toList⟩ 12 :=
    (records_iff rfl (by decide)).mpr ⟨12, by decide, by decide⟩
  exact absurd ((hstored.stored 12 hrecords).digits 'x' (by decide)) (by decide)

end Stored

end Citescoop
