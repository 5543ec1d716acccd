/-
What `BuildCitation` records.  Every parameter writes at most one field, so a
citation is given by the writes of its parameters: the last one for a singular
field, all of them in order for the URLs.
-/
import Citescoop.ExceptFold
import Citescoop.ParserImpl
import Citescoop.Delimiters

namespace Citescoop

open ExceptFold

namespace ParameterEntry

variable (param : ParameterEntry)

/-- The trimmed value, if the parameter has one and is written under `key`. -/
def valueFor (key : ParamKey) : Option Text :=
  if param.normalisedKey = key.text then param.value.map trimCopy else none

def titleWrite : Option Text := param.valueFor .title

def doiWrite : Option Text := (param.valueFor .doi).map parseDoi

def isbnWrite : Option Text := param.valueFor .isbn

def issnWrite : Option Text := param.valueFor .issn

/-- Only a value that can be converted is recorded. -/
def pmidWrite : Option UInt32 :=
  (param.valueFor .pmid).bind fun value =>
    (strToIntIdent value).toOption.map UInt32.ofInt

def pmcidWrite : Option UInt32 :=
  (param.valueFor .pmc).bind fun value =>
    (parsePmcId value).toOption.map UInt32.ofInt

/-- Whether the parameter makes the identifier message appear, with or without
a field in it. -/
def identifiersWrite : Option Unit :=
  (((((param.valueFor .doi).or (param.valueFor .isbn)).or
    (param.valueFor .pmid)).or (param.valueFor .pmc)).or
      (param.valueFor .issn)).map fun _ => ()

def urlWrite : List Url :=
  ((param.valueFor .url).map (Url.mk .default)).toList ++
    ((param.valueFor .archiveUrl).map (Url.mk .archive)).toList

end ParameterEntry

/-- The effect of one parameter on every field. -/
structure ParamWrites (param : ParameterEntry)
    (before after : ExtractedCitation) : Prop where
  title : after.title? = param.titleWrite.or before.title?
  identifiers : after.identifiers?.map (fun _ => ()) =
    param.identifiersWrite.or (before.identifiers?.map fun _ => ())
  doi : after.identifiers.doi? = param.doiWrite.or before.identifiers.doi?
  isbn : after.identifiers.isbn? = param.isbnWrite.or before.identifiers.isbn?
  pmid : after.identifiers.pmid? = param.pmidWrite.or before.identifiers.pmid?
  pmcid : after.identifiers.pmcid? = param.pmcidWrite.or before.identifiers.pmcid?
  issn : after.identifiers.issn? = param.issnWrite.or before.identifiers.issn?
  urls : after.urls = before.urls ++ param.urlWrite

section

open ParameterEntry

variable {options : ParserOptions} {citation next : ExtractedCitation}
  {param : ParameterEntry}

/-- A numeric identifier that cannot be converted only leaves the sub-message
behind. -/
theorem handleNumericKey_ok
    {convert : Text → Except TemplateParseException Int}
    {set : UInt32 → Identifiers → Identifiers} {value : Text} {found : Bool}
    (hhandle : handleNumericKey options convert set citation value =
      .ok (found, next)) :
    next = citation.updateIdentifiers
      (((convert (trimCopy value)).toOption.map UInt32.ofInt).elim id set) := by
  unfold handleNumericKey at hhandle
  cases hconvert : convert (trimCopy value) with
  | ok number =>
      simp only [hconvert, Except.ok.injEq, Prod.mk.injEq] at hhandle
      exact hhandle.2.symm
  | error exception =>
      simp only [hconvert] at hhandle
      split at hhandle
      · simp only [Except.ok.injEq, Prod.mk.injEq] at hhandle
        exact hhandle.2.symm
      · cases hhandle

/-- A key that writes no identifier is left to the URLs. -/
theorem checkForUrlKey_writes {value : Text} (hvalue : param.value = some value)
    (htitle : param.normalisedKey ≠ ParamKey.title.text)
    (hdoi : param.normalisedKey ≠ ParamKey.doi.text)
    (hisbn : param.normalisedKey ≠ ParamKey.isbn.text)
    (hpmid : param.normalisedKey ≠ ParamKey.pmid.text)
    (hpmc : param.normalisedKey ≠ ParamKey.pmc.text)
    (hissn : param.normalisedKey ≠ ParamKey.issn.text) :
    ParamWrites param citation
      (checkForUrlKey citation param.normalisedKey value).2 := by
  unfold checkForUrlKey
  by_cases hurl : param.normalisedKey = ParamKey.url.text
  · constructor <;>
      simp [titleWrite, identifiersWrite, doiWrite, isbnWrite, issnWrite,
        pmidWrite, pmcidWrite, urlWrite, valueFor, hurl, hvalue, ExtractedCitation.identifiers]
  by_cases harchive : param.normalisedKey = ParamKey.archiveUrl.text
  · constructor <;>
      simp [titleWrite, identifiersWrite, doiWrite, isbnWrite, issnWrite,
        pmidWrite, pmcidWrite, urlWrite, valueFor, harchive, hvalue, ExtractedCitation.identifiers]
  · constructor <;>
      simp [titleWrite, identifiersWrite, doiWrite, isbnWrite, issnWrite,
        pmidWrite, pmcidWrite, urlWrite, valueFor, hurl, harchive, htitle, hdoi, hisbn, hpmid, hpmc,
        hissn]

theorem buildParam_writes
    (hbuild : buildParam options citation param = .ok next) :
    ParamWrites param citation next := by
  unfold buildParam at hbuild
  cases hvalue : param.value with
  | none =>
      simp only [hvalue, Except.ok.injEq] at hbuild
      subst hbuild
      constructor <;>
        simp [titleWrite, identifiersWrite, doiWrite, isbnWrite, issnWrite,
          pmidWrite, pmcidWrite, urlWrite, valueFor, hvalue]
  | some value =>
      simp only [hvalue] at hbuild
      by_cases htitle : param.normalisedKey = ParamKey.title.text
      · rw [if_pos htitle, Except.ok.injEq] at hbuild
        subst hbuild
        constructor <;>
          simp [titleWrite, identifiersWrite, doiWrite, isbnWrite, issnWrite,
            pmidWrite, pmcidWrite, urlWrite, valueFor, htitle, hvalue,
            ExtractedCitation.identifiers]
      rw [if_neg htitle, checkForIdentKey] at hbuild
      by_cases hdoi : param.normalisedKey = ParamKey.doi.text
      · rw [if_pos hdoi] at hbuild
        simp only [Except.map, ↓reduceIte, Except.ok.injEq] at hbuild
        subst hbuild
        constructor <;>
          simp [titleWrite, identifiersWrite, doiWrite, isbnWrite, issnWrite,
            pmidWrite, pmcidWrite, urlWrite, valueFor, hdoi, hvalue]
      rw [if_neg hdoi] at hbuild
      by_cases hisbn : param.normalisedKey = ParamKey.isbn.text
      · rw [if_pos hisbn] at hbuild
        simp only [Except.map, ↓reduceIte, Except.ok.injEq] at hbuild
        subst hbuild
        constructor <;>
          simp [titleWrite, identifiersWrite, doiWrite, isbnWrite, issnWrite,
            pmidWrite, pmcidWrite, urlWrite, valueFor, hisbn, hvalue]
      rw [if_neg hisbn] at hbuild
      by_cases hpmid : param.normalisedKey = ParamKey.pmid.text
      · rw [if_pos hpmid] at hbuild
        cases hhandle : handlePmIdKey options citation value with
        | error exception => simp [hhandle, Except.map] at hbuild
        | ok result =>
            simp only [hhandle, Except.map, ↓reduceIte, Except.ok.injEq] at hbuild
            subst hbuild
            rw [handleNumericKey_ok hhandle]
            cases hconvert : (strToIntIdent (trimCopy value)).toOption <;>
              constructor <;>
              simp [titleWrite, identifiersWrite, doiWrite, isbnWrite, issnWrite,
                pmidWrite, pmcidWrite, urlWrite, valueFor, hpmid, hvalue, hconvert]
      rw [if_neg hpmid] at hbuild
      by_cases hpmc : param.normalisedKey = ParamKey.pmc.text
      · rw [if_pos hpmc] at hbuild
        cases hhandle : handlePmcIdKey options citation value with
        | error exception => simp [hhandle, Except.map] at hbuild
        | ok result =>
            simp only [hhandle, Except.map, ↓reduceIte, Except.ok.injEq] at hbuild
            subst hbuild
            rw [handleNumericKey_ok hhandle]
            cases hconvert : (parsePmcId (trimCopy value)).toOption <;>
              constructor <;>
              simp [titleWrite, identifiersWrite, doiWrite, isbnWrite, issnWrite,
                pmidWrite, pmcidWrite, urlWrite, valueFor, hpmc, hvalue, hconvert]
      rw [if_neg hpmc] at hbuild
      by_cases hissn : param.normalisedKey = ParamKey.issn.text
      · rw [if_pos hissn] at hbuild
        simp only [Except.map, ↓reduceIte, Except.ok.injEq] at hbuild
        subst hbuild
        constructor <;>
          simp [titleWrite, identifiersWrite, doiWrite, isbnWrite, issnWrite,
            pmidWrite, pmcidWrite, urlWrite, valueFor, hissn, hvalue]
      rw [if_neg hissn] at hbuild
      simp only [Except.map, Bool.false_eq_true, ↓reduceIte, Except.ok.injEq]
        at hbuild
      subst hbuild
      exact checkForUrlKey_writes hvalue htitle hdoi hisbn hpmid hpmc hissn

end

section

variable (entry : TemplateEntry)

/-- The last value that a parameter writes, if there is one. -/
def TemplateEntry.lastWrite {β : Type} (write : ParameterEntry → Option β) :
    Option β :=
  (entry.params.filterMap write).getLast?

/-- What a template records: the last title, the last of each identifier and
every URL in order. -/
def TemplateEntry.recorded : ExtractedCitation where
  title? := entry.lastWrite ParameterEntry.titleWrite
  identifiers? := (entry.lastWrite ParameterEntry.identifiersWrite).map fun _ =>
    { doi? := entry.lastWrite ParameterEntry.doiWrite
      isbn? := entry.lastWrite ParameterEntry.isbnWrite
      pmid? := entry.lastWrite ParameterEntry.pmidWrite
      pmcid? := entry.lastWrite ParameterEntry.pmcidWrite
      issn? := entry.lastWrite ParameterEntry.issnWrite }
  urls := entry.params.flatMap ParameterEntry.urlWrite

/-- The title under which a template's citation is filed. -/
def TemplateEntry.title : Text :=
  entry.recorded.title

end

/-- A field that every parameter overwrites or leaves holds the last write. -/
theorem buildCitation_lastWrite {options : ParserOptions}
    {entry : TemplateEntry} {citation : ExtractedCitation} {β : Type}
    (component : ExtractedCitation → Option β) {write : ParameterEntry → Option β}
    (hstart : component {} = none)
    (hwrites : ∀ param before after, ParamWrites param before after →
      component after = (write param).or (component before))
    (hbuild : buildCitation options entry = .ok citation) :
    component citation = entry.lastWrite write := by
  have hlast := foldlM_last_write (buildParam options) component write
    (fun before param after h => hwrites param before after (buildParam_writes h))
    hbuild
  rwa [hstart, Option.or_none] at hlast

/-- `BuildCitation` makes the citation that the template records. -/
theorem buildCitation_recorded {options : ParserOptions} {entry : TemplateEntry}
    {citation : ExtractedCitation}
    (hbuild : buildCitation options entry = .ok citation) :
    citation = entry.recorded := by
  have htitle := buildCitation_lastWrite ExtractedCitation.title?
    rfl (fun _ _ _ h => h.title) hbuild
  have hidentifiers := buildCitation_lastWrite
    (fun c => c.identifiers?.map fun _ => ())
    rfl (fun _ _ _ h => h.identifiers) hbuild
  have hdoi := buildCitation_lastWrite (fun c => c.identifiers.doi?)
    rfl (fun _ _ _ h => h.doi) hbuild
  have hisbn := buildCitation_lastWrite (fun c => c.identifiers.isbn?)
    rfl (fun _ _ _ h => h.isbn) hbuild
  have hpmid := buildCitation_lastWrite (fun c => c.identifiers.pmid?)
    rfl (fun _ _ _ h => h.pmid) hbuild
  have hpmcid := buildCitation_lastWrite
    (fun c => c.identifiers.pmcid?)
    rfl (fun _ _ _ h => h.pmcid) hbuild
  have hissn := buildCitation_lastWrite (fun c => c.identifiers.issn?)
    rfl (fun _ _ _ h => h.issn) hbuild
  have hurls := foldlM_log (buildParam options) ExtractedCitation.urls
    ParameterEntry.urlWrite
    (fun _ _ _ h => (buildParam_writes h).urls) hbuild
  obtain ⟨title?, identifiers?, urls⟩ := citation
  simp only [TemplateEntry.recorded, ← htitle, ← hidentifiers, ← hdoi, ← hisbn,
    ← hpmid, ← hpmcid, ← hissn, Option.map_map, ExtractedCitation.mk.injEq,
    true_and]
  refine ⟨?_, hurls⟩
  cases identifiers? <;> rfl

theorem handleNumericKey_returns {options : ParserOptions}
    (hignore : options.ignoreInvalidIdent = true)
    (convert : Text → Except TemplateParseException Int)
    (set : UInt32 → Identifiers → Identifiers)
    (citation : ExtractedCitation) (value : Text) :
    ∃ result, handleNumericKey options convert set citation value = .ok result := by
  unfold handleNumericKey
  cases convert (trimCopy value) with
  | ok number => exact ⟨_, rfl⟩
  | error exception => exact ⟨_, by rw [hignore]; rfl⟩

theorem checkForIdentKey_returns {options : ParserOptions}
    (hignore : options.ignoreInvalidIdent = true)
    (citation : ExtractedCitation) (key value : Text) :
    ∃ result, checkForIdentKey options citation key value = .ok result := by
  obtain ⟨pmid, hpmid⟩ := handleNumericKey_returns hignore strToIntIdent
    (fun number identifiers => { identifiers with pmid? := some number })
    citation value
  obtain ⟨pmc, hpmc⟩ := handleNumericKey_returns hignore parsePmcId
    (fun number identifiers => { identifiers with pmcid? := some number })
    citation value
  simp only [checkForIdentKey, handlePmIdKey, handlePmcIdKey, hpmid, hpmc,
    Except.map]
  split_ifs <;> exact ⟨_, rfl⟩

/-- With `ignore_invalid_ident` a template always makes a citation. -/
theorem buildCitation_returns {options : ParserOptions}
    (hignore : options.ignoreInvalidIdent = true) (entry : TemplateEntry) :
    ∃ citation, buildCitation options entry = .ok citation := by
  obtain ⟨citation, hbuild, -⟩ := foldlM_returns (buildParam options)
    (fun _ : ExtractedCitation => True) entry.params {}
    (fun citation param _ _ => by
      unfold buildParam
      cases param.value with
      | none => exact ⟨_, rfl, trivial⟩
      | some value =>
          obtain ⟨result, hresult⟩ := checkForIdentKey_returns hignore citation
            param.normalisedKey value
          simp only [hresult, Except.map]
          split_ifs <;> exact ⟨_, rfl, trivial⟩) trivial
  exact ⟨citation, hbuild⟩

@[simp] theorem ParameterEntry.normalisedKey_trim (param : ParameterEntry) :
    param.trim.normalisedKey = param.normalisedKey := by
  simp [normalisedKey, trim]

/-- Two ways to write a parameter that say the same. -/
structure ParameterEntry.Same (param param' : ParameterEntry) : Prop where
  key : param.normalisedKey = param'.normalisedKey
  value : param.value.map trimCopy = param'.value.map trimCopy

theorem ParameterEntry.Same.trim (param : ParameterEntry) :
    Same param.trim param where
  key := param.normalisedKey_trim
  value := by cases hvalue : param.value <;> simp [ParameterEntry.trim, hvalue]

theorem ParameterEntry.Same.valueFor {param param' : ParameterEntry}
    (hsame : Same param param') (key : ParamKey) :
    param.valueFor key = param'.valueFor key := by
  rw [ParameterEntry.valueFor, ParameterEntry.valueFor, hsame.key, hsame.value]

/-- A template records what its parameters say, not how they are written. -/
theorem TemplateEntry.recorded_map {α : Type} {write write' : α → ParameterEntry}
    (hsame : ∀ item, ParameterEntry.Same (write item) (write' item))
    (name name' : Text) (items : List α) :
    recorded ⟨name, items.map write⟩ = recorded ⟨name', items.map write'⟩ := by
  simp only [recorded, lastWrite, List.filterMap_map, List.flatMap_map,
    Function.comp_def, ParameterEntry.titleWrite, ParameterEntry.identifiersWrite,
    ParameterEntry.doiWrite, ParameterEntry.isbnWrite, ParameterEntry.pmidWrite,
    ParameterEntry.pmcidWrite, ParameterEntry.issnWrite, ParameterEntry.urlWrite,
    fun item key => (hsame item).valueFor key]

theorem checkForIdentKey_trim (options : ParserOptions)
    (citation : ExtractedCitation) (key value : Text) :
    checkForIdentKey options citation key (trimCopy value) =
      checkForIdentKey options citation key value := by
  simp only [checkForIdentKey, handlePmIdKey, handlePmcIdKey, handleNumericKey,
    trimCopy_trimCopy]

/-- Blanks around keys and values make no difference to the citation. -/
theorem buildParam_trim (options : ParserOptions) (citation : ExtractedCitation)
    (param : ParameterEntry) :
    buildParam options citation param.trim = buildParam options citation param := by
  simp only [buildParam, ParameterEntry.normalisedKey_trim]
  cases hvalue : param.value with
  | none => simp [ParameterEntry.trim, hvalue]
  | some value =>
      simp only [ParameterEntry.trim, hvalue, Option.map_some, trimCopy_trimCopy,
        checkForIdentKey_trim, checkForUrlKey]

theorem buildCitation_trim (options : ParserOptions) (entry : TemplateEntry) :
    buildCitation options entry.trim = buildCitation options entry := by
  simp only [buildCitation, TemplateEntry.trim, List.foldlM_map, buildParam_trim]

@[simp] theorem TemplateEntry.recorded_trim (entry : TemplateEntry) :
    entry.trim.recorded = entry.recorded := by
  obtain ⟨name, params⟩ := entry
  have hsame : recorded ⟨trimCopy name, params.map ParameterEntry.trim⟩ =
      recorded ⟨name, params.map id⟩ :=
    recorded_map ParameterEntry.Same.trim _ _ params
  rwa [List.map_id] at hsame

@[simp] theorem TemplateEntry.title_trim (entry : TemplateEntry) :
    entry.trim.title = entry.title := by
  rw [title, recorded_trim, title]

@[simp] theorem accepts_trim (impl : ParserImpl) (entry : TemplateEntry) :
    impl.accepts entry.trim = impl.accepts entry := by
  simp [ParserImpl.accepts, TemplateEntry.normalisedName, TemplateEntry.trim]

end Citescoop
