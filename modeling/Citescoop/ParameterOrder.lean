/-
The order of the parameters of a template.  It matters only among those that
write the same field; the parameters that write none make no difference at all.
-/
import Citescoop.NumericIdentifiers

namespace Citescoop

open ExceptFold

/-- What a parameter writes; both kinds of URL go to one list. -/
inductive CitationField where
  | title
  | doi
  | isbn
  | pmid
  | pmc
  | issn
  | urls
deriving Repr, DecidableEq

def ParamKey.citationField : ParamKey → CitationField
  | title => .title
  | doi => .doi
  | isbn => .isbn
  | pmid => .pmid
  | pmc => .pmc
  | issn => .issn
  | url => .urls
  | archiveUrl => .urls

/-- All recognised keys. -/
def paramKeys : List ParamKey :=
  [.title, .doi, .isbn, .pmid, .pmc, .issn, .url, .archiveUrl]

namespace ParameterEntry

variable {param : ParameterEntry}

/-- The parameter has a value, and its key is one of the field's. -/
def writes (field : CitationField) (param : ParameterEntry) : Bool :=
  param.value.isSome &&
    paramKeys.any fun key => param.normalisedKey == key.text && key.citationField == field

/-- A parameter without a value, or whose key is not recognised. -/
def Unused (param : ParameterEntry) : Prop :=
  param.value = none ∨ ∀ key : ParamKey, param.normalisedKey ≠ key.text

theorem mem_paramKeys (key : ParamKey) : key ∈ paramKeys := by
  cases key <;> decide

theorem valueFor_eq_none {key : ParamKey}
    (hwrites : param.writes key.citationField = false) : param.valueFor key = none := by
  unfold valueFor
  split
  · next hkey =>
      cases hvalue : param.value with
      | none => rfl
      | some value =>
          simp only [writes, hvalue, Option.isSome_some, Bool.true_and, List.any_eq_false,
            Bool.and_eq_true, beq_iff_eq, not_and] at hwrites
          exact absurd rfl (hwrites key (mem_paramKeys key) hkey)
  · rfl

theorem Unused.buildParam_eq (hunused : param.Unused) (options : ParserOptions)
    (citation : ExtractedCitation) : buildParam options citation param = .ok citation := by
  unfold buildParam
  split
  · rfl
  · next value hvalue =>
      rcases hunused with hnone | hkeys
      · rw [hnone] at hvalue
        cases hvalue
      · simp [checkForIdentKey, checkForUrlKey, hkeys, Except.map]

end ParameterEntry

section Permutation

variable {params params' : List ParameterEntry}

/-- The same parameters, and those that write one field in the same order. -/
structure SameOrderWithin (params params' : List ParameterEntry) : Prop where
  perm : params.Perm params'
  within : ∀ field, params.filter (ParameterEntry.writes field) =
    params'.filter (ParameterEntry.writes field)

/-- What is written from the parameters of one field only. -/
theorem SameOrderWithin.flatMap_eq {β : Type} (hsame : SameOrderWithin params params')
    (field : CitationField) {write : ParameterEntry → List β}
    (hwrite : ∀ param, ParameterEntry.writes field param = false → write param = []) :
    params.flatMap write = params'.flatMap write := by
  have hfilter : ∀ params : List ParameterEntry,
      params.flatMap write =
        (params.filter (ParameterEntry.writes field)).flatMap write := by
    intro params
    induction params with
    | nil => rfl
    | cons param params ih =>
        rw [List.flatMap_cons, List.filter_cons, ih]
        split
        · rw [List.flatMap_cons]
        · next hwrites => rw [hwrite param (by simpa using hwrites), List.nil_append]
  rw [hfilter, hsame.within field, ← hfilter]

theorem SameOrderWithin.lastWrite_eq {β : Type} (hsame : SameOrderWithin params params')
    (name : Text) (key : ParamKey) (write : ParameterEntry → Option β)
    (hwrite : ∀ param : ParameterEntry, param.valueFor key = none → write param = none) :
    TemplateEntry.lastWrite ⟨name, params⟩ write =
      TemplateEntry.lastWrite ⟨name, params'⟩ write := by
  have hwritten := hsame.flatMap_eq key.citationField
    fun param hwrites => congrArg Option.toList
      (hwrite param (ParameterEntry.valueFor_eq_none hwrites))
  simp only [TemplateEntry.lastWrite, List.filterMap_eq_flatMap_toList, hwritten]

/-- The sub-message of the identifiers appears wherever in the list an identifier is. -/
theorem SameOrderWithin.lastWrite_identifiersWrite (hsame : SameOrderWithin params params')
    (name : Text) :
    TemplateEntry.lastWrite ⟨name, params⟩ ParameterEntry.identifiersWrite =
      TemplateEntry.lastWrite ⟨name, params'⟩ ParameterEntry.identifiersWrite := by
  apply Option.ext
  rintro ⟨⟩
  have hpresent := isSome_lastWrite_identifiersWrite name params
  simp only [hsame.perm.mem_iff, ← isSome_lastWrite_identifiersWrite name params',
    Option.isSome_iff_exists, Unique.exists_iff] at hpresent
  exact hpresent

theorem SameOrderWithin.recorded_eq (hsame : SameOrderWithin params params') (name : Text) :
    TemplateEntry.recorded ⟨name, params⟩ = TemplateEntry.recorded ⟨name, params'⟩ := by
  have htitle := hsame.lastWrite_eq name .title ParameterEntry.titleWrite fun _ hnone => hnone
  have hdoi := hsame.lastWrite_eq name .doi ParameterEntry.doiWrite
    fun _ hnone => by simp [ParameterEntry.doiWrite, hnone]
  have hisbn := hsame.lastWrite_eq name .isbn ParameterEntry.isbnWrite fun _ hnone => hnone
  have hpmid := hsame.lastWrite_eq name .pmid ParameterEntry.pmidWrite
    fun _ hnone => by simp [ParameterEntry.pmidWrite, hnone]
  have hpmcid := hsame.lastWrite_eq name .pmc ParameterEntry.pmcidWrite
    fun _ hnone => by simp [ParameterEntry.pmcidWrite, hnone]
  have hissn := hsame.lastWrite_eq name .issn ParameterEntry.issnWrite fun _ hnone => hnone
  have hurls : params.flatMap ParameterEntry.urlWrite =
      params'.flatMap ParameterEntry.urlWrite := by
    apply hsame.flatMap_eq .urls
    intro param hwrites
    have hurl : param.valueFor .url = none := ParameterEntry.valueFor_eq_none hwrites
    have harchive : param.valueFor .archiveUrl = none :=
      ParameterEntry.valueFor_eq_none hwrites
    simp [ParameterEntry.urlWrite, hurl, harchive]
  simp only [TemplateEntry.recorded, htitle, hdoi, hisbn, hpmid, hpmcid, hissn, hurls,
    hsame.lastWrite_identifiersWrite name]

/-- The same citation, or an exception in both cases. -/
def SameResult (result result' : Except TemplateParseException ExtractedCitation) : Prop :=
  (∃ citation, result = .ok citation ∧ result' = .ok citation) ∨
    ∃ exception exception', result = .error exception ∧ result' = .error exception'

/-- Parameters may change places unless they write the same field, and those that write
none may come and go. -/
theorem buildCitation_order (options : ParserOptions) (name : Text)
    (hsame : SameOrderWithin params params') :
    SameResult (buildCitation options ⟨name, params⟩)
        (buildCitation options ⟨name, params'⟩) ∧
      ∀ before after (param : ParameterEntry), param.Unused →
        buildCitation options ⟨name, before ++ param :: after⟩ =
          buildCitation options ⟨name, before ++ after⟩ := by
  constructor
  · have hboth : (∃ citation, buildCitation options ⟨name, params⟩ = .ok citation) ↔
        ∃ citation, buildCitation options ⟨name, params'⟩ = .ok citation := by
      simp only [exists_buildCitation_iff, hsame.perm.mem_iff]
    by_cases hreturns : ∃ citation, buildCitation options ⟨name, params⟩ = .ok citation
    · obtain ⟨citation, hbuild⟩ := hreturns
      obtain ⟨citation', hbuild'⟩ := hboth.mp ⟨citation, hbuild⟩
      have hequal : citation = citation' := by
        rw [buildCitation_recorded hbuild, buildCitation_recorded hbuild',
          hsame.recorded_eq name]
      exact Or.inl ⟨citation, hbuild, hequal ▸ hbuild'⟩
    · obtain ⟨exception, hthrow⟩ := exists_error_iff.mpr hreturns
      obtain ⟨exception', hthrow'⟩ := exists_error_iff.mpr (hboth.not.mp hreturns)
      exact Or.inr ⟨exception, exception', hthrow, hthrow'⟩
  · intro before after param hunused
    simp only [buildCitation, List.foldlM_append]
    cases hbefore : before.foldlM (buildParam options) {} with
    | error exception => rfl
    | ok citation =>
        simp only [bind, Except.bind]
        exact foldlM_cons_of_ok (hunused.buildParam_eq options citation) after

/-- A DOI that moves behind a title and two URLs that keep their order. -/
theorem buildCitation_order_doi :
    SameResult
        (buildCitation {} ⟨"cite web".toList, [⟨"doi".toList, some "1".toList⟩,
          ⟨"url".toList, some "u".toList⟩, ⟨"title".toList, some "T".toList⟩,
          ⟨"archive-url".toList, some "a".toList⟩]⟩)
        (buildCitation {} ⟨"cite web".toList, [⟨"url".toList, some "u".toList⟩,
          ⟨"title".toList, some "T".toList⟩, ⟨"archive-url".toList, some "a".toList⟩,
          ⟨"doi".toList, some "1".toList⟩]⟩) ∧
      ∀ before after (param : ParameterEntry), param.Unused →
        buildCitation {} ⟨"cite web".toList, before ++ param :: after⟩ =
          buildCitation {} ⟨"cite web".toList, before ++ after⟩ :=
  buildCitation_order {} "cite web".toList
    ⟨by decide, fun field => by cases field <;> decide⟩

end Permutation

end Citescoop
