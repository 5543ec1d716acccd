/-
The map that `Parse` returns: under each title the citation of the first
accepted template with that title, and nothing else.
-/
import Citescoop.CitationFields
import Citescoop.MapEntries
import Citescoop.WikitextScan

namespace Citescoop

open ExceptFold

namespace ParserImpl

variable (impl : ParserImpl)

/-- The grammar's result list. -/
def templates (text : Text) : List TemplateEntry :=
  match prefixParse wikitextRule text with
  | some (results, _) => results
  | none => []

/-- The citation that a template contributes under a title, if it does. -/
def citationFor (title : Text) (entry : TemplateEntry) :
    Option ExtractedCitation :=
  if impl.accepts entry && entry.title == title then some entry.recorded else none

theorem templates_trim (text : Text) :
    (templates text).map TemplateEntry.trim =
      (readTemplates text).1.map TemplateEntry.trim := by
  obtain ⟨entries, hparse, htrim⟩ := prefixParse_wikitextRule text
  rw [templates, hparse]
  exact htrim

/-- The grammar succeeds on every text. -/
theorem parse_eq (text : Text) :
    impl.parse text = (templates text).foldlM impl.addResult {} := by
  obtain ⟨entries, hparse, -⟩ := prefixParse_wikitextRule text
  simp only [parse, templates, hparse]

theorem addResult_trim (citations : RevisionCitations) (entry : TemplateEntry) :
    impl.addResult citations entry.trim = impl.addResult citations entry := by
  simp only [addResult, accepts_trim, buildCitation_trim]

/-- `Parse` may as well work on the templates cut out by the delimiters. -/
theorem parse_eq_scan (text : Text) :
    impl.parse text = (readTemplates text).1.foldlM impl.addResult {} := by
  have hfold : ∀ entries : List TemplateEntry,
      entries.foldlM impl.addResult {} =
        (entries.map TemplateEntry.trim).foldlM impl.addResult {} := by
    intro entries
    simp only [List.foldlM_map, addResult_trim]
  rw [parse_eq, hfold, templates_trim, ← hfold]

variable {impl}

theorem citationFor_eq_some {title : Text} {entry : TemplateEntry}
    {citation : ExtractedCitation} :
    impl.citationFor title entry = some citation ↔
      impl.accepts entry = true ∧ entry.title = title ∧
        entry.recorded = citation := by
  simp [citationFor, and_assoc]

/-- The first contribution is that of the first accepted template with the
title. -/
theorem findSome?_citationFor (title : Text) (entries : List TemplateEntry) :
    entries.findSome? (impl.citationFor title) =
      (entries.find? fun entry =>
        impl.accepts entry && entry.title == title).map TemplateEntry.recorded := by
  induction entries with
  | nil => rfl
  | cons entry entries ih =>
      by_cases hentry : (impl.accepts entry && entry.title == title) = true
      · simp [citationFor, hentry]
      · simp only [List.findSome?_cons, List.find?_cons, citationFor, hentry,
          ← ih]
        rfl

/-- One round files the citation unless its title is taken. -/
theorem addResult_ok {citations next : RevisionCitations} {entry : TemplateEntry}
    (haccepts : impl.accepts entry = true)
    (hadd : impl.addResult citations entry = .ok next) :
    buildCitation impl.options entry = .ok entry.recorded ∧
      next = { citations with
        citations :=
          citations.citations.insertIfNew entry.title entry.recorded } := by
  rw [addResult, if_pos haccepts] at hadd
  cases hbuild : buildCitation impl.options entry with
  | error exception => simp [hbuild, Except.map] at hadd
  | ok citation =>
      have hcitation := buildCitation_recorded hbuild
      subst hcitation
      simp only [hbuild, Except.map, Except.ok.injEq] at hadd
      exact ⟨rfl, hadd.symm⟩

theorem addResult_of_not_accepts {citations next : RevisionCitations}
    {entry : TemplateEntry} (haccepts : ¬ impl.accepts entry = true)
    (hadd : impl.addResult citations entry = .ok next) : next = citations := by
  rw [addResult, if_neg haccepts, Except.ok.injEq] at hadd
  exact hadd.symm

theorem addResult_getElem? {citations next : RevisionCitations}
    {entry : TemplateEntry} (title : Text)
    (hadd : impl.addResult citations entry = .ok next) :
    next.citations[title]? =
      citations.citations[title]?.or (impl.citationFor title entry) := by
  by_cases haccepts : impl.accepts entry = true
  · obtain ⟨-, rfl⟩ := addResult_ok haccepts hadd
    rw [MapEntries.getElem?_insertIfNew]
    simp [citationFor, haccepts]
  · rw [addResult_of_not_accepts haccepts hadd]
    simp [citationFor, haccepts]

theorem addResult_revision? {citations next : RevisionCitations}
    {entry : TemplateEntry} (hadd : impl.addResult citations entry = .ok next) :
    next.revision? = citations.revision? := by
  by_cases haccepts : impl.accepts entry = true
  · rw [(addResult_ok haccepts hadd).2]
  · rw [addResult_of_not_accepts haccepts hadd]

/-- The look-up in the result of a run over any list of templates. -/
theorem foldlM_addResult_getElem? {entries : List TemplateEntry}
    {citations : RevisionCitations} (title : Text)
    (hfold : entries.foldlM impl.addResult {} = .ok citations) :
    citations.citations[title]? = entries.findSome? (impl.citationFor title) := by
  have hfirst := foldlM_first_write impl.addResult (fun _ => True)
    (fun citations => citations.citations[title]?) (impl.citationFor title)
    (fun _ _ _ _ h => ⟨trivial, addResult_getElem? title h⟩) trivial hfold
  simpa using hfirst

/-- A run that returns has built every accepted template. -/
theorem foldlM_addResult_builds {entries : List TemplateEntry}
    {start citations : RevisionCitations}
    (hfold : entries.foldlM impl.addResult start = .ok citations) :
    ∀ entry ∈ entries, impl.accepts entry = true →
      ∃ citation, buildCitation impl.options entry = .ok citation := by
  induction entries generalizing start with
  | nil => simp
  | cons entry entries ih =>
      obtain ⟨next, hnext, hrest⟩ := foldlM_cons_ok.mp hfold
      intro entry' hmem haccepts
      rcases List.mem_cons.mp hmem with rfl | hmem
      · exact ⟨_, (addResult_ok haccepts hnext).1⟩
      · exact ih hrest entry' hmem haccepts

theorem parse_getElem? {text : Text} {citations : RevisionCitations}
    (title : Text) (hparse : impl.parse text = .ok citations) :
    citations.citations[title]? =
      (readTemplates text).1.findSome? (impl.citationFor title) :=
  foldlM_addResult_getElem? title (impl.parse_eq_scan text ▸ hparse)

/-- Every citation of the result is filed under its own title. -/
theorem parse_title {text : Text} {citations : RevisionCitations} {title : Text}
    {citation : ExtractedCitation} (hparse : impl.parse text = .ok citations)
    (hcitation : citations.citations[title]? = some citation) :
    citation.title = title := by
  rw [parse_getElem? title hparse] at hcitation
  obtain ⟨entry, -, hentry⟩ := List.exists_of_findSome?_eq_some hcitation
  obtain ⟨-, htitle, rfl⟩ := citationFor_eq_some.mp hentry
  exact htitle

/-- With `ignore_invalid_ident` there is always a result. -/
theorem parse_returns (impl : ParserImpl)
    (hignore : impl.options.ignoreInvalidIdent = true)
    (text : Text) : ∃ citations, impl.parse text = .ok citations := by
  obtain ⟨citations, hfold, -⟩ := foldlM_returns impl.addResult
    (fun _ : RevisionCitations => True) (readTemplates text).1 {}
    (fun citations entry _ _ => by
      obtain ⟨citation, hbuild⟩ := buildCitation_returns hignore entry
      simp only [addResult, hbuild, Except.map]
      split_ifs <;> exact ⟨_, rfl, trivial⟩) trivial
  exact ⟨citations, impl.parse_eq_scan text ▸ hfold⟩

theorem parse_revision? {text : Text} {citations : RevisionCitations}
    (hparse : impl.parse text = .ok citations) : citations.revision? = none :=
  foldlM_invariant
    (fun citations : RevisionCitations => citations.revision? = none)
    (fun _ _ _ _ hstart hadd => (addResult_revision? hadd).trans hstart) rfl
    (impl.parse_eq_scan text ▸ hparse)

/-- The grammar's list and the scan's list hold the same templates, up to
blanks. -/
theorem exists_mem_of_trim {entries entries' : List TemplateEntry}
    (htrim : entries.map TemplateEntry.trim = entries'.map TemplateEntry.trim)
    {entry : TemplateEntry} (hentry : entry ∈ entries) :
    ∃ entry' ∈ entries', entry'.trim = entry.trim := by
  have hmem := List.mem_map_of_mem (f := TemplateEntry.trim) hentry
  rw [htrim, List.mem_map] at hmem
  exact hmem

theorem recorded_eq_of_trim (impl : ParserImpl) {entry entry' : TemplateEntry}
    (htrim : entry'.trim = entry.trim) :
    impl.accepts entry' = impl.accepts entry ∧ entry'.recorded = entry.recorded := by
  rw [← accepts_trim impl entry', ← TemplateEntry.recorded_trim entry', htrim,
    accepts_trim, TemplateEntry.recorded_trim]
  exact ⟨rfl, rfl⟩

/-- Accepted templates that share a title, or have none, record the same. -/
def TitlesDistinguish (impl : ParserImpl) (entries : List TemplateEntry) : Prop :=
  ∀ entry ∈ entries, ∀ entry' ∈ entries,
    impl.accepts entry = true → impl.accepts entry' = true →
      entry.title = entry'.title → entry.recorded = entry'.recorded

instance (impl : ParserImpl) (entries : List TemplateEntry) :
    Decidable (impl.TitlesDistinguish entries) :=
  inferInstanceAs (Decidable (∀ entry ∈ entries, ∀ entry' ∈ entries, _))

/-- `Parse` keeps the citation of every accepted template exactly when the
titles tell the accepted templates of the text apart. -/
theorem parse_keeps_citations_iff {text : Text} {citations : RevisionCitations}
    (hparse : impl.parse text = .ok citations) :
    (∀ entry ∈ templates text, impl.accepts entry = true →
      ∀ citation, buildCitation impl.options entry = .ok citation →
        ∃ title : Text, citations.citations[title]? = some citation) ↔
      impl.TitlesDistinguish (readTemplates text).1 := by
  have hlook := fun title : Text => parse_getElem? title hparse
  constructor
  · intro hkept
    have hfirst : ∀ entry ∈ (readTemplates text).1, impl.accepts entry = true →
        citations.citations[entry.title]? = some entry.recorded := by
      intro entry hentry haccepts
      obtain ⟨result, hresult, htrim⟩ :=
        exists_mem_of_trim (templates_trim text).symm hentry
      obtain ⟨haccepts', hrecorded⟩ := recorded_eq_of_trim impl htrim
      rw [haccepts] at haccepts'
      obtain ⟨citation, hbuild⟩ := foldlM_addResult_builds
        (impl.parse_eq text ▸ hparse) result hresult haccepts'
      obtain ⟨title, htitle⟩ := hkept result hresult haccepts' citation hbuild
      rw [buildCitation_recorded hbuild, hrecorded] at htitle
      have hsame := parse_title hparse htitle
      rw [← TemplateEntry.title] at hsame
      rw [hsame, htitle]
    intro entry hentry entry' hentry' haccepts haccepts' htitle
    have hlookup := hfirst entry hentry haccepts
    rw [htitle, hfirst entry' hentry' haccepts', Option.some.injEq] at hlookup
    exact hlookup.symm
  · intro hsame result hresult haccepts citation hbuild
    obtain ⟨entry, hentry, htrim⟩ :=
      exists_mem_of_trim (templates_trim text) hresult
    obtain ⟨haccepts', hrecorded⟩ := recorded_eq_of_trim impl htrim
    rw [haccepts] at haccepts'
    refine ⟨entry.title, ?_⟩
    rw [hlook, buildCitation_recorded hbuild, ← hrecorded]
    have hcontributes : impl.citationFor entry.title entry = some entry.recorded :=
      citationFor_eq_some.mpr ⟨haccepts', rfl, rfl⟩
    cases hfirst :
        (readTemplates text).1.findSome? (impl.citationFor entry.title) with
    | none =>
        rw [List.findSome?_eq_none_iff] at hfirst
        rw [hfirst entry hentry] at hcontributes
        cases hcontributes
    | some citation' =>
        obtain ⟨entry', hentry', hfirst'⟩ :=
          List.exists_of_findSome?_eq_some hfirst
        obtain ⟨haccepts'', htitle, rfl⟩ := citationFor_eq_some.mp hfirst'
        rw [hsame entry hentry entry' hentry' haccepts' haccepts'' htitle.symm]

theorem parse_keeps_citations_iff_books :
    ∃ citations,
      parse ⟨fun _ => true, {}⟩ "{{book|title=x}}{{book|title=y|doi=1}}".toList =
          .ok citations ∧
        ∀ entry ∈ templates "{{book|title=x}}{{book|title=y|doi=1}}".toList,
          accepts ⟨fun _ => true, {}⟩ entry = true →
            ∀ citation, buildCitation {} entry = .ok citation →
              ∃ title : Text, citations.citations[title]? = some citation :=
  ⟨_, rfl, (parse_keeps_citations_iff rfl).mpr (by decide)⟩

/-- Two templates without a title: the second citation is lost. -/
theorem parse_loses_citation :
    ¬ ∀ (impl : ParserImpl) (text : Text) (citations : RevisionCitations),
      impl.parse text = .ok citations →
        ∀ entry ∈ templates text, impl.accepts entry = true →
          ∀ citation, buildCitation impl.options entry = .ok citation →
            ∃ title : Text, citations.citations[title]? = some citation := by
  intro hkept
  obtain ⟨title, htitle⟩ := hkept ⟨fun _ => true, {}⟩
    "{{web|url=x}}{{web|url=y}}".toList _ rfl
    ⟨"web".toList, [⟨"url".toList, some "y".toList⟩]⟩ (by decide) rfl
    { urls := [⟨.default, "y".toList⟩] } rfl
  rw [← Std.ExtTreeMap.mem_toList_iff_getElem?_eq_some] at htitle
  have hfiled : ∀ filed ∈ (Std.ExtTreeMap.toList
      ((∅ : StdMap Text ExtractedCitation).insertIfNew []
        { urls := [⟨.default, "x".toList⟩] })),
      filed.2 ≠ { urls := [⟨.default, "y".toList⟩] } := by
    decide
  exact hfiled _ htitle rfl

end ParserImpl

end Citescoop
