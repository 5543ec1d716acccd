/-
When `Parse` throws: on the invalid identifiers of accepted templates, unless they
are ignored, and on nothing else.
-/
import Citescoop.NumericIdentifiers
import Citescoop.ParseResult

namespace Citescoop

open ExceptFold

namespace ParserImpl

variable {impl : ParserImpl}

/-- An accepted template with an invalid identifier. -/
def Offends (impl : ParserImpl) (entry : TemplateEntry) : Prop :=
  impl.filter (toLower (trimCopy entry.name)) = true ∧
    ∃ param ∈ entry.params, param.InvalidIdent

theorem addResult_returns_iff (citations : RevisionCitations) (entry : TemplateEntry) :
    (∃ next, impl.addResult citations entry = .ok next) ↔
      (impl.options.ignoreInvalidIdent = true ∨ ¬ impl.Offends entry) := by
  have hmap : (∃ next, impl.addResult citations entry = .ok next) ↔
      (impl.accepts entry = true →
        ∃ citation, buildCitation impl.options entry = .ok citation) := by
    unfold addResult
    cases impl.accepts entry <;> cases buildCitation impl.options entry <;>
      simp [Except.map]
  rw [hmap, exists_buildCitation_iff, Offends, ← TemplateEntry.normalisedName,
    ← ParserImpl.accepts]
  by_cases haccepts : impl.accepts entry = true <;> simp [haccepts]

theorem addResult_error {citations : RevisionCitations} {entry : TemplateEntry}
    {exception : TemplateParseException}
    (hadd : impl.addResult citations entry = .error exception) :
    ∃ cause, exception = .failedToParseIdent cause := by
  unfold addResult at hadd
  split at hadd
  · rcases foldlM_error_item (map_error hadd) with ⟨citation, param, -, hbuild⟩
    exact buildParam_error hbuild
  · cases hadd

/-- The grammar reads every text, and `Parse` throws exactly when an identifier of an
accepted template cannot be converted and is not to be ignored. -/
theorem parse_throws_iff (impl : ParserImpl) (text : Text) :
    (∃ entries rest, prefixParse wikitextRule text = some (entries, rest)) ∧
    ((∃ exception, impl.parse text = .error exception) ↔
      impl.options.ignoreInvalidIdent = false ∧
        ∃ entry ∈ templates text, impl.Offends entry) ∧
    ∀ exception, impl.parse text = .error exception →
      ∃ cause, exception = .failedToParseIdent cause := by
  have hreturns : (∃ citations, impl.parse text = .ok citations) ↔
      ∀ entry ∈ templates text,
        impl.options.ignoreInvalidIdent = true ∨ ¬ impl.Offends entry := by
    rw [parse_eq]
    exact foldlM_returns_iff addResult_returns_iff
  refine ⟨?_, ?_, ?_⟩
  · obtain ⟨entries, hparse, -⟩ := prefixParse_wikitextRule text
    exact ⟨entries, _, hparse⟩
  · rw [exists_error_iff, hreturns]
    simp only [not_forall, not_or, not_not, Bool.not_eq_true, exists_prop]
    constructor
    · rintro ⟨entry, hentry, hignore, hoffends⟩
      exact ⟨hignore, entry, hentry, hoffends⟩
    · rintro ⟨hignore, entry, hentry, hoffends⟩
      exact ⟨entry, hentry, hignore, hoffends⟩
  · intro exception hthrow
    rw [parse_eq] at hthrow
    rcases foldlM_error_item hthrow with ⟨citations, entry, -, hadd⟩
    exact addResult_error hadd

end ParserImpl

end Citescoop
