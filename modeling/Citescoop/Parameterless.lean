/-
A template without parameters in front of a text.  The name rule does not stop
at `}`, so the name runs on to the next `|` of the text behind it.
-/
import Citescoop.ParseResult

namespace Citescoop

/-- A template without parameters, and the text behind it. -/
def parameterless (name text : Text) : Text :=
  '{' :: '{' :: (name ++ '}' :: '}' :: text)

/-- The name that is read: everything up to the next `|`. -/
def swallowedName (name text : Text) : Text :=
  toLower (trimCopy (name ++ '}' :: '}' :: text.takeWhile (· != '|')))

/-- The text cannot be read as the rest of a template whose name began before
it, and where its first `|` and the first `}` behind that are there, it does
not begin with a template of its own. -/
inductive NoBodyBehind : Text → Prop
  | noBar {text : Text} (hbar : '|' ∉ text) : NoBodyBehind text
  | noBrace {before inner : Text} (hbefore : '|' ∉ before) (hinner : '}' ∉ inner) :
      NoBodyBehind (before ++ '|' :: inner)
  | singleBrace {before body rest : Text} (hbefore : '|' ∉ before)
      (hbody : '}' ∉ body) (hrest : ∀ s, rest ≠ '}' :: s)
      (hopening : (afterOpening (before ++ '|' :: (body ++ '}' :: rest))).bind
        readTemplate = none) :
      NoBodyBehind (before ++ '|' :: (body ++ '}' :: rest))

theorem dropWhile_suffix_dropWhile {p : Char → Bool} {s t : Text}
    (hsuffix : s <:+ t) : s.dropWhile p <:+ t.dropWhile p := by
  obtain ⟨before, rfl⟩ := hsuffix
  rw [List.dropWhile_append]
  split
  · exact List.suffix_rfl
  · exact (List.dropWhile_suffix p).trans (List.suffix_append _ s)

/-- A template takes a `|` and a `}` behind it. -/
theorem readTemplate_eq_none_of_suffix {before inner after : Text}
    (hbefore : '|' ∉ before) (hinner : '}' ∉ inner)
    (hsuffix : after <:+ before ++ '|' :: inner) : readTemplate after = none := by
  by_contra hread
  obtain ⟨⟨entry, rest⟩, hread⟩ := Option.ne_none_iff_exists'.mp hread
  obtain ⟨name, body, rfl, hname, -, -, -⟩ := readTemplate_eq_some_iff.mp hread
  have hdrop := dropWhile_suffix_dropWhile (p := (· != '|')) hsuffix
  rw [dropWhile_ne_append_cons hname, dropWhile_ne_append_cons hbefore] at hdrop
  have hmem : '}' ∈ '|' :: inner := hdrop.subset (by simp)
  simp [hinner] at hmem

theorem suffix_of_afterOpening {text after : Text}
    (hafter : afterOpening text = some after) : after <:+ text := by
  obtain ⟨junk, rfl, -⟩ := exists_junk_of_afterOpening hafter
  exact ⟨junk ++ ['{', '{'], by simp⟩

theorem readTemplates_eq_nil {text : Text}
    (hopening : (afterOpening text).bind readTemplate = none) :
    (readTemplates text).1 = [] := by
  rw [readTemplates_eq, hopening]

theorem afterOpening_parameterless (name text : Text) :
    afterOpening (parameterless name text) = some (name ++ '}' :: '}' :: text) := by
  simp [parameterless, afterOpening]

theorem parameterless_append (name before inner : Text) :
    name ++ '}' :: '}' :: (before ++ '|' :: inner) =
      (name ++ '}' :: '}' :: before) ++ '|' :: inner := by
  simp

theorem bar_notMem_swallowed {name before : Text} (hname : '|' ∉ name)
    (hbefore : '|' ∉ before) : '|' ∉ name ++ '}' :: '}' :: before := by
  simp [hname, hbefore]

/-- Where no body can be read, neither text has a template. -/
theorem NoBodyBehind.readTemplates_eq_nil {name text : Text} (hname : '|' ∉ name)
    (htext : NoBodyBehind text) :
    (readTemplates (parameterless name text)).1 = [] ∧
      (readTemplates text).1 = [] := by
  constructor <;> apply Citescoop.readTemplates_eq_nil
  · rw [afterOpening_parameterless, Option.bind_some]
    cases htext with
    | noBar hbar => exact readTemplate_of_no_bar (bar_notMem_swallowed hname hbar)
    | noBrace hbefore hinner =>
        rw [parameterless_append]
        exact readTemplate_of_no_brace (bar_notMem_swallowed hname hbefore) hinner
    | singleBrace hbefore hbody hrest =>
        rw [parameterless_append]
        exact readTemplate_of_single_brace (bar_notMem_swallowed hname hbefore) hbody hrest
  · rw [Option.bind_eq_none_iff]
    intro after hafter
    have hsuffix := suffix_of_afterOpening hafter
    cases htext with
    | noBar hbar => exact readTemplate_of_no_bar fun h => hbar (hsuffix.subset h)
    | noBrace hbefore hinner =>
        exact readTemplate_eq_none_of_suffix hbefore hinner hsuffix
    | singleBrace hbefore hbody hrest hopening =>
        exact Option.bind_eq_none_iff.mp hopening after hafter

namespace ParserImpl

theorem parse_of_readTemplates_eq_nil (impl : ParserImpl) {text : Text}
    (htext : (readTemplates text).1 = []) : impl.parse text = .ok {} := by
  rw [parse_eq_scan, htext]
  rfl

/-- An accepted first template is seen in the result. -/
theorem parse_getElem?_ne_none {impl : ParserImpl} {text : Text}
    {entry : TemplateEntry} {entries : List TemplateEntry}
    {citations : RevisionCitations} (hparse : impl.parse text = .ok citations)
    (hentries : (readTemplates text).1 = entry :: entries)
    (haccepts : impl.accepts entry = true) :
    citations.citations[entry.title]? = some entry.recorded := by
  rw [parse_getElem? _ hparse, hentries, findSome?_citationFor]
  simp [haccepts]

/-- Where the text behind a template without parameters closes it, a parser for the
swallowed name sees it. -/
theorem exists_parse_parameterless_ne {name before body rest : Text} (hname : '|' ∉ name)
    (hbefore : '|' ∉ before) (hbody : '}' ∉ body)
    (hfresh : ∀ entry ∈ (readTemplates (before ++ '|' :: (body ++ '}' :: '}' :: rest))).1,
      entry.normalisedName ≠
        swallowedName name (before ++ '|' :: (body ++ '}' :: '}' :: rest))) :
    ∃ impl : ParserImpl,
      impl.parse (parameterless name (before ++ '|' :: (body ++ '}' :: '}' :: rest))) ≠
        impl.parse (before ++ '|' :: (body ++ '}' :: '}' :: rest)) := by
  have hblank : ¬ Blank (name ++ '}' :: '}' :: before) :=
    fun h => absurd (h '}' (by simp)) (by decide)
  have hread := readTemplate_of_closed (bar_notMem_swallowed hname hbefore) hblank hbody rest
  rw [← parameterless_append] at hread
  have hentries := congrArg Prod.fst
    (readTemplates_of_template (afterOpening_parameterless name _) hread)
  obtain ⟨impl, himpl⟩ : ∃ impl : ParserImpl, impl =
    ⟨fun type => type == swallowedName name
      (before ++ '|' :: (body ++ '}' :: '}' :: rest)), ⟨true⟩⟩ := ⟨_, rfl⟩
  obtain ⟨citations, hparse⟩ := parse_returns impl (by rw [himpl]) (parameterless name _)
  have hseen := parse_getElem?_ne_none hparse hentries (by
    rw [himpl]
    simp [accepts, TemplateEntry.normalisedName, swallowedName,
      takeWhile_ne_append_cons hbefore])
  refine ⟨impl, fun hsame => ?_⟩
  rw [hsame] at hparse
  rw [parse_getElem? _ hparse] at hseen
  obtain ⟨entry, hentry, hfor⟩ := List.exists_of_findSome?_eq_some hseen
  have haccepts := (citationFor_eq_some.mp hfor).1
  rw [himpl, accepts, beq_iff_eq] at haccepts
  exact hfresh entry hentry haccepts

/-- Where the scan stops before a text, a parser that accepts everything tells whether
the text begins with a template. -/
theorem opening_eq_none_of_parse_eq {name before body rest : Text} (hname : '|' ∉ name)
    (hbefore : '|' ∉ before) (hbody : '}' ∉ body) (hrest : ∀ s, rest ≠ '}' :: s)
    (hsame : ParserImpl.parse ⟨fun _ => true, {}⟩
        (parameterless name (before ++ '|' :: (body ++ '}' :: rest))) =
      ParserImpl.parse ⟨fun _ => true, {}⟩ (before ++ '|' :: (body ++ '}' :: rest))) :
    (afterOpening (before ++ '|' :: (body ++ '}' :: rest))).bind readTemplate = none := by
  by_contra hopening
  obtain ⟨⟨entry, rest'⟩, hread⟩ := Option.ne_none_iff_exists'.mp hopening
  obtain ⟨after, hafter, hread⟩ := Option.bind_eq_some_iff.mp hread
  have hentries := congrArg Prod.fst (readTemplates_of_template hafter hread)
  have hnone := readTemplate_of_single_brace (bar_notMem_swallowed hname hbefore) hbody hrest
  rw [← parameterless_append] at hnone
  have hempty := congrArg Prod.fst (readTemplates_of_no_template
    (afterOpening_parameterless name _) hnone)
  have hparse := parse_of_readTemplates_eq_nil ⟨fun _ => true, {}⟩ hempty
  rw [hsame] at hparse
  have hseen := parse_getElem?_ne_none hparse hentries rfl
  simp at hseen

/-- Where no body can be read behind it, a template without parameters makes
no difference to any parser; and where one can be read, it makes a difference
to some parser, unless the text names its own templates just so. -/
theorem parse_parameterless {name text : Text} (hname : '|' ∉ name) :
    (NoBodyBehind text →
      ∀ impl : ParserImpl, impl.parse (parameterless name text) = impl.parse text) ∧
    ((∀ entry ∈ (readTemplates text).1,
        entry.normalisedName ≠ swallowedName name text) →
      (∀ impl : ParserImpl,
        impl.parse (parameterless name text) = impl.parse text) →
      NoBodyBehind text) := by
  refine ⟨fun htext impl => ?_, fun hfresh hsame => ?_⟩
  · obtain ⟨hlong, hshort⟩ := htext.readTemplates_eq_nil hname
    rw [impl.parse_of_readTemplates_eq_nil hlong,
      impl.parse_of_readTemplates_eq_nil hshort]
  by_cases hbar : '|' ∈ text
  swap
  · exact .noBar hbar
  obtain ⟨before, inner, rfl, hbefore⟩ := List.eq_append_cons_of_mem hbar
  by_cases hbrace : '}' ∈ inner
  swap
  · exact .noBrace hbefore hbrace
  obtain ⟨body, rest, rfl, hbody⟩ := List.eq_append_cons_of_mem hbrace
  by_cases hrest : ∃ s, rest = '}' :: s
  · -- The name is swallowed, and a parser for just this name sees it.
    obtain ⟨rest, rfl⟩ := hrest
    obtain ⟨impl, hne⟩ := exists_parse_parameterless_ne hname hbefore hbody hfresh
    exact absurd (hsame impl) hne
  · -- The scan stops before the text, which must have nothing to lose.
    have hsingle : ∀ s, rest ≠ '}' :: s := fun s heq => hrest ⟨s, heq⟩
    apply NoBodyBehind.singleBrace hbefore hbody hsingle
    exact opening_eq_none_of_parse_eq hname hbefore hbody hsingle (hsame _)

theorem parse_parameterless_plain :
    parse ⟨fun _ => true, {}⟩ (parameterless "reflist".toList " end".toList) =
      parse ⟨fun _ => true, {}⟩ " end".toList :=
  (parse_parameterless (by decide)).1 (.noBar (by decide)) _

/-- A citation behind a template without parameters is hidden from a filter. -/
theorem parse_parameterless_hides :
    ¬ ∀ (impl : ParserImpl) (name text : Text),
      '|' ∉ name → '{' ∉ name → '}' ∉ name →
        impl.parse (parameterless name text) = impl.parse text := by
  intro hsame
  have heq := hsame ⟨fun type => type == "cite web".toList, {}⟩ "reflist".toList
    "{{cite web|title=x}}".toList (by decide) (by decide) (by decide)
  have hlookup := congrArg (fun result =>
    result.toOption.map fun citations => citations.citations.toList) heq
  exact absurd hlookup (by decide)

end ParserImpl

end Citescoop
