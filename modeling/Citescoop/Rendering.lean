/-
Writing templates out as wikitext, in any letter case, with any blanks and
between any plain text, and reading them back.
-/
import Citescoop.ParseResult

namespace Citescoop

/-- Blanks around a name, a key or a value. -/
abbrev Blanks := { s : Text // Blank s }

/-- A string in some upper and lower case. -/
abbrev Casing (s : Text) := { written : Text // toLower written = toLower s }

/-- A parameter and the way in which it is written out. -/
structure WrittenParam where
  param : ParameterEntry
  key : Casing param.key
  beforeKey : Blanks
  afterKey : Blanks
  beforeValue : Blanks
  afterValue : Blanks
  key_free : '=' ∉ param.key ∧ '|' ∉ param.key ∧ '}' ∉ param.key
  value_free : ∀ value ∈ param.value, '|' ∉ value ∧ '}' ∉ value

/-- A template and the way in which it is written out. -/
structure WrittenTemplate where
  name : Text
  written : Casing name
  beforeName : Blanks
  afterName : Blanks
  params : List WrittenParam
  name_not_blank : ¬ Blank name
  name_free : '|' ∉ name
  params_ne_nil : params ≠ []

/-- Plain text followed by a template. -/
structure Segment where
  junk : Text
  template : WrittenTemplate
  junk_plain : PlainText junk
  junk_last : junk.getLast? ≠ some '{'

namespace WrittenParam

variable (written : WrittenParam)

/-- The parameter as the grammar finds it. -/
def asWritten : ParameterEntry where
  key := written.beforeKey ++ written.key ++ written.afterKey
  value := written.param.value.map fun value =>
    written.beforeValue ++ value ++ written.afterValue

def render : Text :=
  written.asWritten.key ++
    match written.asWritten.value with
    | none => []
    | some value => '=' :: value

end WrittenParam

namespace WrittenTemplate

variable (written : WrittenTemplate)

def entry : TemplateEntry :=
  ⟨written.name, written.params.map WrittenParam.param⟩

/-- The template as the grammar finds it. -/
def asWritten : TemplateEntry where
  name := written.beforeName ++ written.written ++ written.afterName
  params := written.params.map WrittenParam.asWritten

def body : Text :=
  ['|'].intercalate (written.params.map WrittenParam.render)

def render : Text :=
  '{' :: '{' :: (written.asWritten.name ++ '|' :: (written.body ++ ['}', '}']))

end WrittenTemplate

def renderText (segments : List Segment) (tail : Text) : Text :=
  segments.flatMap (fun segment => segment.junk ++ segment.template.render) ++ tail

theorem Blank.not_mem {s : Text} (hs : Blank s) {c : Char}
    (hc : isSpace c = false) : c ∉ s := by
  intro hmem
  rw [hs c hmem] at hc
  cases hc

/-- Changing the case of letters brings no delimiter in. -/
theorem Casing.not_mem {s : Text} (written : Casing s) {c : Char}
    (hc : 90 < c.toNat ∧ (c.toNat < 97 ∨ 122 < c.toNat) ∨ c.toNat < 65)
    (hs : c ∉ s) : c ∉ written.val := by
  intro hmem
  have hself : c.toLower = c := by
    rcases toLower_char_cases c with hsame | ⟨hlow, hhigh, -⟩
    · exact hsame
    · omega
  have hlowered : c ∈ toLower s := by
    rw [← written.property, toLower, List.mem_map]
    exact ⟨c, hmem, hself⟩
  rw [toLower, List.mem_map] at hlowered
  obtain ⟨d, hd, hdc⟩ := hlowered
  exact hs (eq_of_toLower_eq (by omega) hdc ▸ hd)

theorem Blanks.not_mem (blanks : Blanks) {c : Char} (hc : isSpace c = false) :
    c ∉ blanks.val := by
  intro hmem
  rw [blanks.property c hmem] at hc
  cases hc

/-- Padding and letter case do not survive normalisation. -/
theorem normalised_pad {s : Text} (written : Casing s) (before after : Blanks) :
    toLower (trimCopy (before ++ written ++ after)) = toLower (trimCopy s) := by
  rw [trimCopy_pad _ before.property after.property, ← trimCopy_toLower,
    written.property, trimCopy_toLower]

namespace WrittenParam

variable (written : WrittenParam)

theorem asWritten_same : ParameterEntry.Same written.asWritten written.param where
  key := normalised_pad written.key written.beforeKey written.afterKey
  value := by
    simp only [asWritten, Option.map_map, Function.comp_def,
      trimCopy_pad _ written.beforeValue.property written.afterValue.property]

theorem asWritten_key_not_mem {c : Char} (hspace : isSpace c = false)
    (hc : 90 < c.toNat ∧ (c.toNat < 97 ∨ 122 < c.toNat) ∨ c.toNat < 65)
    (hkey : c ∉ written.param.key) : c ∉ written.asWritten.key := by
  simp only [asWritten, List.mem_append, not_or]
  exact ⟨⟨written.beforeKey.not_mem hspace, written.key.not_mem hc hkey⟩,
    written.afterKey.not_mem hspace⟩

/-- What is written is one piece of a template body. -/
theorem render_piece : Piece written.render := by
  have hvalue : ∀ c : Char, isSpace c = false → c ≠ '=' →
      (∀ value ∈ written.param.value, c ∉ value) →
        ∀ value ∈ written.asWritten.value, c ∉ '=' :: value := by
    intro c hspace hc hfree value hmem
    simp only [asWritten, Option.mem_def, Option.map_eq_some_iff] at hmem
    obtain ⟨inner, hinner, rfl⟩ := hmem
    simp only [List.mem_cons, List.mem_append, not_or]
    exact ⟨hc, ⟨written.beforeValue.not_mem hspace, hfree inner hinner⟩,
      written.afterValue.not_mem hspace⟩
  have hkeyBar := written.asWritten_key_not_mem (c := '|') (by decide) (by decide)
    written.key_free.2.1
  have hkeyBrace := written.asWritten_key_not_mem (c := '}') (by decide)
    (by decide) written.key_free.2.2
  have hvalueBar := hvalue '|' (by decide) (by decide)
    fun value hmem => (written.value_free value hmem).1
  have hvalueBrace := hvalue '}' (by decide) (by decide)
    fun value hmem => (written.value_free value hmem).2
  unfold Piece render
  cases hcase : written.asWritten.value with
  | none => simpa using ⟨hkeyBar, hkeyBrace⟩
  | some value =>
      have hbar := hvalueBar value hcase
      have hbrace := hvalueBrace value hcase
      simp only [List.mem_append, not_or]
      exact ⟨⟨hkeyBar, hbar⟩, hkeyBrace, hbrace⟩

theorem readParameter_render : readParameter written.render = written.asWritten := by
  have hkey := written.asWritten_key_not_mem (c := '=') (by decide) (by decide)
    written.key_free.1
  unfold render
  cases hcase : written.asWritten.value with
  | none =>
      simp only [List.append_nil, readParameter_of_not_mem hkey, ← hcase]
  | some value => simp only [readParameter_append hkey, ← hcase]

end WrittenParam

namespace WrittenTemplate

variable (written : WrittenTemplate)

theorem asWritten_recorded : written.asWritten.recorded = written.entry.recorded :=
  TemplateEntry.recorded_map WrittenParam.asWritten_same _ _ written.params

theorem accepts_asWritten (impl : ParserImpl) :
    impl.accepts written.asWritten = impl.accepts written.entry := by
  simp only [ParserImpl.accepts, TemplateEntry.normalisedName, asWritten, entry,
    normalised_pad written.written written.beforeName written.afterName]

theorem citationFor_asWritten (impl : ParserImpl) (title : Text) :
    impl.citationFor title written.asWritten =
      impl.citationFor title written.entry := by
  rw [ParserImpl.citationFor, ParserImpl.citationFor, TemplateEntry.title,
    TemplateEntry.title, asWritten_recorded, accepts_asWritten]

theorem not_mem_body : '}' ∉ written.body := by
  have hpieces : ∀ written : List WrittenParam,
      '}' ∉ ['|'].intercalate (written.map WrittenParam.render) := by
    intro params
    induction params with
    | nil => simp
    | cons param params ih =>
        cases params with
        | nil => simpa using param.render_piece.2
        | cons param' params =>
            simp only [List.map_cons, List.intercalate_cons_cons] at ih ⊢
            simp only [List.mem_append, not_or]
            exact ⟨⟨param.render_piece.2, by decide⟩, ih⟩
  exact hpieces written.params

theorem splitOn_body :
    (written.body.splitOn '|').map readParameter = written.asWritten.params := by
  rw [body, List.splitOn_intercalate '|']
  · simp only [List.map_map, asWritten, List.map_inj_left, Function.comp_apply]
    exact fun param _ => param.readParameter_render
  · intro piece hpiece
    obtain ⟨param, -, rfl⟩ := List.mem_map.mp hpiece
    exact param.render_piece.1
  · simpa using written.params_ne_nil

theorem readTemplate_render (rest : Text) :
    readTemplate (written.asWritten.name ++ '|' :: (written.body ++ '}' :: '}' :: rest)) =
      some (written.asWritten, rest) := by
  have hname : '|' ∉ written.asWritten.name := by
    simp only [asWritten, List.mem_append, not_or]
    exact ⟨⟨written.beforeName.not_mem (by decide),
      written.written.not_mem (by decide) written.name_free⟩,
      written.afterName.not_mem (by decide)⟩
  have hblank : ¬ Blank written.asWritten.name := by
    rw [← trimCopy_eq_nil_iff]
    intro hnil
    have hnormalised := normalised_pad written.written written.beforeName
      written.afterName
    rw [asWritten] at hnil
    simp only [hnil, toLower, List.map_nil] at hnormalised
    exact written.name_not_blank
      ((trimCopy_eq_nil_iff _).mp (List.map_eq_nil_iff.mp hnormalised.symm))
  rw [readTemplate_of_closed hname hblank written.not_mem_body, splitOn_body]

end WrittenTemplate

/-- The scan finds the templates that were written out, as written. -/
theorem readTemplates_renderText (segments : List Segment) {tail : Text}
    (htail : PlainText tail) :
    readTemplates (renderText segments tail) =
      (segments.map fun segment => segment.template.asWritten, tail) := by
  induction segments with
  | nil => exact readTemplates_of_no_opening (afterOpening_of_plain htail)
  | cons segment segments ih =>
      have htext : renderText (segment :: segments) tail =
          segment.junk ++ '{' :: '{' :: (segment.template.asWritten.name ++
            '|' :: (segment.template.body ++
              '}' :: '}' :: renderText segments tail)) := by
        simp [renderText, WrittenTemplate.render]
      rw [htext, readTemplates_of_template
        (afterOpening_plain_append segment.junk_plain segment.junk_last _)
        (segment.template.readTemplate_render _), ih]
      rfl

/-- Rendering templates and parsing the text gives, under every title, what the
first accepted template with that title records, and nothing else. -/
theorem parse_renderText {impl : ParserImpl}
    (hignore : impl.options.ignoreInvalidIdent = true)
    (segments : List Segment) {tail : Text} (htail : PlainText tail) :
    ∃ citations, impl.parse (renderText segments tail) = .ok citations ∧
      citations.revision? = none ∧
      ∀ title : Text, citations.citations[title]? =
        ((segments.map fun segment => segment.template.entry).find? fun entry =>
          impl.accepts entry && entry.title == title).map TemplateEntry.recorded := by
  obtain ⟨citations, hparse⟩ := impl.parse_returns hignore
    (renderText segments tail)
  refine ⟨citations, hparse, ParserImpl.parse_revision? hparse, fun title => ?_⟩
  rw [ParserImpl.parse_getElem? title hparse,
    readTemplates_renderText segments htail, ← ParserImpl.findSome?_citationFor]
  simp only [List.findSome?_map, Function.comp_def,
    WrittenTemplate.citationFor_asWritten]

instance (s : Text) : Decidable (Blank s) :=
  List.decidableBAll _ s

/-- One template, oddly spaced and capitalised, behind some plain text. -/
def bookSegment : Segment where
  junk := "see {this} ".toList
  template := {
    name := "cite book".toList
    written := ⟨"Cite Book".toList, by decide⟩
    beforeName := ⟨" ".toList, by decide⟩
    afterName := ⟨[], by decide⟩
    params := [{
      param := ⟨"title".toList, some "Parsing".toList⟩
      key := ⟨"TITLE".toList, by decide⟩
      beforeKey := ⟨"\n".toList, by decide⟩
      afterKey := ⟨" ".toList, by decide⟩
      beforeValue := ⟨[], by decide⟩
      afterValue := ⟨"  ".toList, by decide⟩
      key_free := by decide
      value_free := by simp }]
    name_not_blank := by decide
    name_free := by decide
    params_ne_nil := by decide }
  junk_plain := by decide
  junk_last := by decide

theorem parse_renderText_book :
    ∃ citations,
      ParserImpl.parse ⟨fun type => type == "cite book".toList, ⟨true⟩⟩
          (renderText [bookSegment, bookSegment] ".".toList) = .ok citations ∧
        citations.revision? = none ∧
        ∀ title : Text, citations.citations[title]? =
          ([bookSegment.template.entry, bookSegment.template.entry].find?
            fun entry =>
              ParserImpl.accepts ⟨fun type => type == "cite book".toList, ⟨true⟩⟩
                entry && entry.title == title).map TemplateEntry.recorded :=
  parse_renderText rfl [bookSegment, bookSegment] (by decide)

end Citescoop
