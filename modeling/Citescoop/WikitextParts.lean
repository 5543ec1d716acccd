/-
Where a wikitext may be cut in two, so that parsing the parts gives what parsing the
whole gives: behind plain text and well-formed templates, but not behind a brace that
may open one, nor behind a template that the scan cannot get over.
-/
import Citescoop.Parameterless

namespace Citescoop

open ExceptFold

/-- The citations of two texts, and where both have a title the citation of the first. -/
instance : Monoid RevisionCitations where
  mul before after := {
    revision? := before.revision?.or after.revision?
    citations := MapEntries.insertAll before.citations after.citations.toList }
  one := {}
  mul_assoc _ _ _ :=
    congrArg₂ RevisionCitations.mk (Option.or_assoc ..)
      (MapEntries.insertAll_insertAll_toList ..)
  one_mul _ := congrArg₂ RevisionCitations.mk rfl (MapEntries.insertAll_empty_toList _)
  mul_one _ :=
    congrArg₂ RevisionCitations.mk (Option.or_none ..) (MapEntries.insertAll_toList_empty _)

theorem RevisionCitations.getElem?_mul (before after : RevisionCitations) (title : Text) :
    (before * after).citations[title]? =
      before.citations[title]?.or after.citations[title]? :=
  MapEntries.getElem?_insertAll_toList before.citations after.citations title

/-- Plain text and well-formed templates, with no brace at the end that may open another. -/
inductive Separable : Text → Prop
  | plain {text : Text} (hplain : PlainText text) (hlast : text.getLast? ≠ some '{') :
      Separable text
  | template {junk name body rest : Text} (hjunk : PlainText junk)
      (hlast : junk.getLast? ≠ some '{') (hname : '|' ∉ name) (hblank : ¬ Blank name)
      (hbody : '}' ∉ body) (hrest : Separable rest) :
      Separable (junk ++ '{' :: '{' :: (name ++ '|' :: (body ++ '}' :: '}' :: rest)))

section Scan

theorem readTemplates_of_template_append {junk name body rest : Text} (hjunk : PlainText junk)
    (hlast : junk.getLast? ≠ some '{') (hname : '|' ∉ name) (hblank : ¬ Blank name)
    (hbody : '}' ∉ body) :
    readTemplates (junk ++ '{' :: '{' :: (name ++ '|' :: (body ++ '}' :: '}' :: rest))) =
      (⟨name, (body.splitOn '|').map readParameter⟩ :: (readTemplates rest).1,
        (readTemplates rest).2) :=
  readTemplates_of_template (afterOpening_plain_append hjunk hlast _)
    (readTemplate_of_closed hname hblank hbody rest)

/-- A text as the scan goes through it: templates with plain text between them, and what is
left where it stops. -/
inductive Scanned : Text → Prop
  | stops {text : Text} (hstops : (afterOpening text).bind readTemplate = none) : Scanned text
  | template {junk name body rest : Text} (hjunk : PlainText junk)
      (hlast : junk.getLast? ≠ some '{') (hname : '|' ∉ name) (hblank : ¬ Blank name)
      (hbody : '}' ∉ body) (hrest : Scanned rest) :
      Scanned (junk ++ '{' :: '{' :: (name ++ '|' :: (body ++ '}' :: '}' :: rest)))

theorem scanned (text : Text) : Scanned text := by
  induction hlength : text.length using Nat.strong_induction_on generalizing text with
  | h n ih =>
      cases hread : (afterOpening text).bind readTemplate with
      | none => exact .stops hread
      | some result =>
          obtain ⟨entry, rest⟩ := result
          have hshorter := length_of_bind_readTemplate hread
          obtain ⟨after, hafter, htemplate⟩ := Option.bind_eq_some_iff.mp hread
          obtain ⟨junk, rfl, hjunk, hlast⟩ := exists_junk_of_afterOpening hafter
          obtain ⟨name, body, rfl, hname, hblank, hbody, -⟩ :=
            readTemplate_eq_some_iff.mp htemplate
          exact .template hjunk hlast hname hblank hbody (ih _ (hlength ▸ hshorter) rest rfl)

theorem readTemplates_of_stops {text : Text}
    (hstops : (afterOpening text).bind readTemplate = none) :
    readTemplates text = ([], text) := by
  rw [readTemplates_eq, hstops]

/-- The scan goes on with what is left of the first text and the second. -/
theorem readTemplates_append (text text' : Text) :
    (readTemplates (text ++ text')).1 =
      (readTemplates text).1 ++ (readTemplates ((readTemplates text).2 ++ text')).1 := by
  induction scanned text with
  | stops hstops => rw [readTemplates_of_stops hstops, List.nil_append]
  | @template junk name body rest hjunk hlast hname hblank hbody _ ih =>
      have hassoc : junk ++ '{' :: '{' :: (name ++ '|' :: (body ++ '}' :: '}' :: rest)) ++ text' =
          junk ++ '{' :: '{' :: (name ++ '|' :: (body ++ '}' :: '}' :: (rest ++ text'))) := by
        simp
      rw [hassoc, readTemplates_of_template_append hjunk hlast hname hblank hbody,
        readTemplates_of_template_append hjunk hlast hname hblank hbody, ih, List.cons_append]

theorem separable_iff (text : Text) :
    Separable text ↔ PlainText (readTemplates text).2 ∧
      (readTemplates text).2.getLast? ≠ some '{' := by
  constructor
  · intro htext
    induction htext with
    | plain hplain hlast =>
        rw [readTemplates_of_no_opening (afterOpening_of_plain hplain)]
        exact ⟨hplain, hlast⟩
    | template hjunk hlast hname hblank hbody _ ih =>
        rwa [readTemplates_of_template_append hjunk hlast hname hblank hbody]
  · rintro ⟨hplain, hend⟩
    induction scanned text with
    | stops hstops =>
        rw [readTemplates_of_stops hstops] at hplain hend
        exact .plain hplain hend
    | template hjunk hlast hname hblank hbody _ ih =>
        rw [readTemplates_of_template_append hjunk hlast hname hblank hbody] at hplain hend
        exact .template hjunk hlast hname hblank hbody (ih hplain hend)

theorem Separable.readTemplates_append {text : Text} (htext : Separable text) (text' : Text) :
    (readTemplates (text ++ text')).1 = (readTemplates text).1 ++ (readTemplates text').1 := by
  obtain ⟨hplain, hlast⟩ := (separable_iff text).mp htext
  rw [Citescoop.readTemplates_append, readTemplates_eq (_ ++ text'),
    afterOpening_append_of_plain hplain hlast, readTemplates_eq text']
  cases (afterOpening text').bind readTemplate <;> rfl

end Scan

namespace ParserImpl

variable (impl : ParserImpl)

theorem addResult_mul (before citations : RevisionCitations) (entry : TemplateEntry) :
    impl.addResult (before * citations) entry =
      (impl.addResult citations entry).map (before * ·) := by
  rw [addResult, addResult]
  split
  · rw [map_map]
    congr 1
    funext citation
    apply congrArg₂ RevisionCitations.mk rfl
    apply Std.ExtTreeMap.ext_getElem?
    intro title
    rw [MapEntries.getElem?_insertIfNew, RevisionCitations.getElem?_mul, Option.or_assoc,
      ← MapEntries.getElem?_insertIfNew]
    exact (MapEntries.getElem?_insertAll_toList _ _ _).symm
  · rfl

/-- A text behind which a cut may be made is parsed apart from what follows. -/
theorem parse_append {text : Text} (htext : Separable text) (text' : Text) :
    impl.parse (text ++ text') =
      (impl.parse text).bind fun found => (impl.parse text').map (found * ·) := by
  rw [parse_eq_scan, parse_eq_scan, parse_eq_scan, htext.readTemplates_append,
    List.foldlM_append]
  cases (readTemplates text).1.foldlM impl.addResult {} with
  | error exception => rfl
  | ok found =>
      have hrest := foldlM_mul (addResult_mul impl) (readTemplates text').1 found 1
      rw [mul_one] at hrest
      exact hrest

end ParserImpl

section Probe

theorem plainText_of_no_opening {text : Text} (hafter : afterOpening text = none) :
    PlainText text := by
  induction text with
  | nil => decide
  | cons c text ih =>
      rw [afterOpening] at hafter
      split at hafter
      · cases hafter
      · next hhead =>
        intro hin
        rcases List.infix_cons_iff.mp hin with hstart | hrest
        · exact hhead hstart
        · exact ih hafter hrest

/-- A template of this name, with nothing else in it. -/
def probe (name : Text) : Text :=
  '{' :: '{' :: (name ++ '|' :: ([] ++ '}' :: '}' :: []))

variable {name : Text}

theorem readTemplates_probe (hname : '|' ∉ name) (hblank : ¬ Blank name) :
    (readTemplates (probe name)).1 = [⟨name, [⟨[], none⟩]⟩] := by
  have hafter : afterOpening (probe name) = some (name ++ '|' :: ([] ++ '}' :: '}' :: [])) := by
    simp [probe, afterOpening]
  rw [readTemplates_of_template hafter
    (readTemplate_of_closed hname hblank (List.not_mem_nil) [])]
  rfl

/-- Behind an opening that the scan does not get over, the name of the probe is not read. -/
theorem names_of_stuck (hname : '|' ∉ name) (hbrace : '}' ∉ name) {after : Text}
    (hread : readTemplate after = none) {entry : TemplateEntry} {rest : Text}
    (hentry : readTemplate (after ++ probe name) = some (entry, rest)) :
    rest = [] ∧ ('{' ∈ entry.name ∨ entry.name.length ≤ after.length) := by
  cases opening after with
  | noBar hbar =>
      have hjoined : after ++ probe name =
          (after ++ '{' :: '{' :: name) ++ '|' :: ([] ++ '}' :: '}' :: []) := by
        simp [probe]
      have hname' : '|' ∉ after ++ '{' :: '{' :: name := by simp [hbar, hname]
      have hblank' : ¬ Blank (after ++ '{' :: '{' :: name) :=
        fun h => absurd (h '{' (by simp)) (by decide)
      rw [hjoined, readTemplate_of_closed hname' hblank' List.not_mem_nil] at hentry
      cases hentry
      exact ⟨rfl, .inl (by simp)⟩
  | @blank before hbefore hspaces inner =>
      rw [List.append_assoc, List.cons_append, readTemplate_of_blank hbefore hspaces] at hentry
      cases hentry
  | @noBrace before inner hbefore hword hinner =>
      have hjoined : (before ++ '|' :: inner) ++ probe name =
          before ++ '|' :: ((inner ++ '{' :: '{' :: (name ++ ['|'])) ++ '}' :: '}' :: []) := by
        simp [probe]
      have hbody : '}' ∉ inner ++ '{' :: '{' :: (name ++ ['|']) := by simp [hinner, hbrace]
      rw [hjoined, readTemplate_of_closed hbefore hword hbody] at hentry
      cases hentry
      exact ⟨rfl, .inr (by simp)⟩
  | @singleBrace before body tail hbefore hword hbody htail =>
      have hjoined : (before ++ '|' :: (body ++ '}' :: tail)) ++ probe name =
          before ++ '|' :: (body ++ '}' :: (tail ++ probe name)) := by
        simp
      have htail' : ∀ s, tail ++ probe name ≠ '}' :: s := by
        intro s heq
        cases tail with
        | nil => cases heq
        | cons c tail =>
            cases heq
            exact htail _ rfl
      rw [hjoined, readTemplate_of_single_brace hbefore hbody htail'] at hentry
      cases hentry
  | @closed before body hbefore hword hbody tail =>
      rw [readTemplate_of_closed hbefore hword hbody] at hread
      cases hread

/-- Where no cut may be made, the name of a probe behind it is read as part of something else,
or not at all. -/
theorem names_of_not_separable (hname : '|' ∉ name) (hbrace : '}' ∉ name) {text : Text}
    (hstops : (afterOpening text).bind readTemplate = none)
    (htext : ¬ (PlainText text ∧ text.getLast? ≠ some '{')) :
    ∀ entry ∈ (readTemplates (text ++ probe name)).1,
      '{' ∈ entry.name ∨ entry.name.length ≤ text.length := by
  intro entry hentry
  cases hafter : afterOpening text with
  | none =>
      have hplain := plainText_of_no_opening hafter
      have hend : text.getLast? = some '{' := by
        by_contra hend
        exact htext ⟨hplain, hend⟩
      obtain ⟨junk, rfl⟩ := List.getLast?_eq_some_iff.mp hend
      have hjunk : PlainText junk := fun hin => hplain (hin.trans (List.infix_append' [] junk _))
      have hlast : junk.getLast? ≠ some '{' := by
        intro hlast
        obtain ⟨before, rfl⟩ := List.getLast?_eq_some_iff.mp hlast
        exact hplain ⟨before, [], by simp⟩
      have hjoined : junk ++ ['{'] ++ probe name =
          junk ++ '{' :: '{' :: (('{' :: name) ++ '|' :: ([] ++ '}' :: '}' :: [])) := by
        simp [probe]
      have hname' : '|' ∉ '{' :: name := by simp [hname]
      have hblank' : ¬ Blank ('{' :: name) := fun h => absurd (h '{' (by simp)) (by decide)
      rw [hjoined, readTemplates_of_template_append hjunk hlast hname' hblank' List.not_mem_nil]
        at hentry
      rcases List.mem_cons.mp hentry with rfl | hnil
      · exact .inl (by simp)
      · cases hnil
  | some after =>
      rw [hafter, Option.bind_some] at hstops
      obtain ⟨junk, rfl, hjunk, hlast⟩ := exists_junk_of_afterOpening hafter
      have hjoined : junk ++ '{' :: '{' :: after ++ probe name =
          junk ++ '{' :: '{' :: (after ++ probe name) := by simp
      rw [hjoined, readTemplates_eq, afterOpening_plain_append hjunk hlast,
        Option.bind_some] at hentry
      cases hread : readTemplate (after ++ probe name) with
      | none =>
          rw [hread] at hentry
          cases hentry
      | some result =>
          obtain ⟨entry', rest⟩ := result
          obtain ⟨rfl, hnames⟩ := names_of_stuck hname hbrace hstops hread
          rw [hread] at hentry
          rcases List.mem_cons.mp hentry with rfl | hnil
          · refine hnames.imp_right fun hlength => hlength.trans ?_
            simp only [List.length_append, List.length_cons]
            omega
          · cases hnil

end Probe

theorem leftover_stops (text : Text) :
    (afterOpening (readTemplates text).2).bind readTemplate = none ∧
      (readTemplates text).2.length ≤ text.length := by
  induction scanned text with
  | stops hstops =>
      rw [readTemplates_of_stops hstops]
      exact ⟨hstops, Nat.le_refl _⟩
  | template hjunk hlast hname hblank hbody _ ih =>
      rw [readTemplates_of_template_append hjunk hlast hname hblank hbody]
      refine ⟨ih.1, ih.2.trans ?_⟩
      simp only [List.length_append, List.length_cons]
      omega

/-- No name is longer than the text in which it stands. -/
theorem length_name_le {text : Text} {entry : TemplateEntry}
    (hentry : entry ∈ (readTemplates text).1) : entry.name.length ≤ text.length := by
  induction scanned text with
  | stops hstops =>
      rw [readTemplates_of_stops hstops] at hentry
      cases hentry
  | template hjunk hlast hname hblank hbody _ ih =>
      rw [readTemplates_of_template_append hjunk hlast hname hblank hbody] at hentry
      simp only [List.length_append, List.length_cons]
      rcases List.mem_cons.mp hentry with rfl | hmem
      · simp only
        omega
      · have hlength := ih hmem
        omega

theorem length_normalisedName_le (entry : TemplateEntry) :
    entry.normalisedName.length ≤ entry.name.length := by
  obtain ⟨before, after, -, -, hname⟩ := exists_pad_trimCopy entry.name
  have hlength := congrArg List.length hname
  simp only [List.length_append] at hlength
  rw [TemplateEntry.normalisedName, toLower, List.length_map]
  omega

theorem brace_mem_normalisedName {entry : TemplateEntry} (hbrace : '{' ∈ entry.name) :
    '{' ∈ entry.normalisedName := by
  obtain ⟨before, after, hbefore, hafter, hname⟩ := exists_pad_trimCopy entry.name
  have hspace : isSpace '{' = false := by decide
  have hbefore' : '{' ∉ before := fun h => by simpa [hspace] using hbefore _ h
  have hafter' : '{' ∉ after := fun h => by simpa [hspace] using hafter _ h
  rw [hname] at hbrace
  simp only [List.mem_append, hbefore', hafter', or_false, false_or] at hbrace
  exact List.mem_map.mpr ⟨'{', hbrace, by decide⟩

namespace ParserImpl

/-- Templates that the filter turns down. -/
theorem foldlM_addResult_of_not_accepts {impl : ParserImpl} {entries : List TemplateEntry}
    (hentries : ∀ entry ∈ entries, ¬ impl.accepts entry) (citations : RevisionCitations) :
    entries.foldlM impl.addResult citations = .ok citations := by
  induction entries with
  | nil => rfl
  | cons entry entries ih =>
      rw [List.forall_mem_cons] at hentries
      rw [foldlM_cons_of_ok (show impl.addResult citations entry = .ok citations by
        rw [addResult, if_neg hentries.1])]
      exact ih hentries.2

theorem parse_of_not_accepts {impl : ParserImpl} {text : Text}
    (hentries : ∀ entry ∈ (readTemplates text).1, ¬ impl.accepts entry) :
    impl.parse text = .ok {} := by
  rw [parse_eq_scan]
  exact foldlM_addResult_of_not_accepts hentries {}

/-- A name that is longer than the text before it is not mistaken for anything else. -/
theorem exists_probe_name (length : ℕ) : ∃ name : Text, length < name.length ∧
    toLower (trimCopy name) = name ∧ '{' ∉ name ∧ '|' ∉ name ∧ '}' ∉ name ∧ ¬ Blank name := by
  refine ⟨List.replicate (length + 1) 'z', by simp, ?_, ?_, ?_, ?_, ?_⟩
  · have hspace : isSpace 'z' = false := by decide
    simp [trimCopy, toLower, List.rdropWhile, hspace]
  · simp [List.mem_replicate]
  · simp [List.mem_replicate]
  · simp [List.mem_replicate]
  · intro hblank
    exact absurd (hblank 'z' (by simp)) (by decide)

theorem separable_of_parse_append {text : Text}
    (hparse : ∀ (impl : ParserImpl) (text' : Text), impl.parse (text ++ text') =
      (impl.parse text).bind fun found => (impl.parse text').map (found * ·)) :
    Separable text := by
  rw [separable_iff]
  by_contra htext
  obtain ⟨name, hlength, htrim, hopen, hbar, hclose, hblank⟩ := exists_probe_name text.length
  obtain ⟨impl, himpl⟩ : ∃ impl : ParserImpl, impl = ⟨fun type => type == name, ⟨true⟩⟩ :=
    ⟨_, rfl⟩
  have hrejects : ∀ entry : TemplateEntry,
      ('{' ∈ entry.name ∨ entry.name.length ≤ text.length) → ¬ impl.accepts entry := by
    intro entry hentry haccepts
    rw [himpl, accepts, beq_iff_eq] at haccepts
    rcases hentry with hbrace | hshort
    · exact hopen (haccepts ▸ brace_mem_normalisedName hbrace)
    · have hle := length_normalisedName_le entry
      rw [haccepts] at hle
      omega
  obtain ⟨hstops, hleft⟩ := leftover_stops text
  have hfirst : impl.parse text = .ok {} :=
    parse_of_not_accepts fun entry hentry => hrejects entry (.inr (length_name_le hentry))
  have hwhole : impl.parse (text ++ probe name) = .ok {} := by
    apply parse_of_not_accepts
    intro entry hentry
    rw [readTemplates_append, List.mem_append] at hentry
    rcases hentry with hread | hrest
    · exact hrejects entry (.inr (length_name_le hread))
    · have hnames := names_of_not_separable hbar hclose hstops htext entry hrest
      exact hrejects entry (hnames.imp_right fun hshort => hshort.trans hleft)
  obtain ⟨citations, hprobe⟩ := parse_returns impl (by rw [himpl]) (probe name)
  have haccepts : impl.accepts ⟨name, [⟨[], none⟩]⟩ = true := by
    rw [himpl, accepts, TemplateEntry.normalisedName, htrim]
    exact beq_self_eq_true name
  have hseen := parse_getElem?_ne_none hprobe (readTemplates_probe hbar hblank) haccepts
  have hsame := hparse impl (probe name)
  rw [hwhole, hfirst, hprobe] at hsame
  have hempty : ({} : RevisionCitations) = 1 * citations := Except.ok.inj hsame
  rw [one_mul] at hempty
  rw [← hempty] at hseen
  simp at hseen

/-- Every parser gives for a text, whatever follows it, what it gives for the text and for
what follows, put together, exactly when the text is plain text and well-formed templates
and does not end in a brace that may open another. -/
theorem parse_append_iff (text : Text) :
    (∀ (impl : ParserImpl) (text' : Text), impl.parse (text ++ text') =
      (impl.parse text).bind fun found => (impl.parse text').map (found * ·)) ↔
      Separable text :=
  ⟨separable_of_parse_append, fun htext impl => impl.parse_append htext⟩

end ParserImpl

end Citescoop
