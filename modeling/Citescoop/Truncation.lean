/-
Where the reading of a text stops, and what it leaves behind.
-/
import Citescoop.ParseResult

namespace Citescoop

/-- A well-formed template stands at the beginning of the text. -/
def OpensTemplate (s : Text) : Prop :=
  ∃ name body rest, s = '{' :: '{' :: (name ++ '|' :: (body ++ '}' :: '}' :: rest)) ∧
    '|' ∉ name ∧ ¬ Blank name ∧ '}' ∉ body

def NoTemplate (s : Text) : Prop :=
  ∀ suffix, suffix <:+ s → ¬ OpensTemplate suffix

/-- Plain text and well-formed templates, up to a point behind which there is
no well-formed template any more. -/
inductive ReadToTheEnd : Text → Prop
  | remainder {text : Text} (htext : NoTemplate text) : ReadToTheEnd text
  | template {junk name body rest : Text} (hjunk : PlainText junk)
      (hlast : junk.getLast? ≠ some '{') (hname : '|' ∉ name)
      (hblank : ¬ Blank name) (hbody : '}' ∉ body) (hrest : ReadToTheEnd rest) :
      ReadToTheEnd (junk ++ '{' :: '{' ::
        (name ++ '|' :: (body ++ '}' :: '}' :: rest)))

theorem opensTemplate_iff {after : Text} :
    OpensTemplate ('{' :: '{' :: after) ↔ readTemplate after ≠ none := by
  constructor
  · rintro ⟨name, body, rest, heq, hname, hblank, hbody⟩
    simp only [List.cons.injEq, true_and] at heq
    rw [heq, readTemplate_of_closed hname hblank hbody]
    exact Option.some_ne_none _
  · intro hread
    obtain ⟨⟨entry, rest⟩, hread⟩ := Option.ne_none_iff_exists'.mp hread
    obtain ⟨name, body, rfl, hname, hblank, hbody, -⟩ :=
      readTemplate_eq_some_iff.mp hread
    exact ⟨name, body, rest, rfl, hname, hblank, hbody⟩

theorem OpensTemplate.exists_after {s : Text} (hs : OpensTemplate s) :
    ∃ after, s = '{' :: '{' :: after := by
  obtain ⟨name, body, rest, rfl, -⟩ := hs
  exact ⟨_, rfl⟩

/-- The template rule succeeds exactly on well-formed templates. -/
theorem templateRule_eq_none_iff (s : Text) :
    templateRule isSpace s = none ↔ ¬ OpensTemplate (s.dropWhile isSpace) := by
  rw [← templateRule_dropWhile]
  by_cases hopen : ∃ after, s.dropWhile isSpace = '{' :: '{' :: after
  · obtain ⟨after, hafter⟩ := hopen
    rw [hafter, opensTemplate_iff, not_not]
    constructor
    · intro hrule
      by_contra hread
      obtain ⟨⟨entry, rest⟩, hread⟩ := Option.ne_none_iff_exists'.mp hread
      obtain ⟨entry', hentry', -⟩ := templateRule_of_readTemplate_some hread
      rw [hrule] at hentry'
      cases hentry'
    · exact templateRule_of_readTemplate_none
  · refine ⟨fun _ hs => hopen hs.exists_after, fun _ => ?_⟩
    by_contra hrule
    obtain ⟨⟨entry, rest⟩, hrule⟩ := Option.ne_none_iff_exists'.mp hrule
    obtain ⟨inner, hhead, -⟩ := templateRule_eq_some.mp hrule
    have hopening : ¬ ['{', '{'] <+: s.dropWhile isSpace :=
      fun ⟨after, hafter⟩ => hopen ⟨after, hafter.symm⟩
    simp [Peg.seqLeft, Peg.seqRight, Peg.map, Peg.seq, Peg.lit, hopening,
      List.dropWhile_idempotent] at hhead

theorem noTemplate_cons_of_isSpace {c : Char} {s : Text}
    (hc : isSpace c = true) : NoTemplate (c :: s) ↔ NoTemplate s := by
  constructor
  · intro hs suffix hsuffix
    exact hs suffix (hsuffix.trans (List.suffix_cons c s))
  · intro hs suffix hsuffix hopens
    rcases List.suffix_cons_iff.mp hsuffix with rfl | hsuffix
    · obtain ⟨after, heq⟩ := hopens.exists_after
      simp only [List.cons.injEq] at heq
      rw [heq.1] at hc
      exact absurd hc (by decide)
    · exact hs suffix hsuffix hopens

theorem noTemplate_dropWhile (s : Text) :
    NoTemplate (s.dropWhile isSpace) ↔ NoTemplate s := by
  induction s with
  | nil => rfl
  | cons c s ih =>
      by_cases hc : isSpace c = true
      · rw [List.dropWhile_cons_of_pos hc, ih, noTemplate_cons_of_isSpace hc]
      · rw [List.dropWhile_cons_of_neg hc]

/-- No suffix of a text matches the template rule exactly when no well-formed
template stands in it. -/
theorem forall_suffix_templateRule_iff (s : Text) :
    (∀ suffix, suffix <:+ s → templateRule isSpace suffix = none) ↔
      NoTemplate s := by
  constructor
  · intro hrule suffix hsuffix hopens
    have hnone := (templateRule_eq_none_iff suffix).mp (hrule suffix hsuffix)
    obtain ⟨after, rfl⟩ := hopens.exists_after
    rw [dropWhile_isSpace_opening] at hnone
    exact hnone hopens
  · intro hs suffix hsuffix
    rw [templateRule_eq_none_iff]
    exact hs _ ((List.dropWhile_suffix _).trans hsuffix)

theorem NoTemplate.readTemplates {text : Text} (htext : NoTemplate text) :
    readTemplates text = ([], text) := by
  cases hafter : afterOpening text with
  | none => exact readTemplates_of_no_opening hafter
  | some after =>
      obtain ⟨junk, rfl, -⟩ := exists_junk_of_afterOpening hafter
      have hread : readTemplate after = none := by
        by_contra hread
        exact htext _ (List.suffix_append junk _) (opensTemplate_iff.mpr hread)
      exact readTemplates_of_no_template hafter hread

/-- What the scan leaves behind holds no template exactly when it got through. -/
theorem noTemplate_leftover_iff (text : Text) :
    NoTemplate (readTemplates text).2 ↔ ReadToTheEnd text := by
  constructor
  · intro hleft
    induction hlength : text.length using Nat.strong_induction_on
      generalizing text with
    | h n ih =>
        cases hafter : afterOpening text with
        | none =>
            rw [readTemplates_of_no_opening hafter] at hleft
            exact .remainder hleft
        | some after =>
            cases hread : readTemplate after with
            | none =>
                rw [readTemplates_of_no_template hafter hread] at hleft
                exact .remainder hleft
            | some result =>
                obtain ⟨entry, rest⟩ := result
                have hrest := (readTemplate_length hread).trans
                  (afterOpening_length hafter)
                rw [readTemplates_of_template hafter hread] at hleft
                have hend := ih rest.length (hlength ▸ hrest) rest hleft rfl
                obtain ⟨junk, rfl, hjunk, hlast⟩ :=
                  exists_junk_of_afterOpening hafter
                obtain ⟨name, body, rfl, hname, hblank, hbody, -⟩ :=
                  readTemplate_eq_some_iff.mp hread
                exact .template hjunk hlast hname hblank hbody hend
  · intro hend
    induction hend with
    | remainder htext => rwa [htext.readTemplates]
    | template hjunk hlast hname hblank hbody _ ih =>
        rwa [readTemplates_of_template
          (afterOpening_plain_append hjunk hlast _)
          (readTemplate_of_closed hname hblank hbody _)]

/-- Leading blanks are skipped before the scan begins. -/
theorem noTemplate_leftover_dropWhile (text : Text) :
    NoTemplate (readTemplates (text.dropWhile isSpace)).2 ↔
      NoTemplate (readTemplates text).2 := by
  rw [readTemplates_eq text, readTemplates_eq (text.dropWhile isSpace),
    afterOpening_dropWhile]
  cases (afterOpening text).bind readTemplate with
  | none => exact noTemplate_dropWhile text
  | some result => rfl

/-- The part of a text that is left unread holds nothing that matches the
template rule exactly when the text consists of plain text and well-formed
templates, up to a point behind which there is no well-formed template. -/
theorem prefixParse_leaves_no_template_iff (text : Text) :
    (∀ entries rest, prefixParse wikitextRule text = some (entries, rest) →
      ∀ suffix, suffix <:+ rest → templateRule isSpace suffix = none) ↔
      ReadToTheEnd text := by
  obtain ⟨entries, hparse, -⟩ := prefixParse_wikitextRule text
  rw [← noTemplate_leftover_iff, ← noTemplate_leftover_dropWhile,
    ← forall_suffix_templateRule_iff, hparse]
  constructor
  · intro hrule
    exact hrule entries _ rfl
  · intro hrule entries' rest heq
    simp only [Option.some.injEq, Prod.mk.injEq] at heq
    exact heq.2 ▸ hrule

/-- A stray brace in one template costs the template behind it. -/
theorem parse_leaves_template :
    ¬ ∀ (impl : ParserImpl) (text : Text) (citations : RevisionCitations),
      impl.parse text = .ok citations →
        ∀ entries rest, prefixParse wikitextRule text = some (entries, rest) →
          ∀ suffix, suffix <:+ rest → templateRule isSpace suffix = none := by
  intro hrule
  have hnone := hrule ⟨fun _ => true, {}⟩ "{{a|{b}c}}{{d|title=T}}".toList _ rfl
    [] "{{a|{b}c}}{{d|title=T}}".toList rfl "{{d|title=T}}".toList (by decide)
  exact absurd hnone (by decide)

end Citescoop
