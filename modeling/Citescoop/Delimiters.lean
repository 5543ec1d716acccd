/-
Reading templates by their delimiters alone: a scan that never goes back,
given first on its own, and then shown to be what the wikitext grammar reads.
-/
import Citescoop.Grammar

namespace Citescoop

open Peg

/-- What follows the leftmost `{{`. -/
def afterOpening : Text → Option Text
  | [] => none
  | c :: s => if ['{', '{'] <+: c :: s then some (s.drop 1) else afterOpening s

/-- A parameter, cut at its first `=`. -/
def readParameter (param : Text) : ParameterEntry where
  key := param.takeWhile (· != '=')
  value := match param.dropWhile (· != '=') with
    | [] => none
    | _ :: value => some value

/-- A template, given what follows its `{{`: the name ends at the first `|`
and the body at the first `}` after that, which has to be doubled. -/
def readTemplate (after : Text) : Option (TemplateEntry × Text) :=
  match after.dropWhile (· != '|') with
  | [] => none
  | _ :: inner =>
      if (after.takeWhile (· != '|')).all isSpace then none
      else match inner.dropWhile (· != '}') with
        | _ :: '}' :: rest =>
            some (⟨after.takeWhile (· != '|'),
              ((inner.takeWhile (· != '}')).splitOn '|').map readParameter⟩, rest)
        | _ => none

def ParameterEntry.trim (param : ParameterEntry) : ParameterEntry :=
  ⟨trimCopy param.key, param.value.map trimCopy⟩

def TemplateEntry.trim (entry : TemplateEntry) : TemplateEntry :=
  ⟨trimCopy entry.name, entry.params.map ParameterEntry.trim⟩

theorem forall_ne_of_not_mem {c : Char} {s : Text} (hs : c ∉ s) :
    ∀ a ∈ s, (a != c) = true := by
  intro a ha
  simpa using fun heq : a = c => hs (heq ▸ ha)

theorem takeWhile_ne_append_cons {c : Char} {before : Text}
    (hbefore : c ∉ before) (s : Text) :
    (before ++ c :: s).takeWhile (· != c) = before := by
  rw [List.takeWhile_append_of_pos (forall_ne_of_not_mem hbefore)]
  simp

theorem dropWhile_ne_append_cons {c : Char} {before : Text}
    (hbefore : c ∉ before) (s : Text) :
    (before ++ c :: s).dropWhile (· != c) = c :: s := by
  rw [List.dropWhile_append_of_pos (forall_ne_of_not_mem hbefore)]
  simp

theorem dropWhile_ne_eq_nil {c : Char} {s : Text} (hs : c ∉ s) :
    s.dropWhile (· != c) = [] :=
  List.dropWhile_eq_nil_iff.mpr (forall_ne_of_not_mem hs)

theorem takeWhile_ne_eq_self {c : Char} {s : Text} (hs : c ∉ s) :
    s.takeWhile (· != c) = s :=
  List.takeWhile_eq_self_iff.mpr (forall_ne_of_not_mem hs)

theorem readParameter_of_not_mem {param : Text} (hparam : '=' ∉ param) :
    readParameter param = ⟨param, none⟩ := by
  simp [readParameter, takeWhile_ne_eq_self hparam, dropWhile_ne_eq_nil hparam]

theorem readParameter_append {key : Text} (hkey : '=' ∉ key) (value : Text) :
    readParameter (key ++ '=' :: value) = ⟨key, some value⟩ := by
  simp [readParameter, takeWhile_ne_append_cons hkey,
    dropWhile_ne_append_cons hkey]

theorem all_isSpace_iff (s : Text) : s.all isSpace = true ↔ Blank s := by
  simp [Blank]

theorem readTemplate_of_no_bar {after : Text} (hbar : '|' ∉ after) :
    readTemplate after = none := by
  simp [readTemplate, dropWhile_ne_eq_nil hbar]

theorem readTemplate_of_blank {name inner : Text} (hname : '|' ∉ name)
    (hblank : Blank name) : readTemplate (name ++ '|' :: inner) = none := by
  rw [readTemplate, dropWhile_ne_append_cons hname,
    takeWhile_ne_append_cons hname]
  simp only [(all_isSpace_iff name).mpr hblank, ↓reduceIte]

theorem readTemplate_of_no_brace {name inner : Text} (hname : '|' ∉ name)
    (hinner : '}' ∉ inner) : readTemplate (name ++ '|' :: inner) = none := by
  rw [readTemplate, dropWhile_ne_append_cons hname]
  simp [dropWhile_ne_eq_nil hinner]

theorem readTemplate_of_single_brace {name body rest : Text}
    (hname : '|' ∉ name) (hbody : '}' ∉ body)
    (hrest : ∀ s, rest ≠ '}' :: s) :
    readTemplate (name ++ '|' :: (body ++ '}' :: rest)) = none := by
  rw [readTemplate, dropWhile_ne_append_cons hname]
  simp only [dropWhile_ne_append_cons hbody]
  split
  · rfl
  · split
    · next heq =>
        simp only [List.cons.injEq] at heq
        exact absurd heq.2 (hrest _)
    · rfl

theorem readTemplate_of_closed {name body : Text} (hname : '|' ∉ name)
    (hblank : ¬ Blank name) (hbody : '}' ∉ body) (rest : Text) :
    readTemplate (name ++ '|' :: (body ++ '}' :: '}' :: rest)) =
      some (⟨name, (body.splitOn '|').map readParameter⟩, rest) := by
  rw [readTemplate, dropWhile_ne_append_cons hname,
    takeWhile_ne_append_cons hname]
  have hall : ¬ name.all isSpace = true := by rwa [all_isSpace_iff]
  simp only [if_neg hall, dropWhile_ne_append_cons hbody,
    takeWhile_ne_append_cons hbody]

/-- The five ways in which the text after a `{{` can go on. -/
inductive Opening : Text → Prop
  | noBar {after : Text} (hbar : '|' ∉ after) : Opening after
  | blank {name : Text} (hname : '|' ∉ name) (hblank : Blank name)
      (inner : Text) : Opening (name ++ '|' :: inner)
  | noBrace {name inner : Text} (hname : '|' ∉ name) (hblank : ¬ Blank name)
      (hinner : '}' ∉ inner) : Opening (name ++ '|' :: inner)
  | singleBrace {name body rest : Text} (hname : '|' ∉ name)
      (hblank : ¬ Blank name) (hbody : '}' ∉ body)
      (hrest : ∀ s, rest ≠ '}' :: s) :
      Opening (name ++ '|' :: (body ++ '}' :: rest))
  | closed {name body : Text} (hname : '|' ∉ name) (hblank : ¬ Blank name)
      (hbody : '}' ∉ body) (rest : Text) :
      Opening (name ++ '|' :: (body ++ '}' :: '}' :: rest))

theorem opening (after : Text) : Opening after := by
  by_cases hbar : '|' ∈ after
  · obtain ⟨name, inner, rfl, hname⟩ := List.eq_append_cons_of_mem hbar
    by_cases hblank : Blank name
    · exact .blank hname hblank inner
    by_cases hbrace : '}' ∈ inner
    · obtain ⟨body, rest, rfl, hbody⟩ := List.eq_append_cons_of_mem hbrace
      by_cases hrest : ∃ s, rest = '}' :: s
      · obtain ⟨s, rfl⟩ := hrest
        exact .closed hname hblank hbody s
      · exact .singleBrace hname hblank hbody fun s heq => hrest ⟨s, heq⟩
    · exact .noBrace hname hblank hbrace
  · exact .noBar hbar

theorem readTemplate_eq_some_iff {after rest : Text} {entry : TemplateEntry} :
    readTemplate after = some (entry, rest) ↔
      ∃ name body, after = name ++ '|' :: (body ++ '}' :: '}' :: rest) ∧
        '|' ∉ name ∧ ¬ Blank name ∧ '}' ∉ body ∧
        entry = ⟨name, (body.splitOn '|').map readParameter⟩ := by
  constructor
  · intro hread
    cases opening after with
    | noBar hbar => simp [readTemplate_of_no_bar hbar] at hread
    | blank hname hblank => simp [readTemplate_of_blank hname hblank] at hread
    | noBrace hname hblank hinner =>
        simp [readTemplate_of_no_brace hname hinner] at hread
    | singleBrace hname hblank hbody hrest =>
        simp [readTemplate_of_single_brace hname hbody hrest] at hread
    | closed hname hblank hbody rest' =>
        rw [readTemplate_of_closed hname hblank hbody] at hread
        simp only [Option.some.injEq, Prod.mk.injEq] at hread
        obtain ⟨rfl, rfl⟩ := hread
        exact ⟨_, _, rfl, hname, hblank, hbody, rfl⟩
  · rintro ⟨name, body, rfl, hname, hblank, hbody, rfl⟩
    exact readTemplate_of_closed hname hblank hbody rest

/-- Plain text that cannot be taken for the beginning of a template. -/
def PlainText (s : Text) : Prop :=
  ¬ ['{', '{'] <:+: s

instance (s : Text) : Decidable (PlainText s) :=
  instDecidableNot

theorem PlainText.tail {c : Char} {s : Text} (hs : PlainText (c :: s)) :
    PlainText s :=
  fun hin => hs (hin.trans (List.suffix_cons c s).isInfix)

/-- Plain text holds no template. -/
theorem afterOpening_of_plain {s : Text} (hs : PlainText s) :
    afterOpening s = none := by
  induction s with
  | nil => rfl
  | cons c s ih =>
      have hhead : ¬ ['{', '{'] <+: c :: s := fun h => hs h.isInfix
      rw [afterOpening, if_neg hhead]
      exact ih hs.tail

/-- Plain text in front makes no difference to the leftmost opening. -/
theorem afterOpening_append_of_plain {junk : Text} (hjunk : PlainText junk)
    (hlast : junk.getLast? ≠ some '{') (text : Text) :
    afterOpening (junk ++ text) = afterOpening text := by
  induction junk with
  | nil => rfl
  | cons c junk ih =>
      have hhead : ¬ ['{', '{'] <+: c :: (junk ++ text) := by
        cases junk with
        | nil =>
            have hc : '{' ≠ c := by simpa [eq_comm] using hlast
            simp [List.cons_prefix_cons, hc]
        | cons d junk =>
            intro hhead
            simp only [List.cons_append, List.cons_prefix_cons, List.nil_prefix,
              and_true] at hhead
            obtain ⟨rfl, rfl⟩ := hhead
            exact hjunk ⟨[], junk, rfl⟩
      have hlast' : junk.getLast? ≠ some '{' := by
        intro hlast'
        cases junk with
        | nil => cases hlast'
        | cons d junk => exact hlast (by rw [List.getLast?_cons_cons, hlast'])
      rw [List.cons_append, afterOpening, if_neg hhead]
      exact ih hjunk.tail hlast'

/-- The leftmost `{{` behind plain text is the one that is written there. -/
theorem afterOpening_plain_append {junk : Text} (hjunk : PlainText junk)
    (hlast : junk.getLast? ≠ some '{') (after : Text) :
    afterOpening (junk ++ '{' :: '{' :: after) = some after := by
  rw [afterOpening_append_of_plain hjunk hlast]
  simp [afterOpening]

/-- A found `{{` is the leftmost one. -/
theorem exists_junk_of_afterOpening {text after : Text}
    (hafter : afterOpening text = some after) :
    ∃ junk, text = junk ++ '{' :: '{' :: after ∧ PlainText junk ∧
      junk.getLast? ≠ some '{' := by
  induction text with
  | nil => cases hafter
  | cons c s ih =>
      rw [afterOpening] at hafter
      by_cases hhead : ['{', '{'] <+: c :: s
      · obtain ⟨rest, hrest⟩ := hhead
        simp only [List.cons_append, List.nil_append, List.cons.injEq] at hrest
        obtain ⟨rfl, rfl⟩ := hrest
        simp at hafter
        exact ⟨[], by simp [hafter], by decide, by simp⟩
      · rw [if_neg hhead] at hafter
        obtain ⟨junk, rfl, hplain, hlast⟩ := ih hafter
        refine ⟨c :: junk, rfl, ?_, ?_⟩
        · intro hin
          rcases List.infix_cons_iff.mp hin with hstart | hrest
          · exact hhead (hstart.trans (List.prefix_append (c :: junk) _))
          · exact hplain hrest
        · cases junk with
          | nil =>
              intro hc
              simp only [List.getLast?_singleton, Option.some.injEq] at hc
              subst hc
              exact hhead ⟨after.cons '{', by simp⟩
          | cons d junk => rwa [List.getLast?_cons_cons]

theorem afterOpening_length {text after : Text}
    (hafter : afterOpening text = some after) : after.length < text.length := by
  induction text with
  | nil => simp [afterOpening] at hafter
  | cons c s ih =>
      simp only [afterOpening] at hafter
      split at hafter
      · simp only [Option.some.injEq] at hafter
        subst hafter
        simp only [List.length_drop, List.length_cons]
        omega
      · have hlength := ih hafter
        simp only [List.length_cons]
        omega

theorem readTemplate_length {after rest : Text} {entry : TemplateEntry}
    (hread : readTemplate after = some (entry, rest)) :
    rest.length < after.length := by
  obtain ⟨name, body, rfl, -⟩ := readTemplate_eq_some_iff.mp hread
  simp only [List.length_append, List.length_cons]
  omega

/-- What is left behind the next template is shorter than the text. -/
theorem length_of_bind_readTemplate {text rest : Text} {entry : TemplateEntry}
    (hread : (afterOpening text).bind readTemplate = some (entry, rest)) :
    rest.length < text.length := by
  obtain ⟨after, hafter, hread⟩ := Option.bind_eq_some_iff.mp hread
  exact (readTemplate_length hread).trans (afterOpening_length hafter)

/-- At most `rounds` rounds of `readTemplates`. -/
def readTemplatesWithin : Nat → Text → List TemplateEntry × Text
  | 0, text => ([], text)
  | rounds + 1, text =>
      match (afterOpening text).bind readTemplate with
      | none => ([], text)
      | some (entry, rest) =>
          let tail := readTemplatesWithin rounds rest
          (entry :: tail.1, tail.2)

/-- The templates of a text in order, and what is left at the end: find the
leftmost `{{`, read a template there and go on behind it; stop when there is
no `{{` or no template at it. -/
def readTemplates (text : Text) : List TemplateEntry × Text :=
  readTemplatesWithin text.length text

/-- A round takes characters away, so a text never needs more rounds than it
has characters. -/
theorem readTemplatesWithin_eq {rounds : Nat} {text : Text}
    (hrounds : text.length ≤ rounds) :
    readTemplatesWithin rounds text = readTemplates text := by
  have hagree : ∀ rounds rounds' : Nat, ∀ text : Text,
      text.length ≤ rounds → text.length ≤ rounds' →
        readTemplatesWithin rounds text = readTemplatesWithin rounds' text := by
    intro rounds
    induction rounds with
    | zero =>
        intro rounds' text hrounds _
        have hnil : text = [] := List.eq_nil_of_length_eq_zero (by omega)
        cases rounds' <;> simp [readTemplatesWithin, hnil, afterOpening]
    | succ rounds ih =>
        intro rounds' text hrounds hrounds'
        cases rounds' with
        | zero =>
            have hnil : text = [] := List.eq_nil_of_length_eq_zero (by omega)
            simp [readTemplatesWithin, hnil, afterOpening]
        | succ rounds' =>
            simp only [readTemplatesWithin]
            cases hread : (afterOpening text).bind readTemplate with
            | none => rfl
            | some result =>
                obtain ⟨entry, rest⟩ := result
                have hrest := length_of_bind_readTemplate hread
                simp only [ih rounds' rest (by omega) (by omega)]
  exact hagree rounds text.length text hrounds le_rfl

theorem readTemplates_eq (text : Text) :
    readTemplates text =
      match (afterOpening text).bind readTemplate with
      | none => ([], text)
      | some (entry, rest) =>
          (entry :: (readTemplates rest).1, (readTemplates rest).2) := by
  rw [← readTemplatesWithin_eq (Nat.le_succ text.length), readTemplatesWithin]
  cases hread : (afterOpening text).bind readTemplate with
  | none => rfl
  | some result =>
      obtain ⟨entry, rest⟩ := result
      have hrest := length_of_bind_readTemplate hread
      simp only [readTemplatesWithin_eq hrest.le]

theorem readTemplates_of_no_opening {text : Text}
    (hafter : afterOpening text = none) : readTemplates text = ([], text) := by
  simp [readTemplates_eq text, hafter]

theorem readTemplates_of_no_template {text after : Text}
    (hafter : afterOpening text = some after)
    (hread : readTemplate after = none) : readTemplates text = ([], text) := by
  simp [readTemplates_eq text, hafter, hread]

theorem readTemplates_of_template {text after rest : Text}
    {entry : TemplateEntry} (hafter : afterOpening text = some after)
    (hread : readTemplate after = some (entry, rest)) :
    readTemplates text =
      (entry :: (readTemplates rest).1, (readTemplates rest).2) := by
  simp [readTemplates_eq text, hafter, hread]

/-- Blanks before the text hold no `{{`. -/
@[simp] theorem afterOpening_dropWhile (text : Text) :
    afterOpening (text.dropWhile isSpace) = afterOpening text := by
  induction text with
  | nil => rfl
  | cons c s ih =>
      by_cases hc : isSpace c = true
      · have hne : ¬ ['{', '{'] <+: c :: s := by
          rw [List.cons_prefix_cons]
          rintro ⟨rfl, -⟩
          exact absurd hc (by decide)
        rw [List.dropWhile_cons_of_pos hc, ih]
        simp [afterOpening, hne]
      · rw [List.dropWhile_cons_of_neg hc]

end Citescoop
