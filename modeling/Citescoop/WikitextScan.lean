/-
The wikitext grammar reads a text exactly as the scan by delimiters does.
The rules are taken from the inside out, each on an input that is cut at the
delimiter the rule stops at.
-/
import Citescoop.Delimiters

namespace Citescoop

open Peg

/-- The input goes on with a delimiter that ends a parameter, or is at its end. -/
def AtDelimiter (rest : Text) : Prop :=
  ∀ c s, rest = c :: s → c = '|' ∨ c = '}'

theorem atDelimiter_bar (s : Text) : AtDelimiter ('|' :: s) := by
  rintro c s ⟨⟩
  exact Or.inl rfl

theorem atDelimiter_brace (s : Text) : AtDelimiter ('}' :: s) := by
  rintro c s ⟨⟩
  exact Or.inr rfl

theorem AtDelimiter.dropWhile_isSpace {rest : Text} (hrest : AtDelimiter rest) :
    rest.dropWhile isSpace = rest := by
  cases rest with
  | nil => rfl
  | cons c s =>
      have hc : isSpace c = false := by
        rcases hrest c s rfl with rfl | rfl <;> decide
      simp [hc]

/-- Skipping blanks stops at a delimiter. -/
theorem AtDelimiter.dropWhile_append {rest : Text} (hrest : AtDelimiter rest)
    (s : Text) :
    (s ++ rest).dropWhile isSpace = s.dropWhile isSpace ++ rest := by
  rw [List.dropWhile_append]
  split
  · next hempty =>
      rw [hrest.dropWhile_isSpace, List.isEmpty_iff.mp hempty, List.nil_append]
  · rfl

/-- A class that excludes the delimiters and holds of all of `s` reads `s`. -/
theorem AtDelimiter.takeWhile_append {rest : Text} (hrest : AtDelimiter rest)
    {kind : Char → Bool} (hbar : kind '|' = false) (hbrace : kind '}' = false)
    {s : Text} (hs : ∀ c ∈ s, kind c = true) :
    (s ++ rest).takeWhile kind = s ∧ (s ++ rest).dropWhile kind = rest := by
  rw [List.takeWhile_append_of_pos hs, List.dropWhile_append_of_pos hs]
  cases rest with
  | nil => simp
  | cons c rest =>
      have hc : kind c = false := by
        rcases hrest c rest rfl with rfl | rfl
        · exact hbar
        · exact hbrace
      simp [hc]

/-- A piece of a template body that lies between two delimiters. -/
def Piece (s : Text) : Prop :=
  '|' ∉ s ∧ '}' ∉ s

theorem Piece.dropWhile {s : Text} (hs : Piece s) :
    Piece (s.dropWhile isSpace) :=
  ⟨fun hmem => hs.1 ((List.dropWhile_suffix _).subset hmem),
    fun hmem => hs.2 ((List.dropWhile_suffix _).subset hmem)⟩

theorem Piece.isValChar {s : Text} (hs : Piece s) :
    ∀ c ∈ s, isValChar c = true := by
  intro c hc
  simp only [Citescoop.isValChar, Bool.and_eq_true, bne_iff_ne]
  exact ⟨fun heq => hs.1 (heq ▸ hc), fun heq => hs.2 (heq ▸ hc)⟩

theorem Piece.isKeyChar {s : Text} (hs : Piece s) (heq : '=' ∉ s) :
    ∀ c ∈ s, isKeyChar c = true := by
  intro c hc
  simp only [Citescoop.isKeyChar, Bool.and_eq_true, bne_iff_ne]
  exact ⟨⟨fun h => heq (h ▸ hc), fun h => hs.1 (h ▸ hc)⟩, fun h => hs.2 (h ▸ hc)⟩

theorem paramRule_eq (s : Text) :
    paramRule isSpace s =
      (opt valRule isSpace ((s.dropWhile isSpace).dropWhile isKeyChar
        |>.dropWhile isSpace)).map fun (value, rest) =>
          (⟨(s.dropWhile isSpace).takeWhile isKeyChar, value⟩, rest) := by
  simp only [paramRule, map, seq, keyRule_eq]
  cases opt valRule isSpace ((s.dropWhile isSpace).dropWhile isKeyChar
    |>.dropWhile isSpace) <;> rfl

/-- The parameter rule reads one piece of a template body: the key up to the
first `=`, and the value behind it. -/
theorem paramRule_reads {piece rest : Text} (hpiece : Piece piece)
    (hrest : AtDelimiter rest) :
    ∃ param, paramRule isSpace (piece ++ rest) = some (param, rest) ∧
      param.trim = (readParameter piece).trim := by
  rw [paramRule_eq, hrest.dropWhile_append]
  by_cases heq : '=' ∈ piece
  · obtain ⟨key, value, rfl, hkey⟩ := List.eq_append_cons_of_mem heq
    have hkeyPiece : Piece key :=
      ⟨fun h => hpiece.1 (by simp [h]), fun h => hpiece.2 (by simp [h])⟩
    have hvaluePiece : Piece value :=
      ⟨fun h => hpiece.1 (by simp [h]), fun h => hpiece.2 (by simp [h])⟩
    have hskip : (key ++ '=' :: value).dropWhile isSpace =
        key.dropWhile isSpace ++ '=' :: value := by
      rw [List.dropWhile_append]
      split
      · next hempty =>
          rw [List.isEmpty_iff.mp hempty]
          rfl
      · rfl
    have hkeyChars : ∀ c ∈ key.dropWhile isSpace, isKeyChar c = true :=
      hkeyPiece.dropWhile.isKeyChar
        fun h => hkey ((List.dropWhile_suffix _).subset h)
    have hread := hrest.takeWhile_append (by decide) (by decide)
      hvaluePiece.dropWhile.isValChar
    refine ⟨⟨key.dropWhile isSpace, some (value.dropWhile isSpace)⟩, ?_, ?_⟩
    · have hstop : isKeyChar '=' = false := by decide
      have hnospace : isSpace '=' = false := by decide
      rw [hskip, List.append_assoc, List.takeWhile_append_of_pos hkeyChars,
        List.dropWhile_append_of_pos hkeyChars]
      simp [hstop, hnospace, opt, valRule_eq, hrest.dropWhile_append, hread]
    · rw [readParameter_append hkey]
      simp [ParameterEntry.trim]
  · have hkeyChars : ∀ c ∈ piece.dropWhile isSpace, isKeyChar c = true :=
      hpiece.dropWhile.isKeyChar
        fun h => heq ((List.dropWhile_suffix _).subset h)
    have hread := hrest.takeWhile_append (by decide) (by decide) hkeyChars
    refine ⟨⟨piece.dropWhile isSpace, none⟩, ?_, ?_⟩
    · have hnone : valRule isSpace rest = none := by
        apply valRule_eq_none
        rintro c s rfl
        rcases hrest c s rfl with rfl | rfl <;> decide
      simp [hread, hrest.dropWhile_isSpace, opt, hnone]
    · rw [readParameter_of_not_mem heq]
      simp [ParameterEntry.trim]

theorem paramRule_nonGrowing : NonGrowing paramRule isSpace := by
  have hkey : NonGrowing keyRule isSpace := by
    intro s value rest hresult
    rw [keyRule_eq, Option.some.injEq, Prod.mk.injEq] at hresult
    exact hresult.2 ▸ List.length_dropWhile_le _ s
  have hval : NonGrowing valRule isSpace := by
    intro s value rest hresult
    obtain ⟨⟨left, right⟩, hseq, -⟩ := map_eq_some.mp hresult
    obtain ⟨middle, hlit, hlexeme⟩ := seq_eq_some.mp hseq
    have hskip := List.length_dropWhile_le isSpace s
    have hskip' := List.length_dropWhile_le isSpace middle
    have hlitLength := lit_consumes (by simp) isSpace hlit
    have hlexemeLength : rest.length ≤ (middle.dropWhile isSpace).length := by
      have hchar : NonGrowing (diff (diff anyToken (lit ['|'])) (lit ['}']))
          (fun _ => false) :=
        ((notAhead_nonGrowing _ _).seq (((notAhead_nonGrowing _ _).seq
          (satisfy_consumes _ _).nonGrowing).map _)).map _
      exact hchar.many hlexeme
    omega
  exact (hkey.seq hval.opt).map _

theorem separatorParam_consumes :
    Consumes (seqRight (lit ['|']) paramRule) isSpace :=
  ((lit_consumes (by simp) _).seq paramRule_nonGrowing).map _

theorem separatorParam_eq (s : Text) :
    seqRight (lit ['|']) paramRule isSpace ('|' :: s) =
      paramRule isSpace (s.dropWhile isSpace) := by
  have hspace : isSpace '|' = false := by decide
  simp only [seqRight, map, seq, hspace, List.dropWhile_cons_of_neg,
    Bool.false_eq_true, not_false_eq_true, lit]
  simp only [List.cons_prefix_cons, List.nil_prefix, and_self, ↓reduceIte,
    List.length_singleton, List.drop_succ_cons, List.drop_zero]
  cases paramRule isSpace (s.dropWhile isSpace) <;> rfl

theorem separatorParam_eq_none {rest : Text}
    (hrest : ∀ c s, rest = c :: s → c = '}') :
    seqRight (lit ['|']) paramRule isSpace (rest.dropWhile isSpace) = none := by
  cases rest with
  | nil => simp [seqRight, map, seq, lit]
  | cons c s =>
      have hc := hrest c s rfl
      subst hc
      have hspace : isSpace '}' = false := by decide
      simp [seqRight, map, seq, lit, hspace]

theorem paramRule_dropWhile (s : Text) :
    paramRule isSpace (s.dropWhile isSpace) = paramRule isSpace s := by
  simp [paramRule, map]

/-- The parameters after the first one: a body is cut at every `|`. -/
theorem separatorParams_read {rest : Text}
    (hrest : ∀ c s, rest = c :: s → c = '}') (body : Text) (hbody : '}' ∉ body) :
    ∃ params, many (seqRight (lit ['|']) paramRule) isSpace
        ('|' :: (body ++ rest)) = some (params, rest) ∧
      params.map ParameterEntry.trim =
        ((body.splitOn '|').map readParameter).map ParameterEntry.trim := by
  induction hlength : body.length using Nat.strong_induction_on generalizing body with
  | h n ih =>
      have hdelimiter : AtDelimiter rest := fun c s h => Or.inr (hrest c s h)
      rw [many_eq separatorParam_consumes, (atDelimiter_bar _).dropWhile_isSpace,
        separatorParam_eq, paramRule_dropWhile]
      by_cases hbar : '|' ∈ body
      · obtain ⟨piece, body', rfl, hpiece⟩ := List.eq_append_cons_of_mem hbar
        have hbody' : '}' ∉ body' := fun h => hbody (by simp [h])
        obtain ⟨param, hparam, htrim⟩ := paramRule_reads
          ⟨hpiece, fun h => hbody (by simp [h])⟩ (atDelimiter_bar _)
        obtain ⟨params, hparams, htrims⟩ := ih body'.length
          (by simp only [List.length_append, List.length_cons] at hlength; omega)
          body' hbody' rfl
        refine ⟨param :: params, ?_, ?_⟩
        · rw [List.append_assoc, List.cons_append, hparam]
          simp [map, hparams]
        · simp [List.splitOn_append_cons_self_of_not_mem hpiece, htrim, htrims]
      · obtain ⟨param, hparam, htrim⟩ :=
          paramRule_reads ⟨hbar, hbody⟩ hdelimiter
        refine ⟨[param], ?_, ?_⟩
        · simp only [hparam, map]
          rw [many_eq separatorParam_consumes, separatorParam_eq_none hrest]
          rfl
        · simp [List.splitOn_eq_singleton hbar, htrim]

theorem delimited_reads {rest : Text} (hrest : ∀ c s, rest = c :: s → c = '}')
    {body : Text} (hbody : '}' ∉ body) :
    ∃ params, delimited paramRule (lit ['|']) isSpace (body ++ rest) =
        some (params, rest) ∧
      params.map ParameterEntry.trim =
        ((body.splitOn '|').map readParameter).map ParameterEntry.trim := by
  obtain ⟨params, hparams, htrims⟩ := separatorParams_read hrest body hbody
  rw [many_eq separatorParam_consumes, (atDelimiter_bar _).dropWhile_isSpace,
    separatorParam_eq] at hparams
  cases hfirst : paramRule isSpace ((body ++ rest).dropWhile isSpace) with
  | none =>
      simp only [hfirst, Option.some.injEq, Prod.mk.injEq] at hparams
      have hlength := congrArg List.length hparams.2
      simp only [List.length_cons, List.length_append] at hlength
      omega
  | some result =>
      rw [hfirst] at hparams
      exact ⟨params, by rw [delimited, Peg.cons, hfirst]; exact hparams, htrims⟩

/-- The name and the `|` behind it. -/
theorem templateHead_eq (after : Text) :
    seqLeft (seqRight (lit ['{', '{']) templateTypeRule) (lit ['|']) isSpace
        ('{' :: '{' :: after) =
      match (after.dropWhile isSpace).dropWhile isNameChar with
      | [] => none
      | _ :: inner =>
          if (after.dropWhile isSpace).takeWhile isNameChar = [] then none
          else some ((after.dropWhile isSpace).takeWhile isNameChar, inner) := by
  have hopen : isSpace '{' = false := by decide
  have hbarSpace : isSpace '|' = false := by decide
  simp only [seqLeft, seqRight, map, seq, hopen, List.dropWhile_cons_of_neg,
    Bool.false_eq_true, not_false_eq_true, lit, List.cons_prefix_cons,
    List.nil_prefix, and_self, ↓reduceIte, List.length_cons, List.length_nil,
    List.drop_succ_cons, List.drop_zero, templateTypeRule_eq]
  by_cases hname : (after.dropWhile isSpace).takeWhile isNameChar = []
  · simp only [hname, ↓reduceIte, Option.map_none]
    split <;> rfl
  · simp only [hname, ↓reduceIte, Option.map_some]
    cases hrest : (after.dropWhile isSpace).dropWhile isNameChar with
    | nil => simp
    | cons c inner =>
        have hc : c = '|' := by
          have hhead := List.head?_dropWhile_not isNameChar
            (after.dropWhile isSpace)
          simpa [hrest, isNameChar] using hhead
        subst hc
        simp [hbarSpace]

theorem templateRule_eq_some {s rest : Text} {entry : TemplateEntry} :
    templateRule isSpace s = some (entry, rest) ↔
      ∃ inner, seqLeft (seqRight (lit ['{', '{']) templateTypeRule) (lit ['|'])
          isSpace (s.dropWhile isSpace) = some (entry.name, inner) ∧
        ∃ middle, delimited paramRule (lit ['|']) isSpace
            inner = some (entry.params, middle) ∧
          lit ['}', '}'] isSpace (middle.dropWhile isSpace) = some ((), rest) := by
  obtain ⟨name, params⟩ := entry
  simp only [templateRule, map_eq_some, Prod.exists, seq_eq_some,
    TemplateEntry.mk.injEq]
  constructor
  · rintro ⟨name, params, ⟨inner, hhead, htail⟩, rfl, rfl⟩
    obtain ⟨⟨params, closing⟩, hseq, rfl⟩ := map_eq_some.mp htail
    obtain ⟨middle, hparams, hclose⟩ := seq_eq_some.mp hseq
    exact ⟨inner, hhead, middle, by simpa using hparams, hclose⟩
  · rintro ⟨inner, hhead, middle, hparams, hclose⟩
    refine ⟨name, params, ⟨inner, hhead, ?_⟩, rfl, rfl⟩
    exact map_eq_some.mpr
      ⟨(params, ()), seq_eq_some.mpr ⟨middle, by simpa using hparams, hclose⟩, rfl⟩

theorem templateHead_of_no_bar {after : Text} (hbar : '|' ∉ after) :
    seqLeft (seqRight (lit ['{', '{']) templateTypeRule) (lit ['|']) isSpace
        ('{' :: '{' :: after) = none := by
  have hrest : (after.dropWhile isSpace).dropWhile isNameChar = [] :=
    dropWhile_ne_eq_nil fun h => hbar ((List.dropWhile_suffix _).subset h)
  rw [templateHead_eq, hrest]

theorem templateHead_of_bar {name : Text} (hname : '|' ∉ name) (inner : Text) :
    seqLeft (seqRight (lit ['{', '{']) templateTypeRule) (lit ['|']) isSpace
        ('{' :: '{' :: (name ++ '|' :: inner)) =
      if name.dropWhile isSpace = [] then none
      else some (name.dropWhile isSpace, inner) := by
  have hname' : '|' ∉ name.dropWhile isSpace :=
    fun h => hname ((List.dropWhile_suffix _).subset h)
  rw [templateHead_eq, (atDelimiter_bar inner).dropWhile_append]
  have htake : (name.dropWhile isSpace ++ '|' :: inner).takeWhile isNameChar =
      name.dropWhile isSpace := takeWhile_ne_append_cons hname' inner
  have hdrop : (name.dropWhile isSpace ++ '|' :: inner).dropWhile isNameChar =
      '|' :: inner := dropWhile_ne_append_cons hname' inner
  rw [htake, hdrop]

theorem dropWhile_isSpace_opening (after : Text) :
    ('{' :: '{' :: after).dropWhile isSpace = '{' :: '{' :: after := by
  have hspace : isSpace '{' = false := by decide
  simp [hspace]

theorem lit_closing_double (rest : Text) :
    lit ['}', '}'] isSpace (('}' :: '}' :: rest).dropWhile isSpace) =
      some ((), rest) := by
  rw [(atDelimiter_brace _).dropWhile_isSpace]
  simp [lit]

theorem lit_closing_single {rest : Text} (hrest : ∀ s, rest ≠ '}' :: s) :
    lit ['}', '}'] isSpace (('}' :: rest).dropWhile isSpace) = none := by
  rw [(atDelimiter_brace _).dropWhile_isSpace]
  cases rest with
  | nil => simp [lit]
  | cons c s =>
      have hc : '}' ≠ c := fun heq => hrest s (heq ▸ rfl)
      simp [lit, List.cons_prefix_cons, hc]

/-- Where no template can be read, the template rule fails. -/
theorem templateRule_of_readTemplate_none {after : Text}
    (hread : readTemplate after = none) :
    templateRule isSpace ('{' :: '{' :: after) = none := by
  by_contra hne
  obtain ⟨⟨entry, rest⟩, hrule⟩ := Option.ne_none_iff_exists'.mp hne
  obtain ⟨inner, hhead, middle, hparams, hclose⟩ :=
    templateRule_eq_some.mp hrule
  rw [dropWhile_isSpace_opening] at hhead
  cases opening after with
  | noBar hbar => simp [templateHead_of_no_bar hbar] at hhead
  | blank hname hblank inner' =>
      rw [templateHead_of_bar hname,
        if_pos (List.dropWhile_eq_nil_iff.mpr hblank)] at hhead
      cases hhead
  | @noBrace name inner' hname hblank hinner =>
      rw [templateHead_of_bar hname, if_neg (fun h =>
        hblank (List.dropWhile_eq_nil_iff.mp h))] at hhead
      simp only [Option.some.injEq, Prod.mk.injEq] at hhead
      obtain ⟨-, rfl⟩ := hhead
      have hend : ∀ c s, ([] : Text) = c :: s → c = '}' := by
        rintro c s ⟨⟩
      obtain ⟨params, hparams', -⟩ := delimited_reads hend hinner
      rw [List.append_nil, hparams] at hparams'
      simp only [Option.some.injEq, Prod.mk.injEq] at hparams'
      rw [hparams'.2] at hclose
      simp [lit] at hclose
  | @singleBrace name body rest' hname hblank hbody hrest =>
      rw [templateHead_of_bar hname, if_neg (fun h =>
        hblank (List.dropWhile_eq_nil_iff.mp h))] at hhead
      simp only [Option.some.injEq, Prod.mk.injEq] at hhead
      obtain ⟨-, rfl⟩ := hhead
      have hend : ∀ c s, '}' :: rest' = c :: s → c = '}' := by
        rintro c s ⟨⟩
        rfl
      obtain ⟨params, hparams', -⟩ := delimited_reads hend hbody
      rw [hparams] at hparams'
      simp only [Option.some.injEq, Prod.mk.injEq] at hparams'
      rw [hparams'.2, lit_closing_single hrest] at hclose
      cases hclose
  | closed hname hblank hbody rest' =>
      simp [readTemplate_of_closed hname hblank hbody] at hread

/-- Where a template can be read, the template rule reads it, up to blanks
around its name, keys and values. -/
theorem templateRule_of_readTemplate_some {after rest : Text}
    {entry : TemplateEntry} (hread : readTemplate after = some (entry, rest)) :
    ∃ entry', templateRule isSpace ('{' :: '{' :: after) = some (entry', rest) ∧
      entry'.trim = entry.trim := by
  obtain ⟨name, body, rfl, hname, hblank, hbody, rfl⟩ :=
    readTemplate_eq_some_iff.mp hread
  have hend : ∀ c s, '}' :: '}' :: rest = c :: s → c = '}' := by
    rintro c s ⟨⟩
    rfl
  obtain ⟨params, hparams, htrims⟩ := delimited_reads hend hbody
  refine ⟨⟨name.dropWhile isSpace, params⟩, ?_, ?_⟩
  · refine templateRule_eq_some.mpr
      ⟨body ++ '}' :: '}' :: rest, ?_, '}' :: '}' :: rest, hparams, ?_⟩
    · rw [dropWhile_isSpace_opening, templateHead_of_bar hname, if_neg]
      exact fun h => hblank (List.dropWhile_eq_nil_iff.mp h)
    · exact lit_closing_double rest
  · simpa [TemplateEntry.trim] using htrims

theorem junkChar_consumes :
    Consumes (seqRight (notAhead (lit ['{', '{'])) anyToken) isSpace :=
  ((notAhead_nonGrowing _ _).seq_consumes (satisfy_consumes _ _)).map _

theorem templateRule_consumes : Consumes templateRule isSpace := by
  have htype : NonGrowing templateTypeRule isSpace := by
    intro s name rest hresult
    rw [templateTypeRule_eq] at hresult
    split at hresult
    · cases hresult
    · simp only [Option.some.injEq, Prod.mk.injEq] at hresult
      exact hresult.2 ▸ List.length_dropWhile_le _ s
  have hhead : Consumes (seqLeft (seqRight (lit ['{', '{']) templateTypeRule)
      (lit ['|'])) isSpace :=
    ((((lit_consumes (by simp) _).seq htype).map _).seq
      (lit_consumes (by simp) _).nonGrowing).map _
  have htail : NonGrowing (seqLeft (delimited paramRule (lit ['|']))
      (lit ['}', '}'])) isSpace :=
    ((paramRule_nonGrowing.cons separatorParam_consumes.nonGrowing.many).seq
      (lit_consumes (by simp) _).nonGrowing).map _
  exact (hhead.seq htail).map _

theorem junkChar_eq {c : Char} (hc : isSpace c = false) (s : Text) :
    seqRight (notAhead (lit ['{', '{'])) anyToken isSpace (c :: s) =
      if ['{', '{'] <+: c :: s then none else some (c, s) := by
  by_cases hopen : ['{', '{'] <+: c :: s
  · simp [seqRight, map, seq, hc, notAhead, lit, hopen]
  · simp [seqRight, map, seq, hc, notAhead, lit, hopen, anyToken, satisfy]

theorem isSpace_head_dropWhile {text s : Text} {c : Char}
    (hs : text.dropWhile isSpace = c :: s) : isSpace c = false := by
  have hhead := List.head?_dropWhile_not isSpace text
  simpa [hs] using hhead

/-- The junk rule stops at the leftmost `{{`, or reads everything but blanks. -/
theorem skipToTemplate_reads (text : Text) :
    ∃ junk rest, skipToTemplate isSpace text = some (junk, rest) ∧
      rest.dropWhile isSpace =
        match afterOpening text with
        | none => []
        | some after => '{' :: '{' :: after := by
  induction hlength : text.length using Nat.strong_induction_on generalizing text with
  | h n ih =>
      rw [skipToTemplate, many_eq junkChar_consumes, ← afterOpening_dropWhile]
      cases hskip : text.dropWhile isSpace with
      | nil => exact ⟨[], text, by rw [junkChar_consumes.nil], hskip⟩
      | cons c s =>
          rw [junkChar_eq (isSpace_head_dropWhile hskip), afterOpening]
          by_cases hopen : ['{', '{'] <+: c :: s
          · refine ⟨[], text, by rw [if_pos hopen], ?_⟩
            obtain ⟨after, hafter⟩ := hopen
            simp only [List.cons_append, List.nil_append, List.cons.injEq]
              at hafter
            obtain ⟨rfl, rfl⟩ := hafter
            simp [hskip]
          · have hle := List.length_dropWhile_le isSpace text
            rw [hskip, List.length_cons] at hle
            obtain ⟨junk, rest, hjunk, hrest⟩ :=
              ih s.length (by omega) s rfl
            refine ⟨c :: junk, rest, ?_, ?_⟩
            · rw [if_neg hopen]
              simp only [map]
              rw [← skipToTemplate, hjunk]
              rfl
            · rw [if_neg hopen]
              exact hrest

theorem junkTemplate_consumes :
    Consumes (seqRight (omitValue skipToTemplate) templateRule) isSpace :=
  ((junkChar_consumes.nonGrowing.many.map _).seq_consumes
    templateRule_consumes).map _

theorem templateRule_dropWhile (s : Text) :
    templateRule isSpace (s.dropWhile isSpace) = templateRule isSpace s := by
  simp [templateRule, map]

/-- One round of the top rule: junk and a template. -/
theorem junkTemplate_eq (text : Text) :
    seqRight (omitValue skipToTemplate) templateRule isSpace text =
      match afterOpening text with
      | none => none
      | some after => templateRule isSpace ('{' :: '{' :: after) := by
  obtain ⟨junk, rest, hjunk, hrest⟩ :=
    skipToTemplate_reads (text.dropWhile isSpace)
  rw [afterOpening_dropWhile] at hrest
  simp only [seqRight, map, seq, omitValue, hjunk, Option.map_some, hrest]
  cases hafter : afterOpening text with
  | none => simp [templateRule_consumes.nil]
  | some after =>
      simp only
      cases templateRule isSpace ('{' :: '{' :: after) <;> rfl

/-- The top rule reads the templates that the delimiters cut out, up to
blanks, and it leaves the same text behind. -/
theorem wikitextRule_reads (text : Text) :
    ∃ entries, wikitextRule isSpace text = some (entries, (readTemplates text).2) ∧
      entries.map TemplateEntry.trim =
        (readTemplates text).1.map TemplateEntry.trim := by
  induction hlength : text.length using Nat.strong_induction_on generalizing text with
  | h n ih =>
      rw [wikitextRule, many_eq junkTemplate_consumes, junkTemplate_eq,
        afterOpening_dropWhile]
      cases hafter : afterOpening text with
      | none =>
          rw [readTemplates_of_no_opening hafter]
          exact ⟨[], rfl, rfl⟩
      | some after =>
          cases hread : readTemplate after with
          | none =>
              rw [readTemplates_of_no_template hafter hread]
              simp only [templateRule_of_readTemplate_none hread]
              exact ⟨[], rfl, rfl⟩
          | some result =>
              obtain ⟨entry, rest⟩ := result
              obtain ⟨entry', hentry, htrim⟩ :=
                templateRule_of_readTemplate_some hread
              have hrest := (readTemplate_length hread).trans
                (afterOpening_length hafter)
              obtain ⟨entries, hentries, htrims⟩ :=
                ih rest.length (hlength ▸ hrest) rest rfl
              rw [readTemplates_of_template hafter hread]
              refine ⟨entry' :: entries, ?_, ?_⟩
              · simp only [hentry, map]
                rw [← wikitextRule, hentries]
                rfl
              · simp [htrim, htrims]

/-- Leading blanks belong to no template. -/
theorem readTemplates_dropWhile (text : Text) :
    (readTemplates (text.dropWhile isSpace)).1 = (readTemplates text).1 := by
  cases hafter : afterOpening text with
  | none =>
      rw [readTemplates_of_no_opening hafter, readTemplates_of_no_opening
        (by rw [afterOpening_dropWhile, hafter])]
  | some after =>
      have hafter' : afterOpening (text.dropWhile isSpace) = some after := by
        rw [afterOpening_dropWhile, hafter]
      cases hread : readTemplate after with
      | none =>
          rw [readTemplates_of_no_template hafter hread,
            readTemplates_of_no_template hafter' hread]
      | some result =>
          obtain ⟨entry, rest⟩ := result
          rw [readTemplates_of_template hafter hread,
            readTemplates_of_template hafter' hread]

/-- What `prefix_parse` makes of a text. -/
theorem prefixParse_wikitextRule (text : Text) :
    ∃ entries, prefixParse wikitextRule text =
        some (entries, (readTemplates (text.dropWhile isSpace)).2) ∧
      entries.map TemplateEntry.trim =
        (readTemplates text).1.map TemplateEntry.trim := by
  obtain ⟨entries, hparse, htrim⟩ := wikitextRule_reads (text.dropWhile isSpace)
  rw [readTemplates_dropWhile] at htrim
  exact ⟨entries, hparse, htrim⟩

/-- On every text the grammar yields the templates of the scan by delimiters,
all strings compared after trimming. -/
theorem wikitextRule_eq_scan (text : Text) :
    (prefixParse wikitextRule text).map
        (fun (entries, _) => entries.map TemplateEntry.trim) =
      some ((readTemplates text).1.map TemplateEntry.trim) := by
  obtain ⟨entries, hparse, htrim⟩ := prefixParse_wikitextRule text
  rw [hparse, Option.map_some]
  exact congrArg some htrim

end Citescoop
