/-
What the option to ignore invalid identifiers changes in a parse: nothing, up to the first
text that cannot be parsed without it, and there it lets the parse go on.
-/
import Citescoop.ParseFailures
import Citescoop.RevisionLookUps

namespace Citescoop

open EventLoop ExceptFold

/-- The same library, with the option set or not. -/
def Library.ignoringInvalidIdent (lib : Library) (ignore : Bool) : Library :=
  { lib with parser := { lib.parser with options := { ignoreInvalidIdent := ignore } } }

section Texts

variable (filter : Text → Bool)

/-- What a template records does not depend on the option. -/
theorem ParserImpl.addResult_lenient {citations next : RevisionCitations} {entry : TemplateEntry}
    (hadd : ParserImpl.addResult ⟨filter, ⟨false⟩⟩ citations entry = .ok next) :
    ParserImpl.addResult ⟨filter, ⟨true⟩⟩ citations entry = .ok next := by
  have hsame : ParserImpl.accepts ⟨filter, ⟨true⟩⟩ entry =
      ParserImpl.accepts ⟨filter, ⟨false⟩⟩ entry := rfl
  rw [addResult] at hadd ⊢
  rw [hsame]
  split at hadd
  · next haccepts =>
    rw [if_pos haccepts]
    obtain ⟨citation, hbuild, rfl⟩ := map_ok hadd
    have hreturns : ∃ citation', buildCitation ⟨true⟩ entry = .ok citation' :=
      buildCitation_returns rfl entry
    obtain ⟨citation', hbuild'⟩ := hreturns
    rw [hbuild', buildCitation_recorded hbuild', ← buildCitation_recorded hbuild]
    rfl
  · next haccepts =>
    rw [if_neg haccepts]
    exact hadd

theorem ParserImpl.parse_lenient {text : Text} {citations : RevisionCitations}
    (hparse : ParserImpl.parse ⟨filter, ⟨false⟩⟩ text = .ok citations) :
    ParserImpl.parse ⟨filter, ⟨true⟩⟩ text = .ok citations := by
  rw [parse_eq] at hparse ⊢
  exact foldlM_ok_mono (fun _ _ _ hadd => addResult_lenient filter hadd) hparse

end Texts

namespace DumpParser

variable {σ : Type} {lib : Library} {store : Store σ} {self : DumpParser σ}

/-- A text that cannot be parsed is reported where it ends. -/
theorem onEndField_templateParse {name : Text} {cause : TemplateParseException}
    (hend : self.onEndField lib name = .error (.templateParse cause)) :
    name = Tag.text.name ∧ lib.parser.parse self.textBuf = .error cause := by
  unfold onEndField at hend
  split_ifs at hend with htitle hpage hid hparent huser htext
  · obtain ⟨_, hcause⟩ := strToId_error (map_error hend)
    cases hcause
  · obtain ⟨_, hcause⟩ := strToId_error (map_error hend)
    cases hcause
  · obtain ⟨_, hcause⟩ := strToId_error (map_error hend)
    cases hcause
  · obtain ⟨_, hparse, hcause⟩ := mapError_error (map_error hend)
    cases hcause
    rw [Bool.and_eq_true, beq_iff_eq] at htext
    exact ⟨htext.2, hparse⟩

theorem Valid.callback_templateParse (hvalid : self.Valid) {call : Callback}
    {cause : TemplateParseException}
    (hcall : self.callback lib store call = .error (.templateParse cause)) :
    call.event = .endElement Tag.text.name ∧ lib.parser.parse self.textBuf = .error cause := by
  unfold DumpParser.callback at hcall
  cases hevent : call.event with
  | startElement name => simp [hevent] at hcall
  | endElement name =>
      simp only [hevent, onEndElement] at hcall
      have hended := map_error hcall
      split_ifs at hended
      · obtain ⟨next, hnext⟩ := hvalid.onEndPage_returns lib store call.orders
        rw [hnext] at hended
        cases hended
      · obtain ⟨rfl, hparse⟩ := onEndField_templateParse hended
        exact ⟨rfl, hparse⟩
  | characters characters => simp [hevent] at hcall
  | warning text => simp [hevent] at hcall
  | error text => simp [hevent] at hcall
  | fatalError text => simp [hevent] at hcall

theorem onEndField_lenient {name : Text}
    (hend : ∀ cause, self.onEndField (lib.ignoringInvalidIdent false) name ≠
      .error (.templateParse cause)) :
    self.onEndField (lib.ignoringInvalidIdent true) name =
      self.onEndField (lib.ignoringInvalidIdent false) name := by
  unfold onEndField at hend ⊢
  split_ifs at hend ⊢ with htitle hpage hid hparent huser htext
  any_goals rfl
  cases hparse : (lib.ignoringInvalidIdent false).parser.parse self.textBuf with
  | error cause => exact absurd (by rw [hparse]; rfl) (hend cause)
  | ok citations =>
      have hlenient : (lib.ignoringInvalidIdent true).parser.parse self.textBuf = .ok citations :=
        ParserImpl.parse_lenient lib.parser.filter hparse
      rw [hlenient]

theorem callback_lenient {call : Callback}
    (hcall : ∀ cause, self.callback (lib.ignoringInvalidIdent false) store call ≠
      .error (.templateParse cause)) :
    self.callback (lib.ignoringInvalidIdent true) store call =
      self.callback (lib.ignoringInvalidIdent false) store call := by
  unfold DumpParser.callback at hcall ⊢
  cases hevent : call.event with
  | endElement name =>
      simp only [hevent, onEndElement] at hcall ⊢
      split_ifs at hcall ⊢
      any_goals rfl
      rw [onEndField_lenient]
      intro cause hend
      exact hcall cause (by rw [hend]; rfl)
  | startElement name => rfl
  | characters characters => rfl
  | warning text => rfl
  | error text => rfl
  | fatalError text => rfl

theorem callback_lenient_ok {call : Callback} {next : DumpParser σ}
    (hcall : self.callback (lib.ignoringInvalidIdent false) store call = .ok next) :
    self.callback (lib.ignoringInvalidIdent true) store call = .ok next := by
  rw [callback_lenient, hcall]
  intro cause
  rw [hcall]
  exact fun hthrown => by cases hthrown

/-- Whatever a parser stores to, and whatever callbacks are made: a run that ignores invalid
identifiers is the run that does not, unless this throws at the end of a text that it cannot
parse; and then both have come there in the same state. -/
theorem startParser_lenient (lib : Library) (store : Store σ) (self : DumpParser σ)
    (calls : List Callback) :
    (∀ cause, (self.startParser (lib.ignoringInvalidIdent true) store calls).exception? ≠
      some (.templateParse cause)) ∧
    ((∀ cause, (self.startParser (lib.ignoringInvalidIdent false) store calls).exception? ≠
        some (.templateParse cause)) →
      self.startParser (lib.ignoringInvalidIdent true) store calls =
        self.startParser (lib.ignoringInvalidIdent false) store calls) ∧
    ∀ cause, (self.startParser (lib.ignoringInvalidIdent false) store calls).exception? =
        some (.templateParse cause) →
      ∃ before call after, calls = before ++ call :: after ∧
        call.event = .endElement Tag.text.name ∧
        (lib.ignoringInvalidIdent false).parser.parse
          (self.startParser (lib.ignoringInvalidIdent false) store calls).state.textBuf =
            .error cause ∧
        (self.startParser (lib.ignoringInvalidIdent true) store before).exception? = none ∧
        (self.startParser (lib.ignoringInvalidIdent true) store before).state =
          (self.startParser (lib.ignoringInvalidIdent false) store calls).state := by
  refine ⟨?_, ?_, ?_⟩
  · intro cause hthrown
    obtain ⟨before, call, after, state, -, hbefore, hcall⟩ :=
      run_exception?_eq_some_iff.mp hthrown
    have hstate : state.Valid := (run_of_ok hbefore).2 ▸ startParser_valid _ store self before
    obtain ⟨-, hparse⟩ := hstate.callback_templateParse hcall
    obtain ⟨citations, hreturns⟩ := ParserImpl.parse_returns
      (lib.ignoringInvalidIdent true).parser rfl state.textBuf
    rw [hreturns] at hparse
    cases hparse
  · intro hreturns
    apply run_eq_of_steps
    intro before call after state hcalls hbefore
    apply callback_lenient
    intro cause hcall
    exact hreturns cause (run_exception?_eq_some_iff.mpr
      ⟨before, call, after, state, hcalls, hbefore, hcall⟩)
  · intro cause hthrown
    obtain ⟨before, call, after, state, hcalls, hbefore, hcall⟩ :=
      run_exception?_eq_some_iff.mp hthrown
    have hvalid : state.Valid := (run_of_ok hbefore).2 ▸ startParser_valid _ store self before
    obtain ⟨hevent, hparse⟩ := hvalid.callback_templateParse hcall
    have hstate : (self.startParser (lib.ignoringInvalidIdent false) store calls).state =
        state := by
      rw [startParser, hcalls, (run_append_of_ok hbefore _).1, run_cons_error hcall]
    have hlenient := run_of_ok (foldlM_ok_mono
      (fun _ _ _ hnext => callback_lenient_ok hnext) hbefore)
    refine ⟨before, call, after, hcalls, hevent, ?_, hlenient.1, ?_⟩
    · rw [hstate, hparse]
    · rw [hstate]
      exact hlenient.2

end DumpParser

end Citescoop
