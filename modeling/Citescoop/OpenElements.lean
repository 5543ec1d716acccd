/-
The elements that are open at a point of a document.  In a well-nested document
in which no page, revision or contributor stands within another one, the flags of
the dump parser say which of the three are open.
-/
import Citescoop.DumpRun

namespace Citescoop

open ExceptFold

/-- The elements that the parser keeps a flag for. -/
def enclosingTags : List Text :=
  [Tag.page.name, Tag.revision.name, Tag.contributor.name]

/-- The open elements after an event, innermost first.  An end tag closes the
innermost one. -/
def openAfter (opened : List Text) : Event → Option (List Text)
  | .startElement name =>
      if name ∈ enclosingTags ∧ name ∈ opened then none else some (name :: opened)
  | .endElement name =>
      match opened with
      | [] => none
      | innermost :: outer => if innermost = name then some outer else none
  | .characters _ => some opened
  | .warning _ => some opened
  | .error _ => some opened
  | .fatalError _ => some opened

/-- The elements that a well-nested sequence of events leaves open. -/
def openElements (events : List Event) : Option (List Text) :=
  events.foldlM openAfter []

theorem openAfter_start {opened opened' : List Text} {name : Text}
    (hopen : openAfter opened (.startElement name) = some opened') :
    opened' = name :: opened ∧ (name ∈ enclosingTags → name ∉ opened) := by
  simp only [openAfter, Option.ite_none_left_eq_some, Option.some.injEq] at hopen
  exact ⟨hopen.2.symm, fun htag hin => hopen.1 ⟨htag, hin⟩⟩

theorem openAfter_end {opened opened' : List Text} {name : Text}
    (hopen : openAfter opened (.endElement name) = some opened') :
    opened = name :: opened' := by
  cases opened with
  | nil => simp [openAfter] at hopen
  | cons innermost outer =>
      simp only [openAfter, Option.ite_none_right_eq_some, Option.some.injEq] at hopen
      rw [hopen.1, hopen.2]

/-- An end tag has its start tag before it. -/
theorem endElement_not_mem {name : Text} {events : List Event}
    {opened opened' : List Text} (hopen : events.foldlM openAfter opened = some opened')
    (hopened : name ∉ opened) (hstart : .startElement name ∉ events) :
    .endElement name ∉ events := by
  induction events generalizing opened with
  | nil => simp
  | cons event events ih =>
      rw [List.foldlM_cons] at hopen
      rw [List.mem_cons, not_or] at hstart ⊢
      rcases Option.bind_eq_some_iff.mp hopen with ⟨middle, hmiddle, hopen⟩
      constructor
      · rintro rfl
        exact hopened (openAfter_end hmiddle ▸ List.mem_cons_self)
      · apply ih hopen _ hstart.2
        intro hin
        apply hopened
        cases event with
        | startElement other =>
            rw [(openAfter_start hmiddle).1] at hin
            exact List.mem_of_ne_of_mem (fun hname => hstart.1 (hname ▸ rfl)) hin
        | endElement other =>
            rw [openAfter_end hmiddle]
            exact List.mem_cons_of_mem other hin
        | characters text => cases hmiddle; exact hin
        | warning text => cases hmiddle; exact hin
        | error text => cases hmiddle; exact hin
        | fatalError text => cases hmiddle; exact hin

/-- An element that is open at most once, and a flag that says whether it is. -/
structure Flagged (name : Text) (flag : Bool) (opened : List Text) : Prop where
  once : opened.count name ≤ 1
  flag : flag = true ↔ name ∈ opened

theorem Flagged.eq_false {name : Text} {flag : Bool} {opened : List Text}
    (hflagged : Flagged name flag opened) (hnot : name ∉ opened) : flag = false := by
  rw [← Bool.not_eq_true, hflagged.flag]
  exact hnot

/-- A flag that is set by start tags and cleared by end tags. -/
def flagAfter (name : Text) (flag : Bool) (event : Event) : Bool :=
  if event = .startElement name then true
  else if event = .endElement name then false
  else flag

theorem Flagged.openAfter {name : Text} {flag : Bool} {opened opened' : List Text}
    {event : Event} (htag : name ∈ enclosingTags) (hflagged : Flagged name flag opened)
    (hopen : openAfter opened event = some opened') :
    Flagged name (flagAfter name flag event) opened' := by
  cases event with
  | startElement other =>
      rcases openAfter_start hopen with ⟨rfl, hnot⟩
      by_cases hother : other = name
      · subst hother
        have hcount := List.count_eq_zero.mpr (hnot htag)
        exact ⟨by simp [hcount], by simp [flagAfter]⟩
      · refine ⟨by simpa [hother] using hflagged.once, ?_⟩
        simp [flagAfter, hother, hflagged.flag, Ne.symm hother]
  | endElement other =>
      have hopened := openAfter_end hopen
      subst hopened
      by_cases hother : other = name
      · subst hother
        have honce := hflagged.once
        rw [List.count_cons_self] at honce
        have hcount : opened'.count other = 0 := by omega
        exact ⟨by omega, by simp [flagAfter, List.count_eq_zero.mp hcount]⟩
      · refine ⟨by simpa [hother] using hflagged.once, ?_⟩
        simp [flagAfter, hother, hflagged.flag, Ne.symm hother]
  | characters text =>
      cases hopen
      exact ⟨hflagged.once, by simpa [flagAfter] using hflagged.flag⟩
  | warning text =>
      cases hopen
      exact ⟨hflagged.once, by simpa [flagAfter] using hflagged.flag⟩
  | error text =>
      cases hopen
      exact ⟨hflagged.once, by simpa [flagAfter] using hflagged.flag⟩
  | fatalError text =>
      cases hopen
      exact ⟨hflagged.once, by simpa [flagAfter] using hflagged.flag⟩

namespace DumpParser

variable {σ : Type} {lib : Library} {store : Store σ} {self next : DumpParser σ}

theorem onStartElement_flags (name : Text) (self : DumpParser σ) :
    (self.onStartElement name).inPage =
        flagAfter Tag.page.name self.inPage (.startElement name) ∧
      (self.onStartElement name).inRevision =
        flagAfter Tag.revision.name self.inRevision (.startElement name) ∧
      (self.onStartElement name).inContributor =
        flagAfter Tag.contributor.name self.inContributor (.startElement name) := by
  unfold onStartElement
  split_ifs with hpage hrevision hcontributor hfield
  · simp [flagAfter, hpage]
  · simp [flagAfter, hrevision]
  · simp [flagAfter, hcontributor]
  · simp [flagAfter, hpage, hrevision, hcontributor]
  · simp [flagAfter, hpage, hrevision, hcontributor]

theorem ElementEnded.flags {orders : ℕ → MapOrder} {name : Text}
    (hended : ElementEnded lib store orders self name next) :
    next.inPage = flagAfter Tag.page.name self.inPage (.endElement name) ∧
      next.inRevision =
        flagAfter Tag.revision.name self.inRevision (.endElement name) ∧
      next.inContributor =
        flagAfter Tag.contributor.name self.inContributor (.endElement name) := by
  cases hended with
  | page hmake => simp [flagAfter]
  | revision => simp [flagAfter, onEndRevision]
  | contributor => simp [flagAfter]
  | field hpage hrevision hcontributor hfield =>
      have hwritten := onEndField_written hfield
      simp only [flagAfter, reduceCtorEq, ↓reduceIte, Event.endElement.injEq, hpage,
        hrevision, hcontributor]
      cases hwritten <;> simp

theorem callback_flags {call : Callback}
    (hcall : self.callback lib store call = .ok next) :
    next.inPage = flagAfter Tag.page.name self.inPage call.event ∧
      next.inRevision = flagAfter Tag.revision.name self.inRevision call.event ∧
      next.inContributor =
        flagAfter Tag.contributor.name self.inContributor call.event := by
  cases callback_called hcall with
  | startElement name => exact onStartElement_flags name self
  | endElement hended => exact hended.flags
  | characters characters =>
      rw [onCharacters_eq]
      simp [flagAfter]

/-- The flags are those of the elements that are open. -/
structure Follows (opened : List Text) (parser : DumpParser σ) : Prop where
  page : Flagged Tag.page.name parser.inPage opened
  revision : Flagged Tag.revision.name parser.inRevision opened
  contributor : Flagged Tag.contributor.name parser.inContributor opened

theorem initializeParser_follows (self : DumpParser σ) :
    self.initializeParser.Follows [] where
  page := ⟨by simp, by simp [initializeParser]⟩
  revision := ⟨by simp, by simp [initializeParser]⟩
  contributor := ⟨by simp, by simp [initializeParser]⟩

theorem Follows.callback {opened opened' : List Text} {call : Callback}
    (hfollows : self.Follows opened)
    (hopen : openAfter opened call.event = some opened')
    (hcall : self.callback lib store call = .ok next) : next.Follows opened' := by
  rcases callback_flags hcall with ⟨hpage, hrevision, hcontributor⟩
  constructor
  · rw [hpage]
    exact hfollows.page.openAfter (by simp [enclosingTags]) hopen
  · rw [hrevision]
    exact hfollows.revision.openAfter (by simp [enclosingTags]) hopen
  · rw [hcontributor]
    exact hfollows.contributor.openAfter (by simp [enclosingTags]) hopen

/-- Wherever a parse has come to in a well-nested document. -/
theorem Follows.callbacks {opened opened' : List Text} {calls : List Callback}
    (hfollows : self.Follows opened)
    (hopen : (calls.map Callback.event).foldlM openAfter opened = some opened')
    (hcalls : calls.foldlM (DumpParser.callback lib store) self = .ok next) :
    next.Follows opened' := by
  induction calls generalizing self opened with
  | nil =>
      simp only [List.map_nil, List.foldlM_nil] at hopen hcalls
      cases hopen
      cases hcalls
      exact hfollows
  | cons call calls ih =>
      rw [List.map_cons, List.foldlM_cons] at hopen
      rcases Option.bind_eq_some_iff.mp hopen with ⟨middle, hmiddle, hopen⟩
      rcases foldlM_cons_ok.mp hcalls with ⟨between, hcall, hcalls⟩
      exact ih (hfollows.callback hmiddle hcall) hopen hcalls

end DumpParser

end Citescoop
