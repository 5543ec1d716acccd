/-
What the entry of a revision depends on.  Two parsers that go through the
callbacks of one revision agree on all that goes into its entry, except on the
citations as long as no text has been read.
-/
import Citescoop.OpenElements

namespace Citescoop

open ExceptFold

/-- The fields whose text goes into the entry of a revision. -/
def revisionFields : List Text :=
  [Tag.id.name, Tag.parentid.name, Tag.username.name, Tag.text.name,
    Tag.timestamp.name]

namespace DumpParser

/-- The entry of a revision of which nothing is known but its own callbacks: the
one of a new parser, at the start of a revision in a page. -/
def ownEntry (lib : Library) (body : List Callback) :
    Except DumpException RevisionCitations :=
  (body.foldlM (callback lib fun _ _ stored => stored)
    ({ inPage := true, inRevision := true, stored := () } : DumpParser Unit)).map
      revisionEntry

variable {σ τ : Type} {lib : Library} {store : Store σ} {store' : Store τ}

/-- Two parsers that read the same revision, and have come to the same point of
it.  The text is only compared where it can be the one of a field, and the
citations once a text has been read. -/
structure AgreeWithin (before : RevisionCitations) (textRead : Bool)
    (inner : List Text) (parser : DumpParser σ) (own : DumpParser τ) : Prop where
  inPage : own.inPage = parser.inPage
  inRevision : own.inRevision = parser.inRevision
  inContributor : own.inContributor = parser.inContributor
  currentRevision : own.currentRevision = parser.currentRevision
  text : (∃ name ∈ inner, name ∈ revisionFields) →
    own.shouldStore = parser.shouldStore ∧ own.textBuf = parser.textBuf
  afterText : textRead = true → own.currentCitations = parser.currentCitations
  beforeText : textRead = false → parser.currentCitations = before ∧
    own.currentCitations = {}
  within : parser.inRevision = true
  outermost : Tag.revision.name ∉ inner
  valid : own.Valid

variable {before : RevisionCitations} {textRead : Bool} {inner inner' : List Text}
  {parser next : DumpParser σ} {own : DumpParser τ}

theorem isField_of_mem {name : Text} (hfield : name ∈ revisionFields)
    (hrevision : parser.inRevision = true) : parser.isField name = true := by
  simp only [revisionFields, List.mem_cons, List.not_mem_nil, or_false] at hfield
  rcases hfield with rfl | rfl | rfl | rfl | rfl <;>
    simp [isField, hrevision]

namespace AgreeWithin

theorem isField_eq (hagree : AgreeWithin before textRead inner parser own)
    (name : Text) : own.isField name = parser.isField name := by
  simp only [isField, hagree.inPage, hagree.inRevision]

theorem startElement (hagree : AgreeWithin before textRead inner parser own)
    {name : Text} (hname : name ≠ Tag.revision.name) :
    AgreeWithin before textRead (name :: inner) (parser.onStartElement name)
      (own.onStartElement name) := by
  have houtermost : Tag.revision.name ∉ name :: inner := by
    simp [hagree.outermost, Ne.symm hname]
  have hinner : name ∉ revisionFields → (∃ other ∈ name :: inner,
      other ∈ revisionFields) → own.shouldStore = parser.shouldStore := by
    rintro hnot ⟨other, hother, hfield⟩
    rcases List.mem_cons.mp hother with rfl | hother
    · exact absurd hfield hnot
    · exact (hagree.text ⟨other, hother, hfield⟩).1
  by_cases hpage : name = Tag.page.name
  · simp only [onStartElement, if_pos hpage]
    exact { hagree with
      inPage := rfl
      text := fun hin => ⟨hinner (by rw [hpage]; decide) hin, rfl⟩
      outermost := houtermost
      valid := ⟨hagree.valid.page, hagree.valid.idle⟩ }
  by_cases hcontributor : name = Tag.contributor.name
  · simp only [onStartElement, if_neg hpage, if_neg hname, if_pos hcontributor]
    exact { hagree with
      inContributor := rfl
      text := fun hin => ⟨hinner (by rw [hcontributor]; decide) hin, rfl⟩
      outermost := houtermost
      valid := ⟨hagree.valid.page, hagree.valid.idle⟩ }
  simp only [onStartElement, if_neg hpage, if_neg hname, if_neg hcontributor,
    hagree.isField_eq]
  by_cases hfield : parser.isField name = true
  · simp only [if_pos hfield]
    exact { hagree with
      text := fun _ => ⟨rfl, rfl⟩
      outermost := houtermost
      valid := ⟨hagree.valid.page, hagree.valid.idle⟩ }
  · simp only [if_neg hfield]
    have hnot : name ∉ revisionFields := fun hin =>
      hfield (isField_of_mem hin hagree.within)
    exact { hagree with
      text := fun hin => ⟨hinner hnot hin, rfl⟩
      outermost := houtermost
      valid := ⟨hagree.valid.page, hagree.valid.idle⟩ }

theorem characters (hagree : AgreeWithin before textRead inner parser own)
    (characters : Text) :
    AgreeWithin before textRead inner (parser.onCharacters characters)
      (own.onCharacters characters) := by
  rw [onCharacters_eq, onCharacters_eq]
  refine { hagree with
    text := fun hin => ?_
    valid := ⟨hagree.valid.page, hagree.valid.idle⟩ }
  rcases hagree.text hin with ⟨hstore, htext⟩
  exact ⟨hstore, by simp only [hstore, htext]⟩

/-- An element has ended, and with it a new value of the revision is known. -/
theorem ended {name : Text}
    (hagree : AgreeWithin before textRead (name :: inner) parser own)
    (currentRevision : Revision) :
    AgreeWithin before textRead inner
      { parser with currentRevision := currentRevision, shouldStore := false }
      { own with currentRevision := currentRevision, shouldStore := false } := by
  refine { hagree with
    currentRevision := rfl
    text := ?_
    outermost := fun hin => hagree.outermost (List.mem_cons_of_mem name hin)
    valid := ⟨hagree.valid.page, fun hidle => ?_⟩ }
  · rintro ⟨other, hother, hfield⟩
    exact ⟨rfl, (hagree.text ⟨other, List.mem_cons_of_mem name hother, hfield⟩).2⟩
  · have hin := hagree.inRevision.trans hagree.within
    exact absurd (hin.symm.trans hidle) (by decide)

theorem exists_own (hagree : AgreeWithin before textRead inner parser own) :
    ∃ page shouldStore textBuf currentCitations stored, own = {
      toPageState := page
      inPage := parser.inPage
      inRevision := parser.inRevision
      inContributor := parser.inContributor
      shouldStore := shouldStore
      textBuf := textBuf
      currentCitations := currentCitations
      currentRevision := parser.currentRevision
      stored := stored } := by
  rw [← hagree.inPage, ← hagree.inRevision, ← hagree.inContributor,
    ← hagree.currentRevision]
  exact ⟨_, _, _, _, _, rfl⟩

end AgreeWithin

namespace AgreeWithin

/-- The end of a field writes the same to both. -/
theorem endField {name : Text} {written : DumpParser σ}
    (hagree : AgreeWithin before textRead (name :: inner) parser own)
    (hend : parser.onEndField lib name = .ok written) :
    ∃ written', own.onEndField lib name = .ok written' ∧
      AgreeWithin before (textRead || decide (name = Tag.text.name)) inner
        { written with shouldStore := false }
        { written' with shouldStore := false } := by
  have htext : name ∈ revisionFields → own.textBuf = parser.textBuf :=
    fun hfield => (hagree.text ⟨name, List.mem_cons_self, hfield⟩).2
  have hwithin := hagree.within
  rcases hagree.exists_own with ⟨page, storing, textBuf, citations, stored, rfl⟩
  simp only at htext
  have hended := hagree.ended
  unfold onEndField at hend ⊢
  split_ifs at hend ⊢ with htitle hpageId hid hparent huser hcitations htime
  · obtain rfl : name = Tag.title.name := by simp_all
    cases hend
    refine ⟨_, rfl, ?_⟩
    have hkept := hended parser.currentRevision
    rw [decide_eq_false (by simp), Bool.or_false]
    exact { hkept with
      valid := ⟨⟨hkept.valid.page.citations, hkept.valid.page.revisionsToStore,
        hkept.valid.page.known, hkept.valid.page.revisionId⟩, hkept.valid.idle⟩ }
  · simp [hwithin] at hpageId
  · obtain rfl : name = Tag.id.name := by simp_all
    obtain rfl := htext (by decide)
    rcases map_ok hend with ⟨revisionId, hconvert, rfl⟩
    rw [hconvert]
    exact ⟨_, rfl, by simpa using hended _⟩
  · obtain rfl : name = Tag.parentid.name := by simp_all
    obtain rfl := htext (by decide)
    rcases map_ok hend with ⟨parentId, hconvert, rfl⟩
    rw [hconvert]
    exact ⟨_, rfl, by simpa using hended _⟩
  · obtain rfl : name = Tag.username.name := by simp_all
    obtain rfl := htext (by decide)
    cases hend
    exact ⟨_, rfl, by simpa using hended _⟩
  · obtain rfl : name = Tag.text.name := by simp_all
    obtain rfl := htext (by decide)
    rcases map_ok hend with ⟨parsed, hparse, rfl⟩
    rw [hparse]
    have hkept := hended parser.currentRevision
    exact ⟨_, rfl, { hkept with
      afterText := fun _ => rfl
      beforeText := by simp
      valid := ⟨hkept.valid.page, hkept.valid.idle⟩ }⟩
  · obtain rfl : name = Tag.timestamp.name := by simp_all
    obtain rfl := htext (by decide)
    cases hend
    exact ⟨_, rfl, by simpa using hended _⟩
  · have hname : name ≠ Tag.text.name := by simp_all
    cases hend
    exact ⟨_, rfl, by simpa [hname] using hended _⟩

theorem endPage {orders : ℕ → MapOrder} {page : PageState}
    (hagree : AgreeWithin before textRead (Tag.page.name :: inner) parser own) :
    ∃ next', own.onEndElement lib store' orders Tag.page.name = .ok next' ∧
      AgreeWithin before textRead inner
        { parser with
          toPageState := {}
          inPage := false
          shouldStore := false
          stored := store page.revisionsToStore page.currentPage parser.stored }
        next' := by
  rcases PageState.makePageCitationList_returns lib.sort orders
    hagree.valid.page.known with ⟨result, hmake⟩
  have hended := hagree.ended parser.currentRevision
  rw [onEndElement, if_pos rfl, onEndPage, hmake]
  refine ⟨_, rfl, ?_⟩
  exact { hended with
    inPage := rfl
    currentRevision := hagree.currentRevision
    valid := ⟨pageState_valid_start, hagree.valid.idle⟩ }

theorem endContributor {orders : ℕ → MapOrder}
    (hagree : AgreeWithin before textRead (Tag.contributor.name :: inner)
      parser own) :
    ∃ next', own.onEndElement lib store' orders Tag.contributor.name = .ok next' ∧
      AgreeWithin before textRead inner
        { parser with inContributor := false, shouldStore := false } next' := by
  have hended := hagree.ended parser.currentRevision
  refine ⟨_, rfl, ?_⟩
  exact { hended with
    inContributor := rfl
    currentRevision := hagree.currentRevision
    valid := ⟨hagree.valid.page, hagree.valid.idle⟩ }

theorem endElement {orders : ℕ → MapOrder} {name : Text}
    (hagree : AgreeWithin before textRead (name :: inner) parser own)
    (hended : ElementEnded lib store orders parser name next) :
    ∃ next', own.onEndElement lib store' orders name = .ok next' ∧
      AgreeWithin before (textRead || decide (name = Tag.text.name)) inner
        next next' := by
  cases hended with
  | page hmake => simpa using hagree.endPage
  | revision => exact absurd List.mem_cons_self hagree.outermost
  | contributor => simpa using hagree.endContributor
  | field hpage hrevision hcontributor hfield =>
      rcases hagree.endField hfield with ⟨written', hwritten, hkept⟩
      rw [onEndElement, if_neg hpage, if_neg hrevision, if_neg hcontributor, hwritten]
      exact ⟨_, rfl, hkept⟩

/-- One callback within the revision, made to both parsers. -/
theorem callback {call : Callback}
    (hagree : AgreeWithin before textRead inner parser own)
    (hopen : openAfter inner call.event = some inner')
    (hrevision : call.event ≠ .startElement Tag.revision.name)
    (hcall : parser.callback lib store call = .ok next) :
    ∃ next', own.callback lib store' call = .ok next' ∧
      AgreeWithin before
        (textRead || decide (call.event = .endElement Tag.text.name)) inner'
        next next' := by
  cases callback_called hcall with
  | startElement name =>
      rcases openAfter_start hopen with ⟨rfl, -⟩
      refine ⟨_, rfl, ?_⟩
      simpa using hagree.startElement (by simpa using hrevision)
  | endElement hended =>
      obtain rfl := openAfter_end hopen
      simpa [DumpParser.callback] using hagree.endElement hended
  | characters characters =>
      cases hopen
      exact ⟨_, rfl, by simpa using hagree.characters characters⟩

/-- The callbacks within the revision, made to both parsers. -/
theorem callbacks {body : List Callback}
    (hagree : AgreeWithin before textRead inner parser own)
    (hopen : (body.map Callback.event).foldlM openAfter inner = some inner')
    (hrevision : .startElement Tag.revision.name ∉ body.map Callback.event)
    (hbody : body.foldlM (DumpParser.callback lib store) parser = .ok next) :
    ∃ next', body.foldlM (DumpParser.callback lib store') own = .ok next' ∧
      AgreeWithin before
        (textRead || decide (.endElement Tag.text.name ∈ body.map Callback.event))
        inner' next next' := by
  induction body generalizing textRead inner parser own with
  | nil =>
      simp only [List.map_nil, List.foldlM_nil] at hopen hbody
      cases hopen
      cases hbody
      exact ⟨own, rfl, by simpa using hagree⟩
  | cons call body ih =>
      rw [List.map_cons, List.foldlM_cons] at hopen
      rw [List.map_cons, List.mem_cons, not_or] at hrevision
      rcases Option.bind_eq_some_iff.mp hopen with ⟨middle, hmiddle, hopen⟩
      rcases foldlM_cons_ok.mp hbody with ⟨between, hcall, hbody⟩
      rcases hagree.callback hmiddle (Ne.symm hrevision.1) hcall with
        ⟨between', hcall', hkept⟩
      rcases ih hkept hopen hrevision.2 hbody with ⟨next', hbody', hnext⟩
      refine ⟨next', foldlM_cons_ok.mpr ⟨between', hcall', hbody'⟩, ?_⟩
      simpa [Bool.or_assoc, eq_comm] using hnext

end AgreeWithin

/-- The end of a text is what the citations come from, and nothing else is. -/
theorem onEndField_citations {name : Text} (hwithin : parser.inRevision = true)
    (hend : parser.onEndField lib name = .ok next) :
    (name = Tag.text.name ∧
      lib.parser.parse parser.textBuf = .ok next.currentCitations) ∨
    (name ≠ Tag.text.name ∧ next.currentCitations = parser.currentCitations) := by
  unfold onEndField at hend
  split_ifs at hend with htitle hpageId hid hparent huser hcitations htime
  · obtain rfl : name = Tag.title.name := by simp_all
    cases hend
    exact Or.inr ⟨by simp, rfl⟩
  · simp [hwithin] at hpageId
  · obtain rfl : name = Tag.id.name := by simp_all
    rcases map_ok hend with ⟨revisionId, -, rfl⟩
    exact Or.inr ⟨by simp, rfl⟩
  · obtain rfl : name = Tag.parentid.name := by simp_all
    rcases map_ok hend with ⟨parentId, -, rfl⟩
    exact Or.inr ⟨by simp, rfl⟩
  · obtain rfl : name = Tag.username.name := by simp_all
    cases hend
    exact Or.inr ⟨by simp, rfl⟩
  · obtain rfl : name = Tag.text.name := by simp_all
    rcases map_ok hend with ⟨citations, hparse, rfl⟩
    exact Or.inl ⟨rfl, mapError_ok hparse⟩
  · obtain rfl : name = Tag.timestamp.name := by simp_all
    cases hend
    exact Or.inr ⟨by simp, rfl⟩
  · have hname : name ≠ Tag.text.name := by simp_all
    cases hend
    exact Or.inr ⟨hname, rfl⟩

theorem callback_citations {call : Callback} (hwithin : parser.inRevision = true)
    (hrevision : call.event ≠ .endElement Tag.revision.name)
    (hcall : parser.callback lib store call = .ok next) :
    (call.event = .endElement Tag.text.name ∧
      lib.parser.parse parser.textBuf = .ok next.currentCitations) ∨
    (call.event ≠ .endElement Tag.text.name ∧
      next.currentCitations = parser.currentCitations) := by
  cases callback_called hcall with
  | startElement name =>
      refine Or.inr ⟨by simp, ?_⟩
      unfold onStartElement
      split_ifs <;> rfl
  | endElement hended =>
      cases hended with
      | page hmake => exact Or.inr ⟨by simp, rfl⟩
      | revision => exact absurd rfl hrevision
      | contributor => exact Or.inr ⟨by simp, rfl⟩
      | field hpage hrevision hcontributor hfield =>
          simpa using onEndField_citations hwithin hfield
  | characters characters =>
      refine Or.inr ⟨by simp, ?_⟩
      rw [onCharacters_eq]

/-- The citations were read at the end of a text among the callbacks. -/
def ReadFrom (lib : Library) (store : Store σ) (start : DumpParser σ)
    (body : List Callback) (citations : StdMap Text ExtractedCitation) : Prop :=
  ∃ done call rest reading parsed, body = done ++ call :: rest ∧
    call.event = .endElement Tag.text.name ∧
    done.foldlM (callback lib store) start = .ok reading ∧
    lib.parser.parse reading.textBuf = .ok parsed ∧ parsed.citations = citations

/-- The citations at a point of a revision: those of the last text in it, or
what there was before it. -/
theorem callbacks_citations {body : List Callback} (hwithin : parser.inRevision = true)
    (hrevision : .endElement Tag.revision.name ∉ body.map Callback.event)
    (hbody : body.foldlM (callback lib store) parser = .ok next) :
    next.inRevision = true ∧
      ((.endElement Tag.text.name ∈ body.map Callback.event ∧
        ReadFrom lib store parser body next.currentCitations.citations) ∨
      (.endElement Tag.text.name ∉ body.map Callback.event ∧
        next.currentCitations = parser.currentCitations)) := by
  induction body using List.reverseRecOn generalizing next with
  | nil =>
      cases hbody
      exact ⟨hwithin, Or.inr ⟨by simp, rfl⟩⟩
  | append_singleton done call ih =>
      rcases foldlM_append_ok.mp hbody with ⟨reading, hdone, hcall⟩
      rcases foldlM_cons_ok.mp hcall with ⟨_, hcall, hnext⟩
      cases hnext
      simp only [List.map_append, List.map_cons, List.map_nil, List.mem_append,
        List.mem_singleton, not_or] at hrevision ⊢
      rcases ih hrevision.1 hdone with ⟨hreading, hcitations⟩
      have hflag := (callback_flags hcall).2.1
      have hnot := Ne.symm hrevision.2
      refine ⟨by simp [hflag, flagAfter, hreading, hnot], ?_⟩
      rcases callback_citations hreading hnot hcall with
        ⟨htext, hparse⟩ | ⟨htext, hkept⟩
      · exact Or.inl ⟨Or.inr htext.symm, done, call, [], reading, _, rfl, htext, hdone,
          hparse, rfl⟩
      · rw [hkept]
        rcases hcitations with ⟨hin, before, ended, rest, hread⟩ | ⟨hin, hsame⟩
        · rcases hread with ⟨reading', parsed, rfl, hread⟩
          exact Or.inl ⟨Or.inl hin, before, ended, rest ++ [call], reading', parsed,
            by simp, hread⟩
        · exact Or.inr ⟨⟨hin, Ne.symm htext⟩, hsame⟩

/-- What an entry is to be: the one that the callbacks of its revision make up on
their own, with the citations of a text in the revision, or none. -/
structure SelfContained (lib : Library) (store : Store σ) (start : DumpParser σ)
    (body : List Callback) (entry : RevisionCitations) : Prop where
  own : ownEntry lib body = .ok entry
  text : .endElement Tag.text.name ∈ body.map Callback.event →
    ReadFrom lib store start body entry.citations
  noText : .endElement Tag.text.name ∉ body.map Callback.event →
    entry.citations = ∅

theorem revisionEntry_own {body : List Callback}
    (hagree : AgreeWithin before false [] parser own)
    (hbody : openElements (body.map Callback.event) = some [])
    (hnested : .startElement Tag.revision.name ∉ body.map Callback.event)
    (hnext : body.foldlM (callback lib store) parser = .ok next) :
    ∃ next', body.foldlM (callback lib store') own = .ok next' ∧
      (next'.revisionEntry = next.revisionEntry ↔
        .endElement Tag.text.name ∈ body.map Callback.event ∨
          before.citations = ∅) := by
  rcases hagree.callbacks hbody hnested hnext with ⟨next', hnext', hkept⟩
  refine ⟨next', hnext', ?_⟩
  have hsame : next'.revisionEntry = next.revisionEntry ↔
      next'.currentCitations.citations = next.currentCitations.citations := by
    simp [revisionEntry, hkept.currentRevision]
  rw [hsame]
  by_cases htext : .endElement Tag.text.name ∈ body.map Callback.event
  · have hcitations := hkept.afterText (by simpa using htext)
    simp [htext, hcitations]
  · have hcitations := hkept.beforeText (by simpa using htext)
    simp [htext, hcitations.1, hcitations.2, eq_comm]

/-- In a page, outside of contributors and other revisions, an entry depends on
its own revision if and only if there is a text in the revision or no citation is
left over from before it. -/
theorem selfContained_iff (lib : Library) (store : Store σ) (self : DumpParser σ)
    {before body : List Callback} {opened : List Text} {state next : DumpParser σ}
    (hbefore : openElements (before.map Callback.event) = some opened)
    (hpage : Tag.page.name ∈ opened) (hrevision : Tag.revision.name ∉ opened)
    (hcontributor : Tag.contributor.name ∉ opened)
    (hbody : openElements (body.map Callback.event) = some [])
    (hnested : .startElement Tag.revision.name ∉ body.map Callback.event)
    (hstate : before.foldlM (callback lib store) self.initializeParser = .ok state)
    (hnext : body.foldlM (callback lib store)
      (state.onStartElement Tag.revision.name) = .ok next) :
    (∃ entry,
      next.onEndRevision.citationsByRevision = next.citationsByRevision ++ [entry] ∧
        SelfContained lib store (state.onStartElement Tag.revision.name) body entry) ↔
      .endElement Tag.text.name ∈ body.map Callback.event ∨
        state.currentCitations.citations = ∅ := by
  have hfollows := self.initializeParser_follows.callbacks hbefore hstate
  have hvalid : state.Valid := by
    have hrun := startParser_valid lib store self before
    rwa [startParser, (EventLoop.run_of_ok hstate).2] at hrun
  have hidle := hfollows.revision.eq_false hrevision
  have hagree : AgreeWithin state.currentCitations false []
      (state.onStartElement Tag.revision.name)
      ({ inPage := true, inRevision := true, stored := () } : DumpParser Unit) := {
    inPage := (hfollows.page.flag.mpr hpage).symm
    inRevision := rfl
    inContributor := (hfollows.contributor.eq_false hcontributor).symm
    currentRevision := (hvalid.idle hidle).symm
    text := by simp
    afterText := by simp
    beforeText := fun _ => ⟨rfl, rfl⟩
    within := rfl
    outermost := by simp
    valid := ⟨pageState_valid_start, fun _ => rfl⟩ }
  rcases revisionEntry_own hagree hbody hnested hnext with ⟨next', hnext', hsame⟩
  have hown : ownEntry lib body = .ok next'.revisionEntry := by
    rw [ownEntry, hnext']
    rfl
  have hended := endElement_not_mem hbody (by simp) hnested
  rcases callbacks_citations hagree.within hended hnext with ⟨-, hcitations⟩
  constructor
  · rintro ⟨entry, hentry, hself⟩
    obtain rfl : next.revisionEntry = entry := by simpa [onEndRevision] using hentry
    rw [← hsame, ← Except.ok.injEq, ← hown]
    exact hself.own
  · intro hcondition
    refine ⟨next.revisionEntry, rfl, ?_⟩
    have hequal := hsame.mpr hcondition
    constructor
    · rw [hown, hequal]
    · intro htext
      rcases hcitations with ⟨-, hread⟩ | ⟨hnot, -⟩
      · exact hread
      · exact absurd htext hnot
    · intro hnot
      rcases hcitations with ⟨htext, -⟩ | ⟨-, hkept⟩
      · exact absurd htext hnot
      · have hempty := hcondition.resolve_left hnot
        rw [revisionEntry, hkept]
        exact hempty

section Leak

def leakLibrary : Library where
  parser := ⟨fun _ => true, {}⟩
  timeFromString _ := none
  sort := .insertion

def fieldEvents (tag : Tag) (text : String) : List Event :=
  [.startElement tag.name, .characters text.toList, .endElement tag.name]

/-- A page up to the end of its first revision, which has a text. -/
def leakBefore : List Callback :=
  callbacks ([.startElement Tag.page.name, .startElement Tag.revision.name] ++
    fieldEvents .id "5" ++ fieldEvents .text "{{a|title=T}}" ++
    [.endElement Tag.revision.name]) fun _ _ => .ascending

/-- The callbacks of a second revision, without a text. -/
def leakBody : List Callback :=
  callbacks (fieldEvents .id "6") fun _ _ => .ascending

theorem leak_runs : ∃ state next : DumpParser InMemory,
      leakBefore.foldlM (callback leakLibrary InMemory.store)
          ({ stored := {} } : DumpParser InMemory).initializeParser = .ok state ∧
        leakBody.foldlM (callback leakLibrary InMemory.store)
          (state.onStartElement Tag.revision.name) = .ok next ∧
        next.revisionEntry.citations.toList =
          [("T".toList, { title? := some "T".toList })] := ⟨_, _, rfl, rfl, rfl⟩

theorem selfContained_iff_leak :
    ∃ state next : DumpParser InMemory,
      leakBefore.foldlM (callback leakLibrary InMemory.store)
          ({ stored := {} } : DumpParser InMemory).initializeParser = .ok state ∧
        leakBody.foldlM (callback leakLibrary InMemory.store)
          (state.onStartElement Tag.revision.name) = .ok next ∧
        ((∃ entry,
          next.onEndRevision.citationsByRevision =
              next.citationsByRevision ++ [entry] ∧
            SelfContained leakLibrary InMemory.store
              (state.onStartElement Tag.revision.name) leakBody entry) ↔
          .endElement Tag.text.name ∈ leakBody.map Callback.event ∨
            state.currentCitations.citations = ∅) := by
  rcases leak_runs with ⟨state, next, hstate, hnext, -⟩
  have hopened : openElements (leakBefore.map Callback.event) = some [Tag.page.name] := by
    decide
  exact ⟨state, next, hstate, hnext, selfContained_iff leakLibrary InMemory.store
    { stored := {} } hopened (by decide) (by decide) (by decide) (by decide) (by decide)
    hstate hnext⟩

/-- The entry of the second revision has the citations of the first. -/
theorem selfContained_leaks :
    ¬ ∀ (lib : Library) (self : DumpParser InMemory) (before body : List Callback)
        (opened : List Text) (state next : DumpParser InMemory),
      openElements (before.map Callback.event) = some opened →
      Tag.page.name ∈ opened → Tag.revision.name ∉ opened →
      Tag.contributor.name ∉ opened →
      openElements (body.map Callback.event) = some [] →
      .startElement Tag.revision.name ∉ body.map Callback.event →
      before.foldlM (callback lib InMemory.store) self.initializeParser = .ok state →
      body.foldlM (callback lib InMemory.store)
        (state.onStartElement Tag.revision.name) = .ok next →
      ∃ entry,
        next.onEndRevision.citationsByRevision = next.citationsByRevision ++ [entry] ∧
          SelfContained lib InMemory.store (state.onStartElement Tag.revision.name)
            body entry := by
  intro hclaim
  rcases leak_runs with ⟨state, next, hstate, hnext, hcitations⟩
  rcases hclaim leakLibrary { stored := {} } leakBefore leakBody [Tag.page.name] state
      next (by decide) (by decide) (by decide) (by decide) (by decide) (by decide)
      hstate hnext with ⟨entry, hentry, hself⟩
  obtain rfl : next.revisionEntry = entry := by simpa [onEndRevision] using hentry
  rw [hself.noText (by decide), Std.ExtTreeMap.toList_eq_nil_iff.mpr rfl] at hcitations
  cases hcitations

end Leak

end DumpParser

end Citescoop
