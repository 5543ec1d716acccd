/-
What a dump says in the fields whose texts stand for numbers and times, read off
the callbacks alone, and what the parser makes of it.  The callbacks before a
point of the dump are listed with the latest one first.
-/
import Citescoop.Numerals
import Citescoop.OpenElements

namespace Citescoop

/-- Whether the last tag of a kind is a start tag. -/
def isOpen (tag : Tag) (before : List Event) : Bool :=
  before.foldr (fun event flag => flagAfter tag.name flag event) false

/-- What has been read of an element that holds nothing but text. -/
inductive TextSince (name : Text) : List Event → Text → Prop
  | start (before : List Event) : TextSince name (.startElement name :: before) []
  | characters {before : List Event} {text : Text} (htext : TextSince name before text)
      (characters : Text) :
      TextSince name (.characters characters :: before) (text ++ characters)

theorem TextSince.unique {name text text' : Text} {before : List Event}
    (htext : TextSince name before text) (htext' : TextSince name before text') :
    text = text' := by
  induction htext generalizing text' with
  | start before =>
      cases htext'
      rfl
  | characters _ characters ih =>
      cases htext' with
      | characters htext' => rw [ih htext']

/-- The fields that are converted. -/
inductive DumpField where
  | pageId
  | revisionId
  | parentId
  | timestamp
deriving Repr, DecidableEq

namespace DumpField

def tag : DumpField → Tag
  | pageId => .id
  | revisionId => .id
  | parentId => .parentid
  | timestamp => .timestamp

/-- The element that a field tells about. -/
def owner : DumpField → Tag
  | pageId => .page
  | revisionId => .revision
  | parentId => .revision
  | timestamp => .revision

def Value : DumpField → Type
  | pageId => UInt64
  | revisionId => UInt64
  | parentId => UInt64
  | timestamp => Timestamp

/-- Where an element with the tag is this field. -/
def StandsIn : DumpField → List Event → Prop
  | pageId, before => isOpen .page before = true ∧ isOpen .revision before = false ∧
      isOpen .contributor before = false
  | revisionId, before => isOpen .revision before = true ∧ isOpen .contributor before = false
  | parentId, before => isOpen .revision before = true
  | timestamp, before => isOpen .revision before = true

def Ends (field : DumpField) (before : List Event) (event : Event) : Prop :=
  event = .endElement field.tag.name ∧ field.StandsIn before

/-- What a text stands for in a field. -/
def Means (lib : Library) : (field : DumpField) → Text → field.Value → Prop
  | pageId, text, number => Numeral text (UInt64.toNat number)
  | revisionId, text, number => Numeral text (UInt64.toNat number)
  | parentId, text, number => Numeral text (UInt64.toNat number)
  | timestamp, text, time => lib.timeFromString text = some time

/-- An element that ends here holds a text that stands for something. -/
def HasValue (lib : Library) (field : DumpField) (before : List Event) : Prop :=
  ∃ text value, TextSince field.tag.name before text ∧ field.Means lib text value

/-- The value of the last element of the kind, unless what it tells about has
ended since. -/
inductive Latest (lib : Library) (field : DumpField) : List Event → field.Value → Prop
  | here {before : List Event} {text : Text} {value : field.Value}
      (hstands : field.StandsIn before) (htext : TextSince field.tag.name before text)
      (hmeans : field.Means lib text value) :
      Latest lib field (.endElement field.tag.name :: before) value
  | earlier {event : Event} {before : List Event} {value : field.Value}
      (howner : event ≠ .endElement field.owner.name) (hother : ¬ field.Ends before event)
      (hlatest : Latest lib field before value) : Latest lib field (event :: before) value

variable {lib : Library} {field : DumpField} {before : List Event} {event : Event}

theorem Means.unique {text : Text} {value value' : field.Value}
    (hmeans : field.Means lib text value) (hmeans' : field.Means lib text value') :
    value = value' := by
  cases field with
  | pageId => exact UInt64.toNat_inj.mp (Numeral.unique hmeans hmeans')
  | revisionId => exact UInt64.toNat_inj.mp (Numeral.unique hmeans hmeans')
  | parentId => exact UInt64.toNat_inj.mp (Numeral.unique hmeans hmeans')
  | timestamp => exact Option.some.inj (hmeans.symm.trans hmeans')

theorem tag_ne_owner (field : DumpField) : field.tag ≠ field.owner := by
  cases field <;> decide

theorem not_latest_owner {value : field.Value} :
    ¬ Latest lib field (.endElement field.owner.name :: before) value := by
  intro hlatest
  generalize hevents : Event.endElement field.owner.name :: before = events at hlatest
  cases hlatest with
  | here hstands htext hmeans =>
      simp only [List.cons.injEq, Event.endElement.injEq, Tag.name_inj] at hevents
      exact field.tag_ne_owner hevents.1.symm
  | earlier howner hother hlatest =>
      exact howner (List.cons.inj hevents).1.symm

theorem latest_ends_iff (hends : field.Ends before event) {value : field.Value} :
    Latest lib field (event :: before) value ↔
      ∃ text, TextSince field.tag.name before text ∧ field.Means lib text value := by
  constructor
  · intro hlatest
    cases hlatest with
    | here hstands htext hmeans => exact ⟨_, htext, hmeans⟩
    | earlier howner hother hlatest => exact absurd hends hother
  · rintro ⟨text, htext, hmeans⟩
    obtain ⟨rfl, hstands⟩ := hends
    exact .here hstands htext hmeans

theorem latest_other_iff (howner : event ≠ .endElement field.owner.name)
    (hother : ¬ field.Ends before event) {value : field.Value} :
    Latest lib field (event :: before) value ↔ Latest lib field before value := by
  constructor
  · intro hlatest
    cases hlatest with
    | here hstands htext hmeans => exact absurd ⟨rfl, hstands⟩ hother
    | earlier howner hother hlatest => exact hlatest
  · exact .earlier howner hother

variable {σ : Type} {store : Store σ} {self next : DumpParser σ}

/-- What the parser has of the field. -/
def current : (field : DumpField) → DumpParser σ → Option field.Value
  | pageId, self => self.currentPage.pageId?
  | revisionId, self => self.currentRevision.revisionId?
  | parentId, self => self.currentRevision.parentId?
  | timestamp, self => self.currentRevision.timestamp?

/-- The conversion of the field. -/
def read (lib : Library) : (field : DumpField) → Text → Except DumpException field.Value
  | pageId, text => strToId text
  | revisionId, text => strToId text
  | parentId, text => strToId text
  | timestamp, text => .ok ((lib.timeFromString text).getD {})

/-- The field as the parser tells it from others. -/
def Within : DumpField → DumpParser σ → Prop
  | pageId, self => self.inPage = true ∧ self.inRevision = false ∧ self.inContributor = false
  | revisionId, self => self.inRevision = true ∧ self.inContributor = false
  | parentId, self => self.inRevision = true
  | timestamp, self => self.inRevision = true

theorem strToId_of_numeral {text : Text} {number recorded : UInt64}
    (hnumeral : Numeral text number.toNat) (hread : strToId text = .ok recorded) :
    recorded = number := by
  obtain ⟨value, hvalue, rfl⟩ := ExceptFold.map_ok hread
  obtain ⟨hleading, -, -⟩ := stol_eq_ok_iff.mp (ExceptFold.mapError_ok hvalue)
  have hbound := number.toNat_lt
  apply UInt64.toNat_inj.mp
  rw [hleading.unique hnumeral.leading, UInt64.ofInt, UInt64.toNat_ofNat']
  omega

/-- A text that stands for something is converted to that, or not at all. -/
theorem read_of_means {text : Text} {value recorded : field.Value}
    (hmeans : field.Means lib text value) (hread : field.read lib text = .ok recorded) :
    recorded = value := by
  cases field with
  | pageId => exact strToId_of_numeral hmeans hread
  | revisionId => exact strToId_of_numeral hmeans hread
  | parentId => exact strToId_of_numeral hmeans hread
  | timestamp =>
      have htime : lib.timeFromString text = some value := hmeans
      rw [read, htime] at hread
      exact (Except.ok.inj hread).symm

@[simp] theorem isOpen_cons (tag : Tag) (event : Event) (before : List Event) :
    isOpen tag (event :: before) = flagAfter tag.name (isOpen tag before) event := rfl

theorem standsIn_startElement :
    field.StandsIn (.startElement field.tag.name :: before) ↔ field.StandsIn before := by
  cases field <;> simp [StandsIn, flagAfter, tag]

theorem standsIn_characters (characters : Text) :
    field.StandsIn (.characters characters :: before) ↔ field.StandsIn before := by
  cases field <;> simp [StandsIn, flagAfter]

/-- The text of the field is collected from its start tag on. -/
theorem Within.onStartElement (hwithin : field.Within self) :
    self.onStartElement field.tag.name = { self with textBuf := [], shouldStore := true } := by
  have hfield : self.isField field.tag.name = true := by
    cases field <;> simp_all [Within, DumpParser.isField, tag]
  cases field <;> simp_all [DumpParser.onStartElement, tag]

theorem Within.unique {other : DumpField} (hwithin : field.Within self)
    (hother : other.Within self) (htag : field.tag = other.tag) : field = other := by
  cases field <;> cases other <;> simp_all [Within, tag]

/-- The end of an element writes to the field that the element is, and to no other. -/
theorem onEndField_current {name : Text} (hend : self.onEndField lib name = .ok next) :
    (∃ field : DumpField, name = field.tag.name ∧ field.Within self ∧
      (∃ value, field.read lib self.textBuf = .ok value ∧ field.current next = some value) ∧
      ∀ other : DumpField, other ≠ field → other.current next = other.current self) ∨
    (∀ field : DumpField, ¬ (name = field.tag.name ∧ field.Within self)) ∧
      ∀ field : DumpField, field.current next = field.current self := by
  unfold DumpParser.onEndField at hend
  simp only [Bool.and_eq_true, Bool.not_eq_true', beq_iff_eq] at hend
  split_ifs at hend with htitle hpageId hrevisionId hparentId huser htext htimestamp
  · cases hend
    refine Or.inr ⟨?_, fun field => by cases field <;> rfl⟩
    rintro field ⟨hname, -⟩
    cases field <;> simp [htitle.2, tag] at hname
  · obtain ⟨value, hvalue, rfl⟩ := ExceptFold.map_ok hend
    obtain ⟨⟨⟨hpage, hrevision⟩, hcontributor⟩, hname⟩ := hpageId
    refine Or.inl ⟨.pageId, hname, ⟨hpage, hrevision, hcontributor⟩, ⟨value, hvalue, rfl⟩, ?_⟩
    rintro (_ | _ | _ | _) hother
    · exact absurd rfl hother
    · rfl
    · rfl
    · rfl
  · obtain ⟨value, hvalue, rfl⟩ := ExceptFold.map_ok hend
    obtain ⟨⟨hrevision, hcontributor⟩, hname⟩ := hrevisionId
    refine Or.inl ⟨.revisionId, hname, ⟨hrevision, hcontributor⟩, ⟨value, hvalue, rfl⟩, ?_⟩
    rintro (_ | _ | _ | _) hother
    · rfl
    · exact absurd rfl hother
    · rfl
    · rfl
  · obtain ⟨value, hvalue, rfl⟩ := ExceptFold.map_ok hend
    refine Or.inl ⟨.parentId, hparentId.2, hparentId.1, ⟨value, hvalue, rfl⟩, ?_⟩
    rintro (_ | _ | _ | _) hother
    · rfl
    · rfl
    · exact absurd rfl hother
    · rfl
  · cases hend
    refine Or.inr ⟨?_, fun field => by cases field <;> rfl⟩
    rintro field ⟨hname, -⟩
    cases field <;> simp [huser.2, tag] at hname
  · obtain ⟨citations, -, rfl⟩ := ExceptFold.map_ok hend
    refine Or.inr ⟨?_, fun field => by cases field <;> rfl⟩
    rintro field ⟨hname, -⟩
    cases field <;> simp [htext.2, tag] at hname
  · cases hend
    refine Or.inl ⟨.timestamp, htimestamp.2, htimestamp.1, ⟨_, rfl, rfl⟩, ?_⟩
    rintro (_ | _ | _ | _) hother
    · rfl
    · rfl
    · rfl
    · exact absurd rfl hother
  · cases hend
    refine Or.inr ⟨?_, fun field => rfl⟩
    rintro field ⟨hname, hwithin⟩
    cases field with
    | pageId => exact hpageId ⟨⟨⟨hwithin.1, hwithin.2.1⟩, hwithin.2.2⟩, hname⟩
    | revisionId => exact hrevisionId ⟨⟨hwithin.1, hwithin.2⟩, hname⟩
    | parentId => exact hparentId ⟨hwithin, hname⟩
    | timestamp => exact htimestamp ⟨hwithin, hname⟩

theorem current_shouldStore (field : DumpField) (shouldStore : Bool) :
    field.current { self with shouldStore := shouldStore } = field.current self := by
  cases field <;> rfl

/-- A callback clears a field, writes it or leaves it. -/
theorem callback_current {call : Callback} (hcall : self.callback lib store call = .ok next)
    (field : DumpField) :
    (call.event = .endElement field.owner.name ∧ field.current next = none) ∨
    ((call.event = .endElement field.tag.name ∧ field.Within self) ∧
      ∃ value, field.read lib self.textBuf = .ok value ∧ field.current next = some value) ∨
    (call.event ≠ .endElement field.owner.name ∧
      ¬ (call.event = .endElement field.tag.name ∧ field.Within self) ∧
      field.current next = field.current self) := by
  cases DumpParser.callback_called hcall with
  | startElement name =>
      refine Or.inr (Or.inr ⟨by simp, by simp, ?_⟩)
      unfold DumpParser.onStartElement
      split_ifs <;> cases field <;> rfl
  | @endElement name _ _ hended =>
      cases hended with
      | page hmake =>
          cases field with
          | pageId => exact Or.inl ⟨rfl, rfl⟩
          | revisionId => exact Or.inr (Or.inr ⟨by simp [owner], by simp [tag], rfl⟩)
          | parentId => exact Or.inr (Or.inr ⟨by simp [owner], by simp [tag], rfl⟩)
          | timestamp => exact Or.inr (Or.inr ⟨by simp [owner], by simp [tag], rfl⟩)
      | revision =>
          cases field with
          | pageId => exact Or.inr (Or.inr ⟨by simp [owner], by simp [tag], rfl⟩)
          | revisionId => exact Or.inl ⟨rfl, rfl⟩
          | parentId => exact Or.inl ⟨rfl, rfl⟩
          | timestamp => exact Or.inl ⟨rfl, rfl⟩
      | contributor =>
          refine Or.inr (Or.inr ⟨?_, ?_, by cases field <;> rfl⟩)
          · cases field <;> simp [owner]
          · cases field <;> simp [tag]
      | @field _ written hpage hrevision hcontributor hfield =>
          have howner : Event.endElement name ≠ .endElement field.owner.name := by
            cases field <;> simpa [owner]
          simp only [current_shouldStore, Event.endElement.injEq, howner, ne_eq,
            not_false_eq_true, false_and, true_and, false_or]
          rcases onEndField_current hfield with
            ⟨ended, hname, hwithin, hread, hothers⟩ | ⟨hnone, hsame⟩
          · by_cases hended : field = ended
            · subst hended
              exact Or.inl ⟨⟨hname, hwithin⟩, hread⟩
            · refine Or.inr ⟨?_, hothers field hended⟩
              rintro ⟨hname', hwithin'⟩
              exact hended (hwithin'.unique hwithin
                ((Tag.name_inj _ _).mp (hname'.symm.trans hname)))
          · exact Or.inr ⟨hnone field, hsame field⟩
  | characters characters =>
      refine Or.inr (Or.inr ⟨by simp, by simp, ?_⟩)
      rw [DumpParser.onCharacters_eq]
      cases field <;> rfl

end DumpField

namespace DumpParser

open DumpField

/-- The flags are set by the callbacks so far, and the buffer holds the text of the
field that is being read. -/
structure Tracks {σ : Type} (before : List Event) (parser : DumpParser σ) : Prop where
  page : parser.inPage = isOpen .page before
  revision : parser.inRevision = isOpen .revision before
  contributor : parser.inContributor = isOpen .contributor before
  text : ∀ (field : DumpField) text, field.StandsIn before →
    TextSince field.tag.name before text → parser.textBuf = text ∧ parser.shouldStore = true

variable {σ : Type} {lib : Library} {store : Store σ} {self next : DumpParser σ}
  {before : List Event} {field : DumpField} {call : Callback}

theorem initializeParser_tracks (self : DumpParser σ) : self.initializeParser.Tracks [] where
  page := rfl
  revision := rfl
  contributor := rfl
  text _ _ _ htext := nomatch htext

theorem Tracks.standsIn_iff (htracks : self.Tracks before) :
    field.StandsIn before ↔ field.Within self := by
  cases field <;>
    simp [StandsIn, Within, htracks.page, htracks.revision, htracks.contributor]

theorem Tracks.callback (htracks : self.Tracks before)
    (hcall : self.callback lib store call = .ok next) : next.Tracks (call.event :: before) := by
  obtain ⟨hpage, hrevision, hcontributor⟩ := callback_flags hcall
  rw [htracks.page] at hpage
  rw [htracks.revision] at hrevision
  rw [htracks.contributor] at hcontributor
  refine ⟨hpage, hrevision, hcontributor, fun field text hstands htext => ?_⟩
  cases callback_called hcall with
  | startElement name =>
      cases htext
      have hwithin := htracks.standsIn_iff.mp (standsIn_startElement.mp hstands)
      rw [hwithin.onStartElement]
      exact ⟨rfl, rfl⟩
  | endElement hended => cases htext
  | characters characters =>
      cases htext with
      | characters htext characters =>
          obtain ⟨hbuffer, hstore⟩ :=
            htracks.text field _ ((standsIn_characters characters).mp hstands) htext
          rw [onCharacters, if_pos hstore, hbuffer]
          exact ⟨rfl, hstore⟩

/-- What the parser has of every field is the value of the last element of the
kind. -/
def HasLatest (lib : Library) (before : List Event) (self : DumpParser σ) : Prop :=
  ∀ (field : DumpField) (value : field.Value),
    field.current self = some value ↔ Latest lib field before value

theorem initializeParser_hasLatest (lib : Library) (self : DumpParser σ) :
    self.initializeParser.HasLatest lib [] := by
  intro field value
  have hnone : field.current self.initializeParser = none := by
    cases field <;> rfl
  rw [hnone]
  exact ⟨nofun, nofun⟩

/-- This is kept, as long as the elements that end have values. -/
theorem HasLatest.callback (hlatest : self.HasLatest lib before)
    (htracks : self.Tracks before)
    (hvalue : ∀ field : DumpField, field.Ends before call.event → field.HasValue lib before)
    (hcall : self.callback lib store call = .ok next) :
    next.HasLatest lib (call.event :: before) := by
  intro field value
  rcases callback_current hcall field with
    ⟨hevent, hnone⟩ | ⟨⟨hevent, hwithin⟩, recorded, hread, hsome⟩ | ⟨howner, hother, hsame⟩
  · rw [hnone, hevent]
    exact iff_of_false nofun not_latest_owner
  · have hends : field.Ends before call.event :=
      ⟨hevent, htracks.standsIn_iff.mpr hwithin⟩
    obtain ⟨text, meant, htext, hmeans⟩ := hvalue field hends
    rw [(htracks.text field text hends.2 htext).1] at hread
    rw [hsome, latest_ends_iff hends, read_of_means hmeans hread, Option.some.injEq]
    constructor
    · rintro rfl
      exact ⟨text, htext, hmeans⟩
    · rintro ⟨text', htext', hmeans'⟩
      rw [htext'.unique htext] at hmeans'
      exact hmeans.unique hmeans'
  · have hends : ¬ field.Ends before call.event := by
      rintro ⟨hevent, hstands⟩
      exact hother ⟨hevent, htracks.standsIn_iff.mp hstands⟩
    rw [hsame, latest_other_iff howner hends]
    exact hlatest field value

end DumpParser

end Citescoop
