/-
`DumpParser`: the state machine that libxml++ drives with SAX callbacks, and
what it does with the pages it has finished.
-/
import Citescoop.EventLoop
import Citescoop.MapEntries
import Citescoop.PageCitations

namespace Citescoop

/-- The elements that `DumpParser` knows by name. -/
inductive Tag where
  | page
  | revision
  | contributor
  | title
  | id
  | parentid
  | username
  | text
  | timestamp
deriving Repr, DecidableEq

def Tag.name : Tag → Text
  | page => "page".toList
  | revision => "revision".toList
  | contributor => "contributor".toList
  | title => "title".toList
  | id => "id".toList
  | parentid => "parentid".toList
  | username => "username".toList
  | text => "text".toList
  | timestamp => "timestamp".toList

@[simp] theorem Tag.name_inj (left right : Tag) :
    left.name = right.name ↔ left = right := by
  cases left <;> cases right <;> decide

inductive Event where
  | startElement (name : Text)
  | endElement (name : Text)
  | characters (characters : Text)
  | warning (text : Text)
  | error (text : Text)
  | fatalError (text : Text)
deriving Repr, DecidableEq

/-- A callback, with the order in which its loops over protobuf maps go. -/
structure Callback where
  event : Event
  orders : ℕ → MapOrder

/-- What the parser is built on: the citation parser, `TimeUtil::FromString`
and `std::ranges::sort`. -/
structure Library where
  parser : ParserImpl
  timeFromString : Text → Option Timestamp
  sort : RevisionSort

/-- An implementation of the virtual `Store`, on whatever it stores to. -/
abbrev Store (σ : Type) := StdMap UInt64 Revision → Page → σ → σ

structure DumpParser (σ : Type) extends PageState where
  inPage : Bool := false
  inRevision : Bool := false
  inContributor : Bool := false
  shouldStore : Bool := false
  textBuf : Text := []
  currentCitations : RevisionCitations := {}
  currentRevision : Revision := {}
  stored : σ

/-- `static_cast<uint64_t>(std::stol(text))`. -/
def strToId (text : Text) : Except DumpException UInt64 :=
  ((stol text).mapError .conversion).map UInt64.ofInt

namespace DumpParser

variable {σ : Type} (lib : Library) (store : Store σ)

/-- Whether the text of an element is wanted where it begins. -/
def isField (name : Text) (self : DumpParser σ) : Bool :=
  self.inPage && name == Tag.title.name || self.inPage && name == Tag.id.name ||
    self.inRevision && name == Tag.id.name ||
    self.inRevision && name == Tag.parentid.name ||
    self.inRevision && name == Tag.username.name ||
    self.inRevision && name == Tag.text.name ||
    self.inRevision && name == Tag.timestamp.name

def onStartElement (name : Text) (self : DumpParser σ) : DumpParser σ :=
  if name = Tag.page.name then { self with textBuf := [], inPage := true }
  else if name = Tag.revision.name then { self with textBuf := [], inRevision := true }
  else if name = Tag.contributor.name then
    { self with textBuf := [], inContributor := true }
  else if self.isField name then { self with textBuf := [], shouldStore := true }
  else { self with textBuf := [] }

def onCharacters (characters : Text) (self : DumpParser σ) : DumpParser σ :=
  if self.shouldStore then { self with textBuf := self.textBuf ++ characters }
  else self

/-- `FromString` leaves the timestamp at its default when it fails. -/
def onEndField (name : Text) (self : DumpParser σ) :
    Except DumpException (DumpParser σ) :=
  if self.inPage && name == Tag.title.name then
    .ok { self with currentPage :=
      { self.currentPage with title? := some self.textBuf } }
  else if self.inPage && !self.inRevision && !self.inContributor &&
      name == Tag.id.name then
    (strToId self.textBuf).map fun pageId =>
      { self with currentPage := { self.currentPage with pageId? := some pageId } }
  else if self.inRevision && !self.inContributor && name == Tag.id.name then
    (strToId self.textBuf).map fun revisionId =>
      { self with currentRevision :=
        { self.currentRevision with revisionId? := some revisionId } }
  else if self.inRevision && name == Tag.parentid.name then
    (strToId self.textBuf).map fun parentId =>
      { self with currentRevision :=
        { self.currentRevision with parentId? := some parentId } }
  else if self.inRevision && name == Tag.username.name then
    .ok { self with currentRevision :=
      { self.currentRevision with user? := some self.textBuf } }
  else if self.inRevision && name == Tag.text.name then
    ((lib.parser.parse self.textBuf).mapError .templateParse).map fun citations =>
      { self with currentCitations := citations }
  else if self.inRevision && name == Tag.timestamp.name then
    .ok { self with currentRevision :=
      { self.currentRevision with
        timestamp? := some ((lib.timeFromString self.textBuf).getD {}) } }
  else .ok self

/-- The page is stored and all that belongs to it is cleared. -/
def onEndPage (orders : ℕ → MapOrder) (self : DumpParser σ) :
    Except DumpException (DumpParser σ) :=
  (self.toPageState.makePageCitationList lib.sort orders).map fun page =>
    { self with
      toPageState := {}
      inPage := false
      stored := store page.revisionsToStore page.currentPage self.stored }

/-- The citations of the revision, as they are put down for the page. -/
def revisionEntry (self : DumpParser σ) : RevisionCitations :=
  { self.currentCitations with revision? := some self.currentRevision }

def onEndRevision (self : DumpParser σ) : DumpParser σ :=
  { self with
    inRevision := false
    currentCitations := self.revisionEntry
    citationsByRevision := self.citationsByRevision ++ [self.revisionEntry]
    currentPageRevisions := self.currentPageRevisions.insertIfNew
      self.currentRevision.revisionId self.currentRevision
    currentRevision := {} }

def onEndElement (orders : ℕ → MapOrder) (name : Text) (self : DumpParser σ) :
    Except DumpException (DumpParser σ) :=
  (if name = Tag.page.name then self.onEndPage lib store orders
    else if name = Tag.revision.name then .ok self.onEndRevision
    else if name = Tag.contributor.name then .ok { self with inContributor := false }
    else self.onEndField lib name).map fun next => { next with shouldStore := false }

/-- One callback.  When it throws, no other follows; members it may have changed
by then are among those that `initializeParser` sets anew. -/
def callback (self : DumpParser σ) (call : Callback) :
    Except DumpException (DumpParser σ) :=
  match call.event with
  | .startElement name => .ok (self.onStartElement name)
  | .endElement name => self.onEndElement lib store call.orders name
  | .characters characters => .ok (self.onCharacters characters)
  | .warning text => .error (.dumpParse text)
  | .error text => .error (.dumpParse text)
  | .fatalError text => .error (.dumpParse text)

/-- The text buffer and the current citations are left as they are. -/
def initializeParser (self : DumpParser σ) : DumpParser σ :=
  { self with
    toPageState := {}
    currentRevision := {}
    inPage := false
    inRevision := false
    inContributor := false
    shouldStore := false }

/-- `StartParser` on a stream from which libxml++ makes the given callbacks. -/
def startParser (self : DumpParser σ) (calls : List Callback) :
    EventLoop.Outcome DumpException (DumpParser σ) :=
  EventLoop.run (callback lib store) self.initializeParser calls

end DumpParser

/-- What `DumpParser` itself stores to. -/
structure InMemory where
  pages : List Page := []
  revisions : StdMap UInt64 Revision := ∅

def InMemory.store : Store InMemory := fun revisions page stored =>
  { pages := stored.pages ++ [page]
    revisions := MapEntries.insertAll stored.revisions revisions.toList }

namespace DumpParser

variable (lib : Library) (self : DumpParser InMemory) (calls : List Callback)

/-- The parse that `DumpParser::ParseXML` starts, with nothing stored yet. -/
def parseOutcome : EventLoop.Outcome DumpException (DumpParser InMemory) :=
  startParser lib InMemory.store { self with stored := {} } calls

/-- `DumpParser::ParseXML`. -/
def parseXML : Except DumpException (List Page × StdMap UInt64 Revision) :=
  match (parseOutcome lib self calls).exception? with
  | some exception => .error exception
  | none => .ok ((parseOutcome lib self calls).state.stored.pages,
      (parseOutcome lib self calls).state.stored.revisions)

end DumpParser

end Citescoop
