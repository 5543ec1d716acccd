/-
MediaWiki documents as trees, the events that libxml++ reports for them, and what
a direct walk of the tree finds in the pages and the revisions.
-/
import Citescoop.DumpParser

namespace Citescoop

/-- The text of an element, in the pieces in which it is reported. -/
abbrev Chunks := List Text

def Chunks.text (chunks : Chunks) : Text := chunks.flatten

/-- A name that the parser does not know. -/
abbrev OtherName := { name : Text // ∀ tag : Tag, name ≠ tag.name }

/-- The root of a dump. -/
def mediawiki : OtherName :=
  ⟨"mediawiki".toList, fun tag => by cases tag <;> decide⟩

/-- What may stand between the elements that the parser knows: white space, and
elements of other names. -/
inductive Filler where
  | characters (characters : Text)
  | element (name : OtherName) (content : List Filler)

inductive ContributorChild where
  | filler (filler : Filler)
  | username (chunks : Chunks)
  | id (chunks : Chunks)

namespace ContributorChild

def username? : ContributorChild → Option Chunks
  | username chunks => some chunks
  | _ => none

def id? : ContributorChild → Option Chunks
  | id chunks => some chunks
  | _ => none

end ContributorChild

/-- A contributor, with at most one user name and at most one id. -/
structure ContributorTree where
  username? : Option Chunks
  id? : Option Chunks
  children : List ContributorChild
  usernames : children.filterMap ContributorChild.username? = username?.toList
  ids : children.filterMap ContributorChild.id? = id?.toList

inductive RevisionChild where
  | filler (filler : Filler)
  | id (chunks : Chunks)
  | parentid (chunks : Chunks)
  | timestamp (chunks : Chunks)
  | text (chunks : Chunks)
  | contributor (contributor : ContributorTree)

namespace RevisionChild

def id? : RevisionChild → Option Chunks
  | id chunks => some chunks
  | _ => none

def parentid? : RevisionChild → Option Chunks
  | parentid chunks => some chunks
  | _ => none

def timestamp? : RevisionChild → Option Chunks
  | timestamp chunks => some chunks
  | _ => none

def text? : RevisionChild → Option Chunks
  | text chunks => some chunks
  | _ => none

def contributor? : RevisionChild → Option ContributorTree
  | contributor tree => some tree
  | _ => none

end RevisionChild

/-- A revision with its own id, timestamp and text, in any place among its
children, and at most one parent id and one contributor. -/
structure RevisionTree where
  id : Chunks
  timestamp : Chunks
  text : Chunks
  parentid? : Option Chunks
  contributor? : Option ContributorTree
  children : List RevisionChild
  ids : children.filterMap RevisionChild.id? = [id]
  timestamps : children.filterMap RevisionChild.timestamp? = [timestamp]
  texts : children.filterMap RevisionChild.text? = [text]
  parentids : children.filterMap RevisionChild.parentid? = parentid?.toList
  contributors :
    children.filterMap RevisionChild.contributor? = contributor?.toList

/-- A revision in which there is nothing that need not be there. -/
def historyRevision (id timestamp text : String) : RevisionTree where
  id := [id.toList]
  timestamp := [timestamp.toList]
  text := [text.toList]
  parentid? := none
  contributor? := none
  children := [.id [id.toList], .timestamp [timestamp.toList], .text [text.toList]]
  ids := rfl
  timestamps := rfl
  texts := rfl
  parentids := rfl
  contributors := rfl

inductive PageChild where
  | filler (filler : Filler)
  | title (chunks : Chunks)
  | id (chunks : Chunks)
  | contributor (contributor : ContributorTree)
  | revision (revision : RevisionTree)

namespace PageChild

def title? : PageChild → Option Chunks
  | title chunks => some chunks
  | _ => none

def id? : PageChild → Option Chunks
  | id chunks => some chunks
  | _ => none

def revision? : PageChild → Option RevisionTree
  | revision tree => some tree
  | _ => none

end PageChild

/-- A page with any number of revisions.  A page that is read up to one of its
children has a title and an id only if it has come to them. -/
structure PageTree where
  title? : Option Chunks
  id? : Option Chunks
  children : List PageChild
  titles : children.filterMap PageChild.title? = title?.toList
  ids : children.filterMap PageChild.id? = id?.toList

def PageTree.revisions (page : PageTree) : List RevisionTree :=
  page.children.filterMap PageChild.revision?

inductive DocumentChild where
  | filler (filler : Filler)
  | page (page : PageTree)

def DocumentChild.page? : DocumentChild → Option PageTree
  | page tree => some tree
  | filler _ => none

structure DocumentTree where
  root : OtherName
  children : List DocumentChild

def DocumentTree.pages (document : DocumentTree) : List PageTree :=
  document.children.filterMap DocumentChild.page?

section Events

def leafEvents (name : Text) (chunks : Chunks) : List Event :=
  .startElement name :: chunks.map .characters ++ [.endElement name]

mutual

def Filler.events : Filler → List Event
  | .characters text => [.characters text]
  | .element name content =>
      .startElement name :: Filler.eventsOf content ++ [.endElement name]

def Filler.eventsOf : List Filler → List Event
  | [] => []
  | filler :: fillers => filler.events ++ Filler.eventsOf fillers

end

def ContributorChild.events : ContributorChild → List Event
  | .filler between => between.events
  | .username chunks => leafEvents Tag.username.name chunks
  | .id chunks => leafEvents Tag.id.name chunks

def ContributorTree.events (tree : ContributorTree) : List Event :=
  .startElement Tag.contributor.name :: tree.children.flatMap ContributorChild.events ++
    [.endElement Tag.contributor.name]

def RevisionChild.events : RevisionChild → List Event
  | .filler between => between.events
  | .id chunks => leafEvents Tag.id.name chunks
  | .parentid chunks => leafEvents Tag.parentid.name chunks
  | .timestamp chunks => leafEvents Tag.timestamp.name chunks
  | .text chunks => leafEvents Tag.text.name chunks
  | .contributor tree => tree.events

def RevisionTree.events (tree : RevisionTree) : List Event :=
  .startElement Tag.revision.name :: tree.children.flatMap RevisionChild.events ++
    [.endElement Tag.revision.name]

def PageChild.events : PageChild → List Event
  | .filler between => between.events
  | .title chunks => leafEvents Tag.title.name chunks
  | .id chunks => leafEvents Tag.id.name chunks
  | .contributor tree => tree.events
  | .revision tree => tree.events

/-- The page without its end tag. -/
def PageTree.openEvents (tree : PageTree) : List Event :=
  .startElement Tag.page.name :: tree.children.flatMap PageChild.events

def PageTree.events (tree : PageTree) : List Event :=
  tree.openEvents ++ [.endElement Tag.page.name]

def DocumentChild.events : DocumentChild → List Event
  | .filler between => between.events
  | .page tree => tree.events

/-- The document without its end tag. -/
def DocumentTree.openEvents (document : DocumentTree) : List Event :=
  .startElement document.root :: document.children.flatMap DocumentChild.events

def DocumentTree.events (document : DocumentTree) : List Event :=
  document.openEvents ++ [.endElement document.root]

end Events

section Walk

variable (lib : Library)

/-- The name of the user in a contributor. -/
def ContributorTree.user? (tree : ContributorTree) : Option Text :=
  tree.username?.map Chunks.text

/-- An id, where there is one to be found; `none` when it is not a number. -/
def walkId? (chunks? : Option Chunks) : Option (Option UInt64) :=
  match chunks? with
  | none => some none
  | some chunks => (strToId chunks.text).toOption.map some

/-- What the revision says about itself; `none` when one of its numbers is not a
number, or when the citation parser throws on its text. -/
def RevisionTree.walk (tree : RevisionTree) : Option RevisionCitations := do
  let revisionId ← (strToId tree.id.text).toOption
  let parentId? ← walkId? tree.parentid?
  let citations ← (lib.parser.parse tree.text.text).toOption
  return { citations with
    revision? := some {
      revisionId? := some revisionId
      parentId? := parentId?
      user? := tree.contributor?.bind ContributorTree.user?
      timestamp? := some ((lib.timeFromString tree.timestamp.text).getD {}) } }

/-- The page and the revisions that stand in it; of revisions with one id the
first is known under it. -/
def PageTree.walk (tree : PageTree) : Option PageState := do
  let pageId? ← walkId? tree.id?
  let entries ← tree.revisions.mapM (RevisionTree.walk lib)
  return {
    currentPage := { title? := tree.title?.map Chunks.text, pageId? := pageId? }
    citationsByRevision := entries
    currentPageRevisions := MapEntries.insertAll ∅
      (entries.map fun entry => (entry.revisionId, entry.revision)) }

variable {σ : Type} (store : Store σ)

/-- One page after the other is stored. -/
def DocumentTree.walk (document : DocumentTree) (stored : σ) : Option σ :=
  document.pages.foldlM (fun stored page => do
    let state ← page.walk lib
    let ended ← (state.makePageCitationList lib.sort fun _ => .ascending).toOption
    return store ended.revisionsToStore ended.currentPage stored) stored

end Walk

end Citescoop
