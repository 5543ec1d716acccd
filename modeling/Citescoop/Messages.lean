/-
The protocol buffer messages that the parsers exchange.  Singular fields have
presence: `field?` is what `has_field` and the setters see, and `field` is the
getter, which falls back to the default value.
-/
import Citescoop.Text

namespace Citescoop

/-- `std::map`: ascending keys.  A protobuf map field has the same contents;
its iteration order is not part of its value. -/
abbrev StdMap (κ : Type) [Ord κ] (α : Type) := Std.ExtTreeMap κ α

inductive UrlType where
  | default
  | archive
deriving Repr, DecidableEq

structure Url where
  type : UrlType
  url : Text
deriving Repr, DecidableEq

structure Identifiers where
  doi? : Option Text := none
  isbn? : Option Text := none
  pmid? : Option UInt32 := none
  pmcid? : Option UInt32 := none
  issn? : Option Text := none
deriving Repr, DecidableEq

structure ExtractedCitation where
  title? : Option Text := none
  identifiers? : Option Identifiers := none
  urls : List Url := []
deriving Repr, DecidableEq

def ExtractedCitation.title (citation : ExtractedCitation) : Text :=
  citation.title?.getD []

def ExtractedCitation.identifiers (citation : ExtractedCitation) : Identifiers :=
  citation.identifiers?.getD {}

/-- `mutable_identifiers`, followed by an update of the sub-message. -/
def ExtractedCitation.updateIdentifiers (citation : ExtractedCitation)
    (update : Identifiers → Identifiers) : ExtractedCitation :=
  { citation with identifiers? := some (update citation.identifiers) }

structure Timestamp where
  seconds : Int := 0
  nanos : Int := 0
deriving Repr, DecidableEq

structure Revision where
  revisionId? : Option UInt64 := none
  parentId? : Option UInt64 := none
  user? : Option Text := none
  timestamp? : Option Timestamp := none
deriving Repr, DecidableEq

def Revision.revisionId (revision : Revision) : UInt64 :=
  revision.revisionId?.getD 0

def Revision.timestamp (revision : Revision) : Timestamp :=
  revision.timestamp?.getD {}

/-- The citations of one revision, keyed by title. -/
structure RevisionCitations where
  revision? : Option Revision := none
  citations : StdMap Text ExtractedCitation := ∅
deriving DecidableEq

def RevisionCitations.revision (citations : RevisionCitations) : Revision :=
  citations.revision?.getD {}

/-- `citations.revision().revision_id()`. -/
def RevisionCitations.revisionId (citations : RevisionCitations) : UInt64 :=
  citations.revision.revisionId

structure Citation where
  citation? : Option ExtractedCitation := none
  revisionAdded? : Option UInt64 := none
  revisionRemoved? : Option UInt64 := none
deriving Repr, DecidableEq

def Citation.revisionRemoved (citation : Citation) : UInt64 :=
  citation.revisionRemoved?.getD 0

structure Page where
  title? : Option Text := none
  pageId? : Option UInt64 := none
  citations : List Citation := []
deriving Repr, DecidableEq

section ExtractedCitation

variable (citation : ExtractedCitation) (update : Identifiers → Identifiers)

@[simp] theorem ExtractedCitation.identifiers_updateIdentifiers :
    (citation.updateIdentifiers update).identifiers =
      update citation.identifiers := rfl

@[simp] theorem ExtractedCitation.identifiers?_updateIdentifiers :
    (citation.updateIdentifiers update).identifiers? =
      some (update citation.identifiers) := rfl

@[simp] theorem ExtractedCitation.title?_updateIdentifiers :
    (citation.updateIdentifiers update).title? = citation.title? := rfl

@[simp] theorem ExtractedCitation.urls_updateIdentifiers :
    (citation.updateIdentifiers update).urls = citation.urls := rfl

end ExtractedCitation

end Citescoop
