/-
The message classes that are written to PBF files, and what a sequence of writers
on one output stream leaves in it.
-/
import Citescoop.Coder
import Citescoop.FileRoundTrip
import Citescoop.SnapshotExtract

namespace Citescoop

inductive PbfKind where
  | page
  | revision
  | author
  | institution
  | work
deriving Repr, DecidableEq

inductive PbfMessage where
  | page (message : Page)
  | revision (message : Revision)
  | author (message : Author)
  | institution (message : Institution)
  | work (message : Work)
deriving Repr, DecidableEq

def PbfMessage.kind : PbfMessage → PbfKind
  | page _ => .page
  | revision _ => .revision
  | author _ => .author
  | institution _ => .institution
  | work _ => .work

/-- Protobuf with the classes of the files. -/
structure PbfLibrary (Stream : Type) extends Protobuf Stream PbfKind PbfMessage where
  kindOf_eq (message : PbfMessage) : kindOf message = message.kind

namespace Protobuf

variable {Stream Kind Message : Type} (protobuf : Protobuf Stream Kind Message)

/-- What an output stream holds after more messages. -/
def written (output : List UInt8) (messages : List Message) : List UInt8 :=
  ((protobuf.writeMessages messages).run output).2

/-- Calls that read one message of a class each. -/
def readsOf (kind : Kind) (sizes : List (Vector UInt8 4)) : List (ReadCall Kind) :=
  sizes.map fun size => ⟨kind, size⟩

/-- The bytes that the frames of the messages take. -/
def framedLength (messages : List Message) : ℕ :=
  (messages.map fun message => 4 + (protobuf.serialize message).length).sum

variable {protobuf}

@[simp] theorem written_nil (output : List UInt8) : protobuf.written output [] = output :=
  rfl

theorem written_cons (output : List UInt8) (message : Message) (messages : List Message) :
    protobuf.written output (message :: messages) =
      protobuf.written ((protobuf.writeMessage message).run output).2 messages :=
  run_writeMessages_cons message messages output

theorem written_append (output : List UInt8) (messages messages' : List Message) :
    protobuf.written output (messages ++ messages') =
      protobuf.written (protobuf.written output messages) messages' := by
  induction messages generalizing output with
  | nil => rfl
  | cons message messages ih => rw [List.cons_append, written_cons, ih, written_cons]

theorem written_concat (output : List UInt8) (messages : List Message) (message : Message) :
    protobuf.written output (messages ++ [message]) =
      ((protobuf.writeMessage message).run (protobuf.written output messages)).2 := by
  rw [written_append, written_cons, written_nil]

theorem length_lt_of_framedLength {messages : List Message}
    (hlength : protobuf.framedLength messages ≤ totalBytesLimit) :
    ∀ message ∈ messages, (protobuf.serialize message).length < 2 ^ 31 := by
  intro message hmessage
  have hle := List.single_le_sum (l := messages.map fun message =>
    4 + (protobuf.serialize message).length) (fun _ _ => Nat.zero_le _) _
      (List.mem_map_of_mem hmessage)
  simp only [framedLength, totalBytesLimit] at hlength
  omega

/-- A file from which a new reader reads these messages of one class, up to its
last byte. -/
def Reads (protobuf : Protobuf Stream Kind Message) (kind : Kind) (bytes : List UInt8)
    (messages : List Message) : Prop :=
  ∀ sizes : List (Vector UInt8 4), sizes.length = messages.length →
    ∃ next, protobuf.readFile (readsOf kind sizes) bytes = (messages.map some, next) ∧
      (protobuf.view next).position = bytes.length

theorem reads_written {messages : List Message} {kind : Kind}
    (hkinds : ∀ message ∈ messages, protobuf.kindOf message = kind)
    (hlength : protobuf.framedLength messages ≤ totalBytesLimit) :
    protobuf.Reads kind (protobuf.written [] messages) messages := by
  intro sizes hsizes
  have hmessages := length_lt_of_framedLength hlength
  have hcalls : (readsOf kind sizes).map ReadCall.kind = messages.map protobuf.kindOf := by
    rw [List.map_congr_left hkinds, readsOf, List.map_map, List.map_const', ← hsizes]
    exact List.map_const' ..
  apply readFile_file hmessages hcalls
  rw [length_file protobuf hmessages]
  exact hlength

/-- The first message of a file, and the file that the others make. -/
theorem frame?_file_cons {message : Message} {messages : List Message} {kind : Kind}
    (hkind : protobuf.kindOf message = kind)
    (hlengths : ∀ other ∈ message :: messages, (protobuf.serialize other).length < 2 ^ 31)
    (more : List UInt8) :
    Framing.frame? (protobuf.parses kind) (protobuf.file (message :: messages) ++ more) =
      some (message, protobuf.file messages ++ more) := by
  rw [List.forall_mem_cons] at hlengths
  have hmessage : (protobuf.serialize message).length < 2 ^ 32 :=
    Nat.lt_trans hlengths.1 (by decide)
  have hfile : protobuf.file (message :: messages) =
      Framing.frame (protobuf.serialize message) ++ protobuf.file messages := by
    rw [file_eq (List.forall_mem_cons.mpr hlengths), file_eq hlengths.2, List.flatMap_cons]
  rw [hfile, List.append_assoc, ← hkind]
  exact Framing.frame?_frame hmessage (protobuf.parses_serialize message) _

/-- One file begins with the bytes of another exactly when its messages begin with
those of the other. -/
theorem file_isPrefix_iff {messages messages' : List Message} {kind : Kind}
    (hkinds : ∀ message ∈ messages ++ messages', protobuf.kindOf message = kind)
    (hlengths : ∀ message ∈ messages ++ messages',
      (protobuf.serialize message).length < 2 ^ 31) :
    protobuf.file messages <+: protobuf.file messages' ↔ messages <+: messages' := by
  rw [List.forall_mem_append] at hkinds hlengths
  constructor
  · rintro ⟨more, hmore⟩
    induction messages generalizing messages' with
    | nil => exact List.nil_prefix
    | cons message messages ih =>
        have hframe := frame?_file_cons (hkinds.1 message List.mem_cons_self) hlengths.1 more
        rw [hmore] at hframe
        cases messages' with
        | nil => cases hframe
        | cons message' messages' =>
            have hframe' := frame?_file_cons (hkinds.2 message' List.mem_cons_self) hlengths.2 []
            rw [List.append_nil, List.append_nil, hframe, Option.some.injEq,
              Prod.mk.injEq] at hframe'
            obtain ⟨rfl, hrest⟩ := hframe'
            rw [List.forall_mem_cons, List.forall_mem_cons] at hkinds hlengths
            rw [List.prefix_cons_inj]
            exact ih ⟨hkinds.1.2, hkinds.2.2⟩ ⟨hlengths.1.2, hlengths.2.2⟩ hrest
  · rintro ⟨more, rfl⟩
    rw [file_eq hlengths.1, file_eq hlengths.2, List.flatMap_append]
    exact List.prefix_append _ _

/-- A file of two counts in front of one of three. -/
theorem file_isPrefix_iff_counts :
    countProtobuf.file [5, 0] <+: countProtobuf.file [5, 0, 127] ↔
      ([5, 0] : List (Fin 128)) <+: [5, 0, 127] := by
  have hkinds : ∀ count ∈ ([5, 0] ++ [5, 0, 127] : List (Fin 128)),
      countProtobuf.kindOf count = () := by decide
  exact file_isPrefix_iff hkinds (by decide)

end Protobuf

section Sample

instance : Coder UInt32 :=
  .ofInverse UInt32.toNat UInt32.ofNat fun _ => UInt32.ofNat_toNat

instance : Coder UInt64 :=
  .ofInverse UInt64.toNat UInt64.ofNat fun _ => UInt64.ofNat_toNat

instance : Coder Int :=
  .ofInverse (fun number => (number.toNat, (-number).toNat))
    (fun code => (code.1 : Int) - code.2) fun number => by
      simp only
      omega

instance : Coder Char :=
  .ofInverse Char.toNat Char.ofNat Char.ofNat_toNat

instance : Coder Timestamp :=
  .ofInverse (fun timestamp => (timestamp.seconds, timestamp.nanos))
    (fun code => ⟨code.1, code.2⟩) fun _ => rfl

instance : Coder Identifiers :=
  .ofInverse
    (fun ids => (ids.doi?, ids.isbn?, ids.pmid?, ids.pmcid?, ids.issn?))
    (fun (doi?, isbn?, pmid?, pmcid?, issn?) => ⟨doi?, isbn?, pmid?, pmcid?, issn?⟩)
    fun _ => rfl

instance : Coder Url :=
  .ofInverse (fun url => (decide (url.type = .archive), url.url))
    (fun code => ⟨if code.1 then .archive else .default, code.2⟩) fun url => by
      rcases url with ⟨_ | _, text⟩ <;> rfl

instance : Coder ExtractedCitation :=
  .ofInverse (fun citation => (citation.title?, citation.identifiers?, citation.urls))
    (fun code => ⟨code.1, code.2.1, code.2.2⟩) fun _ => rfl

instance : Coder Citation :=
  .ofInverse
    (fun citation => (citation.citation?, citation.revisionAdded?, citation.revisionRemoved?))
    (fun code => ⟨code.1, code.2.1, code.2.2⟩) fun _ => rfl

instance : Coder Page :=
  .ofInverse (fun page => (page.title?, page.pageId?, page.citations))
    (fun code => ⟨code.1, code.2.1, code.2.2⟩) fun _ => rfl

instance : Coder Revision :=
  .ofInverse
    (fun revision =>
      (revision.revisionId?, revision.parentId?, revision.user?, revision.timestamp?))
    (fun (revisionId?, parentId?, user?, timestamp?) =>
      ⟨revisionId?, parentId?, user?, timestamp?⟩)
    fun _ => rfl

instance : Coder Author :=
  .ofInverse (fun author => (author.openalexId, author.name?, author.orcid?))
    (fun code => ⟨code.1, code.2.1, code.2.2⟩) fun _ => rfl

instance : Coder Institution :=
  .ofInverse (fun institution => (institution.openalexId, institution.name?, institution.ror?))
    (fun code => ⟨code.1, code.2.1, code.2.2⟩) fun _ => rfl

instance : Coder OaCategory :=
  .ofInverse OaCategory.ctorIdx OaCategory.ofNat OaCategory.ofNat_ctorIdx

instance : Coder Language :=
  .ofInverse Language.number Language.mk fun _ => rfl

instance : Coder Work :=
  .ofInverse
    (fun work => (work.openalexId, work.title?, work.publicationDate?, work.language?,
      work.oaStatus, work.oaUrl?, work.authorIds, work.institutionIds, work.ids))
    (fun (openalexId, title?, publicationDate?, language?, oaStatus, oaUrl?, authorIds,
        institutionIds, ids) =>
      ⟨openalexId, title?, publicationDate?, language?, oaStatus, oaUrl?, authorIds,
        institutionIds, ids⟩)
    fun _ => rfl

namespace PbfKind

/-- The message of the class in which nothing is set. -/
def default : PbfKind → PbfMessage
  | page => .page {}
  | revision => .revision {}
  | author => .author { openalexId := [] }
  | institution => .institution { openalexId := [] }
  | work => .work { openalexId := [] }

def decode (kind : PbfKind) (bytes : List UInt8) : Option (PbfMessage × List UInt8) :=
  match kind with
  | page => (Coder.decode bytes).map fun decoded => (.page decoded.1, decoded.2)
  | revision => (Coder.decode bytes).map fun decoded => (.revision decoded.1, decoded.2)
  | author => (Coder.decode bytes).map fun decoded => (.author decoded.1, decoded.2)
  | institution => (Coder.decode bytes).map fun decoded => (.institution decoded.1, decoded.2)
  | work => (Coder.decode bytes).map fun decoded => (.work decoded.1, decoded.2)

/-- A message in which nothing is set takes no bytes. -/
def parses (kind : PbfKind) (bytes : List UInt8) : Option PbfMessage :=
  if bytes.isEmpty then some kind.default
  else (kind.decode bytes).map Prod.fst

end PbfKind

namespace PbfMessage

def encode : PbfMessage → List UInt8
  | page message => Coder.encode message
  | revision message => Coder.encode message
  | author message => Coder.encode message
  | institution message => Coder.encode message
  | work message => Coder.encode message

theorem decode_encode (message : PbfMessage) :
    message.kind.decode message.encode = some (message, []) := by
  cases message <;> simp [kind, encode, PbfKind.decode, Coder.decode_encode_nil]

def serialize (message : PbfMessage) : List UInt8 :=
  if message = message.kind.default then [] else message.encode

theorem encode_ne_nil (message : PbfMessage) : message.encode ≠ [] := by
  intro hnil
  have hdecode := message.decode_encode
  have hnone : message.kind.decode [] = none := by
    cases message.kind <;> rfl
  rw [hnil, hnone] at hdecode
  cases hdecode

theorem parses_serialize (message : PbfMessage) :
    message.kind.parses message.serialize = some message := by
  rw [serialize, PbfKind.parses]
  by_cases hdefault : message = message.kind.default
  · rw [if_pos hdefault, List.isEmpty_nil, if_pos rfl, ← hdefault]
  · rw [if_neg hdefault, if_neg (by simpa using message.encode_ne_nil), decode_encode]
    rfl

end PbfMessage

/-- The streams of the smaller sample, and a format of its own for whatever is set in a
message. -/
def samplePbf : PbfLibrary Protobuf.ViewedStream where
  codedInputStream := Protobuf.countProtobuf.codedInputStream
  readRaw := Protobuf.countProtobuf.readRaw
  pushLimit := Protobuf.countProtobuf.pushLimit
  popLimit := Protobuf.countProtobuf.popLimit
  parseFromCodedStream kind := Protobuf.ViewedStream.parseAll kind.parses kind.default
  byteSizeLong message := message.serialize.length
  serializeToOstream message output := (true, output ++ message.serialize)
  kindOf := PbfMessage.kind
  serialize := PbfMessage.serialize
  parses := PbfKind.parses
  view := Protobuf.countProtobuf.view
  view_codedInputStream := Protobuf.countProtobuf.view_codedInputStream
  readRaw_eq := Protobuf.countProtobuf.readRaw_eq
  view_readRaw := Protobuf.countProtobuf.view_readRaw
  pushLimit_eq := Protobuf.countProtobuf.pushLimit_eq
  view_pushLimit := Protobuf.countProtobuf.view_pushLimit
  view_popLimit := Protobuf.countProtobuf.view_popLimit
  parseFromCodedStream_eq kind stream message hparses := by
    have hrest : kind.parses stream.view.rest = some message := hparses
    change ((kind.parses stream.view.rest).isSome,
      (kind.parses stream.view.rest).getD kind.default) = _
    rw [hrest]
    rfl
  view_parseFromCodedStream _ _ _ _ := rfl
  position_le := Protobuf.countProtobuf.position_le
  byteSizeLong_eq _ := rfl
  serializeToOstream_eq _ _ _ := rfl
  parses_serialize := PbfMessage.parses_serialize
  kindOf_eq _ := rfl

end Sample

end Citescoop
