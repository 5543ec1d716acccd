/-
`TextExtractor` and `Bz2Extractor`: each call of `Extract` has a parser of its own,
over the stream as it is or over what the decompressor makes of it, and the
streaming overload appends to the streams that it is given.
-/
import Citescoop.DocumentTree
import Citescoop.PbfMessages
import Citescoop.StateSimulation
import Citescoop.Streaming

namespace Citescoop

open StateSimulation

/-- libxml++, with the callbacks that it makes on the bytes of a stream, and Boost's
`bzip2_decompressor`. -/
structure InputLibrary where
  callbacks : List UInt8 → List Event
  decompress : List UInt8 → List UInt8

/-- The two streams that the streaming overload of `Extract` writes to. -/
structure Outputs where
  pages : List UInt8 := []
  revisions : List UInt8 := []
deriving Repr, DecidableEq

/-- What the two writers have written to, and the counters. -/
structure Written where
  outputs : Outputs := {}
  pagesWritten : UInt64 := 0
  revisionsWritten : UInt64 := 0

section Program

variable {Stream : Type} (pbf : PbfLibrary Stream)

namespace Written

def writePage (page : Page) (written : Written) : Written :=
  { written with
    outputs := { written.outputs with
      pages := ((pbf.writeMessage (.page page)).run written.outputs.pages).2 }
    pagesWritten := written.pagesWritten + 1 }

def writeRevision (written : Written) (revision : Revision) : Written :=
  { written with
    outputs := { written.outputs with
      revisions := ((pbf.writeMessage (.revision revision)).run written.outputs.revisions).2 }
    revisionsWritten := written.revisionsWritten + 1 }

/-- `StreamingDumpParser::Store`, down to the bytes. -/
def store : Store Written := fun revisions page written =>
  (revisions.toList.map Prod.snd).foldl (writeRevision pbf) (written.writePage pbf page)

end Written

variable (lib : Library) (inputs : InputLibrary)

/-- `StreamingDumpParser::ParseXML` on two output streams.  They keep what was
written before an exception. -/
def DumpParser.parseXMLTo (self : DumpParser Written) (calls : List Callback) :
    EStateM DumpException Outputs (UInt64 × UInt64) := fun outputs =>
  let outcome := self.withStored { self.stored with outputs } |>.startParser lib
    (Written.store pbf) calls
  let written := outcome.state.stored
  match outcome.exception? with
  | some exception => .error exception written.outputs
  | none => .ok (written.pagesWritten, written.revisionsWritten) written.outputs

namespace TextExtractor

variable (input : List UInt8) (orders : ℕ → ℕ → MapOrder)

def extract : Except DumpException (List Page × StdMap UInt64 Revision) :=
  DumpParser.parseXML lib { stored := {} } (callbacks (inputs.callbacks input) orders)

def extractTo : EStateM DumpException Outputs (UInt64 × UInt64) :=
  DumpParser.parseXMLTo pbf lib { stored := {} } (callbacks (inputs.callbacks input) orders)

end TextExtractor

namespace Bz2Extractor

variable (input : List UInt8) (orders : ℕ → ℕ → MapOrder)

def extract : Except DumpException (List Page × StdMap UInt64 Revision) :=
  DumpParser.parseXML lib { stored := {} }
    (callbacks (inputs.callbacks (inputs.decompress input)) orders)

def extractTo : EStateM DumpException Outputs (UInt64 × UInt64) :=
  DumpParser.parseXMLTo pbf lib { stored := {} }
    (callbacks (inputs.callbacks (inputs.decompress input)) orders)

end Bz2Extractor

inductive ExtractorClass where
  | text
  | bz2
deriving Repr, DecidableEq

/-- A call of `Extract`, with the orders in which its loops over protobuf maps go. -/
structure ExtractCall where
  extractor : ExtractorClass
  input : List UInt8
  orders : ℕ → ℕ → MapOrder

namespace ExtractCall

variable (call : ExtractCall)

def extract : Except DumpException (List Page × StdMap UInt64 Revision) :=
  match call.extractor with
  | .text => TextExtractor.extract lib inputs call.input call.orders
  | .bz2 => Bz2Extractor.extract lib inputs call.input call.orders

def extractTo : EStateM DumpException Outputs (UInt64 × UInt64) :=
  match call.extractor with
  | .text => TextExtractor.extractTo pbf lib inputs call.input call.orders
  | .bz2 => Bz2Extractor.extractTo pbf lib inputs call.input call.orders

end ExtractCall

/-- Streaming calls one after the other, on the same two streams. -/
def extractAllTo (calls : List ExtractCall) :
    StateM Outputs (List (Except DumpException (UInt64 × UInt64))) :=
  attemptAll (calls.map (ExtractCall.extractTo pbf lib inputs))

end Program

section Files

variable {Stream : Type} {pbf : PbfLibrary Stream}

/-- What an output stream of pages and one of revisions hold after more messages. -/
def Outputs.after (pbf : PbfLibrary Stream) (outputs : Outputs) (pages : List Page)
    (revisions : List Revision) : Outputs where
  pages := pbf.written outputs.pages (pages.map .page)
  revisions := pbf.written outputs.revisions (revisions.map .revision)

@[simp] theorem Outputs.after_nil (outputs : Outputs) :
    outputs.after pbf [] [] = outputs :=
  rfl

theorem Outputs.after_append (outputs : Outputs) (pages pages' : List Page)
    (revisions revisions' : List Revision) :
    outputs.after pbf (pages ++ pages') (revisions ++ revisions') =
      (outputs.after pbf pages revisions).after pbf pages' revisions' := by
  simp only [after, List.map_append, Protobuf.written_append]

namespace Written

/-- The messages of a streaming parse, in its output streams. -/
structure Holds (pbf : PbfLibrary Stream) (before : Outputs) (streamed : Streamed)
    (written : Written) : Prop where
  outputs : written.outputs = before.after pbf streamed.pages streamed.revisions
  pagesWritten : written.pagesWritten = streamed.pagesWritten
  revisionsWritten : written.revisionsWritten = streamed.revisionsWritten

variable {before : Outputs} {streamed : Streamed} {written : Written}

theorem Holds.writePage (hholds : Holds pbf before streamed written) (page : Page) :
    Holds pbf before (streamed.writePage page) (written.writePage pbf page) := by
  refine ⟨?_, congrArg (· + 1) hholds.pagesWritten, hholds.revisionsWritten⟩
  simp only [Written.writePage, Streamed.writePage, hholds.outputs, Outputs.after,
    List.map_append, List.map_singleton, Protobuf.written_concat]

theorem Holds.writeRevision (hholds : Holds pbf before streamed written)
    (revision : Revision) :
    Holds pbf before (streamed.writeRevision revision)
      (written.writeRevision pbf revision) := by
  refine ⟨?_, hholds.pagesWritten, congrArg (· + 1) hholds.revisionsWritten⟩
  simp only [Written.writeRevision, Streamed.writeRevision, hholds.outputs, Outputs.after,
    List.map_append, List.map_singleton, Protobuf.written_concat]

theorem Holds.writeRevisions (hholds : Holds pbf before streamed written)
    (revisions : List Revision) :
    Holds pbf before (revisions.foldl Streamed.writeRevision streamed)
      (revisions.foldl (Written.writeRevision pbf) written) := by
  induction revisions generalizing streamed written with
  | nil => exact hholds
  | cons revision revisions ih => exact ih (hholds.writeRevision revision)

theorem storesAgree (pbf : PbfLibrary Stream) (before : Outputs) :
    DumpParser.StoresAgree Streamed.store (store pbf) (Holds pbf before) := by
  intro revisions page streamed written _ hholds
  exact (hholds.writePage page).writeRevisions _

end Written

variable (lib : Library) (inputs : InputLibrary)

/-- A parse to streams appends what the parse with messages holds, whether it
returns or throws. -/
theorem DumpParser.run_parseXMLTo (events : List Event) (orders orders' : ℕ → ℕ → MapOrder)
    (outputs : Outputs) :
    (DumpParser.parseXMLTo pbf lib { stored := {} } (callbacks events orders)).run outputs =
      let streamed := (StreamingDumpParser.parseNew lib events orders').state.stored
      let outputs := outputs.after pbf streamed.pages streamed.revisions
      match StreamingDumpParser.parseXML lib { stored := {} } (callbacks events orders') with
      | .error exception => .error exception outputs
      | .ok counts => .ok counts outputs := by
  have hstart : ({ stored := { outputs } } : DumpParser Written) =
      ({ stored := {} } : StreamingDumpParser).withStored { outputs } := rfl
  have hsame := SameBut.startParser lib (Written.storesAgree pbf outputs) hstart
    ⟨rfl, rfl, rfl⟩ (callbacks_same_events events orders' orders)
  obtain ⟨⟨-, hholds, -⟩, hexception, -⟩ := hsame
  change Written.Holds pbf outputs (StreamingDumpParser.parseNew lib events orders').state.stored
    _ at hholds
  change (StreamingDumpParser.parseNew lib events orders').exception? = _ at hexception
  rw [StreamingDumpParser.parseXML, ← StreamingDumpParser.parseNew, hexception]
  dsimp only
  rw [← hholds.outputs, ← hholds.pagesWritten, ← hholds.revisionsWritten]
  change DumpParser.parseXMLTo pbf lib { stored := {} } (callbacks events orders) outputs = _
  unfold DumpParser.parseXMLTo
  dsimp only [withStored]
  cases (startParser lib (Written.store pbf) { stored := { outputs } }
    (callbacks events orders)).exception? <;> rfl

namespace ExtractCall

variable (call : ExtractCall)

def events : List Event :=
  match call.extractor with
  | .text => inputs.callbacks call.input
  | .bz2 => inputs.callbacks (inputs.decompress call.input)

/-- The parse that holds in memory what it finds, up to an exception. -/
def inMemory : EventLoop.Outcome DumpException (DumpParser InMemory) :=
  DumpParser.parseNew lib (call.events inputs) call.orders

/-- The pages that have ended. -/
def pages : List Page :=
  (call.inMemory lib inputs).state.stored.pages

/-- The revisions that are stored for them, page by page. -/
def revisions : List Revision :=
  (StreamingDumpParser.parseNew lib (call.events inputs) call.orders).state.stored.revisions

/-- What the streaming overload returns for it. -/
def counts : UInt64 × UInt64 :=
  (UInt64.ofNat (call.pages lib inputs).length,
    UInt64.ofNat (call.revisions lib inputs).length)

theorem extract_eq :
    call.extract lib inputs =
      match (call.inMemory lib inputs).exception? with
      | some exception => .error exception
      | none => .ok ((call.inMemory lib inputs).state.stored.pages,
          (call.inMemory lib inputs).state.stored.revisions) := by
  unfold extract inMemory events
  cases call.extractor <;> rfl

/-- Both overloads throw the same or return, and the streaming one appends what
there is to the point where they do. -/
theorem run_extractTo (outputs : Outputs) :
    (call.extractTo pbf lib inputs).run outputs =
      let outputs := outputs.after pbf (call.pages lib inputs) (call.revisions lib inputs)
      match call.extract lib inputs with
      | .error exception => .error exception outputs
      | .ok _ => .ok (call.counts lib inputs) outputs := by
  have hto : call.extractTo pbf lib inputs = DumpParser.parseXMLTo pbf lib { stored := {} }
      (callbacks (call.events inputs) call.orders) := by
    unfold extractTo events
    cases call.extractor <;> rfl
  obtain ⟨-, -, hmirrors, -⟩ :=
    StreamingDumpParser.parseNew_mirrors lib (call.events inputs) call.orders call.orders
  have hcounts := StreamingDumpParser.parseXML_counts lib (call.events inputs)
    call.orders call.orders
  rw [hto, DumpParser.run_parseXMLTo lib _ _ call.orders, hcounts]
  dsimp only
  rw [hmirrors.pages, DumpParser.parseXML, ← DumpParser.parseNew, ← inMemory, extract_eq]
  cases (call.inMemory lib inputs).exception? <;> rfl

theorem inMemory_orders (orders : ℕ → ℕ → MapOrder) :
    ({ call with orders } : ExtractCall).inMemory lib inputs = call.inMemory lib inputs :=
  DumpParser.startParser_events lib InMemory.store { stored := {} }
    (callbacks_same_events (call.events inputs) orders call.orders)

/-- The pages are those of the overload that returns them, and so are the
revisions, of which it keeps the first under each id. -/
theorem extract_found {orders : ℕ → ℕ → MapOrder}
    {result : List Page × StdMap UInt64 Revision}
    (hextract : ({ call with orders } : ExtractCall).extract lib inputs = .ok result) :
    result.1 = call.pages lib inputs ∧
      result.2 = MapEntries.insertAll ∅ ((call.revisions lib inputs).map fun revision =>
        (revision.revisionId, revision)) := by
  obtain ⟨-, -, hmirrors, -⟩ :=
    StreamingDumpParser.parseNew_mirrors lib (call.events inputs) call.orders call.orders
  rw [extract_eq, inMemory_orders] at hextract
  cases hexception : (call.inMemory lib inputs).exception? with
  | some exception => simp [hexception] at hextract
  | none =>
      simp only [hexception, Except.ok.injEq] at hextract
      subst hextract
      exact ⟨rfl, hmirrors.revisions.symm⟩

/-- Whether or not the call throws, its pages are those that end before it does. -/
theorem length_pages :
    (call.pages lib inputs).length =
      ((call.events inputs).take (call.inMemory lib inputs).returned).count
        (.endElement Tag.page.name) :=
  (StreamingDumpParser.parseNew_mirrors lib (call.events inputs) call.orders
    call.orders).2.2.2

end ExtractCall

variable (calls : List ExtractCall)

def pagesOf : List Page :=
  calls.flatMap (ExtractCall.pages lib inputs)

def revisionsOf : List Revision :=
  calls.flatMap (ExtractCall.revisions lib inputs)

theorem run_extractAllTo (outputs : Outputs) :
    (extractAllTo pbf lib inputs calls).run outputs =
      (calls.map fun call => (call.extract lib inputs).map fun _ => call.counts lib inputs,
        outputs.after pbf (pagesOf lib inputs calls) (revisionsOf lib inputs calls)) := by
  induction calls generalizing outputs with
  | nil => rfl
  | cons call calls ih =>
      have hcall : (attempt (call.extractTo pbf lib inputs)).run outputs =
          ((call.extract lib inputs).map fun _ => call.counts lib inputs,
            outputs.after pbf (call.pages lib inputs) (call.revisions lib inputs)) := by
        have hrun : (call.extractTo pbf lib inputs).run outputs = _ :=
          call.run_extractTo lib inputs outputs
        simp only [attempt, StateT.run, hrun]
        cases call.extract lib inputs <;> rfl
      rw [extractAllTo, List.map_cons, run_attemptAll_cons, hcall]
      dsimp only
      rw [← extractAllTo, ih, ← Outputs.after_append]
      rfl

/-- Any sequence of streaming calls on two streams, by either extractor and with
calls that throw among them, leaves two files.  They are read back as the pages that
the calls come to the end of, and as the revisions stored for these, which for a call
that returns are what the overload without streams returns. -/
theorem extractAllTo_readBack {calls : List ExtractCall}
    (hpages : pbf.framedLength ((pagesOf lib inputs calls).map .page) ≤ totalBytesLimit)
    (hrevisions :
      pbf.framedLength ((revisionsOf lib inputs calls).map .revision) ≤ totalBytesLimit) :
    ∃ outputs, (extractAllTo pbf lib inputs calls).run {} =
        (calls.map fun call => (call.extract lib inputs).map fun _ => call.counts lib inputs,
          outputs) ∧
      pbf.Reads .page outputs.pages ((pagesOf lib inputs calls).map .page) ∧
      pbf.Reads .revision outputs.revisions ((revisionsOf lib inputs calls).map .revision) ∧
      ∀ call ∈ calls,
        (call.pages lib inputs).length =
            ((call.events inputs).take (call.inMemory lib inputs).returned).count
              (.endElement Tag.page.name) ∧
          ∀ orders result,
            ({ call with orders } : ExtractCall).extract lib inputs = .ok result →
            result.1 = call.pages lib inputs ∧
              result.2 = MapEntries.insertAll ∅ ((call.revisions lib inputs).map
                fun revision => (revision.revisionId, revision)) := by
  refine ⟨_, run_extractAllTo lib inputs calls {}, ?_, ?_, ?_⟩
  · apply Protobuf.reads_written _ hpages
    intro message hmessage
    obtain ⟨page, -, rfl⟩ := List.mem_map.mp hmessage
    exact pbf.kindOf_eq _
  · apply Protobuf.reads_written _ hrevisions
    intro message hmessage
    obtain ⟨revision, -, rfl⟩ := List.mem_map.mp hmessage
    exact pbf.kindOf_eq _
  · intro call _
    exact ⟨call.length_pages lib inputs, fun _ _ hextract =>
      call.extract_found lib inputs hextract⟩

end Files

section Sample

def sampleLibrary : Library where
  parser := ⟨fun _ => true, {}⟩
  timeFromString _ := none
  sort := .insertion

/-- A page with one revision. -/
def samplePage (title id revision text : String) : PageTree where
  title? := some [title.toList]
  id? := some [id.toList]
  children := [.title [title.toList], .id [id.toList],
    .revision (historyRevision revision "2001-09-09T01:46:40Z" text)]
  titles := rfl
  ids := rfl

def citingPage : PageTree := samplePage "P" "7" "5" "{{a|title=T}}"

def sampleDocument (pages : List PageTree) : DocumentTree where
  root := mediawiki
  children := pages.map .page

/-- The elements of a page with one revision, as they stand in a file. -/
def samplePageText (title id revision text : String) : Text :=
  "<page><title>".toList ++ title.toList ++ "</title><id>".toList ++ id.toList ++
    "</id><revision><id>".toList ++ revision.toList ++
    "</id><timestamp>2001-09-09T01:46:40Z</timestamp><text>".toList ++ text.toList ++
    "</text></revision></page>".toList

def sampleBytes (pages : List Text) : List UInt8 :=
  ("<mediawiki>".toList ++ pages.flatten ++ "</mediawiki>".toList).map fun c =>
    UInt8.ofNat c.toNat

/-- A document with one page and a citation in it. -/
def citingBytes : List UInt8 :=
  sampleBytes [samplePageText "P" "7" "5" "{{a|title=T}}"]

/-- The same document, compressed. -/
def citingBz2 : List UInt8 :=
  [66, 90, 104, 57, 49, 65, 89, 38, 83, 89, 58, 60, 67, 148, 0, 0, 19, 27, 128, 0, 2, 247, 183,
    68, 16, 38, 175, 221, 206, 32, 0, 104, 53, 79, 79, 84, 200, 15, 80, 208, 1, 160, 0, 149, 61,
    69, 63, 40, 64, 211, 32, 208, 211, 210, 30, 65, 154, 128, 3, 157, 91, 132, 164, 84, 161, 10,
    17, 76, 234, 173, 139, 231, 188, 128, 47, 134, 1, 155, 114, 140, 208, 70, 212, 35, 63, 124,
    186, 88, 49, 105, 84, 22, 159, 51, 73, 76, 62, 150, 19, 52, 47, 38, 104, 80, 115, 249, 66, 48,
    230, 40, 51, 200, 184, 161, 19, 136, 204, 148, 139, 202, 155, 198, 97, 106, 162, 240, 114,
    225, 24, 229, 44, 235, 176, 187, 146, 41, 194, 132, 129, 209, 226, 28, 160]

/-- What is made of this document, and of an empty stream. -/
def sampleInputs : InputLibrary where
  callbacks bytes :=
    if bytes = citingBytes then (sampleDocument [citingPage]).events
    else [.fatalError "Document is empty".toList]
  decompress bytes := if bytes = citingBz2 then citingBytes else []

/-- A compressed document, an empty stream, and the document again. -/
def sampleCalls : List ExtractCall :=
  [⟨.bz2, citingBz2, fun _ _ => .ascending⟩, ⟨.text, [], fun _ _ => .ascending⟩,
    ⟨.text, citingBytes, fun _ _ => .ascending⟩]

theorem pagesOf_sample :
    pagesOf sampleLibrary sampleInputs sampleCalls =
      List.replicate 2 ⟨some "P".toList, some 7,
        [⟨some { title? := some "T".toList }, some 5, none⟩]⟩ := by
  decide +kernel

theorem revisionsOf_sample :
    revisionsOf sampleLibrary sampleInputs sampleCalls =
      List.replicate 2 { revisionId? := some 5, timestamp? := some {} } := by
  decide +kernel

theorem extractAllTo_readBack_sample :
    ∃ outputs, (extractAllTo samplePbf sampleLibrary sampleInputs sampleCalls).run {} =
        (sampleCalls.map fun call => (call.extract sampleLibrary sampleInputs).map fun _ =>
          call.counts sampleLibrary sampleInputs, outputs) ∧
      samplePbf.Reads .page outputs.pages
        ((pagesOf sampleLibrary sampleInputs sampleCalls).map .page) ∧
      samplePbf.Reads .revision outputs.revisions
        ((revisionsOf sampleLibrary sampleInputs sampleCalls).map .revision) ∧
      ∀ call ∈ sampleCalls,
        (call.pages sampleLibrary sampleInputs).length =
            ((call.events sampleInputs).take
              (call.inMemory sampleLibrary sampleInputs).returned).count
                (.endElement Tag.page.name) ∧
          ∀ orders result,
            ({ call with orders } : ExtractCall).extract sampleLibrary sampleInputs =
              .ok result →
            result.1 = call.pages sampleLibrary sampleInputs ∧
              result.2 = MapEntries.insertAll ∅
                ((call.revisions sampleLibrary sampleInputs).map
                  fun revision => (revision.revisionId, revision)) :=
  extractAllTo_readBack sampleLibrary sampleInputs
    (by rw [pagesOf_sample]; decide +kernel) (by rw [revisionsOf_sample]; decide +kernel)

end Sample

end Citescoop
