/-
`MessageReader` and `MessageWriter`: messages of any protobuf classes, framed one
after the other in one file.  Protobuf itself is a parameter, with what its
documentation promises.
-/
import Citescoop.Framing

open Framing

namespace Citescoop

/-- `INT_MAX`, the default total bytes limit of a stream. -/
def totalBytesLimit : Nat :=
  2 ^ 31 - 1

/-- The bytes behind a stream, how many of them it has delivered, and the position
at which the innermost limit ends it. -/
structure StreamView where
  data : List UInt8
  position : Nat
  limit : Nat
deriving Repr, DecidableEq

namespace StreamView

/-- What the stream still delivers. -/
def rest (view : StreamView) : List UInt8 :=
  (view.data.take (min view.limit totalBytesLimit)).drop view.position

def advance (view : StreamView) (count : Nat) : StreamView :=
  { view with position := view.position + count }

def pushLimit (view : StreamView) (byteLimit : Nat) : StreamView :=
  { view with limit := min view.limit (view.position + byteLimit) }

theorem rest_advance (view : StreamView) (count : Nat) :
    (view.advance count).rest = view.rest.drop count := by
  simp only [rest, advance, List.drop_drop]

theorem rest_pushLimit (view : StreamView) (byteLimit : Nat) :
    (view.pushLimit byteLimit).rest = view.rest.take byteLimit := by
  simp only [rest, pushLimit, List.take_drop, List.take_take]
  congr 2
  omega

end StreamView

/-- `CodedInputStream` and the messages of the classes in `Kind`. -/
structure Protobuf (Stream Kind Message : Type) where
  codedInputStream : List UInt8 → Stream
  /-- Whether the bytes asked for were there, and those that were copied. -/
  readRaw : Nat → StateM Stream (Bool × List UInt8)
  /-- The limit until then. -/
  pushLimit : Int → StateM Stream Nat
  popLimit : Nat → StateM Stream Unit
  /-- Whether a message was parsed, and what the message holds in either case. -/
  parseFromCodedStream : Kind → StateM Stream (Bool × Message)
  byteSizeLong : Message → Nat
  serializeToOstream : Message → StateM (List UInt8) Bool
  kindOf : Message → Kind
  serialize : Message → List UInt8
  /-- The message of a class that a complete payload stands for. -/
  parses : Kind → List UInt8 → Option Message
  view : Stream → StreamView
  view_codedInputStream (bytes : List UInt8) :
    view (codedInputStream bytes) = ⟨bytes, 0, totalBytesLimit⟩
  readRaw_eq (size : Nat) (stream : Stream) :
    ((readRaw size).run stream).1 =
      (decide (size ≤ (view stream).rest.length), (view stream).rest.take size)
  view_readRaw (size : Nat) (stream : Stream) :
    view ((readRaw size).run stream).2 =
      (view stream).advance ((view stream).rest.take size).length
  pushLimit_eq (byteLimit : Int) (stream : Stream) :
    ((pushLimit byteLimit).run stream).1 = (view stream).limit
  view_pushLimit (byteLimit : Nat) (stream : Stream) :
    view ((pushLimit byteLimit).run stream).2 = (view stream).pushLimit byteLimit
  view_popLimit (limit : Nat) (stream : Stream) :
    view ((popLimit limit).run stream).2 = { view stream with limit }
  parseFromCodedStream_eq (kind : Kind) (stream : Stream) (message : Message) :
    parses kind (view stream).rest = some message →
      ((parseFromCodedStream kind).run stream).1 = (true, message)
  view_parseFromCodedStream (kind : Kind) (stream : Stream) (message : Message) :
    parses kind (view stream).rest = some message →
      view ((parseFromCodedStream kind).run stream).2 =
        (view stream).advance (view stream).rest.length
  position_le (stream : Stream) : (view stream).position ≤ totalBytesLimit
  byteSizeLong_eq (message : Message) : byteSizeLong message = (serialize message).length
  serializeToOstream_eq (message : Message) (output : List UInt8) :
    (serialize message).length ≤ totalBytesLimit →
      (serializeToOstream message).run output = (true, output ++ serialize message)
  parses_serialize (message : Message) :
    parses (kindOf message) (serialize message) = some message

/-- A call of `ReadMessage` for a message class, with what its uninitialised local
variable `size` happens to hold. -/
structure ReadCall (Kind : Type) where
  kind : Kind
  size : Vector UInt8 4

namespace Protobuf

section Program

variable {Stream Kind Message : Type} (protobuf : Protobuf Stream Kind Message)

/-- What `ReadRaw` and the parser say of their success is not looked at. -/
def readMessage (call : ReadCall Kind) : StateM Stream (Option Message) := do
  let (_, bytes) ← protobuf.readRaw 4
  let size := ofNetworkBytes (bytes ++ call.size.toList.drop bytes.length)
  let limit ← protobuf.pushLimit size.toInt32.toInt
  let (_, message) ← protobuf.parseFromCodedStream call.kind
  protobuf.popLimit limit
  return some message

/-- Calls of `ReadMessage`, one after the other on one reader. -/
def readMessages : List (ReadCall Kind) → StateM Stream (List (Option Message))
  | [] => return []
  | call :: calls => do
      let message ← readMessage protobuf call
      let messages ← readMessages calls
      return message :: messages

def writeMessage (message : Message) : StateM (List UInt8) UInt32 := do
  let size := UInt32.ofNat (protobuf.byteSizeLong message)
  modify fun output => output ++ networkBytes size
  let _ ← protobuf.serializeToOstream message
  return size

/-- Calls of `WriteMessage`, one after the other on one writer. -/
def writeMessages : List Message → StateM (List UInt8) (List UInt32)
  | [] => return []
  | message :: messages => do
      let size ← writeMessage protobuf message
      let sizes ← writeMessages messages
      return size :: sizes

/-- The bytes of a new file with these messages. -/
def file (messages : List Message) : List UInt8 :=
  ((writeMessages protobuf messages).run []).2

/-- What a new reader over the bytes returns, and the stream it leaves. -/
def readFile (calls : List (ReadCall Kind)) (bytes : List UInt8) :
    List (Option Message) × Stream :=
  (readMessages protobuf calls).run (protobuf.codedInputStream bytes)

end Program

section Writing

variable {Stream Kind Message : Type} {protobuf : Protobuf Stream Kind Message}

theorem run_writeMessage {message : Message}
    (hmessage : (protobuf.serialize message).length ≤ totalBytesLimit) (output : List UInt8) :
    (protobuf.writeMessage message).run output =
      (UInt32.ofNat (protobuf.serialize message).length,
        output ++ frame (protobuf.serialize message)) := by
  have hwritten := protobuf.serializeToOstream_eq message
    (output ++ networkBytes (UInt32.ofNat (protobuf.serialize message).length)) hmessage
  calc
    (protobuf.writeMessage message).run output =
        (UInt32.ofNat (protobuf.byteSizeLong message),
          ((protobuf.serializeToOstream message).run
            (output ++ networkBytes (UInt32.ofNat (protobuf.byteSizeLong message)))).2) := rfl
    _ = _ := by rw [protobuf.byteSizeLong_eq, hwritten, frame, List.append_assoc]

theorem run_writeMessages_cons (message : Message) (messages : List Message)
    (output : List UInt8) :
    ((protobuf.writeMessages (message :: messages)).run output).2 =
      ((protobuf.writeMessages messages).run ((protobuf.writeMessage message).run output).2).2 :=
  rfl

theorem run_writeMessages {messages : List Message}
    (hmessages : ∀ message ∈ messages, (protobuf.serialize message).length ≤ totalBytesLimit)
    (output : List UInt8) :
    ((protobuf.writeMessages messages).run output).2 =
      output ++ messages.flatMap fun message => frame (protobuf.serialize message) := by
  induction messages generalizing output with
  | nil => exact (List.append_nil output).symm
  | cons message messages ih =>
    rw [List.forall_mem_cons] at hmessages
    rw [run_writeMessages_cons, run_writeMessage hmessages.1, ih hmessages.2, List.flatMap_cons,
      List.append_assoc]

end Writing

section Reading

variable {Stream Kind Message : Type} {protobuf : Protobuf Stream Kind Message}

theorem run_readRaw_append {size : Nat} {bytes after : List UInt8} {stream : Stream}
    (hrest : (protobuf.view stream).rest = bytes ++ after) (hbytes : bytes.length = size) :
    ∃ success next, (protobuf.readRaw size).run stream = ((success, bytes), next) ∧
      protobuf.view next = (protobuf.view stream).advance size := by
  have heq := protobuf.readRaw_eq size stream
  have hview := protobuf.view_readRaw size stream
  rw [hrest, List.take_left' hbytes] at heq hview
  exact ⟨_, _, Prod.ext heq rfl, hbytes ▸ hview⟩

theorem run_pushLimit (protobuf : Protobuf Stream Kind Message) (byteLimit : Nat)
    (stream : Stream) :
    ∃ next, (protobuf.pushLimit byteLimit).run stream = ((protobuf.view stream).limit, next) ∧
      protobuf.view next = (protobuf.view stream).pushLimit byteLimit :=
  ⟨_, Prod.ext (protobuf.pushLimit_eq byteLimit stream) rfl,
    protobuf.view_pushLimit byteLimit stream⟩

theorem run_parseFromCodedStream {kind : Kind} {stream : Stream} {message : Message}
    (hparses : protobuf.parses kind (protobuf.view stream).rest = some message) :
    ∃ next, (protobuf.parseFromCodedStream kind).run stream = ((true, message), next) ∧
      protobuf.view next = (protobuf.view stream).advance (protobuf.view stream).rest.length :=
  ⟨_, Prod.ext (protobuf.parseFromCodedStream_eq kind stream message hparses) rfl,
    protobuf.view_parseFromCodedStream kind stream message hparses⟩

theorem run_readMessage {call : ReadCall Kind} {stream₀ stream₁ stream₂ stream₃ : Stream}
    {copied parsed : Bool} {bytes : List UInt8} {limit : Nat} {message : Message}
    (hraw : (protobuf.readRaw 4).run stream₀ = ((copied, bytes), stream₁))
    (hpush : (protobuf.pushLimit (ofNetworkBytes (bytes ++
      call.size.toList.drop bytes.length)).toInt32.toInt).run stream₁ = (limit, stream₂))
    (hparse : (protobuf.parseFromCodedStream call.kind).run stream₂ =
      ((parsed, message), stream₃)) :
    (protobuf.readMessage call).run stream₀ =
      (some message, ((protobuf.popLimit limit).run stream₃).2) := by
  simp only [StateT.run] at hraw hpush hparse
  simp only [readMessage, StateT.run, bind, StateT.bind, hraw, hpush, hparse]
  rfl

/-- The cast of an announced size that a stream can hold keeps its value. -/
theorem toInt_toInt32_of_le {size : UInt32} (hsize : size.toNat ≤ totalBytesLimit) :
    size.toInt32.toInt = (size.toNat : Int) := by
  have hcast : size.toInt32.toInt = size.toBitVec.toInt := rfl
  rw [hcast, BitVec.toInt_eq_toNat_of_lt]
  · rfl
  · simp only [totalBytesLimit] at hsize
    show 2 * size.toNat < 2 ^ 32
    omega

theorem length_rest_le (protobuf : Protobuf Stream Kind Message) (stream : Stream) :
    (protobuf.view stream).rest.length ≤ totalBytesLimit := by
  simp only [StreamView.rest, List.length_drop, List.length_take]
  omega

/-- A call that finds a complete frame returns its message and takes the frame off. -/
theorem run_readMessage_of_frame {call : ReadCall Kind} {stream : Stream} {message : Message}
    {after : List UInt8}
    (hframe : frame? (protobuf.parses call.kind) (protobuf.view stream).rest =
      some (message, after)) :
    ∃ next, (protobuf.readMessage call).run stream = (some message, next) ∧
      (protobuf.view next).rest = after ∧
      (protobuf.view next).position + after.length =
        (protobuf.view stream).position + (protobuf.view stream).rest.length := by
  obtain ⟨size, payload, hrest, hpayload, hparses⟩ := frame?_eq_some_iff.mp hframe
  obtain ⟨copied, stream₁, hraw, hview₁⟩ := run_readRaw_append hrest (length_networkBytes size)
  have hrest₁ : (protobuf.view stream₁).rest = payload ++ after := by
    rw [hview₁, StreamView.rest_advance, hrest, List.drop_left' (length_networkBytes size)]
  have hsize : size.toNat ≤ totalBytesLimit := by
    have hlength := length_rest_le protobuf stream₁
    rw [hrest₁, List.length_append, hpayload] at hlength
    omega
  obtain ⟨stream₂, hpush, hview₂⟩ := run_pushLimit protobuf size.toNat stream₁
  have hrest₂ : (protobuf.view stream₂).rest = payload := by
    rw [hview₂, StreamView.rest_pushLimit, hrest₁, List.take_left' hpayload]
  obtain ⟨stream₃, hparse, hview₃⟩ := run_parseFromCodedStream (hrest₂.symm ▸ hparses)
  -- the limit of before is in force again
  have hview : protobuf.view ((protobuf.popLimit (protobuf.view stream₁).limit).run stream₃).2 =
      (protobuf.view stream).advance (4 + payload.length) := by
    rw [protobuf.view_popLimit, hview₃, hrest₂, hview₂, hview₁]
    simp only [StreamView.advance, StreamView.pushLimit, Nat.add_assoc]
  -- nothing of what `size` held before is left in it
  have hbytes : ofNetworkBytes (networkBytes size ++
      call.size.toList.drop (networkBytes size).length) = size := by
    rw [length_networkBytes, List.drop_of_length_le (by simp), List.append_nil,
      ofNetworkBytes_networkBytes]
  rw [← toInt_toInt32_of_le hsize] at hpush
  refine ⟨_, run_readMessage hraw (hbytes.symm ▸ hpush) hparse, ?_, ?_⟩
  · rw [hview, StreamView.rest_advance, hrest, ← List.append_assoc]
    apply List.drop_left'
    rw [List.length_append, length_networkBytes]
  · rw [hview, hrest, List.length_append, List.length_append, length_networkBytes]
    simp only [StreamView.advance]
    omega

theorem run_readMessages_cons (call : ReadCall Kind) (calls : List (ReadCall Kind))
    (stream : Stream) :
    (protobuf.readMessages (call :: calls)).run stream =
      let (message, next) := (protobuf.readMessage call).run stream
      let (messages, last) := (protobuf.readMessages calls).run next
      (message :: messages, last) :=
  rfl

/-- Calls that all find complete frames return what the frames hold. -/
theorem run_readMessages_of_frames {calls : List (ReadCall Kind)} {stream : Stream}
    (hcalls : completeFrames protobuf.parses (calls.map ReadCall.kind)
      (protobuf.view stream).rest = calls.length) :
    ∃ next, (protobuf.readMessages calls).run stream =
        ((frames protobuf.parses (calls.map ReadCall.kind)
          (protobuf.view stream).rest).1.map some, next) ∧
      (protobuf.view next).position + (frames protobuf.parses (calls.map ReadCall.kind)
          (protobuf.view stream).rest).2.length =
        (protobuf.view stream).position + (protobuf.view stream).rest.length := by
  induction calls generalizing stream with
  | nil => exact ⟨stream, rfl, rfl⟩
  | cons call calls ih =>
    rw [List.map_cons] at hcalls ⊢
    rcases hframe : frame? (protobuf.parses call.kind) (protobuf.view stream).rest with
      _ | ⟨message, after⟩
    · rw [completeFrames_cons_of_none hframe] at hcalls
      exact absurd hcalls (by simp)
    · rw [completeFrames_cons hframe, List.length_cons, Nat.add_right_cancel_iff] at hcalls
      obtain ⟨stream₁, hrun₁, hrest₁, hposition₁⟩ := run_readMessage_of_frame hframe
      rw [← hrest₁] at hcalls
      obtain ⟨next, hrun, hposition⟩ := ih hcalls
      rw [hrest₁] at hrun hposition
      refine ⟨next, ?_, ?_⟩
      · rw [run_readMessages_cons, hrun₁, frames_cons hframe]
        simp only [hrun, List.map_cons]
      · rw [frames_cons hframe, hposition, hposition₁]

end Reading

section Sample

/-- A stream that keeps track of nothing but its view. -/
structure ViewedStream where
  view : StreamView
  position_le : view.position ≤ totalBytesLimit

namespace ViewedStream

theorem position_advance_le (stream : ViewedStream) {count : Nat}
    (hcount : count ≤ stream.view.rest.length) :
    (stream.view.advance count).position ≤ totalBytesLimit := by
  have hposition := stream.position_le
  simp only [StreamView.rest, List.length_drop, List.length_take] at hcount
  simp only [StreamView.advance]
  omega

def readRaw (size : Nat) : StateM ViewedStream (Bool × List UInt8) := fun stream =>
  let bytes := stream.view.rest.take size
  ((size ≤ stream.view.rest.length, bytes),
    ⟨stream.view.advance bytes.length,
      stream.position_advance_le (List.length_take_le' size stream.view.rest)⟩)

/-- A negative limit is no limit. -/
def pushLimit (byteLimit : Int) : StateM ViewedStream Nat := fun stream =>
  (stream.view.limit,
    if 0 ≤ byteLimit then ⟨stream.view.pushLimit byteLimit.toNat, stream.position_le⟩ else stream)

def popLimit (limit : Nat) : StateM ViewedStream Unit := fun stream =>
  ((), ⟨{ stream.view with limit }, stream.position_le⟩)

/-- Parsing takes all that the stream delivers, and leaves a default message where
that makes no sense. -/
def parseAll {Message : Type} (parses : List UInt8 → Option Message) (empty : Message) :
    StateM ViewedStream (Bool × Message) := fun stream =>
  let rest := stream.view.rest
  (((parses rest).isSome, (parses rest).getD empty),
    ⟨stream.view.advance rest.length, stream.position_advance_le (Nat.le_refl _)⟩)

end ViewedStream

/-- Messages of one class, with a count below 128 as their field 1. -/
def serializeCount (count : Fin 128) : List UInt8 :=
  if count = 0 then [] else [8, UInt8.ofNat count]

def parseCount : List UInt8 → Option (Fin 128)
  | [] => some 0
  | [8, byte] => if hbyte : byte.toNat < 128 then some ⟨byte.toNat, hbyte⟩ else none
  | _ => none

def countProtobuf : Protobuf ViewedStream Unit (Fin 128) where
  codedInputStream bytes := ⟨⟨bytes, 0, totalBytesLimit⟩, Nat.zero_le _⟩
  readRaw := ViewedStream.readRaw
  pushLimit := ViewedStream.pushLimit
  popLimit := ViewedStream.popLimit
  parseFromCodedStream _ := ViewedStream.parseAll parseCount 0
  byteSizeLong count := (serializeCount count).length
  serializeToOstream count output := (true, output ++ serializeCount count)
  kindOf _ := ()
  serialize := serializeCount
  parses _ := parseCount
  view := ViewedStream.view
  view_codedInputStream _ := rfl
  readRaw_eq _ _ := rfl
  view_readRaw _ _ := rfl
  pushLimit_eq _ _ := rfl
  view_pushLimit _ _ := rfl
  view_popLimit _ _ := rfl
  parseFromCodedStream_eq _ stream message hparses := by
    change ((parseCount stream.view.rest).isSome, (parseCount stream.view.rest).getD 0) = _
    rw [hparses]
    rfl
  view_parseFromCodedStream _ _ _ _ := rfl
  position_le := ViewedStream.position_le
  byteSizeLong_eq _ := rfl
  serializeToOstream_eq _ _ _ := rfl
  parses_serialize := by decide

end Sample

end Protobuf

end Citescoop
