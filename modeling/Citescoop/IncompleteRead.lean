/-
Reads of files that were cut short or damaged.  `ReadMessage` drops what
`ReadRaw` and the parser say of their success, so every call returns a message;
only the calls that a complete frame answers are right to.
-/
import Citescoop.FileRoundTrip

open Framing

namespace Citescoop

namespace Protobuf

section Failures

variable {Stream Kind Message : Type} {protobuf : Protobuf Stream Kind Message}

/-- Calls that find no complete frame which parses return nothing. -/
def ReportsFailures (protobuf : Protobuf Stream Kind Message) :
    List (ReadCall Kind) → Stream → Prop
  | [], _ => True
  | call :: calls, stream =>
    (frame? (protobuf.parses call.kind) (protobuf.view stream).rest = none →
        ((protobuf.readMessage call).run stream).1 = none) ∧
      ReportsFailures protobuf calls ((protobuf.readMessage call).run stream).2

/-- Calls of `ReadMessage` on one reader over the bytes invent no message. -/
structure InventsNothing (protobuf : Protobuf Stream Kind Message) (calls : List (ReadCall Kind))
    (bytes : List UInt8) : Prop where
  reports_failures : protobuf.ReportsFailures calls (protobuf.codedInputStream bytes)
  returned_le : ((protobuf.readFile calls bytes).1.filterMap id).length ≤
    completeFrames protobuf.parses (calls.map ReadCall.kind) bytes

theorem readMessage_returns (protobuf : Protobuf Stream Kind Message) (call : ReadCall Kind)
    (stream : Stream) :
    ∃ message, ((protobuf.readMessage call).run stream).1 = some message :=
  ⟨_, rfl⟩

theorem length_readMessages (calls : List (ReadCall Kind)) (stream : Stream) :
    ((protobuf.readMessages calls).run stream).1.length = calls.length := by
  induction calls generalizing stream with
  | nil => rfl
  | cons call calls ih =>
    rw [run_readMessages_cons]
    exact congrArg (· + 1) (ih _)

/-- The calls are right as long as the complete frames last. -/
theorem reportsFailures_iff (protobuf : Protobuf Stream Kind Message)
    (calls : List (ReadCall Kind)) (stream : Stream) :
    protobuf.ReportsFailures calls stream ↔
      calls.length ≤ completeFrames protobuf.parses (calls.map ReadCall.kind)
        (protobuf.view stream).rest := by
  induction calls generalizing stream with
  | nil => exact iff_of_true trivial (Nat.zero_le _)
  | cons call calls ih =>
    rw [ReportsFailures, ih, List.map_cons, List.length_cons]
    rcases hframe : frame? (protobuf.parses call.kind) (protobuf.view stream).rest with
      _ | ⟨message, after⟩
    · obtain ⟨message, hmessage⟩ := readMessage_returns protobuf call stream
      rw [completeFrames_cons_of_none hframe, hmessage]
      simp
    · obtain ⟨next, hrun, hrest, -⟩ := run_readMessage_of_frame hframe
      rw [completeFrames_cons hframe, hrun, hrest]
      simp

/-- Reading invents nothing exactly when no more calls are made than complete
frames are delivered, of the classes asked for. -/
theorem inventsNothing_iff (calls : List (ReadCall Kind)) (bytes : List UInt8) :
    protobuf.InventsNothing calls bytes ↔
      calls.length ≤ completeFrames protobuf.parses (calls.map ReadCall.kind)
        (bytes.take (2 ^ 31 - 1)) := by
  have hreports := reportsFailures_iff protobuf calls (protobuf.codedInputStream bytes)
  rw [rest_codedInputStream] at hreports
  constructor
  · intro hnothing
    exact hreports.mp hnothing.reports_failures
  · intro hcalls
    refine ⟨hreports.mpr hcalls, ?_⟩
    calc
      ((protobuf.readFile calls bytes).1.filterMap id).length ≤
          (protobuf.readFile calls bytes).1.length := List.length_filterMap_le _ _
      _ = calls.length := length_readMessages calls _
      _ ≤ completeFrames protobuf.parses (calls.map ReadCall.kind)
          (bytes.take (2 ^ 31 - 1)) := hcalls
      _ ≤ completeFrames protobuf.parses (calls.map ReadCall.kind)
          (bytes.take (2 ^ 31 - 1) ++ bytes.drop (2 ^ 31 - 1)) := completeFrames_le_append _ _ _
      _ = completeFrames protobuf.parses (calls.map ReadCall.kind) bytes := by
        rw [List.take_append_drop]

/-- A file of one message that has lost its last byte still yields a message. -/
theorem not_inventsNothing_cut :
    ¬ countProtobuf.InventsNothing [⟨(), #v[0, 0, 0, 0]⟩] (countProtobuf.file [5]).dropLast := by
  intro hnothing
  exact absurd hnothing.returned_le (by decide)

end Failures

end Protobuf

end Citescoop
