/-
Whole files, written by one writer and read by one reader.  The reader counts
the bytes of all frames, headers included, against the limit of its one stream.
-/
import Citescoop.MessageIO

open Framing

namespace Citescoop

namespace Protobuf

section RoundTrip

variable {Stream Kind Message : Type} {protobuf : Protobuf Stream Kind Message}
  {messages : List Message} {calls : List (ReadCall Kind)}

theorem file_eq
    (hmessages : ∀ message ∈ messages, (protobuf.serialize message).length < 2 ^ 31) :
    protobuf.file messages =
      messages.flatMap fun message => frame (protobuf.serialize message) := by
  apply run_writeMessages
  intro message hmessage
  exact Nat.le_sub_one_of_lt (hmessages message hmessage)

theorem length_file (protobuf : Protobuf Stream Kind Message)
    (hmessages : ∀ message ∈ messages, (protobuf.serialize message).length < 2 ^ 31) :
    (protobuf.file messages).length =
      (messages.map fun message => 4 + (protobuf.serialize message).length).sum := by
  simp only [file_eq hmessages, List.length_flatMap, length_frame]

theorem rest_codedInputStream (bytes : List UInt8) :
    (protobuf.view (protobuf.codedInputStream bytes)).rest = bytes.take totalBytesLimit := by
  rw [protobuf.view_codedInputStream]
  simp only [StreamView.rest, List.drop_zero, Nat.min_self]

theorem frames_file (protobuf : Protobuf Stream Kind Message)
    (hmessages : ∀ message ∈ messages, (protobuf.serialize message).length < 2 ^ 31) :
    frames protobuf.parses (messages.map protobuf.kindOf) (protobuf.file messages) =
      (messages, []) := by
  rw [file_eq hmessages, ← List.append_nil (messages.flatMap _)]
  apply frames_flatMap_frame
  intro message hmessage
  refine ⟨?_, protobuf.parses_serialize message⟩
  exact Nat.lt_trans (hmessages message hmessage) (by decide)

/-- A file that one stream delivers to its end is read back. -/
theorem readFile_file
    (hmessages : ∀ message ∈ messages, (protobuf.serialize message).length < 2 ^ 31)
    (hcalls : calls.map ReadCall.kind = messages.map protobuf.kindOf)
    (hlength : (protobuf.file messages).length ≤ totalBytesLimit) :
    ∃ next, protobuf.readFile calls (protobuf.file messages) = (messages.map some, next) ∧
      (protobuf.view next).position = (protobuf.file messages).length := by
  have hrest : (protobuf.view (protobuf.codedInputStream (protobuf.file messages))).rest =
      protobuf.file messages := by
    rw [rest_codedInputStream, List.take_of_length_le hlength]
  have hframes := frames_file protobuf hmessages
  have hall : completeFrames protobuf.parses (calls.map ReadCall.kind)
      (protobuf.view (protobuf.codedInputStream (protobuf.file messages))).rest =
        calls.length := by
    rw [hrest, hcalls, completeFrames, hframes, ← List.length_map (f := ReadCall.kind), hcalls,
      List.length_map]
  obtain ⟨next, hrun, hposition⟩ := run_readMessages_of_frames hall
  rw [hrest, hcalls, hframes] at hrun hposition
  refine ⟨next, hrun, ?_⟩
  rw [protobuf.view_codedInputStream] at hposition
  simpa using hposition

/-- What a caller of `MessageWriter` and `MessageReader` relies on. -/
structure RoundTrips (protobuf : Protobuf Stream Kind Message) (messages : List Message)
    (calls : List (ReadCall Kind)) : Prop where
  extends_output : ∀ message ∈ messages, ∀ output, ∃ added,
    ((protobuf.writeMessage message).run output).2 = output ++ added ∧
      added.length = 4 + ((protobuf.writeMessage message).run output).1.toNat
  returned : (protobuf.readFile calls (protobuf.file messages)).1 = messages.map some
  at_end : (protobuf.view (protobuf.readFile calls (protobuf.file messages)).2).position =
    (protobuf.file messages).length

theorem writeMessage_extends {message : Message}
    (hmessage : (protobuf.serialize message).length < 2 ^ 31) (output : List UInt8) :
    ∃ added, ((protobuf.writeMessage message).run output).2 = output ++ added ∧
      added.length = 4 + ((protobuf.writeMessage message).run output).1.toNat := by
  rw [run_writeMessage (Nat.le_sub_one_of_lt hmessage)]
  refine ⟨frame (protobuf.serialize message), rfl, ?_⟩
  rw [length_frame, UInt32.toNat_ofNat', Nat.mod_eq_of_lt (Nat.lt_trans hmessage (by decide))]

/-- Files come back exactly when the frames of all messages together stay within
the total bytes limit. -/
theorem roundTrips_iff
    (hmessages : ∀ message ∈ messages, (protobuf.serialize message).length < 2 ^ 31)
    (hcalls : calls.map ReadCall.kind = messages.map protobuf.kindOf) :
    protobuf.RoundTrips messages calls ↔
      (messages.map fun message => 4 + (protobuf.serialize message).length).sum ≤ 2 ^ 31 - 1 := by
  rw [← length_file protobuf hmessages]
  constructor
  · intro htrip
    rw [← htrip.at_end]
    exact protobuf.position_le _
  · intro hlength
    obtain ⟨next, hread, hposition⟩ := readFile_file hmessages hcalls hlength
    refine ⟨fun message hmessage => writeMessage_extends (hmessages message hmessage), ?_, ?_⟩
    · rw [hread]
    · rw [hread, hposition]

/-- Three messages, the second of which serialises to nothing. -/
theorem roundTrips_three :
    countProtobuf.RoundTrips [5, 0, 127] (List.replicate 3 ⟨(), #v[1, 2, 3, 4]⟩) :=
  (roundTrips_iff (by decide) (by decide)).mpr (by decide)

/-- Equal messages of two bytes each, the last of which ends past 2 ^ 31 - 1. -/
theorem not_roundTrips_past_limit :
    ¬ countProtobuf.RoundTrips (List.replicate 357913942 5)
      (List.replicate 357913942 ⟨(), #v[0, 0, 0, 0]⟩) := by
  intro htrip
  have hshort : ∀ message ∈ List.replicate 357913942 5,
      (countProtobuf.serialize message).length < 2 ^ 31 := by
    intro message hmessage
    rw [List.eq_of_mem_replicate hmessage]
    decide
  have hlength := length_file countProtobuf hshort
  have hposition := countProtobuf.position_le
    (countProtobuf.readFile (List.replicate 357913942 ⟨(), #v[0, 0, 0, 0]⟩)
      (countProtobuf.file (List.replicate 357913942 5))).2
  rw [htrip.at_end, hlength, List.map_replicate, List.sum_replicate_nat] at hposition
  exact absurd hposition (by decide)

end RoundTrip

end Protobuf

end Citescoop
