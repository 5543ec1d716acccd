/-
Length-prefixed frames: four bytes in network byte order that announce how many
bytes follow, and then these bytes.  A sequence of readers takes the frames off
the front of the bytes for as long as a frame stands there complete and parses.
-/
import Mathlib

namespace Framing

variable {Kind Value : Type}

/-- The four bytes of a size, the most significant one first. -/
def networkBytes (size : UInt32) : List UInt8 :=
  [UInt8.ofNat (size.toNat / 2 ^ 24), UInt8.ofNat (size.toNat / 2 ^ 16),
    UInt8.ofNat (size.toNat / 2 ^ 8), UInt8.ofNat size.toNat]

def ofNetworkBytes (bytes : List UInt8) : UInt32 :=
  UInt32.ofNat (bytes.foldl (fun value byte => 256 * value + byte.toNat) 0)

theorem length_networkBytes (size : UInt32) : (networkBytes size).length = 4 :=
  rfl

theorem ofNetworkBytes_networkBytes (size : UInt32) :
    ofNetworkBytes (networkBytes size) = size := by
  have hsize := size.toNat_lt
  apply UInt32.toNat_inj.mp
  simp only [ofNetworkBytes, networkBytes, List.foldl, UInt32.toNat_ofNat', UInt8.toNat_ofNat']
  omega

theorem networkBytes_ofNetworkBytes {bytes : List UInt8} (hbytes : bytes.length = 4) :
    networkBytes (ofNetworkBytes bytes) = bytes := by
  obtain ⟨b₃, b₂, b₁, b₀, rfl⟩ := List.length_eq_four.mp hbytes
  have h₃ := b₃.toNat_lt
  have h₂ := b₂.toNat_lt
  have h₁ := b₁.toNat_lt
  have h₀ := b₀.toNat_lt
  simp only [ofNetworkBytes, networkBytes, List.foldl, UInt32.toNat_ofNat', List.cons.injEq,
    and_true]
  refine ⟨?_, ?_, ?_, ?_⟩ <;> apply UInt8.toNat_inj.mp <;> rw [UInt8.toNat_ofNat'] <;> omega

def announced (bytes : List UInt8) : Nat :=
  (ofNetworkBytes (bytes.take 4)).toNat

/-- The value of the frame that stands complete at the front, with the bytes after it. -/
def frame? (parses : List UInt8 → Option Value) (bytes : List UInt8) :
    Option (Value × List UInt8) :=
  if 4 + announced bytes ≤ bytes.length then
    (parses ((bytes.drop 4).take (announced bytes))).map
      fun value => (value, bytes.drop (4 + announced bytes))
  else
    none

theorem frame?_eq_some_iff {parses : List UInt8 → Option Value} {bytes after : List UInt8}
    {value : Value} :
    frame? parses bytes = some (value, after) ↔
      ∃ size payload, bytes = networkBytes size ++ (payload ++ after) ∧
        payload.length = size.toNat ∧ parses payload = some value := by
  constructor
  · intro hframe
    unfold frame? at hframe
    split at hframe
    · next hlength =>
      obtain ⟨_, hparses, hpair⟩ := Option.map_eq_some_iff.mp hframe
      obtain ⟨rfl, rfl⟩ := Prod.mk.inj hpair
      have hfour : (bytes.take 4).length = 4 := by
        rw [List.length_take]
        omega
      refine ⟨ofNetworkBytes (bytes.take 4), _, ?_, ?_, hparses⟩
      · rw [networkBytes_ofNetworkBytes hfour, ← List.drop_drop, List.take_append_drop,
          List.take_append_drop]
      · rw [List.length_take, List.length_drop]
        exact Nat.min_eq_left (by unfold announced at hlength ⊢; omega)
    · exact absurd hframe (by simp)
  · rintro ⟨size, payload, rfl, hpayload, hparses⟩
    have hannounced : announced (networkBytes size ++ (payload ++ after)) = payload.length := by
      rw [announced, List.take_left' (length_networkBytes size), ofNetworkBytes_networkBytes,
        hpayload]
    have hdrop : (networkBytes size ++ (payload ++ after)).drop 4 = payload ++ after :=
      List.drop_left' (length_networkBytes size)
    rw [frame?, hannounced, if_pos, ← List.drop_drop, hdrop, List.take_left, List.drop_left,
      hparses]
    · rfl
    · simp only [List.length_append, length_networkBytes]
      omega

theorem frame?_append {parses : List UInt8 → Option Value} {bytes after : List UInt8}
    {value : Value} (hframe : frame? parses bytes = some (value, after)) (more : List UInt8) :
    frame? parses (bytes ++ more) = some (value, after ++ more) := by
  obtain ⟨size, payload, rfl, hpayload, hparses⟩ := frame?_eq_some_iff.mp hframe
  apply frame?_eq_some_iff.mpr
  exact ⟨size, payload, by simp only [List.append_assoc], hpayload, hparses⟩

/-- The values of the frames at the front, one for each reader, and the bytes after
them.  Reading ends where no complete frame that parses is found. -/
def frames (parses : Kind → List UInt8 → Option Value) :
    List Kind → List UInt8 → List Value × List UInt8
  | [], bytes => ([], bytes)
  | kind :: kinds, bytes =>
    match frame? (parses kind) bytes with
    | some (value, after) =>
      let (values, left) := frames parses kinds after
      (value :: values, left)
    | none => ([], bytes)

def completeFrames (parses : Kind → List UInt8 → Option Value) (kinds : List Kind)
    (bytes : List UInt8) : Nat :=
  (frames parses kinds bytes).1.length

section Frames

variable {parses : Kind → List UInt8 → Option Value} {kind : Kind} {kinds : List Kind}
  {bytes after : List UInt8} {value : Value}

theorem frames_cons (hframe : frame? (parses kind) bytes = some (value, after)) :
    frames parses (kind :: kinds) bytes =
      (value :: (frames parses kinds after).1, (frames parses kinds after).2) := by
  simp only [frames, hframe]

theorem completeFrames_cons (hframe : frame? (parses kind) bytes = some (value, after)) :
    completeFrames parses (kind :: kinds) bytes = completeFrames parses kinds after + 1 := by
  rw [completeFrames, frames_cons hframe]
  rfl

theorem completeFrames_cons_of_none (hframe : frame? (parses kind) bytes = none) :
    completeFrames parses (kind :: kinds) bytes = 0 := by
  simp only [completeFrames, frames, hframe, List.length_nil]

/-- Cutting the bytes short never completes a frame. -/
theorem completeFrames_le_append (kinds : List Kind) (bytes more : List UInt8) :
    completeFrames parses kinds bytes ≤ completeFrames parses kinds (bytes ++ more) := by
  induction kinds generalizing bytes with
  | nil => exact Nat.le_refl 0
  | cons kind kinds ih =>
    rcases hframe : frame? (parses kind) bytes with _ | ⟨value, after⟩
    · rw [completeFrames_cons_of_none hframe]
      exact Nat.zero_le _
    · rw [completeFrames_cons hframe, completeFrames_cons (frame?_append hframe more)]
      exact Nat.succ_le_succ (ih after)

end Frames

/-- The frame of a payload of fewer than 2 ^ 32 bytes. -/
def frame (payload : List UInt8) : List UInt8 :=
  networkBytes (UInt32.ofNat payload.length) ++ payload

theorem length_frame (payload : List UInt8) : (frame payload).length = 4 + payload.length := by
  rw [frame, List.length_append, length_networkBytes]

theorem frame?_frame {parses : List UInt8 → Option Value} {payload : List UInt8} {value : Value}
    (hpayload : payload.length < 2 ^ 32) (hparses : parses payload = some value)
    (after : List UInt8) :
    frame? parses (frame payload ++ after) = some (value, after) := by
  apply frame?_eq_some_iff.mpr
  refine ⟨UInt32.ofNat payload.length, payload, List.append_assoc _ _ _, ?_, hparses⟩
  rw [UInt32.toNat_ofNat', Nat.mod_eq_of_lt hpayload]

/-- What was framed value by value is read back value by value. -/
theorem frames_flatMap_frame {parses : Kind → List UInt8 → Option Value} {kindOf : Value → Kind}
    {payloadOf : Value → List UInt8} {values : List Value}
    (hvalues : ∀ value ∈ values, (payloadOf value).length < 2 ^ 32 ∧
      parses (kindOf value) (payloadOf value) = some value) (after : List UInt8) :
    frames parses (values.map kindOf)
        (values.flatMap (fun value => frame (payloadOf value)) ++ after) =
      (values, after) := by
  induction values with
  | nil => rfl
  | cons value values ih =>
    obtain ⟨hlength, hparses⟩ := hvalues value List.mem_cons_self
    rw [List.map_cons, List.flatMap_cons, List.append_assoc,
      frames_cons (frame?_frame hlength hparses _),
      ih fun other hother => hvalues other (List.mem_cons_of_mem value hother)]

end Framing
