/-
Codes that tell where they end: what was encoded is decoded from the front of any
bytes, with the bytes after it.  Codes of parts make up the code of the whole.
-/
import Mathlib

/-- Values as bytes, and back. -/
class Coder (α : Type) where
  encode : α → List UInt8
  decode : List UInt8 → Option (α × List UInt8)
  decode_encode : ∀ value rest, decode (encode value ++ rest) = some (value, rest)

namespace Coder

variable {α β : Type}

theorem decode_encode_nil [Coder α] (value : α) : decode (encode value) = some (value, []) := by
  rw [← List.append_nil (encode value), decode_encode]

/-- A value through what represents it. -/
abbrev ofInverse [Coder β] (represent : α → β) (restore : β → α)
    (hrestore : ∀ value, restore (represent value) = value) : Coder α where
  encode value := encode (represent value)
  decode bytes := (decode bytes).map fun decoded => (restore decoded.1, decoded.2)
  decode_encode value rest := by simp [decode_encode, hrestore]

/-- The digits to the base 255, and the byte 255 after them. -/
def encodeNat (number : ℕ) : List UInt8 :=
  (Nat.digits 255 number).map UInt8.ofNat ++ [255]

def decodeNat (bytes : List UInt8) : Option (ℕ × List UInt8) :=
  match bytes.dropWhile (· ≠ 255) with
  | [] => none
  | _ :: rest =>
      some (Nat.ofDigits 255 ((bytes.takeWhile (· ≠ 255)).map UInt8.toNat), rest)

theorem toNat_ofNat_digit {number digit : ℕ} (hdigit : digit ∈ Nat.digits 255 number) :
    (UInt8.ofNat digit).toNat = digit ∧ UInt8.ofNat digit ≠ 255 := by
  have hlt : digit < 255 := Nat.digits_lt_base (by norm_num) hdigit
  have htoNat : (UInt8.ofNat digit).toNat = digit := by
    rw [UInt8.toNat_ofNat', Nat.mod_eq_of_lt (by omega)]
  refine ⟨htoNat, ?_⟩
  intro heq
  rw [heq] at htoNat
  exact absurd (htoNat.symm ▸ hlt) (by decide)

theorem decodeNat_encodeNat (number : ℕ) (rest : List UInt8) :
    decodeNat (encodeNat number ++ rest) = some (number, rest) := by
  have hdigits : ∀ byte ∈ (Nat.digits 255 number).map UInt8.ofNat,
      decide (byte ≠ 255) = true := by
    intro byte hbyte
    obtain ⟨digit, hdigit, rfl⟩ := List.mem_map.mp hbyte
    exact decide_eq_true (toNat_ofNat_digit hdigit).2
  have htoNat : ((Nat.digits 255 number).map UInt8.ofNat).map UInt8.toNat =
      Nat.digits 255 number := by
    rw [List.map_map]
    refine (List.map_congr_left fun digit hdigit => ?_).trans (List.map_id _)
    exact (toNat_ofNat_digit hdigit).1
  rw [decodeNat, encodeNat, List.append_assoc, List.singleton_append,
    List.dropWhile_append_of_pos hdigits, List.takeWhile_append_of_pos hdigits]
  simp [htoNat, Nat.ofDigits_digits]

instance : Coder ℕ := ⟨encodeNat, decodeNat, decodeNat_encodeNat⟩

instance : Coder Bool :=
  ofInverse Bool.toNat (· ≠ 0) fun value => by cases value <;> rfl

instance [Coder α] [Coder β] : Coder (α × β) where
  encode value := encode value.1 ++ encode value.2
  decode bytes := do
    let (first, bytes) ← decode bytes
    let (second, bytes) ← decode bytes
    return ((first, second), bytes)
  decode_encode value rest := by simp [List.append_assoc, decode_encode]

/-- As many values as given. -/
def decodeMany [Coder α] : ℕ → List UInt8 → Option (List α × List UInt8)
  | 0, bytes => some ([], bytes)
  | count + 1, bytes => do
      let (value, bytes) ← decode bytes
      let (values, bytes) ← decodeMany count bytes
      return (value :: values, bytes)

theorem decodeMany_flatMap [Coder α] (values : List α) (rest : List UInt8) :
    decodeMany values.length (values.flatMap encode ++ rest) = some (values, rest) := by
  induction values with
  | nil => rfl
  | cons value values ih =>
      simp [decodeMany, List.flatMap_cons, List.append_assoc, decode_encode, ih]

instance [Coder α] : Coder (List α) where
  encode values := encode values.length ++ values.flatMap encode
  decode bytes := do
    let (count, bytes) ← decode (α := ℕ) bytes
    decodeMany count bytes
  decode_encode values rest := by
    simp [List.append_assoc, decode_encode, decodeMany_flatMap]

instance [Coder α] : Coder (Option α) :=
  ofInverse Option.toList List.head? fun value => by cases value <;> rfl

end Coder
