/-
Strings, and the Boost and standard library algorithms that the parsers run
on them.  The algorithms work in the classic locale, which tells only ASCII
characters apart, so a byte of a `std::string` is represented by a character.
-/
import Mathlib

namespace Citescoop

/-- A `std::string`. -/
abbrev Text := List Char

/-- `std::isspace` in the classic locale.  The skipper `bp::ws` accepts the
same six ASCII characters. -/
def isSpace (c : Char) : Bool :=
  c.toNat == 32 || (9 ≤ c.toNat && c.toNat ≤ 13)

/-- `boost::algorithm::trim_copy`. -/
def trimCopy (s : Text) : Text :=
  (s.dropWhile isSpace).rdropWhile isSpace

/-- `boost::algorithm::to_lower`. -/
def toLower (s : Text) : Text :=
  s.map Char.toLower

/-- `boost::algorithm::erase_first_copy`: drop the first occurrence. -/
def eraseFirstCopy (search : Text) : Text → Text
  | [] => []
  | c :: s =>
      if search.isPrefixOf (c :: s) then (c :: s).drop search.length
      else c :: eraseFirstCopy search s

/-- The two exceptions of `std::stoi` and its relatives. -/
inductive ConversionError where
  | invalidArgument
  | outOfRange
deriving Repr, DecidableEq

/-- The value of a run of decimal digits. -/
def digitsValue (digits : Text) : Nat :=
  digits.foldl (fun value c => 10 * value + (c.toNat - 48)) 0

/-- `std::strtol` in base ten: blanks, an optional sign and the longest run of
digits; `none` when there is no digit. -/
def decimalPrefix (s : Text) : Option Int :=
  match s.dropWhile isSpace with
  | '-' :: rest => (unsigned rest).map fun value => -(value : Int)
  | '+' :: rest => (unsigned rest).map fun value => (value : Int)
  | rest => (unsigned rest).map fun value => (value : Int)
where
  unsigned (rest : Text) : Option Nat :=
    match rest.takeWhile Char.isDigit with
    | [] => none
    | digits => some (digitsValue digits)

/-- Conversion to a signed integer type of the given range. -/
def toSigned (lowest highest : Int) (s : Text) : Except ConversionError Int :=
  match decimalPrefix s with
  | none => .error .invalidArgument
  | some value =>
      if lowest ≤ value ∧ value ≤ highest then .ok value else .error .outOfRange

/-- `std::stoi`, with a 32-bit `int`. -/
def stoi (s : Text) : Except ConversionError Int :=
  toSigned (-2 ^ 31) (2 ^ 31 - 1) s

/-- `std::stol`, with a 64-bit `long`. -/
def stol (s : Text) : Except ConversionError Int :=
  toSigned (-2 ^ 63) (2 ^ 63 - 1) s

/-- `std::stoul`, with a 64-bit `unsigned long`: the range is checked before a
minus sign negates the value in the unsigned type. -/
def stoul (s : Text) : Except ConversionError UInt64 :=
  match decimalPrefix s with
  | none => .error .invalidArgument
  | some value =>
      if value.natAbs < 2 ^ 64 then .ok (UInt64.ofInt value) else .error .outOfRange

/-- A run of blanks, as it may stand around a name, a key or a value. -/
def Blank (s : Text) : Prop :=
  ∀ c ∈ s, isSpace c = true

/-- Lower-casing moves the capital letters and nothing else. -/
theorem toNat_toLower (c : Char) :
    c.toLower.toNat =
      if 65 ≤ c.toNat ∧ c.toNat ≤ 90 then c.toNat + 32 else c.toNat := by
  have hupper : (c.val ≥ 'A'.val ∧ c.val ≤ 'Z'.val) ↔ 65 ≤ c.toNat ∧ c.toNat ≤ 90 := by
    rw [ge_iff_le, UInt32.le_iff_toNat_le, UInt32.le_iff_toNat_le]
    rfl
  split
  · next hcapital =>
      have hdiff : ('a'.val - 'A'.val).toNat = 32 := by decide
      have hshift : (c.val + ('a'.val - 'A'.val)).toNat = c.toNat + 32 := by
        rw [UInt32.toNat_add, hdiff]
        exact Nat.mod_eq_of_lt (by change c.toNat + 32 < _; omega)
      rw [Char.toLower, dif_pos (hupper.mpr hcapital)]
      exact hshift
  · next hcapital => rw [Char.toLower, dif_neg (mt hupper.mp hcapital)]

theorem toLower_char_cases (c : Char) :
    c.toLower = c ∨
      65 ≤ c.toNat ∧ c.toNat ≤ 90 ∧ c.toLower.toNat = c.toNat + 32 := by
  have hlower := toNat_toLower c
  split at hlower
  · next hcapital => exact Or.inr ⟨hcapital.1, hcapital.2, hlower⟩
  · exact Or.inl (Char.toNat_inj.mp hlower)

theorem isSpace_toLower (c : Char) : isSpace c.toLower = isSpace c := by
  rcases toLower_char_cases c with hsame | ⟨hlow, hhigh, hshift⟩
  · rw [hsame]
  · have hlower : isSpace c.toLower = false := by
      simp only [isSpace, hshift, Bool.or_eq_false_iff, beq_eq_false_iff_ne,
        Bool.and_eq_false_iff, decide_eq_false_iff_not]
      omega
    have hupper : isSpace c = false := by
      simp only [isSpace, Bool.or_eq_false_iff, beq_eq_false_iff_ne,
        Bool.and_eq_false_iff, decide_eq_false_iff_not]
      omega
    rw [hlower, hupper]

/-- Only a letter is the lower case of another character. -/
theorem eq_of_toLower_eq {c d : Char} (hc : c.toNat < 97 ∨ 122 < c.toNat)
    (hd : d.toLower = c) : d = c := by
  rcases toLower_char_cases d with hsame | ⟨hlow, hhigh, hshift⟩
  · exact hsame.symm.trans hd
  · rw [hd] at hshift
    omega

theorem rdropWhile_append_of_blank (s : Text) {after : Text}
    (hafter : Blank after) :
    (s ++ after).rdropWhile isSpace = s.rdropWhile isSpace := by
  rw [List.rdropWhile, List.reverse_append,
    List.dropWhile_append_of_pos (by simpa [Blank] using hafter)]
  rfl

/-- Blanks in front of a string do not survive trimming. -/
@[simp] theorem trimCopy_dropWhile (s : Text) :
    trimCopy (s.dropWhile isSpace) = trimCopy s := by
  rw [trimCopy, List.dropWhile_idempotent, trimCopy]

theorem trimCopy_append_of_blank (s : Text) {after : Text}
    (hafter : Blank after) : trimCopy (s ++ after) = trimCopy s := by
  by_cases hs : s.dropWhile isSpace = []
  · have hafterNil : after.dropWhile isSpace = [] :=
      List.dropWhile_eq_nil_iff.mpr hafter
    simp [trimCopy, List.dropWhile_append, hs, hafterNil]
  · have hne : (s.dropWhile isSpace).isEmpty = false := by
      simpa using hs
    rw [trimCopy, List.dropWhile_append, hne]
    exact rdropWhile_append_of_blank _ hafter

/-- Padding a string on both sides with blanks does not change what is left
after trimming. -/
theorem trimCopy_pad {before after : Text} (s : Text)
    (hbefore : Blank before) (hafter : Blank after) :
    trimCopy (before ++ s ++ after) = trimCopy s := by
  rw [trimCopy_append_of_blank _ hafter, ← trimCopy_dropWhile,
    List.dropWhile_append_of_pos hbefore, trimCopy_dropWhile]

/-- Trimming only takes blanks off. -/
theorem exists_pad_trimCopy (s : Text) :
    ∃ before after, Blank before ∧ Blank after ∧
      s = before ++ trimCopy s ++ after := by
  refine ⟨s.takeWhile isSpace, (s.dropWhile isSpace).rtakeWhile isSpace, ?_, ?_, ?_⟩
  · exact fun c hc => List.mem_takeWhile_imp hc
  · exact fun c hc => List.mem_rtakeWhile_imp hc
  · rw [trimCopy, List.append_assoc, List.rdropWhile_append_rtakeWhile,
      List.takeWhile_append_dropWhile]

@[simp] theorem trimCopy_trimCopy (s : Text) :
    trimCopy (trimCopy s) = trimCopy s := by
  obtain ⟨before, after, hbefore, hafter, hs⟩ := exists_pad_trimCopy s
  conv_rhs => rw [hs]
  exact (trimCopy_pad _ hbefore hafter).symm

@[simp] theorem trimCopy_eq_nil_iff (s : Text) : trimCopy s = [] ↔ Blank s := by
  rw [trimCopy, List.rdropWhile_eq_nil_iff]
  constructor
  · intro hrest c hc
    rw [← List.takeWhile_append_dropWhile (p := isSpace) (l := s)] at hc
    rcases List.mem_append.mp hc with hhead | htail
    · exact List.mem_takeWhile_imp hhead
    · exact hrest c htail
  · intro hs
    simp [List.dropWhile_eq_nil_iff.mpr hs]

theorem trimCopy_toLower (s : Text) :
    trimCopy (toLower s) = toLower (trimCopy s) := by
  have hblank : isSpace ∘ Char.toLower = isSpace := by
    funext c
    exact isSpace_toLower c
  simp only [trimCopy, toLower, List.rdropWhile, List.dropWhile_map, hblank,
    ← List.map_reverse]

end Citescoop
