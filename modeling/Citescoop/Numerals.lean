/-
Decimal numerals, and what `std::stoi` and its relatives make of other strings:
they read the integer at the beginning, and do not look at what follows it.
-/
import Citescoop.Text

namespace Citescoop

/-- A run of digits that denotes a number. -/
structure Numeral (text : Text) (number : ℕ) : Prop where
  ne_nil : text ≠ []
  digits : ∀ c ∈ text, c.isDigit = true
  value : digitsValue text = number

/-- The string begins, behind blanks, with an integer whose digits end where the
next character is no digit. -/
inductive LeadingInteger : Text → Int → Prop
  | unsigned {text rest : Text} {number : ℕ} (hnumeral : Numeral text number)
      (hrest : ∀ c ∈ rest.head?, c.isDigit = false) :
      LeadingInteger (text ++ rest) number
  | plus {text rest : Text} {number : ℕ} (hnumeral : Numeral text number)
      (hrest : ∀ c ∈ rest.head?, c.isDigit = false) :
      LeadingInteger ('+' :: (text ++ rest)) number
  | minus {text rest : Text} {number : ℕ} (hnumeral : Numeral text number)
      (hrest : ∀ c ∈ rest.head?, c.isDigit = false) :
      LeadingInteger ('-' :: (text ++ rest)) (-number)
  | blank {c : Char} {text : Text} {value : Int} (hc : isSpace c = true)
      (hleading : LeadingInteger text value) : LeadingInteger (c :: text) value

/-- The string without one leading `start`, or as it is. -/
def withoutPrefix (start text : Text) : Text :=
  if start.isPrefixOf text then text.drop start.length else text

theorem eraseFirstCopy_of_isPrefixOf {search text : Text}
    (hstarts : search.isPrefixOf text = true) :
    eraseFirstCopy search text = text.drop search.length := by
  induction text with
  | nil => simp [eraseFirstCopy]
  | cons c text ih => rw [eraseFirstCopy, if_pos hstarts]

theorem toNat_ofInt (value : Int) : (UInt32.ofInt value).toNat = (value % 2 ^ 32).toNat := by
  rw [UInt32.ofInt, UInt32.toNat_ofNat']
  omega

theorem toUInt32_ofInt (value : Int) : (UInt64.ofInt value).toUInt32 = UInt32.ofInt value := by
  apply UInt32.toNat_inj.mp
  rw [toNat_ofInt, UInt64.toNat_toUInt32, UInt64.ofInt, UInt64.toNat_ofNat']
  omega

theorem isSpace_of_isDigit {c : Char} (hc : c.isDigit = true) : isSpace c = false := by
  simp only [Char.isDigit, Bool.and_eq_true, decide_eq_true_eq, ge_iff_le,
    UInt32.le_iff_toNat_le] at hc
  have hlow : 48 ≤ c.toNat := hc.1
  simp only [isSpace, Bool.or_eq_false_iff, beq_eq_false_iff_ne, Bool.and_eq_false_iff,
    decide_eq_false_iff_not]
  omega

namespace Numeral

variable {text : Text} {number : ℕ}

theorem of_digits (hne : text ≠ []) (hdigits : ∀ c ∈ text, c.isDigit = true) :
    Numeral text (digitsValue text) :=
  ⟨hne, hdigits, rfl⟩

theorem unique {number' : ℕ} (hnumeral : Numeral text number)
    (hnumeral' : Numeral text number') : number = number' :=
  hnumeral.value.symm.trans hnumeral'.value

theorem leading (hnumeral : Numeral text number) : LeadingInteger text number := by
  have hnone : ∀ c ∈ ([] : Text).head?, c.isDigit = false := by simp
  have hleading := LeadingInteger.unsigned hnumeral hnone
  rwa [List.append_nil] at hleading

end Numeral

/-- The digits that `std::strtol` goes through. -/
theorem unsigned_eq_some_iff {rest : Text} {number : ℕ} :
    decimalPrefix.unsigned rest = some number ↔
      ∃ text after, rest = text ++ after ∧ Numeral text number ∧
        ∀ c ∈ after.head?, c.isDigit = false := by
  constructor
  · intro hread
    refine ⟨rest.takeWhile Char.isDigit, rest.dropWhile Char.isDigit,
      List.takeWhile_append_dropWhile.symm, ⟨?_, ?_, ?_⟩, ?_⟩
    · intro hnil
      simp [decimalPrefix.unsigned, hnil] at hread
    · intro c hc
      exact List.mem_takeWhile_imp hc
    · unfold decimalPrefix.unsigned at hread
      split at hread
      · simp at hread
      · next digits hdigits => simpa [hdigits] using hread
    · intro c hc
      have hhead := List.head?_dropWhile_not Char.isDigit rest
      simpa [Option.mem_def.mp hc] using hhead
  · rintro ⟨text, after, rfl, hnumeral, hafter⟩
    have htake : (text ++ after).takeWhile Char.isDigit = text := by
      rw [List.takeWhile_append_of_pos hnumeral.digits]
      rcases after with _ | ⟨c, after⟩
      · simp
      · simp [hafter c (by simp)]
    unfold decimalPrefix.unsigned
    rw [htake]
    split
    · exact absurd rfl hnumeral.ne_nil
    · simp [hnumeral.value]

theorem decimalPrefix_of_isSpace {c : Char} (hc : isSpace c = true) (text : Text) :
    decimalPrefix (c :: text) = decimalPrefix text := by
  simp [decimalPrefix, hc]

theorem decimalPrefix_minus (text : Text) :
    decimalPrefix ('-' :: text) =
      (decimalPrefix.unsigned text).map fun number : ℕ => -(number : Int) := by
  have hspace : isSpace '-' = false := by decide
  cases hread : decimalPrefix.unsigned text <;> simp [decimalPrefix, hspace, hread]

theorem decimalPrefix_plus (text : Text) :
    decimalPrefix ('+' :: text) =
      (decimalPrefix.unsigned text).map fun number : ℕ => (number : Int) := by
  have hspace : isSpace '+' = false := by decide
  cases hread : decimalPrefix.unsigned text <;> simp [decimalPrefix, hspace, hread]

theorem decimalPrefix_unsigned {c : Char} (hc : isSpace c = false) (hminus : c ≠ '-')
    (hplus : c ≠ '+') (text : Text) :
    decimalPrefix (c :: text) =
      (decimalPrefix.unsigned (c :: text)).map fun number : ℕ => (number : Int) := by
  simp only [decimalPrefix, List.dropWhile_cons, hc, Bool.false_eq_true, ↓reduceIte]
  split
  · next heq => exact absurd (List.cons.inj heq).1 hminus
  · next heq => exact absurd (List.cons.inj heq).1 hplus
  · cases decimalPrefix.unsigned (c :: text) <;> rfl

/-- `std::strtol` reads the leading integer. -/
theorem decimalPrefix_eq_some_iff {text : Text} {value : Int} :
    decimalPrefix text = some value ↔ LeadingInteger text value := by
  constructor
  · intro hread
    induction text with
    | nil => simp [decimalPrefix, decimalPrefix.unsigned] at hread
    | cons c text ih =>
        by_cases hc : isSpace c = true
        · rw [decimalPrefix_of_isSpace hc] at hread
          exact .blank hc (ih hread)
        rw [Bool.not_eq_true] at hc
        by_cases hminus : c = '-'
        · rw [hminus, decimalPrefix_minus, Option.map_eq_some_iff] at hread
          obtain ⟨number, hnumber, rfl⟩ := hread
          obtain ⟨digits, rest, rfl, hnumeral, hrest⟩ := unsigned_eq_some_iff.mp hnumber
          exact hminus ▸ .minus hnumeral hrest
        by_cases hplus : c = '+'
        · rw [hplus, decimalPrefix_plus, Option.map_eq_some_iff] at hread
          obtain ⟨number, hnumber, rfl⟩ := hread
          obtain ⟨digits, rest, rfl, hnumeral, hrest⟩ := unsigned_eq_some_iff.mp hnumber
          exact hplus ▸ .plus hnumeral hrest
        rw [decimalPrefix_unsigned hc hminus hplus, Option.map_eq_some_iff] at hread
        obtain ⟨number, hnumber, rfl⟩ := hread
        obtain ⟨digits, rest, heq, hnumeral, hrest⟩ := unsigned_eq_some_iff.mp hnumber
        rw [heq]
        exact .unsigned hnumeral hrest
  · intro hleading
    induction hleading with
    | @unsigned text rest number hnumeral hrest =>
        have hread := unsigned_eq_some_iff.mpr ⟨text, rest, rfl, hnumeral, hrest⟩
        rcases text with _ | ⟨c, text⟩
        · exact absurd rfl hnumeral.ne_nil
        have hdigit := hnumeral.digits c List.mem_cons_self
        have hminus : c ≠ '-' := by
          rintro rfl
          exact absurd hdigit (by decide)
        have hplus : c ≠ '+' := by
          rintro rfl
          exact absurd hdigit (by decide)
        rw [List.cons_append, decimalPrefix_unsigned (isSpace_of_isDigit hdigit) hminus hplus,
          ← List.cons_append, hread, Option.map_some]
    | @plus text rest number hnumeral hrest =>
        rw [decimalPrefix_plus, unsigned_eq_some_iff.mpr ⟨text, rest, rfl, hnumeral, hrest⟩,
          Option.map_some]
    | @minus text rest number hnumeral hrest =>
        rw [decimalPrefix_minus, unsigned_eq_some_iff.mpr ⟨text, rest, rfl, hnumeral, hrest⟩,
          Option.map_some]
    | blank hc hleading ih => rw [decimalPrefix_of_isSpace hc, ih]

theorem LeadingInteger.unique {text : Text} {value value' : Int}
    (hleading : LeadingInteger text value) (hleading' : LeadingInteger text value') :
    value = value' := by
  rw [← decimalPrefix_eq_some_iff] at hleading hleading'
  exact Option.some.inj (hleading.symm.trans hleading')

/-- A leading integer that is all there is, and without a sign. -/
theorem LeadingInteger.numeral {text : Text} {value : Int}
    (hleading : LeadingInteger text value) (hdigits : ∀ c ∈ text, c.isDigit = true) :
    ∃ number : ℕ, value = number ∧ Numeral text number := by
  have hne : text ≠ [] := by
    rintro rfl
    rw [← decimalPrefix_eq_some_iff] at hleading
    simp [decimalPrefix, decimalPrefix.unsigned] at hleading
  have hnumeral := Numeral.of_digits hne hdigits
  exact ⟨_, hleading.unique hnumeral.leading, hnumeral⟩

theorem unsigned_append_of_no_digit {after : Text} (hafter : after.takeWhile Char.isDigit = [])
    (rest : Text) : decimalPrefix.unsigned (rest ++ after) = decimalPrefix.unsigned rest := by
  have htake : (rest ++ after).takeWhile Char.isDigit = rest.takeWhile Char.isDigit := by
    rw [List.takeWhile_append, hafter, List.append_nil]
    split
    · next hlength =>
        exact (List.takeWhile_prefix Char.isDigit).eq_of_length hlength |>.symm
    · rfl
  simp only [decimalPrefix.unsigned, htake]

/-- What cannot go on with an integer, nor begin one, is no part of the integer before it. -/
theorem decimalPrefix_append {after : Text} (hdigit : after.takeWhile Char.isDigit = [])
    (hafter : decimalPrefix after = none) (text : Text) :
    decimalPrefix (text ++ after) = decimalPrefix text := by
  induction text with
  | nil => exact hafter
  | cons c text ih =>
      rw [List.cons_append]
      by_cases hc : isSpace c = true
      · rw [decimalPrefix_of_isSpace hc, decimalPrefix_of_isSpace hc, ih]
      rw [Bool.not_eq_true] at hc
      by_cases hminus : c = '-'
      · rw [hminus, decimalPrefix_minus, decimalPrefix_minus,
          unsigned_append_of_no_digit hdigit]
      by_cases hplus : c = '+'
      · rw [hplus, decimalPrefix_plus, decimalPrefix_plus, unsigned_append_of_no_digit hdigit]
      rw [decimalPrefix_unsigned hc hminus hplus, decimalPrefix_unsigned hc hminus hplus,
        ← List.cons_append, unsigned_append_of_no_digit hdigit]

/-- Blanks behind a string are no part of the integer. -/
theorem decimalPrefix_append_of_blank {after : Text} (hafter : Blank after) (text : Text) :
    decimalPrefix (text ++ after) = decimalPrefix text := by
  apply decimalPrefix_append
  · rcases after with _ | ⟨c, after⟩
    · rfl
    · have hc : c.isDigit = false := by
        by_contra hdigit
        rw [Bool.not_eq_false] at hdigit
        have hspace := hafter c List.mem_cons_self
        rw [isSpace_of_isDigit hdigit] at hspace
        cases hspace
      simp [hc]
  · have hnil : after.dropWhile isSpace = [] := List.dropWhile_eq_nil_iff.mpr hafter
    simp [decimalPrefix, decimalPrefix.unsigned, hnil]

/-- Trimming does not change the integer that is read. -/
@[simp] theorem decimalPrefix_trimCopy (text : Text) :
    decimalPrefix (trimCopy text) = decimalPrefix text := by
  obtain ⟨before, after, hbefore, hafter, htext⟩ := exists_pad_trimCopy text
  have hfront : decimalPrefix (before ++ trimCopy text) = decimalPrefix (trimCopy text) := by
    simp only [decimalPrefix, List.dropWhile_append_of_pos hbefore]
  conv_rhs => rw [htext, decimalPrefix_append_of_blank hafter, hfront]

/-- A string that the conversions accept begins with a blank, a sign or a digit. -/
theorem decimalPrefix_of_letter {c : Char} (hc : 58 ≤ c.toNat) (text : Text) :
    decimalPrefix (c :: text) = none := by
  have hspace : isSpace c = false := by
    simp only [isSpace, Bool.or_eq_false_iff, beq_eq_false_iff_ne, Bool.and_eq_false_iff,
      decide_eq_false_iff_not]
    omega
  have hdigit : c.isDigit = false := by
    simp only [Char.isDigit, Bool.and_eq_false_iff, decide_eq_false_iff_not, ge_iff_le,
      UInt32.le_iff_toNat_le]
    exact Or.inr (by change ¬ c.toNat ≤ 57; omega)
  have hminus : c ≠ '-' := by
    rintro rfl
    exact absurd hc (by decide)
  have hplus : c ≠ '+' := by
    rintro rfl
    exact absurd hc (by decide)
  rw [decimalPrefix_unsigned hspace hminus hplus]
  simp [decimalPrefix.unsigned, hdigit]

theorem toSigned_eq_ok_iff {lowest highest value : Int} {text : Text} :
    toSigned lowest highest text = .ok value ↔
      LeadingInteger text value ∧ lowest ≤ value ∧ value ≤ highest := by
  rw [← decimalPrefix_eq_some_iff, toSigned]
  cases decimalPrefix text with
  | none => simp
  | some read =>
      simp only [Option.some.injEq]
      split
      · next hrange =>
          simp only [Except.ok.injEq]
          constructor
          · rintro rfl
            exact ⟨rfl, hrange⟩
          · exact fun hvalue => hvalue.1
      · next hrange =>
          simp only [reduceCtorEq, false_iff]
          rintro ⟨rfl, hvalue⟩
          exact hrange hvalue

theorem stoi_eq_ok_iff {text : Text} {value : Int} :
    stoi text = .ok value ↔
      LeadingInteger text value ∧ -2 ^ 31 ≤ value ∧ value ≤ 2 ^ 31 - 1 :=
  toSigned_eq_ok_iff

theorem stol_eq_ok_iff {text : Text} {value : Int} :
    stol text = .ok value ↔
      LeadingInteger text value ∧ -2 ^ 63 ≤ value ∧ value ≤ 2 ^ 63 - 1 :=
  toSigned_eq_ok_iff

theorem stoul_eq_ok_iff {text : Text} {number : UInt64} :
    stoul text = .ok number ↔
      ∃ value, LeadingInteger text value ∧ value.natAbs < 2 ^ 64 ∧
        number = UInt64.ofInt value := by
  simp only [← decimalPrefix_eq_some_iff, stoul]
  cases decimalPrefix text with
  | none => simp
  | some read =>
      simp only [Option.some.injEq, exists_eq_left']
      split
      · next hrange => simp only [Except.ok.injEq, hrange, true_and, eq_comm]
      · next hrange => simp only [reduceCtorEq, hrange, false_and]

end Citescoop
