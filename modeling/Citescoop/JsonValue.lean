/-
JSON values as nlohmann's `json` holds them, and reading through a `const`
reference: `operator[]`, `contains`, `is_string`, `get<std::string>` and the
range `for`.  What strings are is left open.
-/
import Mathlib

universe u

/-- A number keeps the text it was written as. -/
inductive JsonValue (S : Type u) where
  | null
  | boolean (value : Bool)
  | number (literal : S)
  | string (value : S)
  | array (items : List (JsonValue S))
  | object (members : List (S × JsonValue S))

namespace JsonValue

/-- What reading may end in.  `operator[]` on an absent key of a constant object
fails an assertion, and is undefined without assertions. -/
inductive Failure where
  | parseError
  | typeError
  | absentKey
deriving Repr, DecidableEq

variable {S : Type u}

def isString : JsonValue S → Bool
  | string _ => true
  | _ => false

/-- `get<std::string>`. -/
def getString : JsonValue S → Except Failure S
  | string value => .ok value
  | _ => .error .typeError

/-- What a range `for` goes through: a value that is no container is a range of
its own, except `null`. -/
def items : JsonValue S → List (JsonValue S)
  | null => []
  | array items => items
  | object members => members.map Prod.snd
  | value => [value]

theorem getString_eq_ok_iff {value : JsonValue S} {text : S} :
    value.getString = .ok text ↔ value = string text := by
  cases value <;> simp [getString]

variable [DecidableEq S]

def member? (key : S) : JsonValue S → Option (JsonValue S)
  | object members => (members.find? fun member => member.1 = key).map Prod.snd
  | _ => none

def contains (key : S) (value : JsonValue S) : Bool :=
  (value.member? key).isSome

/-- `operator[]`. -/
def index (key : S) : JsonValue S → Except Failure (JsonValue S)
  | object members =>
      match (object members).member? key with
      | some member => .ok member
      | none => .error .absentKey
  | _ => .error .typeError

/-- The string under a key, where `contains(key)` and `operator[](key).is_string()`
both hold. -/
def stringAt? (key : S) (value : JsonValue S) : Option S :=
  (value.member? key).bind fun member => member.getString.toOption

variable {key : S} {value member : JsonValue S} {text : S}

theorem index_eq_ok_iff :
    value.index key = .ok member ↔ value.member? key = some member := by
  cases value with
  | object members =>
      simp only [index]
      split <;> simp_all
  | _ => simp [index, member?]

theorem stringAt?_eq_some_iff :
    value.stringAt? key = some text ↔ value.member? key = some (string text) := by
  rw [stringAt?, Option.bind_eq_some_iff]
  constructor
  · rintro ⟨member, hmember, htext⟩
    have hstring : member.getString = .ok text := by
      cases hread : member.getString <;> simp_all [Except.toOption]
    rw [hmember, getString_eq_ok_iff.mp hstring]
  · intro hmember
    exact ⟨string text, hmember, rfl⟩

/-- A guarded read does not fail. -/
theorem index_of_stringAt? (hstring : value.stringAt? key = some text) :
    value.index key = .ok (string text) :=
  index_eq_ok_iff.mpr (stringAt?_eq_some_iff.mp hstring)

/-- The guard in the words of the library. -/
theorem isSome_stringAt? :
    (value.stringAt? key).isSome =
      (value.contains key && (value.member? key).any isString) := by
  rw [stringAt?, contains]
  rcases value.member? key with _ | member
  · rfl
  · cases member <;> rfl

end JsonValue
