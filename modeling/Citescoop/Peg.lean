/-
Parsing expressions with a skipper, in the reading of Boost.Parser: a choice
is never revisited, the parts of a sequence and the rounds of a repetition
skip blanks before they start, and a part that fails gives its input back.
-/
import Mathlib

namespace Peg

universe u v w

/-- Given the tokens the skipper drops and the input, `none` is failure and
`some (value, rest)` is success with the input left to read. -/
abbrev Parser (τ : Type u) (α : Type v) :=
  (τ → Bool) → List τ → Option (α × List τ)

variable {τ : Type u} {α : Type v} {β : Type w}

/-- Read one token of the given kind. -/
def satisfy (kind : τ → Bool) : Parser τ τ
  | _, [] => none
  | _, t :: s => if kind t then some (t, s) else none

/-- `char_`. -/
def anyToken : Parser τ τ :=
  satisfy fun _ => true

/-- `lit`: read exactly the given tokens, with nothing skipped in between. -/
def lit [DecidableEq τ] (word : List τ) : Parser τ Unit := fun _ s =>
  if word <+: s then some ((), s.drop word.length) else none

/-- Change the value of a parser. -/
def map (f : α → β) (p : Parser τ α) : Parser τ β := fun ws s =>
  (p ws s).map fun (value, rest) => (f value, rest)

/-- `p >> q`. -/
def seq (p : Parser τ α) (q : Parser τ β) : Parser τ (α × β) := fun ws s =>
  match p ws (s.dropWhile ws) with
  | none => none
  | some (left, rest) =>
      match q ws (rest.dropWhile ws) with
      | none => none
      | some (right, rest) => some ((left, right), rest)

/-- `p >> q` for a `p` without a value. -/
def seqRight (p : Parser τ α) (q : Parser τ β) : Parser τ β :=
  map Prod.snd (seq p q)

/-- `p >> q` for a `q` without a value. -/
def seqLeft (p : Parser τ α) (q : Parser τ β) : Parser τ α :=
  map Prod.fst (seq p q)

/-- `-p`. -/
def opt (p : Parser τ α) : Parser τ (Option α) := fun ws s =>
  match p ws s with
  | none => some (none, s)
  | some (value, rest) => some (some value, rest)

/-- `!p`: succeed without reading when `p` fails. -/
def notAhead (p : Parser τ α) : Parser τ Unit := fun ws s =>
  match p ws s with
  | none => some ((), s)
  | some _ => none

/-- `p - q`, which is `!q >> p`. -/
def diff (p : Parser τ α) (q : Parser τ β) : Parser τ α :=
  seqRight (notAhead q) p

/-- `lexeme[p]`: nothing is skipped inside `p`. -/
def lexeme (p : Parser τ α) : Parser τ α := fun _ s =>
  p (fun _ => false) s

/-- `omit[p]`. -/
def omitValue (p : Parser τ α) : Parser τ Unit :=
  map (fun _ => ()) p

/-- The rounds of a repetition.  A round that fails gives back what it
skipped.  The fuel only bounds the number of rounds. -/
def rounds (p : Parser τ α) (ws : τ → Bool) :
    Nat → List τ → List α × List τ
  | 0, s => ([], s)
  | fuel + 1, s =>
      match p ws (s.dropWhile ws) with
      | none => ([], s)
      | some (value, rest) =>
          let tail := rounds p ws fuel rest
          (value :: tail.1, tail.2)

/-- `*p`. -/
def many (p : Parser τ α) : Parser τ (List α) := fun ws s =>
  some (rounds p ws s.length s)

/-- A first `p`, and then what `q` reads. -/
def cons (p : Parser τ α) (q : Parser τ (List α)) : Parser τ (List α) :=
  fun ws s =>
    match p ws (s.dropWhile ws) with
    | none => none
    | some (value, rest) => map (fun values => value :: values) q ws rest

/-- `+p`. -/
def many1 (p : Parser τ α) : Parser τ (List α) :=
  cons p (many p)

/-- `p % separator`. -/
def delimited (p : Parser τ α) (separator : Parser τ β) : Parser τ (List α) :=
  cons p (many (seqRight separator p))

/-- The condition under which a repetition ends by itself: every success
reads at least one token. -/
def Consumes (p : Parser τ α) (ws : τ → Bool) : Prop :=
  ∀ ⦃s : List τ⦄ ⦃value : α⦄ ⦃rest : List τ⦄,
    p ws s = some (value, rest) → rest.length < s.length

theorem Consumes.nil {p : Parser τ α} {ws : τ → Bool} (hp : Consumes p ws) :
    p ws [] = none := by
  cases hresult : p ws [] with
  | none => rfl
  | some result => exact absurd (hp hresult) (by simp)

@[simp] theorem dropWhile_none (s : List τ) :
    s.dropWhile (fun _ => false) = s := by
  cases s <;> simp

/-- For a consuming parser the length of the input is fuel enough. -/
theorem rounds_fuel {p : Parser τ α} {ws : τ → Bool} (hp : Consumes p ws)
    {fuel fuel' : Nat} {s : List τ} (hfuel : s.length ≤ fuel)
    (hfuel' : s.length ≤ fuel') : rounds p ws fuel s = rounds p ws fuel' s := by
  induction fuel generalizing fuel' s with
  | zero =>
      have hs : s = [] := by simpa using hfuel
      subst hs
      cases fuel' with
      | zero => rfl
      | succ fuel' => simp [rounds, hp.nil]
  | succ fuel ih =>
      cases fuel' with
      | zero =>
          have hs : s = [] := by simpa using hfuel'
          subst hs
          simp [rounds, hp.nil]
      | succ fuel' =>
          unfold rounds
          cases hresult : p ws (s.dropWhile ws) with
          | none => rfl
          | some result =>
              obtain ⟨value, rest⟩ := result
              have hrest := hp hresult
              have hskip := List.length_dropWhile_le ws s
              simp only
              rw [@ih fuel' _ (by omega) (by omega)]

/-- One round of `*p` unrolled. -/
theorem many_eq {p : Parser τ α} {ws : τ → Bool} (hp : Consumes p ws)
    (s : List τ) :
    many p ws s =
      match p ws (s.dropWhile ws) with
      | none => some ([], s)
      | some (value, rest) =>
          map (fun values => value :: values) (many p) ws rest := by
  cases s with
  | nil => simp [many, rounds, hp.nil]
  | cons t s =>
      simp only [many, List.length_cons, rounds]
      cases hresult : p ws ((t :: s).dropWhile ws) with
      | none => rfl
      | some result =>
          obtain ⟨value, rest⟩ := result
          have hrest := hp hresult
          have hskip := List.length_dropWhile_le ws (t :: s)
          simp only [List.length_cons] at hskip
          simp only [map, many, Option.map_some]
          rw [rounds_fuel hp (by omega) le_rfl]

theorem satisfy_consumes (kind : τ → Bool) (ws : τ → Bool) :
    Consumes (satisfy kind) ws := by
  intro s value rest hresult
  cases s with
  | nil => simp [satisfy] at hresult
  | cons t s =>
      simp only [satisfy, Option.ite_none_right_eq_some, Option.some.injEq,
        Prod.mk.injEq] at hresult
      obtain ⟨-, -, rfl⟩ := hresult
      simp

/-- A success never lengthens the input. -/
def NonGrowing (p : Parser τ α) (ws : τ → Bool) : Prop :=
  ∀ ⦃s : List τ⦄ ⦃value : α⦄ ⦃rest : List τ⦄,
    p ws s = some (value, rest) → rest.length ≤ s.length

theorem Consumes.nonGrowing {p : Parser τ α} {ws : τ → Bool}
    (hp : Consumes p ws) : NonGrowing p ws :=
  fun _ _ _ hresult => Nat.le_of_lt (hp hresult)

theorem map_eq_some {f : α → β} {p : Parser τ α} {ws : τ → Bool}
    {s rest : List τ} {value : β} :
    map f p ws s = some (value, rest) ↔
      ∃ inner, p ws s = some (inner, rest) ∧ f inner = value := by
  simp [map]

theorem seq_eq_some {p : Parser τ α} {q : Parser τ β} {ws : τ → Bool}
    {s rest : List τ} {left : α} {right : β} :
    seq p q ws s = some ((left, right), rest) ↔
      ∃ middle, p ws (s.dropWhile ws) = some (left, middle) ∧
        q ws (middle.dropWhile ws) = some (right, rest) := by
  unfold seq
  constructor
  · intro hresult
    split at hresult
    · cases hresult
    · next value middle hleft =>
        split at hresult
        · cases hresult
        · next value' rest' hright =>
            simp only [Option.some.injEq, Prod.mk.injEq] at hresult
            obtain ⟨⟨rfl, rfl⟩, rfl⟩ := hresult
            exact ⟨middle, hleft, hright⟩
  · rintro ⟨middle, hleft, hright⟩
    simp [hleft, hright]

/-- Each part of a sequence starts behind what is skipped before it. -/
theorem seq_parts {p : Parser τ α} {q : Parser τ β} {ws : τ → Bool}
    {s rest : List τ} {left : α} {right : β}
    (hresult : seq p q ws s = some ((left, right), rest)) :
    ∃ first middle second, first.length ≤ s.length ∧ p ws first = some (left, middle) ∧
      second.length ≤ middle.length ∧ q ws second = some (right, rest) := by
  obtain ⟨middle, hleft, hright⟩ := seq_eq_some.mp hresult
  exact ⟨_, middle, _, List.length_dropWhile_le ws s, hleft, List.length_dropWhile_le ws middle,
    hright⟩

/-- A sequence starts by skipping, so skipping before it changes nothing. -/
@[simp] theorem seq_dropWhile (p : Parser τ α) (q : Parser τ β)
    (ws : τ → Bool) (s : List τ) :
    seq p q ws (s.dropWhile ws) = seq p q ws s := by
  simp [seq, List.dropWhile_idempotent]

@[simp] theorem delimited_dropWhile (p : Parser τ α) (separator : Parser τ β)
    (ws : τ → Bool) (s : List τ) :
    delimited p separator ws (s.dropWhile ws) = delimited p separator ws s := by
  simp [delimited, cons, List.dropWhile_idempotent]

theorem NonGrowing.map {p : Parser τ α} {ws : τ → Bool} (hp : NonGrowing p ws)
    (f : α → β) : NonGrowing (map f p) ws := by
  intro s value rest hresult
  obtain ⟨inner, hinner, -⟩ := map_eq_some.mp hresult
  exact hp hinner

theorem Consumes.map {p : Parser τ α} {ws : τ → Bool} (hp : Consumes p ws)
    (f : α → β) : Consumes (map f p) ws := by
  intro s value rest hresult
  obtain ⟨inner, hinner, -⟩ := map_eq_some.mp hresult
  exact hp hinner

theorem NonGrowing.seq {p : Parser τ α} {q : Parser τ β} {ws : τ → Bool}
    (hp : NonGrowing p ws) (hq : NonGrowing q ws) : NonGrowing (seq p q) ws := by
  rintro s ⟨left, right⟩ rest hresult
  obtain ⟨first, middle, second, hskip, hleft, hskip', hright⟩ := seq_parts hresult
  have hleftLength := hp hleft
  have hrightLength := hq hright
  omega

theorem Consumes.seq {p : Parser τ α} {q : Parser τ β} {ws : τ → Bool}
    (hp : Consumes p ws) (hq : NonGrowing q ws) : Consumes (seq p q) ws := by
  rintro s ⟨left, right⟩ rest hresult
  obtain ⟨first, middle, second, hskip, hleft, hskip', hright⟩ := seq_parts hresult
  have hleftLength := hp hleft
  have hrightLength := hq hright
  omega

theorem NonGrowing.seq_consumes {p : Parser τ α} {q : Parser τ β}
    {ws : τ → Bool} (hp : NonGrowing p ws) (hq : Consumes q ws) :
    Consumes (Peg.seq p q) ws := by
  rintro s ⟨left, right⟩ rest hresult
  obtain ⟨first, middle, second, hskip, hleft, hskip', hright⟩ := seq_parts hresult
  have hleftLength := hp hleft
  have hrightLength := hq hright
  omega

theorem NonGrowing.opt {p : Parser τ α} {ws : τ → Bool}
    (hp : NonGrowing p ws) : NonGrowing (opt p) ws := by
  intro s value rest hresult
  unfold Peg.opt at hresult
  cases hinner : p ws s with
  | none =>
      simp only [hinner, Option.some.injEq, Prod.mk.injEq] at hresult
      exact le_of_eq (by rw [hresult.2])
  | some result =>
      simp only [hinner, Option.some.injEq, Prod.mk.injEq] at hresult
      exact hresult.2 ▸ hp hinner

theorem NonGrowing.many {p : Parser τ α} {ws : τ → Bool}
    (hp : NonGrowing p ws) : NonGrowing (many p) ws := by
  have hrounds : ∀ fuel s, (rounds p ws fuel s).2.length ≤ s.length := by
    intro fuel
    induction fuel with
    | zero => intro s; exact le_rfl
    | succ fuel ih =>
        intro s
        unfold rounds
        cases hresult : p ws (s.dropWhile ws) with
        | none => exact le_rfl
        | some result =>
            have hskip := List.length_dropWhile_le ws s
            have hlength := hp hresult
            have htail := ih result.2
            simp only
            omega
  intro s value rest hresult
  simp only [Peg.many, Option.some.injEq] at hresult
  have hlength := hrounds s.length s
  rwa [hresult] at hlength

theorem NonGrowing.cons {p : Parser τ α} {q : Parser τ (List α)}
    {ws : τ → Bool} (hp : NonGrowing p ws) (hq : NonGrowing q ws) :
    NonGrowing (cons p q) ws := by
  intro s value rest hresult
  unfold Peg.cons at hresult
  split at hresult
  · cases hresult
  · next first middle hfirst =>
      have hskip := List.length_dropWhile_le ws s
      have hfirstLength := hp hfirst
      have hrest := hq.map _ hresult
      omega

theorem notAhead_nonGrowing (p : Parser τ α) (ws : τ → Bool) :
    NonGrowing (notAhead p) ws := by
  intro s value rest hresult
  unfold notAhead at hresult
  split at hresult
  · simp only [Option.some.injEq, Prod.mk.injEq] at hresult
    exact le_of_eq (by rw [hresult.2])
  · cases hresult

theorem lit_consumes [DecidableEq τ] {word : List τ} (hword : word ≠ [])
    (ws : τ → Bool) : Consumes (lit word) ws := by
  intro s value rest hresult
  simp only [lit, Option.ite_none_right_eq_some, Option.some.injEq,
    Prod.mk.injEq] at hresult
  obtain ⟨hhead, -, rfl⟩ := hresult
  have hpos := List.length_pos_iff.mpr hword
  have hle := hhead.length_le
  simp only [List.length_drop]
  omega

/-- Two parsers that agree under a skipper are repeated alike. -/
theorem many_congr {p q : Parser τ α} {ws : τ → Bool}
    (hpq : ∀ s, p ws s = q ws s) (s : List τ) : many p ws s = many q ws s := by
  have hrounds : ∀ fuel s, rounds p ws fuel s = rounds q ws fuel s := by
    intro fuel
    induction fuel with
    | zero => intro s; rfl
    | succ fuel ih =>
        intro s
        simp only [rounds, hpq, ih]
  simp only [many, hrounds]

/-- With nothing skipped, a repeated token class reads the longest run. -/
theorem many_satisfy (kind : τ → Bool) (s : List τ) :
    many (satisfy kind) (fun _ => false) s =
      some (s.takeWhile kind, s.dropWhile kind) := by
  induction s with
  | nil => simp [many, rounds]
  | cons t s ih =>
      rw [many_eq (satisfy_consumes kind _), dropWhile_none]
      by_cases hkind : kind t = true
      · simp [satisfy, hkind, map, ih]
      · simp [satisfy, hkind]

theorem anyToken_eq (ws : τ → Bool) (s : List τ) :
    anyToken ws s = satisfy (fun _ => true) ws s := rfl

/-- With nothing skipped, subtracting a token narrows a token class. -/
theorem diff_satisfy_lit [DecidableEq τ] {p : Parser τ τ} {kind : τ → Bool}
    (hp : ∀ s, p (fun _ => false) s = satisfy kind (fun _ => false) s)
    (t : τ) (s : List τ) :
    diff p (lit [t]) (fun _ => false) s =
      satisfy (fun c => kind c && c != t) (fun _ => false) s := by
  cases s with
  | nil => simp [diff, seqRight, seq, map, notAhead, lit, hp, satisfy]
  | cons c s =>
      by_cases hc : c = t
      · subst hc
        simp [diff, seqRight, seq, map, notAhead, lit, satisfy]
      · have hhead : ¬ [t] <+: c :: s := by
          simp [List.cons_prefix_cons, Ne.symm hc]
        simp only [diff, seqRight, seq, map, notAhead, lit, hhead,
          ↓reduceIte, dropWhile_none, hp, satisfy]
        by_cases hkind : kind c = true
        · simp [hkind, hc]
        · simp [hkind]

end Peg
