/-
Loops that may throw, as `List.foldlM` in `Except`.  What one round does to a
component of the state decides what the whole loop does to it: an invariant is
kept, the last write wins, the first write wins, or the writes are logged.
-/
import Mathlib

namespace ExceptFold

universe u v w x

variable {ε : Type u} {σ : Type v} {α : Type w} {β : Type x}
variable {round : σ → α → Except ε σ}

theorem map_ok {f : α → β} {result : Except ε α} {value : β}
    (hmap : result.map f = .ok value) :
    ∃ inner, result = .ok inner ∧ f inner = value := by
  cases result with
  | error exception => cases hmap
  | ok inner => exact ⟨inner, rfl, by simpa [Except.map] using hmap⟩

theorem exists_error_iff {result : Except ε α} :
    (∃ exception, result = .error exception) ↔ ¬ ∃ value, result = .ok value := by
  cases result <;> simp

theorem map_map {γ : Type*} (result : Except ε α) (f : α → β) (g : β → γ) :
    (result.map f).map g = result.map fun value => g (f value) := by
  cases result <;> rfl

theorem mapError_ok {ε' : Type*} {f : ε → ε'} {result : Except ε α} {value : α}
    (hmap : result.mapError f = .ok value) : result = .ok value := by
  cases result with
  | error exception => cases hmap
  | ok inner => simpa [Except.mapError] using hmap

theorem mapError_error {ε' : Type*} {f : ε → ε'} {result : Except ε α} {exception : ε'}
    (hmap : result.mapError f = .error exception) :
    ∃ inner, result = .error inner ∧ f inner = exception := by
  cases result with
  | error inner => exact ⟨inner, rfl, by simpa [Except.mapError] using hmap⟩
  | ok value => cases hmap

theorem bind_ok {γ : Type w} {read : Except ε α} {next : α → Except ε γ} {result : γ}
    (hbind : read >>= next = .ok result) :
    ∃ value, read = .ok value ∧ next value = .ok result := by
  cases read with
  | error exception => cases hbind
  | ok value => exact ⟨value, rfl, hbind⟩

theorem bind_ne_error {γ : Type w} {read : Except ε α} {next : α → Except ε γ}
    {exception : ε} (hread : read ≠ .error exception)
    (hnext : ∀ value, next value ≠ .error exception) : read >>= next ≠ .error exception := by
  cases read with
  | error thrown => simpa [bind, Except.bind] using hread
  | ok value => exact hnext value

/-- What was thrown. -/
def failure? : Except ε α → Option ε
  | .error exception => some exception
  | .ok _ => none

theorem failure?_map (result : Except ε α) (f : α → β) :
    failure? (result.map f) = failure? result := by
  cases result <;> rfl

@[simp] theorem foldlM_nil (start : σ) :
    ([] : List α).foldlM round start = .ok start := rfl

theorem foldlM_cons_ok {item : α} {items : List α} {start final : σ} :
    (item :: items).foldlM round start = .ok final ↔
      ∃ next, round start item = .ok next ∧
        items.foldlM round next = .ok final := by
  rw [List.foldlM_cons]
  cases round start item with
  | error exception => simp [bind, Except.bind]
  | ok next => simp [bind, Except.bind]

theorem foldlM_cons_of_ok {item : α} {start next : σ}
    (hround : round start item = .ok next) (items : List α) :
    (item :: items).foldlM round start = items.foldlM round next := by
  rw [List.foldlM_cons, hround]
  rfl

theorem foldlM_append_of_ok {items : List α} {start middle : σ}
    (hfold : items.foldlM round start = .ok middle) (items' : List α) :
    (items ++ items').foldlM round start = items'.foldlM round middle := by
  rw [List.foldlM_append, hfold]
  rfl

/-- Rounds that return alike wherever the others do. -/
theorem foldlM_ok_mono {round' : σ → α → Except ε σ} {items : List α} {start final : σ}
    (hround : ∀ state item next, round state item = .ok next → round' state item = .ok next)
    (hfinal : items.foldlM round start = .ok final) :
    items.foldlM round' start = .ok final := by
  induction items generalizing start with
  | nil => exact hfinal
  | cons item items ih =>
      obtain ⟨next, hnext, hrest⟩ := foldlM_cons_ok.mp hfinal
      exact foldlM_cons_ok.mpr ⟨next, hround start item next hnext, ih hrest⟩

theorem foldlM_singleton (item : α) (start : σ) :
    [item].foldlM round start = round start item := by
  rw [List.foldlM_cons]
  cases round start item <;> rfl

/-- A loop whose rounds do not throw. -/
theorem foldlM_of_foldl (f : σ → α → σ) (items : List α) (start : σ) :
    items.foldlM (fun state item => (.ok (f state item) : Except ε σ)) start =
      .ok (items.foldl f start) :=
  List.foldlM_pure

theorem foldlM_append_ok {items items' : List α} {start final : σ} :
    (items ++ items').foldlM round start = .ok final ↔
      ∃ middle, items.foldlM round start = .ok middle ∧
        items'.foldlM round middle = .ok final := by
  rw [List.foldlM_append]
  cases items.foldlM round start with
  | error exception => simp [bind, Except.bind]
  | ok middle => simp [bind, Except.bind]

/-- A loop that returns has returned from every round. -/
theorem foldlM_ok_item {items : List α} {start final : σ}
    (hfinal : items.foldlM round start = .ok final) {item : α} (hitem : item ∈ items) :
    ∃ state next, round state item = .ok next := by
  induction items generalizing start with
  | nil => cases hitem
  | cons other items ih =>
      rcases foldlM_cons_ok.mp hfinal with ⟨next, hnext, hrest⟩
      rcases List.mem_cons.mp hitem with rfl | hitem
      · exact ⟨start, next, hnext⟩
      · exact ih hrest hitem

/-- What a loop throws, one of its rounds has thrown. -/
theorem foldlM_error_item {items : List α} {start : σ} {exception : ε}
    (hfold : items.foldlM round start = .error exception) :
    ∃ state, ∃ item ∈ items, round state item = .error exception := by
  induction items generalizing start with
  | nil => cases hfold
  | cons item items ih =>
      cases hround : round start item with
      | error thrown =>
          rw [List.foldlM_cons, hround] at hfold
          exact ⟨start, item, List.mem_cons_self, hround.trans hfold⟩
      | ok next =>
          rw [foldlM_cons_of_ok hround] at hfold
          rcases ih hfold with ⟨state, thrower, hthrower, hthrows⟩
          exact ⟨state, thrower, List.mem_cons_of_mem item hthrower, hthrows⟩

theorem foldlM_ne_error {exception : ε}
    (hround : ∀ state item, round state item ≠ .error exception) (items : List α) (start : σ) :
    items.foldlM round start ≠ .error exception := by
  intro hfold
  rcases foldlM_error_item hfold with ⟨state, item, -, hthrow⟩
  exact hround state item hthrow

theorem map_error {f : α → β} {result : Except ε α} {exception : ε}
    (hmap : result.map f = .error exception) : result = .error exception := by
  cases result with
  | error thrown => simpa [Except.map] using hmap
  | ok value => cases hmap

theorem toOption_foldlM (items : List α) (start : σ) :
    (items.foldlM round start).toOption =
      items.foldlM (fun state item => (round state item).toOption) start := by
  induction items generalizing start with
  | nil => rfl
  | cons item items ih =>
      rw [List.foldlM_cons, List.foldlM_cons]
      cases round start item with
      | error exception => rfl
      | ok next => exact ih next

/-- A loop whose rounds keep an invariant keeps it. -/
theorem foldlM_invariant (invariant : σ → Prop) {items : List α}
    {start final : σ}
    (hround : ∀ state, ∀ item ∈ items, ∀ next, invariant state →
      round state item = .ok next → invariant next)
    (hstart : invariant start) (hfinal : items.foldlM round start = .ok final) :
    invariant final := by
  induction items generalizing start with
  | nil =>
      simp only [foldlM_nil, Except.ok.injEq] at hfinal
      exact hfinal ▸ hstart
  | cons item items ih =>
      obtain ⟨next, hnext, hrest⟩ := foldlM_cons_ok.mp hfinal
      apply ih _ (hround start item List.mem_cons_self next hstart hnext) hrest
      intro state item' hitem'
      exact hround state item' (List.mem_cons_of_mem item hitem')

/-- The same, when the invariant speaks of the items so far. -/
theorem foldlM_prefix_invariant (invariant : List α → σ → Prop) {items : List α}
    {start final : σ}
    (hround : ∀ before item after state next, items = before ++ item :: after →
      before.foldlM round start = .ok state → invariant before state →
        round state item = .ok next → invariant (before ++ [item]) next)
    (hstart : invariant [] start) (hfinal : items.foldlM round start = .ok final) :
    invariant items final := by
  induction items using List.reverseRecOn generalizing final with
  | nil =>
      simp only [foldlM_nil, Except.ok.injEq] at hfinal
      exact hfinal ▸ hstart
  | append_singleton items item ih =>
      obtain ⟨middle, hmiddle, hlast⟩ := foldlM_append_ok.mp hfinal
      rw [foldlM_singleton] at hlast
      have hmiddle' := ih (fun before item' after state next hitems =>
        hround before item' (after ++ [item]) state next (by simp [hitems])) hmiddle
      exact hround items item [] middle final rfl hmiddle hmiddle' hlast

/-- A loop whose rounds return, as long as an invariant holds, returns. -/
theorem foldlM_returns (round : σ → α → Except ε σ) (invariant : σ → Prop)
    (items : List α) (start : σ)
    (hround : ∀ state, ∀ item ∈ items, invariant state →
      ∃ next, round state item = .ok next ∧ invariant next)
    (hstart : invariant start) :
    ∃ final, items.foldlM round start = .ok final ∧ invariant final := by
  induction items generalizing start with
  | nil => exact ⟨start, rfl, hstart⟩
  | cons item items ih =>
      obtain ⟨next, hnext, hinvariant⟩ :=
        hround start item List.mem_cons_self hstart
      obtain ⟨final, hfinal, hkept⟩ := ih next
        (fun state item' hitem' =>
          hround state item' (List.mem_cons_of_mem item hitem')) hinvariant
      exact ⟨final, foldlM_cons_ok.mpr ⟨next, hnext, hfinal⟩, hkept⟩

/-- When it does not depend on the state whether a round returns. -/
theorem foldlM_returns_iff {readable : α → Prop}
    (hround : ∀ state item, (∃ next, round state item = .ok next) ↔ readable item)
    {items : List α} {start : σ} :
    (∃ final, items.foldlM round start = .ok final) ↔ ∀ item ∈ items, readable item := by
  constructor
  · rintro ⟨final, hfinal⟩ item hitem
    rcases foldlM_ok_item hfinal hitem with ⟨state, next, hnext⟩
    exact (hround state item).mp ⟨next, hnext⟩
  · intro hitems
    rcases foldlM_returns round (fun _ => True) items start
      (fun state item hitem _ => by
        rcases (hround state item).mpr (hitems item hitem) with ⟨next, hnext⟩
        exact ⟨next, hnext, trivial⟩) trivial with ⟨final, hfinal, -⟩
    exact ⟨final, hfinal⟩

/-- When it does not depend on the state what a round throws, either. -/
theorem failure?_foldlM {thrown : α → Option ε} {items : List α}
    (hround : ∀ state, ∀ item ∈ items, failure? (round state item) = thrown item) (start : σ) :
    failure? (items.foldlM round start) = items.findSome? thrown := by
  induction items generalizing start with
  | nil => rfl
  | cons item items ih =>
      have hitem := hround start item List.mem_cons_self
      rw [List.findSome?_cons, ← hitem]
      cases hnext : round start item with
      | error exception => rw [List.foldlM_cons, hnext]; rfl
      | ok next =>
          rw [foldlM_cons_of_ok hnext]
          exact ih (fun state other hother =>
            hround state other (List.mem_cons_of_mem item hother)) next

/-- When each round overwrites a component or leaves it, the last write wins. -/
theorem foldlM_last_write (round : σ → α → Except ε σ)
    (component : σ → Option β) (write : α → Option β)
    (hround : ∀ state item next, round state item = .ok next →
      component next = (write item).or (component state))
    {items : List α} {start final : σ}
    (hfinal : items.foldlM round start = .ok final) :
    component final =
      (items.filterMap write).getLast?.or (component start) := by
  induction items generalizing start with
  | nil =>
      simp only [foldlM_nil, Except.ok.injEq] at hfinal
      simp [hfinal]
  | cons item items ih =>
      obtain ⟨next, hnext, hrest⟩ := foldlM_cons_ok.mp hfinal
      rw [ih hrest, hround start item next hnext]
      cases hwrite : write item with
      | none => simp [hwrite]
      | some value =>
          cases hlast : (items.filterMap write).getLast? <;>
            simp [hwrite, List.getLast?_cons, hlast]

/-- The same, when what is written comes from items of one kind, of which there
is at most one. -/
theorem foldlM_only_write {γ : Type*} (round : σ → α → Except ε σ)
    (component : σ → Option β) (kind : α → Option γ) (only : Option γ)
    (value : γ → Option β) {items : List α} {start final : σ}
    (honly : items.filterMap kind = only.toList)
    (hround : ∀ state item next, round state item = .ok next →
      component next = ((kind item).bind value).or (component state))
    (hfinal : items.foldlM round start = .ok final) :
    component final = (only.bind value).or (component start) := by
  rw [foldlM_last_write round component _ hround hfinal, ← List.filterMap_filterMap,
    honly]
  cases only with
  | none => rfl
  | some only => cases hvalue : value only <;> simp [hvalue]

/-- When each round writes a component only where it is empty, the first write
wins.  What is written may depend on parts of the state that stay as they are. -/
theorem foldlM_first_write (round : σ → α → Except ε σ) (invariant : σ → Prop)
    (component : σ → Option β) (write : α → Option β)
    (hround : ∀ state item next, invariant state → round state item = .ok next →
      invariant next ∧ component next = (component state).or (write item))
    {items : List α} {start final : σ} (hstart : invariant start)
    (hfinal : items.foldlM round start = .ok final) :
    component final = (component start).or (items.findSome? write) := by
  induction items generalizing start with
  | nil =>
      simp only [foldlM_nil, Except.ok.injEq] at hfinal
      simp [hfinal]
  | cons item items ih =>
      obtain ⟨next, hnext, hrest⟩ := foldlM_cons_ok.mp hfinal
      obtain ⟨hinvariant, hcomponent⟩ := hround start item next hstart hnext
      rw [ih hinvariant hrest, hcomponent, List.findSome?_cons]
      cases component start <;> cases write item <;> rfl

/-- When each round appends to a component, the writes are logged in order. -/
theorem foldlM_log (round : σ → α → Except ε σ)
    (component : σ → List β) (write : α → List β)
    (hround : ∀ state item next, round state item = .ok next →
      component next = component state ++ write item)
    {items : List α} {start final : σ}
    (hfinal : items.foldlM round start = .ok final) :
    component final = component start ++ items.flatMap write := by
  induction items generalizing start with
  | nil =>
      simp only [foldlM_nil, Except.ok.injEq] at hfinal
      simp [hfinal]
  | cons item items ih =>
      obtain ⟨next, hnext, hrest⟩ := foldlM_cons_ok.mp hfinal
      rw [ih hrest, hround start item next hnext, List.flatMap_cons,
        List.append_assoc]

/-- A list of results, of which each has to be there. -/
theorem mapM_ok {f : α → Except ε β} {items : List α} {values : List β}
    (hvalues : items.mapM f = .ok values) :
    List.Forall₂ (fun item value => f item = .ok value) items values := by
  induction items generalizing values with
  | nil =>
      cases hvalues
      exact .nil
  | cons item items ih =>
      rw [List.mapM_cons] at hvalues
      obtain ⟨value, hvalue, hrest⟩ := bind_ok hvalues
      obtain ⟨rest, hitems, hdone⟩ := bind_ok hrest
      cases hdone
      exact .cons hvalue (ih hitems)

theorem mapM_congr {f g : α → Except ε β} {items : List α}
    (hitems : ∀ item ∈ items, f item = g item) : items.mapM f = items.mapM g := by
  induction items with
  | nil => rfl
  | cons item items ih =>
      rw [List.forall_mem_cons] at hitems
      rw [List.mapM_cons, List.mapM_cons, hitems.1, ih hitems.2]

theorem mapM_map {γ : Type x} (f : α → Except ε β) (g : β → γ) (items : List α) :
    (items.mapM fun item => (f item).map g) = (items.mapM f).map (List.map g) := by
  induction items with
  | nil => rfl
  | cons item items ih =>
      rw [List.mapM_cons, List.mapM_cons, ih]
      cases f item with
      | error exception => rfl
      | ok value => cases items.mapM f <;> rfl

section Monoid

variable [Monoid σ] (hround : ∀ (before state : σ) (item : α),
  round (before * state) item = (round state item).map (before * ·))

include hround

/-- Rounds that leave alone what came before them. -/
theorem foldlM_mul (items : List α) (before state : σ) :
    items.foldlM round (before * state) = (items.foldlM round state).map (before * ·) := by
  induction items generalizing state with
  | nil => rfl
  | cons item items ih =>
      rw [List.foldlM_cons, List.foldlM_cons, hround]
      cases round state item with
      | error exception => rfl
      | ok next => exact ih next

/-- A loop cut into parts that each begin with nothing. -/
theorem foldlM_flatMap_one {γ : Type*} (parts : List γ) (items : γ → List α) :
    (parts.flatMap items).foldlM round 1 =
      (parts.mapM fun part => (items part).foldlM round 1).map List.prod := by
  induction parts with
  | nil => rfl
  | cons part parts ih =>
      rw [List.flatMap_cons, List.foldlM_append, List.mapM_cons]
      cases hpart : (items part).foldlM round 1 with
      | error exception => rfl
      | ok found =>
          have hrest := foldlM_mul hround (parts.flatMap items) found 1
          rw [mul_one, ih] at hrest
          refine hrest.trans ?_
          cases parts.mapM fun part => (items part).foldlM round 1 <;> rfl

end Monoid

end ExceptFold
