/-
Programs with a state and exceptions, run side by side on two representations of
the state.  What is shown of single actions carries over to their compositions, and
to sequences of calls of which some throw.
-/
import Mathlib

namespace StateSimulation

universe u

variable {ε σ τ α β : Type u}

/-- In related states, both programs return the same value or throw the same, and
the states are related again. -/
def Simulates (related : σ → τ → Prop) (program : EStateM ε σ α)
    (program' : EStateM ε τ α) : Prop :=
  ∀ ⦃state state'⦄, related state state' →
    (∃ value next next', program.run state = .ok value next ∧
      program'.run state' = .ok value next' ∧ related next next') ∨
    ∃ exception next next', program.run state = .error exception next ∧
      program'.run state' = .error exception next' ∧ related next next'

variable {related : σ → τ → Prop} {program : EStateM ε σ α} {program' : EStateM ε τ α}

theorem Simulates.pure (value : α) :
    Simulates related (Pure.pure value : EStateM ε σ α) (Pure.pure value) := by
  intro state state' hrelated
  exact Or.inl ⟨value, state, state', rfl, rfl, hrelated⟩

theorem Simulates.bind {next : α → EStateM ε σ β} {next' : α → EStateM ε τ β}
    (hprogram : Simulates related program program')
    (hnext : ∀ value, Simulates related (next value) (next' value)) :
    Simulates related (program >>= next) (program' >>= next') := by
  intro state state' hrelated
  rw [EStateM.run_bind, EStateM.run_bind]
  rcases hprogram hrelated with
    ⟨value, middle, middle', hrun, hrun', hmiddle⟩ |
    ⟨exception, middle, middle', hrun, hrun', hmiddle⟩
  · rw [hrun, hrun']
    exact hnext value hmiddle
  · rw [hrun, hrun']
    exact Or.inr ⟨exception, middle, middle', rfl, rfl, hmiddle⟩

/-- A loop, round by round. -/
theorem Simulates.foldlM {step : β → α → EStateM ε σ β} {step' : β → α → EStateM ε τ β}
    {items : List α}
    (hstep : ∀ value, ∀ item ∈ items, Simulates related (step value item) (step' value item))
    (start : β) :
    Simulates related (items.foldlM step start) (items.foldlM step' start) := by
  induction items generalizing start with
  | nil => exact .pure start
  | cons item items ih =>
      rw [List.foldlM_cons, List.foldlM_cons]
      apply Simulates.bind (hstep start item List.mem_cons_self)
      intro value
      exact ih (fun value other hother =>
        hstep value other (List.mem_cons_of_mem item hother)) value

/-- The caller catches what the action throws. -/
def attempt (action : EStateM ε σ α) : StateM σ (Except ε α) := fun state =>
  match action.run state with
  | .ok value state => (.ok value, state)
  | .error exception state => (.error exception, state)

/-- Actions one after the other.  The caller goes on after one that throws. -/
def attemptAll : List (EStateM ε σ α) → StateM σ (List (Except ε α))
  | [] => return []
  | action :: actions => do
      let returned ← attempt action
      let rest ← attemptAll actions
      return returned :: rest

theorem run_attemptAll_cons (action : EStateM ε σ α) (actions : List (EStateM ε σ α))
    (state : σ) :
    (attemptAll (action :: actions)).run state =
      let (returned, next) := (attempt action).run state
      let (rest, last) := (attemptAll actions).run next
      (returned :: rest, last) :=
  rfl

theorem Simulates.attempt (hprogram : Simulates related program program') {state : σ}
    {state' : τ} (hrelated : related state state') :
    ((attempt program).run state).1 = ((StateSimulation.attempt program').run state').1 ∧
      related ((StateSimulation.attempt program).run state).2
        ((StateSimulation.attempt program').run state').2 := by
  rcases hprogram hrelated with
    ⟨value, final, final', hrun, hrun', hfinal⟩ |
    ⟨exception, final, final', hrun, hrun', hfinal⟩
  · simp only [StateSimulation.attempt, StateT.run, hrun, hrun']
    exact ⟨trivial, hfinal⟩
  · simp only [StateSimulation.attempt, StateT.run, hrun, hrun']
    exact ⟨trivial, hfinal⟩

/-- Two sequences of calls return and throw the same, and end in related states. -/
theorem attemptAll_simulates {programs : List (EStateM ε σ α)}
    {programs' : List (EStateM ε τ α)}
    (hprograms : List.Forall₂ (Simulates related) programs programs') {state : σ} {state' : τ}
    (hrelated : related state state') :
    ((attemptAll programs).run state).1 = ((attemptAll programs').run state').1 ∧
      related ((attemptAll programs).run state).2 ((attemptAll programs').run state').2 := by
  induction hprograms generalizing state state' with
  | nil => exact ⟨rfl, hrelated⟩
  | cons hprogram _ ih =>
      obtain ⟨hreturned, hnext⟩ := hprogram.attempt hrelated
      obtain ⟨hrest, hlast⟩ := ih hnext
      exact ⟨congrArg₂ List.cons hreturned hrest, hlast⟩

end StateSimulation
