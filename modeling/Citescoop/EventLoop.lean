/-
A machine that is driven by a sequence of events until a step throws.  What
holds of single steps is carried over to whole runs: an invariant, a simulation
by another machine, and a measure that steps add to.
-/
import Citescoop.ExceptFold

namespace EventLoop

universe u v w

variable {ε : Type u} {σ τ : Type v} {α β : Type w}

/-- Where a run ends: the state before the step that threw, or the last one, and
the number of steps that returned. -/
structure Outcome (ε : Type u) (σ : Type v) where
  state : σ
  exception? : Option ε
  returned : ℕ

def run (step : σ → α → Except ε σ) : σ → List α → Outcome ε σ
  | state, [] => ⟨state, none, 0⟩
  | state, event :: events =>
      match step state event with
      | .error exception => ⟨state, some exception, 0⟩
      | .ok next =>
          let outcome := run step next events
          { outcome with returned := outcome.returned + 1 }

variable {step : σ → α → Except ε σ}

theorem run_cons_ok {state next : σ} {event : α} (hstep : step state event = .ok next)
    (events : List α) :
    run step state (event :: events) =
      { run step next events with returned := (run step next events).returned + 1 } := by
  rw [run, hstep]

theorem run_cons_error {state : σ} {event : α} {exception : ε}
    (hstep : step state event = .error exception) (events : List α) :
    run step state (event :: events) = ⟨state, some exception, 0⟩ := by
  rw [run, hstep]

/-- A run through all events is a loop that does not throw. -/
theorem run_exception?_eq_none_iff {events : List α} {state final : σ} :
    (run step state events).exception? = none ∧ (run step state events).state = final ↔
      events.foldlM step state = .ok final := by
  induction events generalizing state with
  | nil => simp [run, pure, Except.pure]
  | cons event events ih =>
      cases hstep : step state event with
      | error exception =>
          rw [run_cons_error hstep, List.foldlM_cons, hstep]
          simp [bind, Except.bind]
      | ok next =>
          rw [run_cons_ok hstep, List.foldlM_cons, hstep]
          exact ih

theorem run_of_ok {events : List α} {state final : σ}
    (hrun : events.foldlM step state = .ok final) :
    (run step state events).exception? = none ∧
      (run step state events).state = final :=
  run_exception?_eq_none_iff.mpr hrun

theorem run_of_error {events : List α} {state : σ} {exception : ε}
    (hrun : events.foldlM step state = .error exception) :
    (run step state events).exception? = some exception := by
  induction events generalizing state with
  | nil => cases hrun
  | cons event events ih =>
      cases hstep : step state event with
      | error thrown =>
          rw [List.foldlM_cons, hstep] at hrun
          cases hrun
          rw [run_cons_error hstep]
      | ok next =>
          rw [ExceptFold.foldlM_cons_of_ok hstep] at hrun
          rw [run_cons_ok hstep]
          exact ih hrun

/-- Runs one after the other. -/
theorem run_append_of_ok {events : List α} {state middle : σ}
    (hfirst : events.foldlM step state = .ok middle) (events' : List α) :
    (run step state (events ++ events')).state = (run step middle events').state ∧
      (run step state (events ++ events')).exception? =
        (run step middle events').exception? := by
  induction events generalizing state with
  | nil =>
      cases hfirst
      exact ⟨rfl, rfl⟩
  | cons event events ih =>
      obtain ⟨next, hnext, hrest⟩ := ExceptFold.foldlM_cons_ok.mp hfirst
      rw [List.cons_append, run_cons_ok hnext]
      exact ih hrest

/-- After an exception no event makes a difference. -/
theorem run_append_of_error {events : List α} {state : σ} {exception : ε}
    (hfirst : events.foldlM step state = .error exception) (events' : List α) :
    run step state (events ++ events') = run step state events := by
  induction events generalizing state with
  | nil => cases hfirst
  | cons event events ih =>
      cases hnext : step state event with
      | error thrown => rw [List.cons_append, run_cons_error hnext, run_cons_error hnext]
      | ok next =>
          rw [ExceptFold.foldlM_cons_of_ok hnext] at hfirst
          rw [List.cons_append, run_cons_ok hnext, run_cons_ok hnext, ih hfirst]

/-- Machines whose steps agree wherever a run of the one comes to. -/
theorem run_eq_of_steps {step' : σ → α → Except ε σ} {events : List α} {state : σ}
    (hsteps : ∀ before event after middle, events = before ++ event :: after →
      before.foldlM step state = .ok middle → step' middle event = step middle event) :
    run step' state events = run step state events := by
  induction events generalizing state with
  | nil => rfl
  | cons event events ih =>
      have hsame := hsteps [] event events state rfl rfl
      cases hstep : step state event with
      | error exception => rw [run_cons_error hstep, run_cons_error (hsame.trans hstep)]
      | ok next =>
          rw [run_cons_ok hstep, run_cons_ok (hsame.trans hstep), ih]
          intro before other after middle hevents hbefore
          apply hsteps (event :: before) other after middle (by rw [hevents, List.cons_append])
          rw [ExceptFold.foldlM_cons_of_ok hstep, hbefore]

/-- What a run throws, a step has thrown, and the steps before it have returned. -/
theorem run_exception?_eq_some_iff {events : List α} {state : σ} {exception : ε} :
    (run step state events).exception? = some exception ↔
      ∃ before event after middle, events = before ++ event :: after ∧
        before.foldlM step state = .ok middle ∧ step middle event = .error exception := by
  induction events generalizing state with
  | nil => simp [run]
  | cons event events ih =>
      cases hstep : step state event with
      | error thrown =>
          rw [run_cons_error hstep]
          constructor
          · intro hthrown
            cases hthrown
            exact ⟨[], event, events, state, rfl, rfl, hstep⟩
          · rintro ⟨before, thrower, after, middle, hevents, hbefore, hthrows⟩
            cases before with
            | nil =>
                obtain ⟨rfl, rfl⟩ := List.cons.inj hevents
                cases hbefore
                exact congrArg some (Except.error.inj (hstep.symm.trans hthrows))
            | cons first before =>
                obtain ⟨rfl, -⟩ := List.cons.inj hevents
                rw [List.foldlM_cons, hstep] at hbefore
                cases hbefore
      | ok next =>
          rw [run_cons_ok hstep]
          refine ih.trans ⟨?_, ?_⟩
          · rintro ⟨before, thrower, after, middle, rfl, hbefore, hthrows⟩
            refine ⟨event :: before, thrower, after, middle, rfl, ?_, hthrows⟩
            rw [ExceptFold.foldlM_cons_of_ok hstep, hbefore]
          · rintro ⟨before, thrower, after, middle, hevents, hbefore, hthrows⟩
            cases before with
            | nil =>
                obtain ⟨rfl, rfl⟩ := List.cons.inj hevents
                cases hbefore
                rw [hstep] at hthrows
                cases hthrows
            | cons first before =>
                obtain ⟨rfl, rfl⟩ := List.cons.inj hevents
                rw [ExceptFold.foldlM_cons_of_ok hstep] at hbefore
                exact ⟨before, thrower, after, middle, rfl, hbefore, hthrows⟩

/-- What every step keeps, every run keeps. -/
theorem run_invariant (invariant : σ → Prop)
    (hstep : ∀ state event next, invariant state → step state event = .ok next →
      invariant next)
    {events : List α} {state : σ} (hstate : invariant state) :
    invariant (run step state events).state := by
  induction events generalizing state with
  | nil => exact hstate
  | cons event events ih =>
      cases hnext : step state event with
      | error exception =>
          rw [run_cons_error hnext]
          exact hstate
      | ok next =>
          rw [run_cons_ok hnext]
          exact ih (hstep state event next hstate hnext)

/-- The same for a run on certain events. -/
theorem run_invariant_mem (invariant : σ → Prop) {events : List α}
    (hstep : ∀ state, ∀ event ∈ events, ∀ next, invariant state →
      step state event = .ok next → invariant next)
    {state : σ} (hstate : invariant state) : invariant (run step state events).state := by
  induction events generalizing state with
  | nil => exact hstate
  | cons event events ih =>
      cases hnext : step state event with
      | error exception =>
          rw [run_cons_error hnext]
          exact hstate
      | ok next =>
          rw [run_cons_ok hnext]
          apply ih
          · exact fun state other hother => hstep state other (List.mem_cons_of_mem event hother)
          · exact hstep state event List.mem_cons_self next hstate hnext

/-- Two machines run in step: related states and events lead to related states,
or to the same exception. -/
theorem run_simulation {step' : τ → β → Except ε τ} (related : σ → τ → Prop)
    (matching : α → β → Prop)
    (hstep : ∀ state state' event event', related state state' →
      matching event event' →
        (∃ exception, step state event = .error exception ∧
          step' state' event' = .error exception) ∨
        ∃ next next', step state event = .ok next ∧
          step' state' event' = .ok next' ∧ related next next')
    {events : List α} {events' : List β} (hevents : List.Forall₂ matching events events')
    {state : σ} {state' : τ} (hstate : related state state') :
    related (run step state events).state (run step' state' events').state ∧
      (run step state events).exception? = (run step' state' events').exception? ∧
      (run step state events).returned = (run step' state' events').returned := by
  induction hevents generalizing state state' with
  | nil => exact ⟨hstate, rfl, rfl⟩
  | @cons event event' events events' hevent _ ih =>
      rcases hstep state state' event event' hstate hevent with
        ⟨exception, hthrow, hthrow'⟩ | ⟨next, next', hnext, hnext', hrelated⟩
      · rw [run_cons_error hthrow, run_cons_error hthrow']
        exact ⟨hstate, rfl, rfl⟩
      · rw [run_cons_ok hnext, run_cons_ok hnext']
        rcases ih hrelated with ⟨hfinal, hexception, hreturned⟩
        exact ⟨hfinal, hexception, congrArg (· + 1) hreturned⟩

/-- Where matching events have the same effect, on the states of a run, the runs
are the same. -/
theorem run_congr {step' : σ → β → Except ε σ} (invariant : σ → Prop)
    (matching : α → β → Prop)
    (hsame : ∀ state event event', invariant state → matching event event' →
      step state event = step' state event')
    (hstep : ∀ state event next, invariant state → step state event = .ok next →
      invariant next)
    {events : List α} {events' : List β} (hevents : List.Forall₂ matching events events')
    {state : σ} (hstate : invariant state) :
    run step state events = run step' state events' := by
  induction hevents generalizing state with
  | nil => rfl
  | @cons event event' events events' hevent _ ih =>
      have heffect := hsame state event event' hstate hevent
      cases hnext : step state event with
      | error exception =>
          rw [run_cons_error hnext, run_cons_error (heffect ▸ hnext)]
      | ok next =>
          rw [run_cons_ok hnext, run_cons_ok (heffect ▸ hnext),
            ih (hstep state event next hstate hnext)]

/-- What the steps add to a measure, up to the step that threw. -/
theorem run_measure (measure : σ → ℕ) (weight : α → ℕ)
    (hstep : ∀ state event next, step state event = .ok next →
      measure next = measure state + weight event)
    (events : List α) (state : σ) :
    measure (run step state events).state =
      measure state +
        ((events.take (run step state events).returned).map weight).sum := by
  induction events generalizing state with
  | nil => simp [run]
  | cons event events ih =>
      cases hnext : step state event with
      | error exception => simp [run_cons_error hnext]
      | ok next =>
          rw [run_cons_ok hnext]
          simp only [List.take_succ_cons, List.map_cons, List.sum_cons]
          rw [ih next, hstep state event next hnext]
          omega

section Leads

variable {ν ν' ν'' : Type*} {η : Type*}
variable {embed : ν → η → σ} {embed' : ν' → η → σ} {embed'' : ν'' → η → σ}

/-- At certain points of a run the state is known up to a part that is hidden.
The events lead from one such point to another, with an effect on what is known;
where the effect throws, so do they. -/
structure Leads (step : σ → α → Except ε σ) (embed : ν → η → σ) (events : List α)
    (effect : ν → Except ε ν') (embed' : ν' → η → σ) : Prop where
  ok : ∀ view hidden next, effect view = .ok next →
    ∃ hidden', events.foldlM step (embed view hidden) = .ok (embed' next hidden')
  error : ∀ view hidden exception, effect view = .error exception →
    events.foldlM step (embed view hidden) = .error exception

theorem Leads.append {events events' : List α} {effect : ν → Except ε ν'}
    {effect' : ν' → Except ε ν''} (hfirst : Leads step embed events effect embed')
    (hsecond : Leads step embed' events' effect' embed'') :
    Leads step embed (events ++ events') (fun view => (effect view).bind effect')
      embed'' := by
  constructor
  · intro view hidden next heffect
    cases hmiddle : effect view with
    | error exception => simp [hmiddle, Except.bind] at heffect
    | ok middle =>
        rcases hfirst.ok view hidden middle hmiddle with ⟨hidden', hrun⟩
        rw [hmiddle] at heffect
        rcases hsecond.ok middle hidden' next heffect with ⟨hidden'', hrun'⟩
        exact ⟨hidden'', ExceptFold.foldlM_append_ok.mpr ⟨_, hrun, hrun'⟩⟩
  · intro view hidden exception heffect
    cases hmiddle : effect view with
    | error thrown =>
        rw [hmiddle] at heffect
        cases heffect
        rw [List.foldlM_append, hfirst.error view hidden exception hmiddle]
        rfl
    | ok middle =>
        rcases hfirst.ok view hidden middle hmiddle with ⟨hidden', hrun⟩
        rw [hmiddle] at heffect
        rw [List.foldlM_append, hrun]
        exact hsecond.error middle hidden' exception heffect

theorem Leads.congr {events : List α} {effect effect' : ν → Except ε ν'}
    (hleads : Leads step embed events effect embed')
    (hsame : ∀ view, effect view = effect' view) :
    Leads step embed events effect' embed' :=
  (funext hsame : effect = effect') ▸ hleads

/-- Items that lead back to where they begin, one after the other. -/
theorem Leads.flatMap {ι : Type*} {items : List ι} {events : ι → List α}
    {effect : ν → ι → Except ε ν}
    (hitems : ∀ item ∈ items,
      Leads step embed (events item) (fun view => effect view item) embed) :
    Leads step embed (items.flatMap events) (fun view => items.foldlM effect view)
      embed := by
  induction items with
  | nil =>
      constructor
      · intro view hidden next heffect
        cases heffect
        exact ⟨hidden, rfl⟩
      · intro view hidden exception heffect
        cases heffect
  | cons item items ih =>
      have hrest := ih fun other hother =>
        hitems other (List.mem_cons_of_mem item hother)
      exact (hitems item List.mem_cons_self).append hrest

/-- Events whose outcome is known in full. -/
theorem Leads.of_map {events : List α} {effect : ν → Except ε ν'} (hide : ν → η → η)
    (hrun : ∀ view hidden, events.foldlM step (embed view hidden) =
      (effect view).map fun next => embed' next (hide view hidden)) :
    Leads step embed events effect embed' := by
  constructor
  · intro view hidden next heffect
    exact ⟨hide view hidden, by rw [hrun, heffect]; rfl⟩
  · intro view hidden exception heffect
    rw [hrun, heffect]
    rfl

section Element

variable {μ : Type*} {first last : α} {events : List α}
variable (inner : ν → μ → η → σ) (start : ν → μ) (effect : μ → Except ε μ)

/-- An event that begins something, and what happens inside. -/
theorem Leads.enter
    (hfirst : ∀ view hidden, ∃ hidden',
      step (embed view hidden) first = .ok (inner view (start view) hidden'))
    (hinner : ∀ view, Leads step (inner view) events effect (inner view)) :
    Leads step embed (first :: events)
      (fun view => (effect (start view)).map fun final => (view, final))
      (fun entered : ν × μ => inner entered.1 entered.2) := by
  constructor
  · intro view hidden next heffect
    rcases hfirst view hidden with ⟨hidden', hstep⟩
    rw [ExceptFold.foldlM_cons_of_ok hstep]
    cases hfinal : effect (start view) with
    | error exception => simp [hfinal, Except.map] at heffect
    | ok final =>
        simp only [hfinal, Except.map, Except.ok.injEq] at heffect
        exact heffect ▸ (hinner view).ok (start view) hidden' final hfinal
  · intro view hidden exception heffect
    rcases hfirst view hidden with ⟨hidden', hstep⟩
    rw [ExceptFold.foldlM_cons_of_ok hstep]
    cases hfinal : effect (start view) with
    | error thrown =>
        simp only [hfinal, Except.map, Except.error.injEq] at heffect
        exact heffect ▸ (hinner view).error (start view) hidden' thrown hfinal
    | ok final => simp [hfinal, Except.map] at heffect

/-- The same, up to the event that ends it. -/
theorem Leads.element (leave : ν → μ → Except ε ν)
    (hfirst : ∀ view hidden, ∃ hidden',
      step (embed view hidden) first = .ok (inner view (start view) hidden'))
    (hinner : ∀ view, Leads step (inner view) events effect (inner view))
    (hlast : ∀ view final hidden, effect (start view) = .ok final → ∃ hidden',
      step (inner view final hidden) last =
        (leave view final).map fun next => embed next hidden') :
    Leads step embed (first :: events ++ [last])
      (fun view => (effect (start view)).bind (leave view)) embed := by
  have hentered := Leads.enter inner start effect hfirst hinner
  constructor
  · intro view hidden next heffect
    cases hfinal : effect (start view) with
    | error exception => simp [hfinal, Except.bind] at heffect
    | ok final =>
        rcases hentered.ok view hidden (view, final) (by rw [hfinal]; rfl) with
          ⟨hidden', hrun⟩
        rcases hlast view final hidden' hfinal with ⟨hidden'', hstep⟩
        refine ⟨hidden'', ?_⟩
        rw [hfinal] at heffect
        rw [ExceptFold.foldlM_append_of_ok hrun, ExceptFold.foldlM_singleton, hstep]
        exact congrArg (Except.map _) heffect
  · intro view hidden exception heffect
    cases hfinal : effect (start view) with
    | error thrown =>
        simp only [hfinal, Except.bind, Except.error.injEq] at heffect
        have hrun := hentered.error view hidden thrown (by rw [hfinal]; rfl)
        rw [List.foldlM_append, hrun, heffect]
        rfl
    | ok final =>
        rcases hentered.ok view hidden (view, final) (by rw [hfinal]; rfl) with
          ⟨hidden', hrun⟩
        rcases hlast view final hidden' hfinal with ⟨hidden'', hstep⟩
        rw [hfinal] at heffect
        rw [ExceptFold.foldlM_append_of_ok hrun, ExceptFold.foldlM_singleton, hstep]
        exact congrArg (Except.map _) heffect

end Element

/-- What a run comes to: a view of the last state, or an exception. -/
def Outcome.Shows (outcome : Outcome ε σ) (embed : ν → η → σ) : Option ν → Prop
  | some view => outcome.exception? = none ∧ ∃ hidden, outcome.state = embed view hidden
  | none => outcome.exception? ≠ none

theorem Leads.shows {events : List α} {effect : ν → Except ε ν'}
    (hleads : Leads step embed events effect embed') (view : ν) (hidden : η) :
    (run step (embed view hidden) events).Shows embed' (effect view).toOption := by
  cases heffect : effect view with
  | error exception =>
      intro hnone
      have hrun := run_exception?_eq_none_iff.mp ⟨hnone, rfl⟩
      rw [hleads.error view hidden exception heffect] at hrun
      cases hrun
  | ok next =>
      rcases hleads.ok view hidden next heffect with ⟨hidden', hrun⟩
      rcases run_of_ok hrun with ⟨hnone, hstate⟩
      exact ⟨hnone, hidden', hstate⟩

end Leads

end EventLoop
