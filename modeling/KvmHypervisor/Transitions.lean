import Mathlib.Logic.Basic
import Mathlib.Order.Basic

/-!
# Machines, Paths, and Runs

A `Machine` is a state space with an initial state and a partial step function: in a
state, an action is either impossible (`none`) or moves to one successor and emits one
event. Nondeterminism (which thread moves next, what a guest asks for) is the choice of
the action.

A `Path` collects the events of consecutive steps, **newest first**, so that a trace
grows by `cons` and functions of the trace are plain structural recursions. Every path
carries a discipline `ok`: a condition each action meets in the state it is taken in. A
`Run` is a path from the initial state.

## Main results

* `Path.invariant` and `Run.invariant`: what holds at the start and is preserved by every
  disciplined step holds everywhere.
* `Run.mono_of_invariant`: a run of one discipline is a run of another when an invariant
  of the first implies the second.
* `Run.exists_recorded` and `run_of_recorded`: every run can be recorded, with the state before
  each step and its action, and a recorded run is a run.
* `Path.length_add_le` and `Path.exists_stuck`: a measure that every step decreases bounds
  the length of every path, and every state then reaches one where nothing can move.
-/

namespace Transitions

/-- A machine: an initial state and a partial step function that emits one event. -/
structure Machine (State Action Event : Type) where
  init : State
  step : State → Action → Option (Event × State)

namespace Machine

variable {State Action Event : Type} {M : Machine State Action Event}
variable {ok ok' : State → Action → Prop}

/-- `M.Path ok s tr t`: a sequence of steps from `s` to `t`, each taken by an action that
meets `ok` in the state before it, emitting the events `tr`, newest first. -/
inductive Path (M : Machine State Action Event) (ok : State → Action → Prop) (s : State) :
    List Event → State → Prop
  | refl : Path M ok s [] s
  | step {tr : List Event} {t u : State} {a : Action} {e : Event} :
      Path M ok s tr t → ok t a → M.step t a = some (e, u) → Path M ok s (e :: tr) u

/-- A run: a path from the initial state. -/
def Run (M : Machine State Action Event) (ok : State → Action → Prop) (tr : List Event)
    (t : State) : Prop :=
  M.Path ok M.init tr t

/-- No disciplined action is possible. -/
def Stuck (M : Machine State Action Event) (ok : State → Action → Prop) (s : State) : Prop :=
  ∀ a, ok s a → M.step s a = none

/-! ### Composing paths -/

/-- A single step is a path. -/
theorem Path.single {s t : State} {a : Action} {e : Event} (hok : ok s a)
    (h : M.step s a = some (e, t)) : M.Path ok s [e] t :=
  .step .refl hok h

/-- Paths compose; the events of the second stand before those of the first. -/
theorem Path.trans {s t u : State} {tr tr' : List Event} (h : M.Path ok s tr t)
    (h' : M.Path ok t tr' u) : M.Path ok s (tr' ++ tr) u := by
  induction h' with
  | refl => exact h
  | step _ hok hs ih => exact .step ih hok hs

/-- A path splits where its events split. -/
theorem Path.of_append {s t : State} {tr tr' : List Event} (h : M.Path ok s (tr' ++ tr) t) :
    ∃ u, M.Path ok s tr u ∧ M.Path ok u tr' t := by
  induction tr' generalizing t with
  | nil => exact ⟨t, h, .refl⟩
  | cons e tr' ih =>
      cases h with
      | step hpath hok hs =>
          obtain ⟨u, hfirst, hsecond⟩ := ih hpath
          exact ⟨u, hfirst, .step hsecond hok hs⟩

/-- The last step of a path. -/
theorem Path.of_cons {s t : State} {e : Event} {tr : List Event} (h : M.Path ok s (e :: tr) t) :
    ∃ u a, M.Path ok s tr u ∧ ok u a ∧ M.step u a = some (e, t) := by
  cases h with
  | step hpath hok hs => exact ⟨_, _, hpath, hok, hs⟩

/-- A path of one discipline is a path of every weaker one. -/
theorem Path.mono (hok : ∀ s a, ok s a → ok' s a) {s t : State} {tr : List Event}
    (h : M.Path ok s tr t) : M.Path ok' s tr t := by
  induction h with
  | refl => exact .refl
  | step _ ha hs ih => exact .step ih (hok _ _ ha) hs

/-- A run extends by a path. -/
theorem Run.trans {t u : State} {tr tr' : List Event} (h : M.Run ok tr t)
    (h' : M.Path ok t tr' u) : M.Run ok (tr' ++ tr) u :=
  Path.trans h h'

/-- A run extends by a step. -/
theorem Run.step {t u : State} {tr : List Event} {a : Action} {e : Event} (h : M.Run ok tr t)
    (hok : ok t a) (hs : M.step t a = some (e, u)) : M.Run ok (e :: tr) u :=
  Path.step h hok hs

/-! ### Executing a list of actions -/

/-- Take the actions one after the other, as long as each meets the discipline, and collect
their events, newest first. -/
def exec (M : Machine State Action Event) (ok : State → Action → Prop)
    [∀ s a, Decidable (ok s a)] : State → List Action → Option (List Event × State)
  | s, [] => some ([], s)
  | s, a :: as =>
    if ok s a then
      match M.step s a with
      | none => none
      | some (e, t) => (M.exec ok t as).map fun p => (p.1 ++ [e], p.2)
    else none

/-- One more action at the end. -/
theorem exec_append [∀ s a, Decidable (ok s a)] {s t u : State} {as : List Action} {a : Action}
    {tr : List Event} {e : Event} (h : M.exec ok s as = some (tr, t)) (hok : ok t a)
    (hs : M.step t a = some (e, u)) : M.exec ok s (as ++ [a]) = some (e :: tr, u) := by
  induction as generalizing s tr with
  | nil =>
      cases h
      simp [exec, hok, hs]
  | cons b as ih =>
      rw [exec] at h
      rw [List.cons_append, exec]
      by_cases hb : ok s b
      · cases hstep : M.step s b with
        | none => simp [hstep, hb] at h
        | some p =>
            obtain ⟨e', v⟩ := p
            simp only [hb, hstep, if_true, Option.map_eq_some_iff, Prod.mk.injEq] at h ⊢
            obtain ⟨⟨tr', t'⟩, hexec, rfl, rfl⟩ := h
            exact ⟨(e :: tr', u), ih hexec, rfl, rfl⟩
      · simp [hb] at h

/-- What `exec` computes is a path. -/
theorem path_of_exec [∀ s a, Decidable (ok s a)] {s t : State} {as : List Action}
    {tr : List Event} (h : M.exec ok s as = some (tr, t)) : M.Path ok s tr t := by
  induction as generalizing s tr with
  | nil =>
      cases h
      exact .refl
  | cons a as ih =>
      rw [exec] at h
      by_cases hok : ok s a
      · cases hs : M.step s a with
        | none => simp [hs, hok] at h
        | some p =>
            obtain ⟨e, u⟩ := p
            simp only [hok, hs, if_true, Option.map_eq_some_iff, Prod.mk.injEq] at h
            obtain ⟨⟨tr', t'⟩, hexec, rfl, rfl⟩ := h
            exact (Path.single hok hs).trans (ih hexec)
      · simp [hok] at h

/-- Executing actions and then observing the result with `obs` exhibits a path. -/
theorem exists_of_exec {α : Type} [∀ s a, Decidable (ok s a)] {s : State} {as : List Action}
    {obs : List Event × State → α} {x : α} (h : (M.exec ok s as).map obs = some x) :
    ∃ tr t, M.Path ok s tr t ∧ obs (tr, t) = x := by
  obtain ⟨⟨tr, t⟩, hexec, rfl⟩ := Option.map_eq_some_iff.mp h
  exact ⟨tr, t, path_of_exec hexec, rfl⟩

/-- Executing actions and then observing one more step with `obs` exhibits a path that ends
in that step. -/
theorem exists_step_of_exec {α : Type} [∀ s a, Decidable (ok s a)] {s : State}
    {as : List Action} {a : Action} {obs : List Event × State → Event × State → α} {x : α}
    (h : ((M.exec ok s as).bind fun p => (M.step p.2 a).map (obs p)) = some x) :
    ∃ tr t e u, M.Path ok s tr t ∧ M.step t a = some (e, u) ∧ obs (tr, t) (e, u) = x := by
  obtain ⟨⟨tr, t⟩, hexec, h⟩ := Option.bind_eq_some_iff.mp h
  obtain ⟨⟨e, u⟩, hs, rfl⟩ := Option.map_eq_some_iff.mp h
  exact ⟨tr, t, e, u, path_of_exec hexec, hs, rfl⟩

/-! ### Recorded runs -/

/-- The machine whose events hold the state before the step and the action as well. -/
def recorded (M : Machine State Action Event) :
    Machine State Action (State × Action × Event) where
  init := M.init
  step s a := (M.step s a).map fun p => ((s, a, p.1), p.2)

/-- A step of the recorded machine. -/
theorem recorded_step_eq_some {s t : State} {a : Action} {x : State × Action × Event} :
    M.recorded.step s a = some (x, t) ↔ ∃ e, M.step s a = some (e, t) ∧ x = (s, a, e) := by
  simp only [recorded, Option.map_eq_some_iff, Prod.exists, Prod.mk.injEq]
  constructor
  · rintro ⟨e, u, h, rfl, rfl⟩
    exact ⟨e, h, rfl⟩
  · rintro ⟨e, h, rfl⟩
    exact ⟨e, t, h, rfl, rfl⟩

/-- Every run can be recorded. -/
theorem Run.exists_recorded {tr : List Event} {s : State} (h : M.Run ok tr s) :
    ∃ rec, M.recorded.Run ok rec s ∧ rec.map (fun x => x.2.2) = tr := by
  induction h with
  | refl => exact ⟨[], .refl, rfl⟩
  | @step tr t u a e _ hok hs ih =>
      obtain ⟨rec, hrun, rfl⟩ := ih
      exact ⟨(t, a, e) :: rec, hrun.step hok (recorded_step_eq_some.mpr ⟨e, hs, rfl⟩), rfl⟩

/-- A recorded run is a run. -/
theorem run_of_recorded {rec : List (State × Action × Event)} {s : State}
    (h : M.recorded.Run ok rec s) : M.Run ok (rec.map fun x => x.2.2) s := by
  induction h with
  | refl => exact .refl
  | step _ hok hs ih =>
      obtain ⟨e, hstep, rfl⟩ := recorded_step_eq_some.mp hs
      exact .step ih hok hstep

/-! ### Invariants -/

/-- The invariant rule along a path. -/
theorem Path.invariant {I : State → Prop} {s t : State} {tr : List Event}
    (h : M.Path ok s tr t) (h₀ : I s)
    (hstep : ∀ t a e u, I t → ok t a → M.step t a = some (e, u) → I u) : I t := by
  induction h with
  | refl => exact h₀
  | step _ hok hs ih => exact hstep _ _ _ _ ih hok hs

/-- The invariant rule for runs: the invariant may speak of the trace as well. -/
theorem Run.invariant {I : List Event → State → Prop} (h₀ : I [] M.init)
    (hstep : ∀ tr t a e u, I tr t → ok t a → M.step t a = some (e, u) → I (e :: tr) u)
    {tr : List Event} {t : State} (h : M.Run ok tr t) : I tr t := by
  induction h with
  | refl => exact h₀
  | step _ hok hs ih => exact hstep _ _ _ _ _ ih hok hs

/-- A run keeps its discipline under another name when an invariant of the run lets one
conclude the other condition at each step. -/
theorem Run.mono_of_invariant {I : List Event → State → Prop} (h₀ : I [] M.init)
    (hstep : ∀ tr t a e u, I tr t → ok' t a → M.step t a = some (e, u) → I (e :: tr) u)
    (hok : ∀ tr t a, I tr t → ok t a → ok' t a) {tr : List Event} {t : State}
    (h : M.Run ok tr t) : M.Run ok' tr t := by
  suffices hboth : M.Run ok' tr t ∧ I tr t from hboth.1
  induction h with
  | refl => exact ⟨.refl, h₀⟩
  | step _ ha hs ih =>
      have ha' := hok _ _ _ ih.2 ha
      exact ⟨.step ih.1 ha' hs, hstep _ _ _ _ _ ih.2 ha' hs⟩

/-! ### Termination by a decreasing measure -/

/-- A measure that every step decreases bounds the length of every path. -/
theorem Path.length_add_le {I : State → Prop} {μ : State → ℕ}
    (hstep : ∀ t a e u, I t → ok t a → M.step t a = some (e, u) → I u ∧ μ u < μ t)
    {s t : State} {tr : List Event} (h : M.Path ok s tr t) (h₀ : I s) :
    tr.length + μ t ≤ μ s := by
  suffices hboth : I t ∧ tr.length + μ t ≤ μ s from hboth.2
  induction h with
  | refl => exact ⟨h₀, by simp⟩
  | step _ hok hs ih =>
      obtain ⟨hI, hlt⟩ := hstep _ _ _ _ ih.1 hok hs
      refine ⟨hI, ?_⟩
      have := ih.2
      simp only [List.length_cons]
      omega

/-- Under a decreasing measure every state has a path to a stuck one: keep moving until
nothing moves. Induction on the measure. -/
theorem Path.exists_stuck {I : State → Prop} {μ : State → ℕ}
    (hstep : ∀ t a e u, I t → ok t a → M.step t a = some (e, u) → I u ∧ μ u < μ t)
    {s : State} (h₀ : I s) : ∃ tr t, M.Path ok s tr t ∧ M.Stuck ok t := by
  induction hn : μ s using Nat.strongRecOn generalizing s with
  | ind n ih =>
      by_cases hstuck : M.Stuck ok s
      · exact ⟨[], s, .refl, hstuck⟩
      · obtain ⟨a, hok, hne⟩ : ∃ a, ok s a ∧ M.step s a ≠ none := by
          simpa only [Stuck, not_forall, exists_prop] using hstuck
        obtain ⟨⟨e, u⟩, hs⟩ := Option.ne_none_iff_exists'.mp hne
        obtain ⟨hI, hlt⟩ := hstep _ _ _ _ h₀ hok hs
        obtain ⟨tr, t, hp, ht⟩ := ih (μ u) (hn ▸ hlt) hI rfl
        exact ⟨tr ++ [e], t, (Path.single hok hs).trans hp, ht⟩

end Machine

end Transitions
