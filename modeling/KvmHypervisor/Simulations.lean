import Mathlib.Data.List.Basic
import KvmHypervisor.Transitions

/-!
# Simulations

A machine that is made of several parts looks like one of its parts to whoever watches only
that. A `Simulation` says so: its states are abstracted by a function, and of its events some
are shown. A step that shows nothing leaves the abstract state alone or is a step of the
abstract machine with an event that is not visible; a step that shows an event is a step of the
abstract machine with that event.

A `TracedSimulation` abstracts from the trace as well, and goes on only as long as a condition
holds.

A `Tracking` says more: which action the abstract machine takes is a function of the state and
the action of the machine. Then the abstract machine can be executed on what the run has done.

## Main results

* `TracedSimulation.path`: every path to a state that meets the condition is a path of the
  abstract machine.
* `Simulation.run`: every run of the machine is a run of the abstract machine whose visible
  events are those shown.
* `Simulation.run_of_visible`: the same when all events are visible, with the trace itself.
* `Tracking.exec`: the abstract machine, executed on the actions a recorded run stands for.
-/

namespace Transitions

namespace Machine

variable {State Action Event State' Action' Event' : Type}

/-- A step that shows `shown` leaves the abstract state `s` alone or is a step of `M'` to `t`, with
that event or with one that is not visible. -/
def Follows (M' : Machine State' Action' Event') (visible : Event' → Bool)
    (shown : Option Event') (s t : State') : Prop :=
  (shown = none ∧ t = s) ∨
    ∃ a e, M'.step s a = some (e, t) ∧ shown = if visible e then some e else none

/-- `M` looks like `M'` through `abs` and `shown`, as long as `I` holds. -/
structure Simulation (M : Machine State Action Event) (M' : Machine State' Action' Event')
    (ok : State → Action → Prop) (I : List Event → State → Prop) (abs : State → State')
    (shown : Event → Option Event') (visible : Event' → Bool) : Prop where
  init : abs M.init = M'.init
  step : ∀ tr s a e t, I tr s → ok s a → M.step s a = some (e, t) →
    M'.Follows visible (shown e) (abs s) (abs t)

/-- `M` looks like `M'` up to the first state without `keep`, through an abstraction that may
look at what has happened. -/
structure TracedSimulation (M : Machine State Action Event) (M' : Machine State' Action' Event')
    (ok : State → Action → Prop) (keep : State → Prop) (abs : List Event → State → State')
    (shown : Event → Option Event') (visible : Event' → Bool) : Prop where
  init : abs [] M.init = M'.init
  keep_of_step : ∀ tr s a e t, M.Run ok tr s → M.step s a = some (e, t) → keep t → keep s
  step : ∀ tr s a e t, M.Run ok tr s → ok s a → M.step s a = some (e, t) → keep s → keep t →
    M'.Follows visible (shown e) (abs tr s) (abs (e :: tr) t)

variable {M : Machine State Action Event} {M' : Machine State' Action' Event'}
variable {ok : State → Action → Prop} {I : List Event → State → Prop} {keep : State → Prop}
variable {abs : State → State'} {view : List Event → State → State'}
variable {shown : Event → Option Event'} {visible : Event' → Bool}

/-- What follows a path extends it. -/
theorem Follows.path {shown : Option Event'} {r s t : State'} {tr : List Event'}
    (h : M'.Follows visible shown s t) (hpath : M'.Path (fun _ _ => True) r tr s) :
    ∃ tr', M'.Path (fun _ _ => True) r tr' t ∧
      tr'.filter visible = shown.toList ++ tr.filter visible := by
  rcases h with ⟨rfl, rfl⟩ | ⟨a, e, hstep, rfl⟩
  · exact ⟨tr, hpath, rfl⟩
  · refine ⟨e :: tr, .step hpath trivial hstep, ?_⟩
    cases hv : visible e with
    | true => rw [List.filter_cons_of_pos hv, if_pos rfl, Option.toList_some, List.singleton_append]
    | false =>
        rw [List.filter_cons_of_neg (by rw [hv]; exact Bool.false_ne_true),
          if_neg Bool.false_ne_true, Option.toList_none, List.nil_append]

/-- The condition holds all along a path to a state that meets it. -/
theorem TracedSimulation.keep_of_path (hsim : TracedSimulation M M' ok keep view shown visible)
    {tr₀ tr : List Event} {s t : State} (hbefore : M.Run ok tr₀ s) (h : M.Path ok s tr t)
    (hkeep : keep t) : keep s := by
  induction h with
  | refl => exact hkeep
  | step hprev _ hs ih => exact ih (hsim.keep_of_step _ _ _ _ _ (hbefore.trans hprev) hs hkeep)

/-- **A traced simulation lifts paths.** -/
theorem TracedSimulation.path (hsim : TracedSimulation M M' ok keep view shown visible)
    {tr₀ tr : List Event} {s t : State} (hbefore : M.Run ok tr₀ s) (h : M.Path ok s tr t)
    (hkeep : keep t) : ∃ tr', M'.Path (fun _ _ => True) (view tr₀ s) tr' (view (tr ++ tr₀) t) ∧
      tr'.filter visible = tr.filterMap shown := by
  induction h with
  | refl => exact ⟨[], .refl, rfl⟩
  | @step tr u t a e hprev hok hs ih =>
      have hrun := hbefore.trans hprev
      have hkeep' := hsim.keep_of_step _ u a e t hrun hs hkeep
      obtain ⟨tr', hpath, htr⟩ := ih hkeep'
      obtain ⟨tr'', hpath', htr'⟩ := (hsim.step _ u a e t hrun hok hs hkeep' hkeep).path hpath
      refine ⟨tr'', hpath', ?_⟩
      rw [htr', htr]
      cases hshown : shown e with
      | none => rw [List.filterMap_cons_none hshown, Option.toList_none, List.nil_append]
      | some e' =>
          rw [List.filterMap_cons_some hshown, Option.toList_some, List.singleton_append]

/-- **It lifts runs.** -/
theorem TracedSimulation.run (hsim : TracedSimulation M M' ok keep view shown visible)
    {tr : List Event} {s : State} (h : M.Run ok tr s) (hkeep : keep s) :
    ∃ tr', M'.Run (fun _ _ => True) tr' (view tr s) ∧
      tr'.filter visible = tr.filterMap shown := by
  obtain ⟨tr', hpath, htr⟩ := hsim.path .refl h hkeep
  rw [hsim.init, List.append_nil] at hpath
  exact ⟨tr', hpath, htr⟩

/-- A simulation is a traced one. -/
theorem Simulation.traced (hsim : Simulation M M' ok I abs shown visible)
    (hI : ∀ tr s, M.Run ok tr s → I tr s) :
    TracedSimulation M M' ok (fun _ => True) (fun _ => abs) shown visible where
  init := hsim.init
  keep_of_step _ _ _ _ _ _ _ _ := trivial
  step tr s a e t hrun hok hs _ _ := hsim.step tr s a e t (hI tr s hrun) hok hs

/-- **A simulation lifts runs.** -/
theorem Simulation.run (hsim : Simulation M M' ok I abs shown visible)
    (hI : ∀ tr s, M.Run ok tr s → I tr s) {tr : List Event} {s : State} (h : M.Run ok tr s) :
    ∃ tr', M'.Run (fun _ _ => True) tr' (abs s) ∧ tr'.filter visible = tr.filterMap shown :=
  (hsim.traced hI).run h trivial

/-- When all abstract events are visible the trace is the shown one. -/
theorem Simulation.run_of_visible (hsim : Simulation M M' ok I abs shown fun _ => true)
    (hI : ∀ tr s, M.Run ok tr s → I tr s) {tr : List Event} {s : State} (h : M.Run ok tr s) :
    M'.Run (fun _ _ => True) (tr.filterMap shown) (abs s) := by
  obtain ⟨tr', hrun, htr⟩ := hsim.run hI h
  rw [List.filter_eq_self.mpr fun _ _ => rfl] at htr
  exact htr ▸ hrun

/-- `M` follows `M'` through `abs` and `shown`, and `input` gives the action of `M'`. -/
structure Tracking (M : Machine State Action Event) (M' : Machine State' Action' Event')
    (ok : State → Action → Prop) (I : List Event → State → Prop) (abs : State → State')
    (input : State → Action → Option Action') (shown : Event → Option Event') : Prop where
  init : abs M.init = M'.init
  step : ∀ tr s a e t, I tr s → ok s a → M.step s a = some (e, t) →
    (input s a = none ∧ shown e = none ∧ abs t = abs s) ∨
      ∃ a' e', input s a = some a' ∧ shown e = some e' ∧ M'.step (abs s) a' = some (e', abs t)

variable {input : State → Action → Option Action'}

/-- Who follows a machine looks like it. -/
theorem Tracking.simulation (htrack : Tracking M M' ok I abs input shown) :
    Simulation M M' ok I abs shown fun _ => true where
  init := htrack.init
  step tr s a e t hI hok hs := by
    rcases htrack.step tr s a e t hI hok hs with ⟨-, hshown, habs⟩ | ⟨a', e', -, hshown, hs'⟩
    · exact .inl ⟨hshown, habs⟩
    · exact .inr ⟨a', e', hs', hshown⟩

/-- **A tracking machine computes the abstract run**: executed on the actions that a recorded run
stands for, the abstract machine shows what the run shows and ends where it ends. -/
theorem Tracking.exec (htrack : Tracking M M' ok I abs input shown)
    (hI : ∀ tr s, M.Run ok tr s → I tr s) {rec : List (State × Action × Event)} {s : State}
    (h : M.recorded.Run ok rec s) :
    M'.exec (fun _ _ => True) M'.init (rec.reverse.filterMap fun x => input x.1 x.2.1) =
      some (rec.filterMap fun x => shown x.2.2, abs s) := by
  induction h with
  | refl =>
      rw [show abs M.recorded.init = M'.init from htrack.init]
      rfl
  | @step rec t u a x hprev hok hs ih =>
      obtain ⟨e, hstep, rfl⟩ := recorded_step_eq_some.mp hs
      rw [List.reverse_cons, List.filterMap_append]
      rcases htrack.step _ t a e u (hI _ t (run_of_recorded hprev)) hok hstep with
        ⟨hinput, hshown, habs⟩ | ⟨a', e', hinput, hshown, hs'⟩
      · simp only [List.filterMap_cons, List.filterMap_nil, hinput, hshown, habs, List.append_nil]
        exact ih
      · simp only [List.filterMap_cons, List.filterMap_nil, hinput, hshown]
        exact exec_append ih trivial hs'

end Machine

end Transitions
