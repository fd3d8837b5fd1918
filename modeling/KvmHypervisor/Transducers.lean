import KvmHypervisor.Transitions

/-!
# Transducers

A `Transducer` answers every input: its step function is total and emits one output. The
`trace` of a list of inputs pairs each input with its answer. A transducer started in a
state is a `Machine` whose actions are the inputs, so the rules for runs apply to it.

## Main results

* `Transducer.trace_eq_of_simulation`: two transducers in a relation that every input
  preserves, and under which they answer alike, have the same traces.
* `Transducer.trace_filter_of_simulation`: the same when the second transducer sees only
  some of the inputs, and the others do not disturb the relation.
-/

namespace Transitions

/-- A total step function that emits one output for each input. -/
structure Transducer (State Input Output : Type) where
  step : State → Input → Output × State

namespace Transducer

variable {State State' Input Output : Type}

/-- The state after a list of inputs. -/
def after (T : Transducer State Input Output) : State → List Input → State
  | s, [] => s
  | s, a :: as => T.after (T.step s a).2 as

/-- The inputs of a run with their answers, in order. -/
def trace (T : Transducer State Input Output) : State → List Input → List (Input × Output)
  | _, [] => []
  | s, a :: as => (a, (T.step s a).1) :: T.trace (T.step s a).2 as

/-- The machine that starts in `s` and takes inputs as its actions. -/
def machine (T : Transducer State Input Output) (s : State) :
    Machine State Input (Input × Output) where
  init := s
  step t a := some ((a, (T.step t a).1), (T.step t a).2)

/-- One input is one step of the machine. -/
theorem machine_step (T : Transducer State Input Output) (s t : State) (a : Input) :
    (T.machine s).step t a = some ((a, (T.step t a).1), (T.step t a).2) :=
  rfl

/-- The invariant rule for transducers, under a discipline on the inputs. -/
theorem invariant {T : Transducer State Input Output} {ok : State → Input → Prop}
    {I : State → Prop} {s t : State} {tr : List (Input × Output)} (h₀ : I s)
    (hstep : ∀ t a, I t → ok t a → I (T.step t a).2) (h : (T.machine s).Run ok tr t) : I t := by
  refine Machine.Path.invariant h h₀ ?_
  intro t a e u hI hok hs
  rw [machine_step, Option.some.injEq, Prod.mk.injEq] at hs
  obtain ⟨-, rfl⟩ := hs
  exact hstep t a hI hok

/-- A list of inputs that keep the discipline is a run. -/
theorem exists_run {T : Transducer State Input Output} {ok : State → Input → Prop}
    {s t : State} {tr : List (Input × Output)} {a : Input} (h : (T.machine s).Run ok tr t)
    (hok : ok t a) :
    (T.machine s).Run ok ((a, (T.step t a).1) :: tr) (T.step t a).2 :=
  h.step hok (T.machine_step s t a)

/-- Two transducers that answer alike under a relation every input preserves, except that
the second does not see the inputs outside `p`: those leave the relation alone. -/
theorem trace_filter_of_simulation {T : Transducer State Input Output}
    {T' : Transducer State' Input Output} {R : State → State' → Prop} {p : Input → Bool}
    (hstep : ∀ s s' a, R s s' → p a = true →
      (T.step s a).1 = (T'.step s' a).1 ∧ R (T.step s a).2 (T'.step s' a).2)
    (hskip : ∀ s s' a, R s s' → p a = false → R (T.step s a).2 s')
    {s : State} {s' : State'} (h : R s s') (as : List Input) :
    (T.trace s as).filter (fun x => p x.1) = T'.trace s' (as.filter p) := by
  induction as generalizing s s' with
  | nil => rfl
  | cons a as ih =>
      cases hp : p a with
      | true =>
          obtain ⟨hout, hR⟩ := hstep s s' a h hp
          simp only [trace, List.filter_cons, hp, if_true, hout, ih hR]
      | false =>
          simp only [trace, List.filter_cons, hp, Bool.false_eq_true, if_false,
            ih (hskip s s' a h hp)]

/-- Two transducers that answer alike under a relation every input preserves have the same
traces. -/
theorem trace_eq_of_simulation {T : Transducer State Input Output}
    {T' : Transducer State' Input Output} {R : State → State' → Prop}
    (hstep : ∀ s s' a, R s s' →
      (T.step s a).1 = (T'.step s' a).1 ∧ R (T.step s a).2 (T'.step s' a).2)
    {s : State} {s' : State'} (h : R s s') (as : List Input) :
    T.trace s as = T'.trace s' as := by
  have hfilter := trace_filter_of_simulation (p := fun _ => true)
    (fun s s' a hR _ => hstep s s' a hR) (fun _ _ _ _ hp => by cases hp) h as
  rwa [List.filter_eq_self.mpr (fun _ _ => rfl), List.filter_eq_self.mpr (fun _ _ => rfl)]
    at hfilter

end Transducer

end Transitions
