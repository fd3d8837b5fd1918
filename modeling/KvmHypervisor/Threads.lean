import KvmHypervisor.Acceptance
import KvmHypervisor.Transitions
import Mathlib.Logic.Function.Basic

/-!
# The VM Threads

One POSIX thread per VM runs `runGuest`: the exit loop of `runVirtualMachine`, then the
abort of the shared buffer if that loop returned `false`. The threads share one
`SharedBufferState`, and every handler call is one critical section under its mutex, so a
run of the hypervisor is an interleaving of handler calls. `hypervisor n` is that machine
for `n + 1` VMs: VM 0 is the writer and `readerCount` is `n`, as `main` sets them up.

The guests are unconstrained. A running VM may exit with any I/O exit on the shared-buffer
ports, halt, or leave the loop with a failure. Exits that touch neither record (serial
output, file requests, interrupt windows) are not steps of this machine.

A call that parks keeps its exit in the thread's status and is evaluated again by a `wake`
step, possible once the predicate of its wait holds.

## Main results

* `step_call`: a step that emits a `call` event performs one of the cases of `Accepts`
  and touches only the shared record and the calling VM.
* `step_quiet`: every other step leaves all records alone, except for setting `stopped`.
* `step_records`: the two together, as invariants of the records use them.
-/

open Transitions

namespace KvmHypervisor

/-- Where a VM thread stands: in its exit loop between exits, parked in a condition wait
while handling an exit, returned from `runVirtualMachine` but not through `runGuest`, or
ended with `completedSuccessfully` set to `success`. -/
inductive ThreadStatus where
  | running
  | waiting (run : KvmRun)
  | returned (success : Bool)
  | finished (success : Bool)

/-- The thread has not left its exit loop. -/
def ThreadStatus.Active (status : ThreadStatus) : Prop :=
  status = .running ∨ ∃ run, status = .waiting run

instance (status : ThreadStatus) : Decidable status.Active :=
  match status with
  | .running => isTrue (.inl rfl)
  | .waiting run => isTrue (.inr ⟨run, rfl⟩)
  | .returned _ | .finished _ => isFalse (by rintro (h | ⟨run, h⟩) <;> cases h)

/-- The part of `GuestContext` the shared buffer uses, and its thread. -/
structure VmThread where
  context : SharedBufferVmState
  status : ThreadStatus

/-- The hypervisor with `n` readers: the shared record and `n + 1` VM threads. -/
structure System (n : ℕ) where
  shared : SharedBufferState
  vms : Fin (n + 1) → VmThread

/-- What can happen next. `abort` is `main` failing to create or join a thread. -/
inductive Action (n : ℕ) where
  | exit (i : Fin (n + 1)) (run : KvmRun)
  | wake (i : Fin (n + 1))
  | halt (i : Fin (n + 1))
  | fail (i : Fin (n + 1))
  | finish (i : Fin (n + 1))
  | abort

/-- VM `i` executes a port instruction. -/
def Action.issue {n : ℕ} (layout : RunLayout) (i : Fin (n + 1)) (command : PortCommand) :
    Action n :=
  .exit i (command.exit layout)

/-- What a step did. -/
inductive Event (n : ℕ) where
  | call (i : Fin (n + 1)) (c : Call)
  | park (i : Fin (n + 1))
  | reject (i : Fin (n + 1))
  | halt (i : Fin (n + 1)) (success : Bool)
  | fail (i : Fin (n + 1))
  | finish (i : Fin (n + 1)) (success : Bool)
  | abort
deriving DecidableEq

/-- The call has parked in its condition wait. -/
def Outcome.isWait : Outcome → Bool
  | .wait => true
  | .done _ _ => false

namespace System

variable {n : ℕ}

/-- `main` before it creates the threads: VM 0 is the writer, all others are readers. -/
def initial (n : ℕ) : System n where
  shared := .initial n
  vms i :=
    { context := .initial (if i = 0 then vmModeWriter else vmModeReader)
      status := .running }

/-- VM `i` moves to another status. -/
def setStatus (s : System n) (i : Fin (n + 1)) (status : ThreadStatus) : System n :=
  { s with vms := Function.update s.vms i { s.vms i with status } }

/-- The outcome of VM `i` handling `run` now. -/
def handle (s : System n) (i : Fin (n + 1)) (run : KvmRun) : Outcome :=
  handleSharedBufferIo s.shared (s.vms i).context run

/-- VM `i` is parked in a condition wait whose predicate is false. -/
def blocked (s : System n) (i : Fin (n + 1)) : Bool :=
  match (s.vms i).status with
  | .waiting run => (s.handle i run).isWait
  | _ => false

/-- VM `i` runs the handler for `run`: it parks, goes on, or leaves its loop with a
failure. An accepted exit always has a label, so the default is never used. -/
def execute (s : System n) (i : Fin (n + 1)) (run : KvmRun) : Event n × System n :=
  match s.handle i run with
  | .wait => (.park i, s.setStatus i (.waiting run))
  | .done true f =>
    (.call i ((exitLabel s.shared (s.vms i).context run f).getD (.deliverMode 0)),
      { shared := f.state
        vms := Function.update s.vms i { context := f.vm, status := .running } })
  | .done false f =>
    (.reject i,
      { shared := f.state
        vms := Function.update s.vms i { context := f.vm, status := .returned false } })

/-- One step of the hypervisor. -/
def step (s : System n) : Action n → Option (Event n × System n)
  | .exit i run =>
    match (s.vms i).status with
    | .running => some (s.execute i run)
    | _ => none
  | .wake i =>
    match (s.vms i).status with
    | .waiting run =>
      match s.handle i run with
      | .wait => none
      | .done _ _ => some (s.execute i run)
    | _ => none
  | .halt i =>
    match (s.vms i).status with
    | .running =>
      some (.halt i (s.vms i).context.transferCompleted,
        s.setStatus i (.returned (s.vms i).context.transferCompleted))
    | _ => none
  | .fail i =>
    match (s.vms i).status with
    | .running => some (.fail i, s.setStatus i (.returned false))
    | _ => none
  | .finish i =>
    match (s.vms i).status with
    | .returned true => some (.finish i true, s.setStatus i (.finished true))
    | .returned false =>
      some (.finish i false,
        { s.setStatus i (.finished false) with shared := abortSharedBuffer s.shared })
    | _ => none
  | .abort => some (.abort, { s with shared := abortSharedBuffer s.shared })

end System

/-- The hypervisor with one writer and `n` readers. -/
def hypervisor (n : ℕ) : Machine (System n) (Action n) (Event n) where
  init := System.initial n
  step := System.step

/-- The writer of a hypervisor with one reader. -/
def writerVm : Fin 2 :=
  ⟨0, Nat.two_pos⟩

/-- The only reader of such a hypervisor. -/
def readerVm : Fin 2 :=
  ⟨1, Nat.one_lt_two⟩

/-- The VM whose thread takes the step; `none` for `main`. -/
def Action.vm {n : ℕ} : Action n → Option (Fin (n + 1))
  | .exit i _ | .wake i | .halt i | .fail i | .finish i => some i
  | .abort => none

/-- An event that is no handler call. -/
def Event.Quiet {n : ℕ} (e : Event n) : Prop :=
  ∀ i c, e ≠ .call i c

/-! ### Inversion of a step -/

namespace System

variable {n : ℕ} {s s' : System n} {a : Action n} {i j : Fin (n + 1)} {run : KvmRun}

@[simp] theorem setStatus_shared (s : System n) (i : Fin (n + 1)) (st : ThreadStatus) :
    (s.setStatus i st).shared = s.shared := rfl

@[simp] theorem setStatus_context (s : System n) (i j : Fin (n + 1)) (st : ThreadStatus) :
    ((s.setStatus i st).vms j).context = (s.vms j).context := by
  by_cases h : j = i
  · subst h; simp [setStatus]
  · simp [setStatus, h]

@[simp] theorem setStatus_status_self (s : System n) (i : Fin (n + 1)) (st : ThreadStatus) :
    ((s.setStatus i st).vms i).status = st := by
  simp [setStatus]

/-- What a handler does depends on no thread's status. -/
@[simp] theorem handle_setStatus (s : System n) (i j : Fin (n + 1)) (st : ThreadStatus)
    (run : KvmRun) : (s.setStatus i st).handle j run = s.handle j run := by
  rw [handle, setStatus_shared, setStatus_context, handle]

theorem setStatus_of_ne (s : System n) (st : ThreadStatus) (h : j ≠ i) :
    (s.setStatus i st).vms j = s.vms j := by
  simp [setStatus, h]

theorem blocked_iff : s.blocked i = true ↔
    ∃ run, (s.vms i).status = .waiting run ∧ s.handle i run = .wait := by
  unfold blocked
  cases hst : (s.vms i).status with
  | waiting run =>
      cases hout : s.handle i run <;> simp [hout, Outcome.isWait]
  | _ => simp

/-- The exit an action makes some VM handle: a fresh one, or at a wake-up the one its
thread is parked in. -/
def pending (s : System n) : Action n → Option (Fin (n + 1) × KvmRun)
  | .exit i run =>
    match (s.vms i).status with
    | .running => some (i, run)
    | _ => none
  | .wake i =>
    match (s.vms i).status with
    | .waiting run => some (i, run)
    | _ => none
  | _ => none

theorem pending_exit (h : (s.vms i).status = .running) (run : KvmRun) :
    s.pending (.exit i run) = some (i, run) := by
  simp only [pending, h]

theorem pending_wake (h : (s.vms i).status = .waiting run) :
    s.pending (.wake i) = some (i, run) := by
  simp only [pending, h]

/-- A VM that has returned from its loop handles no exit. -/
theorem not_pending_of_returned {success : Bool} (h : (s.vms i).status = .returned success) :
    s.pending a ≠ some (i, run) := by
  intro hpending
  cases a <;> simp only [pending] at hpending <;> grind

theorem step_exit (h : (s.vms i).status = .running) (run : KvmRun) :
    s.step (.exit i run) = some (s.execute i run) := by
  simp only [step, h]

theorem step_wake (h : (s.vms i).status = .waiting run) {result : Bool} {f : Frame}
    (hout : s.handle i run = .done result f) : s.step (.wake i) = some (s.execute i run) := by
  simp only [step, h, hout]

/-- `execute` by outcome: an accepted exit. -/
theorem execute_accepted {f : Frame} (h : s.handle i run = .done true f) :
    ∃ c, exitLabel s.shared (s.vms i).context run f = some c ∧
      Accepts s.shared (s.vms i).context c f.state f.vm ∧
      s.execute i run = (.call i c,
        { shared := f.state
          vms := Function.update s.vms i { context := f.vm, status := .running } }) := by
  obtain ⟨c, hc, hacc⟩ := handle_accepted h
  exact ⟨c, hc, hacc, by rw [execute, h]; simp only [hc, Option.getD_some]⟩

/-- `execute` by outcome: a rejected exit. -/
theorem execute_rejected {f : Frame} (h : s.handle i run = .done false f) :
    s.execute i run = (.reject i, s.setStatus i (.returned false)) := by
  obtain ⟨hstate, hvm, -, -⟩ := handle_rejected h
  rw [execute, h]
  simp only [hstate, hvm, setStatus]

/-- `execute` by outcome: an exit that parks. -/
theorem execute_wait (h : s.handle i run = .wait) :
    s.execute i run = (.park i, s.setStatus i (.waiting run)) := by
  rw [execute, h]

/-- **What a step can do**: run a handler for some VM, or move one thread through its
lifecycle, or abort. -/
theorem step_cases {e : Event n} (h : s.step a = some (e, s')) :
    (∃ i run, s.pending a = some (i, run) ∧ s.execute i run = (e, s')) ∨
    (∃ i, a = .halt i ∧ (s.vms i).status = .running ∧
      e = .halt i (s.vms i).context.transferCompleted ∧
      s' = s.setStatus i (.returned (s.vms i).context.transferCompleted)) ∨
    (∃ i, a = .fail i ∧ (s.vms i).status = .running ∧ e = .fail i ∧
      s' = s.setStatus i (.returned false)) ∨
    (∃ i, a = .finish i ∧ (s.vms i).status = .returned true ∧ e = .finish i true ∧
      s' = s.setStatus i (.finished true)) ∨
    (∃ i, a = .finish i ∧ (s.vms i).status = .returned false ∧ e = .finish i false ∧
      s' = { s.setStatus i (.finished false) with shared := abortSharedBuffer s.shared }) ∨
    (a = .abort ∧ e = .abort ∧ s' = { s with shared := abortSharedBuffer s.shared }) := by
  cases a with
  | exit i run =>
      cases hst : (s.vms i).status <;> simp only [step, hst, reduceCtorEq] at h
      exact .inl ⟨i, run, pending_exit hst run, Option.some.inj h⟩
  | wake i =>
      cases hst : (s.vms i).status with
      | waiting run =>
          simp only [step, hst] at h
          split at h
          · cases h
          · exact .inl ⟨i, run, pending_wake hst, Option.some.inj h⟩
      | _ => simp only [step, hst, reduceCtorEq] at h
  | halt i =>
      cases hst : (s.vms i).status <;> simp only [step, hst, reduceCtorEq] at h
      cases h
      exact .inr (.inl ⟨i, rfl, hst, rfl, rfl⟩)
  | fail i =>
      cases hst : (s.vms i).status <;> simp only [step, hst, reduceCtorEq] at h
      cases h
      exact .inr (.inr (.inl ⟨i, rfl, hst, rfl, rfl⟩))
  | finish i =>
      cases hst : (s.vms i).status with
      | returned success =>
          cases success <;> simp only [step, hst] at h <;> cases h
          · exact .inr (.inr (.inr (.inr (.inl ⟨i, rfl, hst, rfl, rfl⟩))))
          · exact .inr (.inr (.inr (.inl ⟨i, rfl, hst, rfl, rfl⟩)))
      | _ => simp only [step, hst, reduceCtorEq] at h
  | abort =>
      cases h
      exact .inr (.inr (.inr (.inr (.inr ⟨rfl, rfl, rfl⟩))))

/-- `execute` by outcome: the three things a handler call can do. -/
theorem execute_cases {e : Event n} (h : s.execute i run = (e, s')) :
    (∃ f c, s.handle i run = .done true f ∧
      exitLabel s.shared (s.vms i).context run f = some c ∧
      Accepts s.shared (s.vms i).context c f.state f.vm ∧ e = .call i c ∧
      s' = { shared := f.state
             vms := Function.update s.vms i { context := f.vm, status := .running } }) ∨
    ((∃ f, s.handle i run = .done false f) ∧ e = .reject i ∧
      s' = s.setStatus i (.returned false)) ∨
    (s.handle i run = .wait ∧ e = .park i ∧ s' = s.setStatus i (.waiting run)) := by
  cases hout : s.handle i run with
  | wait =>
      rw [execute_wait hout] at h
      cases h
      exact .inr (.inr ⟨rfl, rfl, rfl⟩)
  | done result f =>
      cases result with
      | false =>
          rw [execute_rejected hout] at h
          cases h
          exact .inr (.inl ⟨⟨f, rfl⟩, rfl, rfl⟩)
      | true =>
          obtain ⟨c, hc, hacc, heq⟩ := execute_accepted hout
          rw [heq] at h
          cases h
          exact .inl ⟨f, c, rfl, hc, hacc, rfl, rfl⟩

/-- **A `call` event is an accepted handler call of its VM.** -/
theorem step_call {c : Call} (h : s.step a = some (.call i c, s')) :
    ∃ run f, s.pending a = some (i, run) ∧ s.handle i run = .done true f ∧
      exitLabel s.shared (s.vms i).context run f = some c ∧
      Accepts s.shared (s.vms i).context c f.state f.vm ∧
      s' = { shared := f.state
             vms := Function.update s.vms i { context := f.vm, status := .running } } := by
  obtain ⟨j, run, hexec, hrun⟩ | ⟨j, -, -, he, -⟩ | ⟨j, -, -, he, -⟩ | ⟨j, -, -, he, -⟩ |
    ⟨j, -, -, he, -⟩ | ⟨-, he, -⟩ := step_cases h
  · obtain ⟨f, c', hout, hc, hacc, he, hs'⟩ | ⟨-, he, -⟩ | ⟨-, he, -⟩ := execute_cases hrun
    · cases he
      exact ⟨run, f, hexec, hout, hc, hacc, hs'⟩
    · cases he
    · cases he
  all_goals cases he

/-- The VM that handles an exit is the one whose thread takes the step. -/
theorem vm_of_pending {x : Fin (n + 1) × KvmRun} (h : s.pending a = some x) :
    a.vm = some x.1 := by
  cases a <;> simp only [pending] at h <;> grind [Action.vm]

theorem vm_of_call {c : Call} (h : s.step a = some (.call i c, s')) : a.vm = some i := by
  obtain ⟨run, f, hpending, -⟩ := step_call h
  exact vm_of_pending hpending

/-- A successful halt finds `transferCompleted` set. -/
theorem transferCompleted_of_halt (h : s.step a = some (.halt i true, s')) :
    (s.vms i).context.transferCompleted = true := by
  obtain ⟨j, run, -, hrun⟩ | ⟨j, -, -, he, -⟩ | ⟨j, -, -, he, -⟩ | ⟨j, -, -, he, -⟩ |
    ⟨j, -, -, he, -⟩ | ⟨-, he, -⟩ := step_cases h
  · obtain ⟨f, c, -, -, -, he, -⟩ | ⟨-, he, -⟩ | ⟨-, he, -⟩ := execute_cases hrun <;> cases he
  · obtain ⟨rfl, hcompleted⟩ := Event.halt.inj he
    exact hcompleted.symm
  all_goals cases he

/-- **Every other step leaves the records alone**, except that it may set `stopped`. -/
theorem step_quiet {e : Event n} (hq : e.Quiet) (h : s.step a = some (e, s')) :
    (∀ j, (s'.vms j).context = (s.vms j).context) ∧
      (s'.shared = s.shared ∨ s'.shared = abortSharedBuffer s.shared) := by
  obtain ⟨i, run, -, hrun⟩ | ⟨i, -, -, -, rfl⟩ | ⟨i, -, -, -, rfl⟩ | ⟨i, -, -, -, rfl⟩ |
    ⟨i, -, -, -, rfl⟩ | ⟨-, -, rfl⟩ := step_cases h
  · obtain ⟨f, c, -, -, -, rfl, -⟩ | ⟨-, -, rfl⟩ | ⟨-, -, rfl⟩ := execute_cases hrun
    · exact absurd rfl (hq i c)
    · exact ⟨fun j => setStatus_context .., .inl rfl⟩
    · exact ⟨fun j => setStatus_context .., .inl rfl⟩
  · exact ⟨fun j => setStatus_context .., .inl rfl⟩
  · exact ⟨fun j => setStatus_context .., .inl rfl⟩
  · exact ⟨fun j => setStatus_context .., .inl rfl⟩
  · exact ⟨fun j => setStatus_context .., .inr rfl⟩
  · exact ⟨fun j => rfl, .inr rfl⟩

/-- **A step seen from the records**: either no record changes except for `stopped`, or one
VM makes an accepted call. -/
theorem step_records {e : Event n} (h : s.step a = some (e, s')) :
    (e.Quiet ∧ (∀ j, (s'.vms j).context = (s.vms j).context) ∧
      (s'.shared = s.shared ∨ s'.shared = abortSharedBuffer s.shared)) ∨
    (∃ i c v, e = .call i c ∧ Accepts s.shared (s.vms i).context c s'.shared v ∧
      (fun j => (s'.vms j).context) =
        Function.update (fun j => (s.vms j).context) i v) := by
  by_cases hq : e.Quiet
  · exact .inl ⟨hq, step_quiet hq h⟩
  · obtain ⟨i, c, rfl⟩ : ∃ i c, e = .call i c := by
      simpa only [Event.Quiet, not_forall, not_not] using hq
    obtain ⟨run, f, -, -, -, hacc, rfl⟩ := step_call h
    refine .inr ⟨i, c, f.vm, rfl, hacc, ?_⟩
    funext j
    by_cases hj : j = i
    · subst hj; simp
    · simp [hj]

/-- Once the system is stopped it stays so. -/
theorem stopped_step {e : Event n} (h : s.step a = some (e, s'))
    (hstop : s.shared.stopped = true) : s'.shared.stopped = true := by
  obtain ⟨-, -, hshared | hshared⟩ | ⟨i, c, v, -, hacc, -⟩ := step_records h
  · rw [hshared, hstop]
  · rw [hshared, abortSharedBuffer]
  · rw [hacc.stopped_eq, hstop]

/-- A VM that has failed stays where it is until it stops the system. -/
theorem failed_step {e : Event n} (h : s.step a = some (e, s'))
    (hfailed : (s.vms i).status = .returned false) :
    (s'.vms i).status = .returned false ∨ s'.shared.stopped = true := by
  have hother : ∀ {j : Fin (n + 1)}, (s.vms j).status ≠ .returned false → i ≠ j := by
    rintro j hj rfl
    exact hj hfailed
  obtain ⟨j, run, hpending, hrun⟩ | ⟨j, -, hst, -, rfl⟩ | ⟨j, -, hst, -, rfl⟩ |
    ⟨j, -, hst, -, rfl⟩ | ⟨j, -, -, -, rfl⟩ | ⟨-, -, rfl⟩ := step_cases h
  · have hj : i ≠ j := hother fun hst => not_pending_of_returned hst hpending
    left
    obtain ⟨f, c, -, -, -, -, rfl⟩ | ⟨-, -, rfl⟩ | ⟨-, -, rfl⟩ := execute_cases hrun
    · simpa only [Function.update_of_ne hj] using hfailed
    · rw [setStatus_of_ne _ _ hj, hfailed]
    · rw [setStatus_of_ne _ _ hj, hfailed]
  · exact .inl (by rw [setStatus_of_ne _ _ (hother (by simp [hst])), hfailed])
  · exact .inl (by rw [setStatus_of_ne _ _ (hother (by simp [hst])), hfailed])
  · exact .inl (by rw [setStatus_of_ne _ _ (hother (by simp [hst])), hfailed])
  · exact .inr rfl
  · exact .inr rfl

/-- A step touches only the VM whose thread takes it. -/
theorem vms_of_ne {e : Event n} (h : s.step a = some (e, s')) (hi : a.vm ≠ some i) :
    s'.vms i = s.vms i := by
  obtain ⟨j, run, hpending, hrun⟩ | ⟨j, rfl, -, -, rfl⟩ | ⟨j, rfl, -, -, rfl⟩ |
    ⟨j, rfl, -, -, rfl⟩ | ⟨j, rfl, -, -, rfl⟩ | ⟨rfl, -, rfl⟩ := step_cases h
  · have hj : i ≠ j := by
      rintro rfl
      exact hi (vm_of_pending hpending)
    obtain ⟨f, c, -, -, -, -, rfl⟩ | ⟨-, -, rfl⟩ | ⟨-, -, rfl⟩ := execute_cases hrun
    · exact Function.update_of_ne hj _ _
    · exact setStatus_of_ne _ _ hj
    · exact setStatus_of_ne _ _ hj
  · exact setStatus_of_ne _ _ (fun hij => hi (by rw [hij]; rfl))
  · exact setStatus_of_ne _ _ (fun hij => hi (by rw [hij]; rfl))
  · exact setStatus_of_ne _ _ (fun hij => hi (by rw [hij]; rfl))
  · exact setStatus_of_ne _ _ (fun hij => hi (by rw [hij]; rfl))
  · rfl

/-- An instruction of a running VM that can be handled now is a step. -/
theorem issue_call {command : PortCommand} (hrunning : (s.vms i).status = .running)
    (hout : ∃ f, s.handle i (command.exit .smallest) = .done true f) (hfits : command.Fits) :
    ∃ c σ v, c.command = command ∧ Accepts s.shared (s.vms i).context c σ v ∧
      s.step (.issue .smallest i command) =
        some (.call i c, ⟨σ, Function.update s.vms i ⟨v, .running⟩⟩) := by
  obtain ⟨f, hf⟩ := hout
  obtain ⟨c, hlabel, hacc, hexecute⟩ := execute_accepted hf
  exact ⟨c, f.state, f.vm, command_of_handle hfits hf hlabel, hacc,
    (step_exit hrunning _).trans (congrArg some hexecute)⟩

/-- A parked VM whose exit can be handled now wakes up. -/
theorem wake_call {handler : Handler} {data : ℕ} (hwaiting : (s.vms i).status = .waiting run)
    (hsel : selectHandler (s.vms i).context run = some (handler, data))
    (hout : ∃ f, s.handle i run = .done true f) :
    ∃ c σ v, c.handler = handler ∧ Accepts s.shared (s.vms i).context c σ v ∧
      s.step (.wake i) = some (.call i c, ⟨σ, Function.update s.vms i ⟨v, .running⟩⟩) := by
  obtain ⟨f, hf⟩ := hout
  obtain ⟨c, hlabel, hacc, hexecute⟩ := execute_accepted hf
  obtain ⟨data', hsel', -⟩ := exitLabel_eq_some hlabel
  rw [hsel] at hsel'
  cases hsel'
  exact ⟨c, f.state, f.vm, rfl, hacc, (step_wake hwaiting hf).trans (congrArg some hexecute)⟩

end System

end KvmHypervisor
