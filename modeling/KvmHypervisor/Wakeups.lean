import KvmHypervisor.Stopping

/-!
# Wake-ups

`hypervisor n` lets a parked thread go on as soon as the predicate of its wait holds. The
monitor of `shared_buffer.cpp` does not: a thread that finds its predicate false sleeps on
the condition variable and looks again only after a `notify_all`. `Monitor n` adds, for
each thread, whether it has been notified since it last evaluated its predicate. Every
step is one critical section, from taking the mutex to releasing it or parking, so no
thread holds the mutex between two steps.

A call that does not notify leaves the record alone, starts a round of at least one byte,
or consumes a byte that is not the last one (`call_unnotified`), and none of these makes a
predicate true. Hence no wake-up is lost, and the monitor can do whatever the hypervisor
can.

## Main results

* `no_lost_wakeup`: in every reachable state the predicate of every parked thread that has
  not been notified is false.
* `Monitor.run_system`: a run of the monitor is a run of the hypervisor, up to threads that
  look again and park again.
* `wake_of_system`: a thread the hypervisor can wake has been notified.
-/

open Transitions

namespace KvmHypervisor

variable {n : ℕ}

/-! ### The predicates -/

/-- The predicate a handler passes to `condition.wait`, evaluated by a VM whose record is
`v`; `true` for the handlers that do not wait. -/
def waitPredicate (handler : Handler) (σ : SharedBufferState) (v : SharedBufferVmState) : Bool :=
  match handler with
  | .beginWriterRound => σ.stopped || !σ.roundInProgress
  | .finishWriterRound =>
    σ.stopped || (σ.dataReady && decide (σ.generation = v.writeGeneration) &&
      decide (σ.completedReaders = σ.readerCount))
  | .beginReaderRound =>
    σ.stopped || (σ.dataReady && decide (σ.generation > v.lastReadGeneration))
  | _ => true

/-- What a handler tests before it reaches its wait, all of it private to the VM. -/
def Handler.reachesWait (handler : Handler) (v : SharedBufferVmState) : Bool :=
  match handler with
  | .beginWriterRound => true
  | .finishWriterRound => decide (v.writeGeneration ≠ 0)
  | .beginReaderRound =>
    !(decide (v.activeReadGeneration > v.lastReadGeneration) && !v.readCompleted)
  | _ => false

/-- **A call parks** exactly when it reaches its wait and the predicate is false. -/
theorem handle_wait_iff {σ : SharedBufferState} {v : SharedBufferVmState} {run : KvmRun} :
    handleSharedBufferIo σ v run = .wait ↔ ∃ handler data,
      selectHandler v run = some (handler, data) ∧ handler.reachesWait v = true ∧
        waitPredicate handler σ v = false := by
  unfold handleSharedBufferIo
  cases hsel : selectHandler v run with
  | none => simp
  | some pair =>
      obtain ⟨handler, data⟩ := pair
      simp only [Option.some.injEq, Prod.mk.injEq]
      constructor
      · intro h
        refine ⟨handler, data, ⟨rfl, rfl⟩, ?_⟩
        obtain ⟨hstop, hwaits⟩ := call_wait h
        have hstop : σ.stopped = false := hstop
        cases handler with
        | beginWriterRound =>
            simp only [Handler.WaitsIn] at hwaits
            simp [waitPredicate, Handler.reachesWait, hstop, hwaits]
        | finishWriterRound =>
            simp only [Handler.WaitsIn] at hwaits
            simp only [waitPredicate, Handler.reachesWait]
            grind
        | beginReaderRound =>
            simp only [Handler.WaitsIn] at hwaits
            simp only [waitPredicate, Handler.reachesWait]
            grind
        | _ => exact hwaits.elim
      · rintro ⟨handler', data', ⟨rfl, rfl⟩, hreaches, hfalse⟩
        cases handler with
        | beginWriterRound =>
            simp only [waitPredicate, Bool.or_eq_false_iff] at hfalse
            simp [Handler.call, beginWriterRound, hfalse.1]
            simpa using hfalse.2
        | finishWriterRound =>
            simp only [waitPredicate, Handler.reachesWait] at hfalse hreaches
            simp only [Handler.call, finishWriterRound]
            grind
        | beginReaderRound =>
            simp only [waitPredicate, Handler.reachesWait] at hfalse hreaches
            simp only [Handler.call, beginReaderRound]
            grind
        | _ => simp [Handler.reachesWait] at hreaches

section Notification

variable {f f' : Frame} {io : KvmIo} {data : ℕ} {result : Bool}

/-- **What a call that does not notify leaves behind**: the record as it was, a round of at
least one byte just started, or one byte more that is not the last one. -/
theorem call_unnotified {handler : Handler} (h : handler.call io f data = .done result f')
    (hafter : f'.notified = false) :
    f'.state = f.state ∨ (∃ m, f'.state = f.state.startRound m) ∨
      ∃ b, f'.state = f.state.receive b := by
  cases handler with
  | deliverMode =>
      simp only [Handler.call, deliverMode] at h
      split_ifs at h <;> cases h <;> exact .inl rfl
  | beginWriterRound =>
      simp only [Handler.call, beginWriterRound] at h
      split_ifs at h <;> cases h
      · exact .inl rfl
      · cases hafter
      · exact .inr (.inl ⟨_, rfl⟩)
  | writeSharedByte =>
      simp only [Handler.call, writeSharedByte] at h
      by_cases hguard : f.state.stopped ∨ ¬f.state.roundInProgress ∨ f.state.dataReady ∨
          f.state.receivedBytes ≥ f.state.expectedBytes
      · rw [if_pos hguard] at h
        cases h
        exact .inl rfl
      · rw [if_neg hguard] at h
        by_cases hlast : f.state.receivedBytes + 1 = f.state.expectedBytes
        · rw [if_pos hlast] at h
          cases h
          cases hafter
        · rw [if_neg hlast] at h
          cases h
          exact .inr (.inr ⟨f.bytes data, rfl⟩)
  | finishWriterRound =>
      simp only [Handler.call, finishWriterRound] at h
      split_ifs at h <;> cases h
      · exact .inl rfl
      · exact .inl rfl
      · cases hafter
  | beginReaderRound =>
      simp only [Handler.call, beginReaderRound] at h
      split_ifs at h <;> cases h <;> exact .inl rfl
  | readSharedByte =>
      simp only [Handler.call, readSharedByte] at h
      split_ifs at h <;> cases h <;> exact .inl rfl
  | finishReaderRound =>
      simp only [Handler.call, finishReaderRound] at h
      split_ifs at h <;> cases h
      · exact .inl rfl
      · cases hafter

/-- **A call that does not notify makes no predicate true**, of whatever thread. -/
theorem waitPredicate_unnotified {σ : SharedBufferState} {v w : SharedBufferVmState}
    {run : KvmRun} {handler : Handler}
    (h : handleSharedBufferIo σ v run = .done result f') (hn : f'.notified = false)
    (hfalse : waitPredicate handler σ w = false) : waitPredicate handler f'.state w = false := by
  have hstate : f'.state = σ ∨ (∃ m, f'.state = σ.startRound m) ∨
      ∃ b, f'.state = σ.receive b := by
    obtain ⟨-, hcall⟩ | ⟨handler', data, -, hcall⟩ := handleSharedBufferIo_cases σ v run
    · rw [hcall] at h
      cases h
      exact .inl rfl
    · rw [hcall] at h
      exact call_unnotified h hn
  rcases hstate with heq | ⟨m, heq⟩ | ⟨b, heq⟩
  · rw [heq, hfalse]
  · rw [heq]
    cases handler <;> simp_all [waitPredicate]
  · rw [heq]
    cases handler <;> simp_all [waitPredicate]

end Notification

/-! ### The monitor -/

/-- The hypervisor with, for each thread, whether it has been notified since it last
evaluated the predicate of its wait. -/
structure Monitor (n : ℕ) where
  system : System n
  notified : Fin (n + 1) → Bool

/-- The call has run `notify_all`. -/
def Outcome.notifies : Outcome → Bool
  | .wait => false
  | .done _ f => f.notified

namespace Monitor

/-- `main` before it creates the threads. -/
def initial (n : ℕ) : Monitor n where
  system := .initial n
  notified _ := false

/-- `notify_all`. -/
def notifyAll (m : Monitor n) : Monitor n :=
  { m with notified := fun _ => true }

/-- VM `i` evaluates its predicate and runs the handler for `run` as far as it gets: its own
notification is used up, and everybody is notified if the handler says so. -/
def execute (m : Monitor n) (i : Fin (n + 1)) (run : KvmRun) : Event n × Monitor n :=
  let p := m.system.execute i run
  let m' : Monitor n := { system := p.2, notified := Function.update m.notified i false }
  (p.1, if (m.system.handle i run).notifies then m'.notifyAll else m')

/-- One critical section, or one move of a thread outside the monitor. A parked thread moves
only if it has been notified. -/
def step (m : Monitor n) (a : Action n) : Option (Event n × Monitor n) :=
  match a with
  | .exit i run =>
    match (m.system.vms i).status with
    | .running => some (m.execute i run)
    | _ => none
  | .wake i =>
    match (m.system.vms i).status with
    | .waiting run => if m.notified i then some (m.execute i run) else none
    | _ => none
  | .halt _ | .fail _ => (m.system.step a).map fun p => (p.1, { m with system := p.2 })
  | .finish i =>
    match (m.system.vms i).status with
    | .returned true => (m.system.step a).map fun p => (p.1, { m with system := p.2 })
    | _ => (m.system.step a).map fun p => (p.1, { m with system := p.2 }.notifyAll)
  | .abort => (m.system.step a).map fun p => (p.1, { m with system := p.2 }.notifyAll)

end Monitor

/-- The monitor of one writer and `n` readers. -/
def monitor (n : ℕ) : Machine (Monitor n) (Action n) (Event n) where
  init := .initial n
  step := Monitor.step

namespace Monitor

variable {m m' : Monitor n} {a : Action n} {e : Event n} {i j : Fin (n + 1)}

/-- **What a step of the monitor can do**: a critical section of a handler, a step of the
hypervisor that moves one thread outside the monitor, or one that notifies everybody. -/
theorem step_cases (h : m.step a = some (e, m')) :
    (∃ i run, m.system.pending a = some (i, run) ∧ m.execute i run = (e, m')) ∨
    (m.system.step a = some (e, m'.system) ∧ m'.notified = m.notified ∧
      ∃ i st, (∀ run, st ≠ .waiting run) ∧ m'.system = m.system.setStatus i st) ∨
    (m.system.step a = some (e, m'.system) ∧ ∀ j, m'.notified j = true) := by
  cases a with
  | exit i run =>
      cases hst : (m.system.vms i).status <;> simp only [step, hst, reduceCtorEq] at h
      exact .inl ⟨i, run, System.pending_exit hst run, Option.some.inj h⟩
  | wake i =>
      cases hst : (m.system.vms i).status with
      | waiting run =>
          simp only [step, hst] at h
          split at h
          · exact .inl ⟨i, run, System.pending_wake hst, Option.some.inj h⟩
          · cases h
      | _ => simp only [step, hst, reduceCtorEq] at h
  | halt i =>
      obtain ⟨⟨e', s'⟩, hs, heq⟩ := Option.map_eq_some_iff.mp h
      cases heq
      refine .inr (.inl ⟨hs, rfl, i, ?_⟩)
      cases hst : (m.system.vms i).status <;> simp only [System.step, hst, reduceCtorEq] at hs
      cases hs
      exact ⟨_, fun run => ThreadStatus.noConfusion, rfl⟩
  | fail i =>
      obtain ⟨⟨e', s'⟩, hs, heq⟩ := Option.map_eq_some_iff.mp h
      cases heq
      refine .inr (.inl ⟨hs, rfl, i, ?_⟩)
      cases hst : (m.system.vms i).status <;> simp only [System.step, hst, reduceCtorEq] at hs
      cases hs
      exact ⟨_, fun run => ThreadStatus.noConfusion, rfl⟩
  | finish i =>
      by_cases hst : (m.system.vms i).status = .returned true
      · simp only [step, hst] at h
        obtain ⟨⟨e', s'⟩, hs, heq⟩ := Option.map_eq_some_iff.mp h
        cases heq
        refine .inr (.inl ⟨hs, rfl, i, ?_⟩)
        simp only [System.step, hst] at hs
        cases hs
        exact ⟨_, fun run => ThreadStatus.noConfusion, rfl⟩
      · have h : (m.system.step (.finish i)).map
            (fun p => (p.1, { m with system := p.2 }.notifyAll)) = some (e, m') := by
          rw [step] at h
          split at h
          · contradiction
          · exact h
        obtain ⟨⟨e', s'⟩, hs, heq⟩ := Option.map_eq_some_iff.mp h
        cases heq
        exact .inr (.inr ⟨hs, fun _ => rfl⟩)
  | abort =>
      simp only [step] at h
      obtain ⟨⟨e', s'⟩, hs, heq⟩ := Option.map_eq_some_iff.mp h
      cases heq
      exact .inr (.inr ⟨hs, fun _ => rfl⟩)

/-! ### No lost wake-up -/

/-- A critical section that does not notify leaves every parked thread with a false predicate:
the calling VM parks only on one, and the call makes no other predicate true. -/
theorem wait_of_execute {s s' : System n} {run run' : KvmRun} (h : s.execute i run = (e, s'))
    (hquiet : (s.handle i run).notifies = false) (hwaiting : (s'.vms j).status = .waiting run')
    (hbefore : j ≠ i → (s.vms j).status = .waiting run' → s.handle j run' = .wait) :
    s'.handle j run' = .wait := by
  obtain ⟨f, c, hout, -, -, -, rfl⟩ | ⟨⟨f, -⟩, -, rfl⟩ | ⟨hout, -, rfl⟩ :=
    System.execute_cases h
  · by_cases hji : j = i
    · subst hji
      simp at hwaiting
    · simp only [Function.update_of_ne hji] at hwaiting
      obtain ⟨handler, data, hsel, hreaches, hfalse⟩ :=
        handle_wait_iff.mp (hbefore hji hwaiting)
      rw [hout] at hquiet
      refine handle_wait_iff.mpr ⟨handler, data, ?_, ?_, ?_⟩
      · simpa only [Function.update_of_ne hji] using hsel
      · simpa only [Function.update_of_ne hji] using hreaches
      · simpa only [Function.update_of_ne hji] using
          waitPredicate_unnotified hout hquiet hfalse
  · by_cases hji : j = i
    · subst hji
      simp at hwaiting
    · rw [System.setStatus_of_ne _ _ hji] at hwaiting
      simpa only [System.handle_setStatus] using hbefore hji hwaiting
  · by_cases hji : j = i
    · subst hji
      simp only [System.setStatus_status_self, ThreadStatus.waiting.injEq] at hwaiting
      subst hwaiting
      simpa only [System.handle_setStatus] using hout
    · rw [System.setStatus_of_ne _ _ hji] at hwaiting
      simpa only [System.handle_setStatus] using hbefore hji hwaiting

/-- Every parked thread that has not been notified would park again. -/
def NoLostWakeup (m : Monitor n) : Prop :=
  ∀ i run, (m.system.vms i).status = .waiting run → m.notified i = false →
    m.system.handle i run = .wait

/-- **Every step keeps the property.** -/
theorem NoLostWakeup.step (hm : NoLostWakeup m) (h : m.step a = some (e, m')) :
    NoLostWakeup m' := by
  intro j run' hwaiting hnot
  obtain ⟨i, run, -, hrun⟩ | ⟨-, hsame, i, st, hst, hsystem⟩ | ⟨-, hall⟩ := step_cases h
  · simp only [execute, Prod.mk.injEq] at hrun
    obtain ⟨-, rfl⟩ := hrun
    cases hquiet : (m.system.handle i run).notifies with
    | true => simp [hquiet, notifyAll] at hnot
    | false =>
        simp only [hquiet, Bool.false_eq_true, if_false] at hwaiting hnot ⊢
        refine wait_of_execute rfl hquiet hwaiting fun hji hbefore => hm j run' hbefore ?_
        rwa [Function.update_of_ne hji] at hnot
  · rw [hsame] at hnot
    rw [hsystem] at hwaiting ⊢
    by_cases hji : j = i
    · subst hji
      rw [System.setStatus_status_self] at hwaiting
      exact absurd hwaiting (hst run')
    · rw [System.setStatus_of_ne _ _ hji] at hwaiting
      simpa only [System.handle_setStatus] using hm j run' hwaiting hnot
  · rw [hall j] at hnot
    cases hnot

/-- The property holds in every run. -/
theorem noLostWakeup_of_run {ok : Monitor n → Action n → Prop} {tr : List (Event n)}
    (hrun : (monitor n).Run ok tr m) : NoLostWakeup m := by
  refine hrun.invariant (I := fun _ m => NoLostWakeup m) ?_ ?_
  · intro i run hwaiting
    cases hwaiting
  · intro tr m a e m' hm _ hs
    exact hm.step hs

/-! ### The monitor and the hypervisor -/

/-- A step of the monitor is a step of the hypervisor, or a thread that looks again and parks
again. -/
theorem step_system (h : m.step a = some (e, m')) :
    m.system.step a = some (e, m'.system) ∨ ∃ i, a = .wake i ∧ m'.system = m.system := by
  obtain ⟨i, run, hpending, hrun⟩ | ⟨hs, -⟩ | ⟨hs, -⟩ := step_cases h
  · have hexec : m.system.execute i run = (e, m'.system) := by
      simp only [execute, Prod.mk.injEq] at hrun
      obtain ⟨rfl, rfl⟩ := hrun
      split <;> rfl
    cases a with
    | exit j run' =>
        cases hst : (m.system.vms j).status <;>
          simp only [System.pending, hst, reduceCtorEq, Option.some.injEq, Prod.mk.injEq]
            at hpending
        obtain ⟨rfl, rfl⟩ := hpending
        exact .inl (by rw [System.step_exit hst, hexec])
    | wake j =>
        cases hst : (m.system.vms j).status with
        | waiting run' =>
            simp only [System.pending, hst, Option.some.injEq, Prod.mk.injEq] at hpending
            obtain ⟨rfl, rfl⟩ := hpending
            cases hout : m.system.handle j run' with
            | done result f => exact .inl (by rw [System.step_wake hst hout, hexec])
            | wait =>
                refine .inr ⟨j, rfl, ?_⟩
                rw [System.execute_wait hout] at hexec
                obtain ⟨-, hsystem⟩ := Prod.mk.inj hexec
                rw [← hsystem, ← hst, System.setStatus, Function.update_eq_self]
        | _ => simp [System.pending, hst] at hpending
    | _ => cases hpending
  · exact .inl hs
  · exact .inl hs

/-- **A run of the monitor is a run of the hypervisor**, up to threads that park again. -/
theorem run_system {ok : Monitor n → Action n → Prop} {tr : List (Event n)}
    (hrun : (monitor n).Run ok tr m) :
    ∃ tr', (hypervisor n).Run (fun _ _ => True) tr' m.system := by
  refine hrun.invariant (I := fun _ m =>
    ∃ tr', (hypervisor n).Run (fun _ _ => True) tr' m.system) ?_ ?_
  · exact ⟨[], .refl⟩
  · rintro tr m a e m' ⟨tr', hrun'⟩ - hs
    obtain hs' | ⟨i, -, hsame⟩ := step_system hs
    · exact ⟨_, hrun'.step trivial hs'⟩
    · exact ⟨tr', by rwa [hsame]⟩

/-- **A thread the hypervisor can wake has been notified**, so the monitor can wake it too. -/
theorem wake_of_system {ok : Monitor n → Action n → Prop} {tr : List (Event n)}
    (hrun : (monitor n).Run ok tr m) {s : System n}
    (hs : m.system.step (.wake i) = some (e, s)) :
    ∃ m', m.step (.wake i) = some (e, m') ∧ m'.system = s := by
  cases hst : (m.system.vms i).status with
  | waiting run =>
      simp only [System.step, hst] at hs
      cases hout : m.system.handle i run with
      | wait => simp [hout] at hs
      | done result f =>
          rw [hout, Option.some.injEq] at hs
          cases hn : m.notified i with
          | false =>
              rw [noLostWakeup_of_run hrun i run hst hn] at hout
              cases hout
          | true =>
              have he : (m.execute i run).1 = e := congrArg Prod.fst hs
              have hsystem : (m.execute i run).2.system = s := by
                refine Eq.trans ?_ (congrArg Prod.snd hs)
                rw [execute]
                dsimp only
                split <;> rfl
              refine ⟨(m.execute i run).2, ?_, hsystem⟩
              simp only [Monitor.step, hst, hn, if_true, ← he]
  | _ => simp [System.step, hst] at hs

end Monitor

/-- **No wake-up is lost**: between two critical sections, in every run, with aborts at any
time, the predicate of every parked thread that has not been notified since it last evaluated
it is false. -/
theorem no_lost_wakeup {tr : List (Event n)} {m : Monitor n} {i : Fin (n + 1)} {run : KvmRun}
    (hrun : (monitor n).Run (fun _ _ => True) tr m)
    (hwaiting : (m.system.vms i).status = .waiting run) (hnot : m.notified i = false) :
    ∃ handler data, selectHandler (m.system.vms i).context run = some (handler, data) ∧
      handler.reachesWait (m.system.vms i).context = true ∧
      waitPredicate handler m.system.shared (m.system.vms i).context = false :=
  handle_wait_iff.mp (Monitor.noLostWakeup_of_run hrun i run hwaiting hnot)

/-- The reader of `oneByteRound` begins its round before the writer has sent its byte, and
sleeps. -/
def readerSleeps : List (Action 1) :=
  oneByteRound.take 3 ++ [.issue .smallest readerVm (.inl 0x510)]

/-- Its predicate is false, while it has not been notified. -/
theorem no_lost_wakeup_readerSleeps : ∃ (tr : List (Event 1)) (m : Monitor 1) (run : KvmRun),
    (monitor 1).Run (fun _ _ => True) tr m ∧ (m.system.vms 1).status = .waiting run ∧
      m.notified 1 = false ∧
      ∃ handler data, selectHandler (m.system.vms 1).context run = some (handler, data) ∧
        handler.reachesWait (m.system.vms 1).context = true ∧
        waitPredicate handler m.system.shared (m.system.vms 1).context = false := by
  have hexec : ((monitor 1).exec (fun _ _ => True) (monitor 1).init readerSleeps).map
      (fun p => ((p.2.system.pending (.wake 1)).isSome, p.2.notified 1)) = some (true, false) := by
    decide
  obtain ⟨tr, m, hrun, hobs⟩ := Machine.exists_of_exec hexec
  obtain ⟨hpending, hnot⟩ := Prod.mk.inj hobs
  obtain ⟨run, hwaiting⟩ : ∃ run, (m.system.vms 1).status = .waiting run := by
    cases hst : (m.system.vms 1).status <;> simp [System.pending, hst] at hpending ⊢
  exact ⟨tr, m, run, hrun, hwaiting, hnot, no_lost_wakeup hrun hwaiting hnot⟩

end KvmHypervisor
