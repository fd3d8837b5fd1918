import KvmHypervisor.Acknowledgments

/-!
# Rejection and Abort

A handler that returns `false` has changed nothing, and `stopped` is never reset. Once
`abortSharedBuffer` has run, no handler waits and none but `deliverMode` succeeds, so the
shared record stays as the abort left it, and a VM that has not completed a transfer never
will.

A thread parks only after its VM has received its mode (`ParkedInv`), and leaves its loop
with success only after completing a transfer (`SuccessInv`); both hold in every run.

## Main results

* `handle_stopped`: in a stopped state an exit is either a first mode delivery or rejected.
* `Final.step`: what an abort has settled stays settled.
* `rejection_atomic_abort_final`: the two halves for every state, run, and continuation.
-/

open Transitions

namespace KvmHypervisor

variable {n : ℕ}

/-! ### Handlers in a stopped state -/

section Stopped

variable {σ : SharedBufferState} {v : SharedBufferVmState} {run : KvmRun}

/-- No handler waits once the state is stopped. -/
theorem handle_not_wait (hstop : σ.stopped = true) : handleSharedBufferIo σ v run ≠ .wait := by
  intro h
  obtain ⟨-, -, -, hrunning, -⟩ := handle_wait h
  rw [hstop] at hrunning
  cases hrunning

/-- A call that is accepted in a stopped state delivers the mode, for the first time. -/
theorem Accepts.of_stopped {σ' : SharedBufferState} {v' : SharedBufferVmState} {c : Call}
    (h : Accepts σ v c σ' v') (hstop : σ.stopped = true) :
    v.modeDelivered = false ∧ c = .deliverMode v.mode ∧ σ' = σ ∧
      v' = { v with modeDelivered := true } := by
  cases h with
  | deliverMode hd => exact ⟨hd, rfl, rfl, rfl⟩
  | beginWriterRound _ _ hs | beginEmptyRound _ _ hs | writeSharedByte _ _ hs
  | writeLastByte _ _ hs | finishWriterRound _ _ hs | beginReaderRound _ _ hs
  | readSharedByte _ _ hs | finishReaderRound _ _ hs =>
      rw [hstop] at hs
      cases hs

variable (v run) in
/-- **In a stopped state every exit is rejected**, except for a first mode delivery. -/
theorem handle_stopped (hstop : σ.stopped = true) :
    (∃ f, handleSharedBufferIo σ v run = .done false f) ∨
      (v.modeDelivered = false ∧
        ∃ f, handleSharedBufferIo σ v run = .done true f ∧
          exitLabel σ v run f = some (.deliverMode v.mode)) := by
  cases hout : handleSharedBufferIo σ v run with
  | wait => exact absurd hout (handle_not_wait hstop)
  | done result f =>
      cases result with
      | false => exact .inl ⟨f, rfl⟩
      | true =>
          obtain ⟨c, hc, hacc⟩ := handle_accepted hout
          obtain ⟨hd, rfl, -, -⟩ := hacc.of_stopped hstop
          exact .inr ⟨hd, f, rfl, hc⟩

end Stopped

/-! ### Parked and successful threads -/

/-- A VM whose thread is parked has received its mode. -/
def ParkedInv (s : System n) : Prop :=
  ∀ i run, (s.vms i).status = .waiting run → (s.vms i).context.modeDelivered = true

/-- A VM that has returned success has completed a transfer. -/
def SuccessInv (s : System n) : Prop :=
  ∀ i, (s.vms i).status = .returned true ∨ (s.vms i).status = .finished true →
    (s.vms i).context.transferCompleted = true

section Steps

variable {s s' : System n} {a : Action n} {e : Event n}

/-- Only the three handlers that run after mode delivery park. -/
theorem delivered_of_wait {i : Fin (n + 1)} {run : KvmRun} (h : s.handle i run = .wait) :
    (s.vms i).context.modeDelivered = true := by
  obtain ⟨handler, data, hsel, -, hwaits⟩ := handle_wait h
  have hpermitted := selectHandler_permitted hsel
  cases handler with
  | beginWriterRound | finishWriterRound | beginReaderRound => exact hpermitted.1
  | _ => exact hwaits.elim

/-- Both invariants follow a move of one thread that meets them. -/
theorem parked_success_setStatus {i : Fin (n + 1)} {status : ThreadStatus}
    (hP : ParkedInv s) (hS : SuccessInv s) (σ : SharedBufferState)
    (hparked : ∀ run, status = .waiting run → (s.vms i).context.modeDelivered = true)
    (hsuccess : status = .returned true ∨ status = .finished true →
      (s.vms i).context.transferCompleted = true) :
    ParkedInv { s.setStatus i status with shared := σ } ∧
      SuccessInv { s.setStatus i status with shared := σ } := by
  constructor
  · intro j run hj
    by_cases hji : j = i
    · subst hji
      simp only [System.setStatus_status_self] at hj
      simpa using hparked run hj
    · simp only [System.setStatus_of_ne _ _ hji] at hj ⊢
      exact hP j run hj
  · intro j hj
    by_cases hji : j = i
    · subst hji
      simp only [System.setStatus_status_self] at hj
      simpa using hsuccess hj
    · simp only [System.setStatus_of_ne _ _ hji] at hj ⊢
      exact hS j hj

/-- **Every step keeps both invariants.** -/
theorem parked_success_step (hP : ParkedInv s) (hS : SuccessInv s)
    (hs : s.step a = some (e, s')) : ParkedInv s' ∧ SuccessInv s' := by
  obtain ⟨i, run, -, hrun⟩ | ⟨i, -, -, -, rfl⟩ | ⟨i, -, -, -, rfl⟩ | ⟨i, -, hst, -, rfl⟩ |
    ⟨i, -, -, -, rfl⟩ | ⟨-, -, rfl⟩ := System.step_cases hs
  · obtain ⟨f, c, -, -, -, -, rfl⟩ | ⟨-, -, rfl⟩ | ⟨hout, -, rfl⟩ := System.execute_cases hrun
    · constructor
      · intro j run hj
        by_cases hji : j = i
        · subst hji
          simp at hj
        · simp only [Function.update_of_ne hji] at hj ⊢
          exact hP j run hj
      · intro j hj
        by_cases hji : j = i
        · subst hji
          simp at hj
        · simp only [Function.update_of_ne hji] at hj ⊢
          exact hS j hj
    · exact parked_success_setStatus hP hS _ (fun _ h => by cases h) (fun h => by simp at h)
    · exact parked_success_setStatus hP hS _ (fun _ _ => delivered_of_wait hout)
        (fun h => by simp at h)
  · exact parked_success_setStatus hP hS _ (fun _ h => by cases h) (fun h => by simpa using h)
  · exact parked_success_setStatus hP hS _ (fun _ h => by cases h) (fun h => by simp at h)
  · exact parked_success_setStatus hP hS _ (fun _ h => by cases h) (fun _ => hS i (.inl hst))
  · exact parked_success_setStatus hP hS _ (fun _ h => by cases h) (fun h => by simp at h)
  · exact ⟨hP, hS⟩

/-- Both invariants hold in every run. -/
theorem parked_success_of_run {ok : System n → Action n → Prop} {tr : List (Event n)}
    (hrun : (hypervisor n).Run ok tr s) : ParkedInv s ∧ SuccessInv s := by
  refine hrun.invariant (I := fun _ s => ParkedInv s ∧ SuccessInv s) ?_ ?_
  · constructor
    · intro i run h
      cases h
    · intro i h
      rcases h with h | h <;> cases h
  · intro tr t a e u hI _ hs
    exact parked_success_step hI.1 hI.2 hs

end Steps

/-! ### Finality -/

/-- What holds in `t`, some time after the state `s` in which `abortSharedBuffer` had
run. -/
structure Final (s t : System n) : Prop where
  stopped : t.shared.stopped = true
  shared : t.shared = s.shared
  neverBlocks : ∀ i run, t.handle i run ≠ .wait
  wakes : ∀ i run, (t.vms i).status = .waiting run →
    t.step (.wake i) = some (.reject i, t.setStatus i (.returned false))
  rejects : ∀ i run, (∃ f, t.handle i run = .done false f) ∨
    ((t.vms i).context.modeDelivered = false ∧
      ∃ f, t.handle i run = .done true f ∧
        exitLabel t.shared (t.vms i).context run f = some (.deliverMode (t.vms i).context.mode))
  transfers : ∀ i, (t.vms i).context.transferCompleted = (s.vms i).context.transferCompleted
  failure : ∀ i, (s.vms i).context.transferCompleted = false →
    (t.vms i).status ≠ .returned true ∧ (t.vms i).status ≠ .finished true

section Finality

variable {s t u : System n} {a : Action n} {e : Event n}

/-- A stopped state whose shared record and completed transfers are those of `s` is
final. -/
theorem Final.of_stopped (hstop : t.shared.stopped = true) (hP : ParkedInv t)
    (hS : SuccessInv t) (hshared : t.shared = s.shared)
    (htransfers : ∀ i, (t.vms i).context.transferCompleted =
      (s.vms i).context.transferCompleted) : Final s t where
  stopped := hstop
  shared := hshared
  neverBlocks := fun _ _ => handle_not_wait hstop
  wakes := by
    intro i run hwaiting
    obtain ⟨f, hout⟩ | ⟨hd, -⟩ := handle_stopped (t.vms i).context run hstop
    · exact (System.step_wake hwaiting hout).trans (congrArg some (System.execute_rejected hout))
    · rw [hP i run hwaiting] at hd
      cases hd
  rejects := fun i run => handle_stopped (t.vms i).context run hstop
  transfers := htransfers
  failure := by
    intro i hi
    have hnot : (t.vms i).context.transferCompleted ≠ true := by
      rw [htransfers i, hi]
      exact Bool.false_ne_true
    exact ⟨fun h => hnot (hS i (.inl h)), fun h => hnot (hS i (.inr h))⟩

/-- **What an abort has settled stays settled.** -/
theorem Final.step (hF : Final s t) (hP : ParkedInv t) (hS : SuccessInv t)
    (hs : t.step a = some (e, u)) : Final s u := by
  obtain ⟨hP', hS'⟩ := parked_success_step hP hS hs
  have habort : abortSharedBuffer t.shared = t.shared := by
    rw [abortSharedBuffer, ← hF.stopped]
  obtain ⟨-, hctx, hshared⟩ | ⟨i, c, v, -, hacc, hctx⟩ := System.step_records hs
  · have hsame : u.shared = t.shared := by
      rcases hshared with h | h
      · exact h
      · rw [h, habort]
    refine .of_stopped (by rw [hsame, hF.stopped]) hP' hS' (hsame.trans hF.shared) fun j => ?_
    rw [hctx, hF.transfers]
  · obtain ⟨-, -, hsame, rfl⟩ := hacc.of_stopped hF.stopped
    refine .of_stopped (by rw [hsame, hF.stopped]) hP' hS' (hsame.trans hF.shared) fun j => ?_
    rw [show (u.vms j).context = _ from congrFun hctx j, ← hF.transfers j]
    by_cases hji : j = i
    · subst hji
      rw [Function.update_self]
    · rw [Function.update_of_ne hji]

/-- **Rejection is atomic and abort is final.** A handler that returns `false`, in any state,
has changed neither record nor the exit's data; and once `abortSharedBuffer` has run, in any
run, every continuation stays final. -/
theorem rejection_atomic_abort_final :
    (∀ (σ : SharedBufferState) (v : SharedBufferVmState) (run : KvmRun) (f : Frame),
      handleSharedBufferIo σ v run = .done false f →
        f.state = σ ∧ f.vm = v ∧ f.bytes = run.bytes) ∧
    (∀ (n : ℕ) (tr tr' : List (Event n)) (s t : System n),
      (hypervisor n).Run (fun _ _ => True) tr s → s.shared.stopped = true →
      (hypervisor n).Path (fun _ _ => True) s tr' t → Final s t) := by
  constructor
  · intro σ v run f h
    obtain ⟨hstate, hvm, hbytes, -⟩ := handle_rejected h
    exact ⟨hstate, hvm, hbytes⟩
  · intro n tr tr' s t hrun hstop hpath
    suffices hI : Final s t ∧ ParkedInv t ∧ SuccessInv t from hI.1
    obtain ⟨hP, hS⟩ := parked_success_of_run hrun
    refine hpath.invariant (I := fun t => Final s t ∧ ParkedInv t ∧ SuccessInv t) ?_ ?_
    · exact ⟨.of_stopped hstop hP hS rfl fun _ => rfl, hP, hS⟩
    · rintro t a e u ⟨hF, hP, hS⟩ - hs
      exact ⟨hF.step hP hS hs, parked_success_step hP hS hs⟩

end Finality

/-- A reader waits for the first round when the writer fails. -/
def writerFails : List (Action 1) :=
  [.issue .smallest readerVm (.inb 0x510), .issue .smallest readerVm (.inl 0x510),
    .fail writerVm, .finish writerVm]

/-- The state after that failure is final: the parked reader wakes up, is rejected, and does
not return success. A status read without a published round is rejected and changes
nothing. -/
theorem rejection_atomic_abort_final_writerFails :
    (∃ f, handleSharedBufferIo (.initial 1) { SharedBufferVmState.initial vmModeWriter with
        modeDelivered := true } ((PortCommand.inl 0x520).exit .smallest) = .done false f ∧
      f.state = .initial 1) ∧
    ∃ (tr : List (Event 1)) (s t : System 1),
      (hypervisor 1).Run (fun _ _ => True) tr s ∧ s.shared.stopped = true ∧
      (∃ run, (s.vms 1).status = .waiting run) ∧
      (hypervisor 1).Path (fun _ _ => True) s [.reject 1] t ∧ Final s t := by
  obtain ⟨hatomic, hfinal⟩ := rejection_atomic_abort_final
  constructor
  · obtain ⟨f, hf⟩ : ∃ f, handleSharedBufferIo (.initial 1)
        { SharedBufferVmState.initial vmModeWriter with modeDelivered := true }
        ((PortCommand.inl 0x520).exit .smallest) = .done false f := ⟨_, rfl⟩
    exact ⟨f, hf, (hatomic _ _ _ f hf).1⟩
  · have hexec : ((hypervisor 1).exec (fun _ _ => True) (hypervisor 1).init writerFails).map
        (fun p => (p.2.shared.stopped, (p.2.pending (.wake 1)).isSome)) = some (true, true) := by
      decide
    obtain ⟨tr, s, hrun, hobs⟩ := Machine.exists_of_exec hexec
    obtain ⟨hstop, hpending⟩ := Prod.mk.inj hobs
    obtain ⟨run, hwaiting⟩ : ∃ run, (s.vms 1).status = .waiting run := by
      cases hst : (s.vms 1).status <;> simp [System.pending, hst] at hpending ⊢
    have hwake : (hypervisor 1).step s (.wake 1) =
        some (.reject 1, s.setStatus 1 (.returned false)) :=
      (hfinal 1 tr [] s s hrun hstop .refl).wakes 1 run hwaiting
    have hpath : (hypervisor 1).Path (fun _ _ => True) s [.reject 1] _ := .single trivial hwake
    exact ⟨tr, s, _, hrun, hstop, ⟨run, hwaiting⟩, hpath, hfinal 1 tr _ s _ hrun hstop hpath⟩

end KvmHypervisor
