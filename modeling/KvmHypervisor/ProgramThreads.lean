import KvmHypervisor.LoopTasks
import KvmHypervisor.WholeProgram

/-!
# The Threads of the Program

What a thread of the whole program always is: its exit loop is before its first exit until the
set-up is over, a parked thread has an exit of the shared-buffer ports to handle, and what
`runVirtualMachine` returns is what its loop has returned, or `false` when the set-up fails.

## Main results

* `WholeProgram.coherent_of_run`: every thread is coherent in every run.
-/

open Transitions

namespace KvmHypervisor

open PosixFiles

/-- The result `runVirtualMachine` is going to return, once `vm_destroy` has begun. -/
def Stage.result : Stage → Option Bool
  | .unmapRun success | .unmapMem success | .closeVcpu success | .closeVm success
  | .closeKvm success | .returned success => some success
  | _ => none

namespace VmLife

variable {v v' : VmLife} {pageSize : ℕ} {e : LifeEvent} {answer : KernelAnswer}

/-- The end of the loop is the only thing the loop waits for. -/
theorem step_loop (hloop : v.stage = .loop) {success : Bool}
    (h : v.step pageSize (.loopReturned success) = some (e, v')) :
    v' = { v with stage := .unmapRun success } := by
  simp only [step, hloop, Option.some.injEq] at h
  exact (Prod.mk.inj h).2.symm

/-- Releasing a resource changes the stage as it says. -/
theorem stage_release (v : VmLife) (k : VmSlot) (stage : Stage) :
    (v.release k stage).2.stage = stage := by
  rw [release]
  cases v.handles k <;> rfl

/-- **The result outside the loop** stays, or the set-up has failed. -/
theorem result_step (hloop : v.stage ≠ .loop) (h : Advance pageSize v e v') :
    v'.stage.result = v.stage.result ∨
      (v.stage.result = none ∧ v'.stage.result = some false) := by
  cases h with
  | acquire number hk =>
      left
      cases hstage : v.stage <;>
        simp only [hstage, Stage.acquires, reduceCtorEq, Option.some.injEq, Prod.mk.injEq] at hk
      all_goals
        obtain ⟨rfl, rfl⟩ := hk
        rfl
  | @release k stage hk =>
      left
      rw [stage_release]
      cases hstage : v.stage with
      | closeImage loaded =>
          cases loaded <;>
            simp only [hstage, Stage.releases, Option.some.injEq, Prod.mk.injEq] at hk
          all_goals
            obtain ⟨rfl, rfl⟩ := hk
            rfl
      | _ =>
          simp only [hstage, Stage.releases, reduceCtorEq, Option.some.injEq, Prod.mk.injEq] at hk
          try
            obtain ⟨rfl, rfl⟩ := hk
            rfl
  | fail hstage =>
      left
      cases hv : v.stage <;> simp only [hv, Stage.configuring, reduceCtorEq] at hstage <;> rfl
  | failLoading hstage =>
      left
      cases hv : v.stage <;> simp only [hv, Stage.loading, reduceCtorEq] at hstage <;> rfl
  | loop success hstage => exact absurd hstage hloop
  | reported hstage => exact .inr ⟨by rw [hstage]; rfl, rfl⟩
  | getApiVersion hstage | setUserMemoryRegion hstage | getVcpuMmapSize hstage
  | failMmapSize hstage | getSregs sregs hstage | setSregs hstage | seekImage hstage
  | tellImage hstage | readImage hstage | reportImage hstage | setRegs hstage | report hstage =>
      left
      rw [hstage]
      rfl

end VmLife

namespace GuestThread

/-- What a thread always is. -/
structure Coherent (config : Config) (t : GuestThread) : Prop where
  orderly : t.loop.Orderly
  silent : t.loop.Silent
  transferCompleted : t.loop.transferCompleted = t.sharedBuffer.transferCompleted
  waiting : t.waiting = true → t.stage = .runVirtualMachine ∧ t.life.stage = .loop ∧
    t.loop.result = none ∧ t.loop.tasks = [.handleSharedBufferIo]
  entry : t.life.stage.result = none → t.life.stage ≠ .loop → t.loop = .initial
  success : t.life.stage.result = some true → t.loop.result = some true
  notCreated : t.stage = .notCreated → t.life = .initial config
  returned : t.stage ≠ .notCreated → t.stage ≠ .runVirtualMachine →
    t.life.stage = .returned t.completedSuccessfully
  aborting : t.stage = .abortSharedBuffer → t.completedSuccessfully = false

/-- The thread is in its exit loop and may be writing a line. -/
def Printing (t : GuestThread) : Prop :=
  t.stage = .runVirtualMachine ∧ t.life.stage = .loop ∧ t.waiting = false

variable {config : Config} {t : GuestThread}

theorem coherent_initial {n : ℕ} (config : Config) (i : Fin (n + 1)) :
    Coherent config (.initial config i) where
  orderly := LoopVm.orderly_initial
  silent := LoopVm.silent_initial
  transferCompleted := rfl
  waiting h := by cases h
  entry _ _ := rfl
  success h := by cases h
  notCreated _ := rfl
  returned h := absurd rfl h
  aborting h := by cases h

/-- A new thread. -/
theorem Coherent.create (ht : Coherent config t) (hstage : t.stage = .notCreated) :
    Coherent config { t with stage := .runVirtualMachine } :=
  { ht with
    waiting := fun h => by
      have := (ht.waiting h).1
      rw [hstage] at this
      cases this
    notCreated := fun h => by cases h
    returned := fun _ h => absurd rfl h
    aborting := fun h => by cases h }

/-- A system call. -/
theorem Coherent.life (ht : Coherent config t) (hstage : t.stage = .runVirtualMachine)
    {answer : KernelAnswer} {e : LifeEvent} {v : VmLife}
    (hloop : t.life.stage ≠ .loop ∨ ∃ success, t.life.stage = .loop ∧
      t.loop.result = some success ∧ answer = .loopReturned success)
    (h : t.life.step config.pageSize answer = some (e, v)) :
    Coherent config { t with life := v } where
  orderly := ht.orderly
  silent := ht.silent
  transferCompleted := ht.transferCompleted
  waiting hwaiting := by
    obtain ⟨-, hin, hresult, -⟩ := ht.waiting hwaiting
    rcases hloop with hout | ⟨success, -, hreturned, -⟩
    · exact absurd hin hout
    · rw [hresult] at hreturned
      cases hreturned
  entry hnone hne := by
    rcases hloop with hout | ⟨success, hin, -, rfl⟩
    · rcases VmLife.result_step hout (VmLife.advance_step h) with hsame | ⟨-, hfailed⟩
      · exact ht.entry (hsame ▸ hnone) hout
      · rw [hfailed] at hnone
        cases hnone
    · rw [VmLife.step_loop hin h] at hnone
      cases hnone
  success htrue := by
    rcases hloop with hout | ⟨success, hin, hresult, rfl⟩
    · rcases VmLife.result_step hout (VmLife.advance_step h) with hsame | ⟨-, hfailed⟩
      · exact ht.success (hsame ▸ htrue)
      · rw [hfailed] at htrue
        cases htrue
    · rw [VmLife.step_loop hin h] at htrue
      cases htrue
      exact hresult
  notCreated h' := by
    rw [hstage] at h'
    cases h'
  returned _ h' := absurd hstage h'
  aborting := ht.aborting

/-- A step of the exit loop, when the thread is otherwise changed by the handler it has called. -/
theorem Coherent.loop (ht : Coherent config t) (hstage : t.stage = .runVirtualMachine)
    (hin : t.life.stage = .loop) {input : LoopInput} {e : LoopEvent} {vm : LoopVm}
    (h : t.loop.step input = some (e, vm)) {t' : GuestThread} (hloop : t'.loop = vm)
    (hstage' : t'.stage = t.stage) (hlife : t'.life = t.life) (hwaiting : t'.waiting = false)
    (hcompleted : vm.transferCompleted = t'.sharedBuffer.transferCompleted) :
    Coherent config t' where
  orderly := hloop ▸ (ht.orderly.step h).1
  silent := hloop ▸ ht.silent.step ht.orderly h
  transferCompleted := hloop ▸ hcompleted
  waiting hw := by
    rw [hwaiting] at hw
    cases hw
  entry _ hne := absurd (hlife ▸ hin) hne
  success htrue := by
    rw [hlife, hin] at htrue
    cases htrue
  notCreated h' := by
    rw [hstage', hstage] at h'
    cases h'
  returned _ h' := absurd (hstage'.trans hstage) h'
  aborting h' := by
    rw [hstage', hstage] at h'
    cases h'

/-- A thread parks. -/
theorem Coherent.park (ht : Coherent config t) (hstage : t.stage = .runVirtualMachine)
    (hin : t.life.stage = .loop) (hresult : t.loop.result = none)
    (hask : t.loop.tasks.head? = some .handleSharedBufferIo) :
    Coherent config { t with waiting := true } :=
  { ht with
    waiting := fun _ => by
      obtain ⟨tasks, htasks⟩ := List.head?_eq_some_iff.mp hask
      obtain rfl := ht.orderly.eq_nil hresult htasks (.inr (.inl rfl))
      exact ⟨hstage, hin, hresult, htasks⟩ }

/-- `runVirtualMachine` has returned. -/
theorem Coherent.conclude (ht : Coherent config t) {success : Bool}
    (hreturned : t.life.stage = .returned success) :
    Coherent config { t with
      completedSuccessfully := success
      stage := if success then .closeGuestFiles else .abortSharedBuffer } :=
  { ht with
    waiting := fun h => by
      have := (ht.waiting h).2.1
      rw [hreturned] at this
      cases this
    notCreated := fun h => by cases success <;> cases h
    returned := fun _ _ => hreturned
    aborting := fun h => by cases success <;> cases h; rfl }

/-- `runGuest` goes on after `runVirtualMachine`. -/
theorem Coherent.goOn (ht : Coherent config t) {stage : ThreadStage} {fileState : FileState}
    (hbefore : t.stage = .abortSharedBuffer ∨ t.stage = .closeGuestFiles)
    (hafter : stage = .closeGuestFiles ∨ stage = .ended) :
    Coherent config { t with fileState, stage } :=
  { ht with
    waiting := fun h => by
      have := (ht.waiting h).1
      rcases hbefore with hb | hb <;> rw [hb] at this <;> cases this
    notCreated := fun h => by rcases hafter with rfl | rfl <;> cases h
    returned := fun _ _ => by
      rcases hbefore with hb | hb <;> exact ht.returned (by simp [hb]) (by simp [hb])
    aborting := fun h => by rcases hafter with rfl | rfl <;> cases h }

/-- A parked thread has only the shared buffer to go on with. -/
theorem Coherent.waiting_eq_false (ht : Coherent config t) {input : LoopInput} {e : LoopEvent}
    {vm : LoopVm} (h : t.loop.step input = some (e, vm))
    (hinput : ∀ handled completed, input ≠ .sharedBufferIo handled completed) :
    t.waiting = false := by
  rw [← Bool.not_eq_true]
  intro hwaiting
  obtain ⟨-, -, hresult, htasks⟩ := ht.waiting hwaiting
  cases input with
  | sharedBufferIo handled completed => exact hinput handled completed rfl
  | _ => simp [LoopVm.step, hresult, htasks, LoopVm.perform] at h

/-- Only an exit of the shared-buffer ports completes a transfer. -/
theorem Coherent.completed_step (ht : Coherent config t) {input : LoopInput} {e : LoopEvent}
    {vm : LoopVm} (h : t.loop.step input = some (e, vm))
    (hinput : ∀ handled completed, input ≠ .sharedBufferIo handled completed) :
    vm.transferCompleted = t.sharedBuffer.transferCompleted := by
  rcases LoopVm.transferCompleted_step h with hsame | ⟨handled, completed, rfl⟩
  · rw [hsame, ht.transferCompleted]
  · exact absurd rfl (hinput handled completed)

end GuestThread

/-- A completed transfer stays completed. -/
theorem Accepts.transferCompleted {σ σ' : SharedBufferState} {v v' : SharedBufferVmState}
    {c : Call} (h : Accepts σ v c σ' v') (hv : v.transferCompleted = true) :
    v'.transferCompleted = true := by
  cases h <;> first | exact hv | rfl

/-- What the loop is told of the transfer is all there is to know. -/
theorem transferCompleted_of_handle {σ : SharedBufferState} {v : SharedBufferVmState}
    {run : KvmRun} {result : Bool} {frame : Frame}
    (h : handleSharedBufferIo σ v run = .done result frame) :
    (v.transferCompleted || frame.vm.transferCompleted) = frame.vm.transferCompleted := by
  cases result with
  | false => rw [(handle_rejected h).2.1, Bool.or_self]
  | true =>
      obtain ⟨c, -, haccepts⟩ := handle_accepted h
      cases hv : v.transferCompleted with
      | false => exact Bool.false_or _
      | true => rw [haccepts.transferCompleted hv]; rfl

namespace WholeProgram

variable {n : ℕ} {sys : HostSystem} {sharedFiles : List (String × HostPath)} {config : Config}
variable {s s' w : WholeProgram n} {a : ProgramAction n}
variable {x : ProgramEvent n} {i j : Fin (n + 1)} {t : GuestThread}

@[simp] theorem setThread_threads (s : WholeProgram n) (i : Fin (n + 1)) (t : GuestThread) :
    (s.setThread i t).threads = Function.update s.threads i t := rfl

@[simp] theorem speaks_threads (s : WholeProgram n) (i : Fin (n + 1)) (e : LoopEvent) :
    (s.speaks i e).threads = s.threads := rfl

/-- A handler changes no thread but its own. -/
theorem Surrounds.threads_eq {input : LoopInput} {event : LoopEvent → ProgramEvent n}
    (h : Surrounds sys sharedFiles s i a w t input event) : w.threads = s.threads := by
  cases h <;> rfl

/-- A handler moves neither its thread nor `main`. -/
theorem Surrounds.frame {input : LoopInput} {event : LoopEvent → ProgramEvent n}
    (h : Surrounds sys sharedFiles s i a w t input event) :
    t.stage = (s.threads i).stage ∧ t.life = (s.threads i).life ∧
      t.completedSuccessfully = (s.threads i).completedSuccessfully ∧
      w.main = s.main ∧ w.live = s.live := by
  cases h <;> exact ⟨rfl, rfl, rfl, rfl, rfl⟩

/-- What the program always is. Who holds the console has something left to write. -/
structure Coherent (config : Config) (s : WholeProgram n) : Prop where
  threads : ∀ i, (s.threads i).Coherent config
  creating : ∀ started, s.main = .creating started → ∀ i : Fin (n + 1), started ≤ i →
    (s.threads i).stage = .notCreated
  console : ∀ i text, s.console = some (i, text) → text ≠ [] ∧ (s.threads i).Printing

/-- One thread moves on, and it is not a new one. It has begun a line, or it holds no console. -/
theorem Coherent.update (hs : Coherent config s) {t' : GuestThread} (ht : t'.Coherent config)
    (hcreated : (s.threads i).stage ≠ .notCreated) (hmain : s'.main = s.main)
    (hthreads : s'.threads = Function.update s.threads i t')
    (hconsole : ∀ holder text, s'.console = some (holder, text) →
      (holder = i ∧ text ≠ [] ∧ t'.Printing) ∨ (holder ≠ i ∧ s.console = some (holder, text))) :
    Coherent config s' where
  threads := by
    rw [hthreads, Function.forall_update_iff]
    exact ⟨ht, fun j _ => hs.threads j⟩
  creating started h j hj := by
    rw [hmain] at h
    have hne : j ≠ i := by
      rintro rfl
      exact hcreated (hs.creating started h j hj)
    rw [hthreads, Function.update_of_ne hne]
    exact hs.creating started h j hj
  console holder text h := by
    rw [hthreads]
    rcases hconsole holder text h with ⟨rfl, htext, hprinting⟩ | ⟨hne, hheld⟩
    · rw [Function.update_self]
      exact ⟨htext, hprinting⟩
    · rw [Function.update_of_ne hne]
      exact hs.console holder text hheld

/-- A thread that is not in its exit loop does not hold the console. -/
theorem Coherent.holds_other (hs : Coherent config s) (hnot : ¬(s.threads i).Printing)
    (hconsole : s'.console = s.console) : ∀ holder text, s'.console = some (holder, text) →
      (holder = i ∧ text ≠ [] ∧ t.Printing) ∨ (holder ≠ i ∧ s.console = some (holder, text)) := by
  intro holder text h
  rw [hconsole] at h
  refine .inr ⟨?_, h⟩
  rintro rfl
  exact hnot (hs.console _ _ h).2

/-- `main` goes on to join. -/
theorem Coherent.join (hs : Coherent config s) {joined started : ℕ} {ok : Bool}
    (hmain : s'.main = .joining joined started ok) (hthreads : s'.threads = s.threads)
    (hconsole : s'.console = s.console) : Coherent config s' where
  threads := hthreads ▸ hs.threads
  creating started h := by
    rw [hmain] at h
    cases h
  console := by
    rw [hthreads, hconsole]
    exact hs.console

/-- The thread as a handler leaves it, after the step of the loop. -/
theorem Coherent.surrounds (hs : Coherent config s) {input : LoopInput}
    {event : LoopEvent → ProgramEvent n} {e : LoopEvent} {vm : LoopVm}
    (hin : s.inLoop i = true) (hw : Surrounds sys sharedFiles s i a w t input event)
    (h : (s.threads i).loop.step input = some (e, vm)) :
    ({ t with loop := vm } : GuestThread).Coherent config := by
  obtain ⟨hstage, hloop⟩ := inLoop_iff.mp hin
  obtain ⟨hstage', hlife, -⟩ := hw.frame
  have ht := hs.threads i
  cases hw with
  | port hout =>
      refine ht.loop hstage hloop h rfl hstage' hlife rfl ?_
      obtain ⟨hresult, htasks, -, rfl⟩ := ht.orderly.sharedBufferIo h
      dsimp only
      rw [ht.transferCompleted]
      exact transferCompleted_of_handle hout
  | _ =>
      exact ht.loop hstage hloop h rfl hstage' hlife
        (ht.waiting_eq_false h fun _ _ heq => by cases heq)
        (ht.completed_step h fun _ _ heq => by cases heq)

/-- The console after a step of the loop. -/
theorem Coherent.console_loop (hs : Coherent config s) {input : LoopInput}
    {event : LoopEvent → ProgramEvent n} {e : LoopEvent} {vm : LoopVm} (hin : s.inLoop i = true)
    (hw : Surrounds sys sharedFiles s i a w t input event)
    (h : (s.threads i).loop.step input = some (e, vm)) (hallows : s.allows i e.locks = true)
    (holder : Fin (n + 1)) (text : List UInt8)
    (hholder : ((w.setThread i { t with loop := vm }).speaks i e).console = some (holder, text)) :
    (holder = i ∧ text ≠ [] ∧ GuestThread.Printing { t with loop := vm }) ∨
      (holder ≠ i ∧ s.console = some (holder, text)) := by
  have hconsole : w.console = s.console := by cases hw <;> rfl
  obtain ⟨hstage, hloop⟩ := inLoop_iff.mp hin
  obtain ⟨hstage', hlife, -⟩ := hw.frame
  have hwaiting : t.waiting = false := by
    cases hw with
    | port => rfl
    | _ => exact (hs.threads i).waiting_eq_false h fun _ _ heq => by cases heq
  simp only [speaks, setThread, hconsole] at hholder
  split_ifs at hholder with hprinted
  · exact .inr ⟨(allows_iff.mp hallows holder text hholder).2, hholder⟩
  · cases hholder
    exact .inl ⟨rfl, hprinted, hstage'.trans hstage, by rw [← hloop, ← hlife], hwaiting⟩

/-- **A step keeps the program coherent.** -/
theorem Coherent.advance (hs : Coherent config s) (h : Advance sys sharedFiles config s a x s') :
    Coherent config s' := by
  cases h with
  | @create started hlt hmain =>
      have hstage := hs.creating started hmain ⟨started, hlt⟩ le_rfl
      refine ⟨?_, fun started' h j hj => ?_, fun holder text h => ?_⟩
      · dsimp only
        rw [setThread_threads, Function.forall_update_iff]
        exact ⟨(hs.threads _).create hstage, fun j _ => hs.threads j⟩
      · dsimp only at h
        split_ifs at h
        cases h
        have hne : j ≠ ⟨started, hlt⟩ := by
          rintro rfl
          exact absurd hj (Nat.not_succ_le_self started)
        dsimp only
        rw [setThread_threads, Function.update_of_ne hne]
        exact hs.creating started hmain j (Nat.le_of_succ_le hj)
      · obtain ⟨htext, hprinting⟩ := hs.console holder text h
        have hne : holder ≠ ⟨started, hlt⟩ := by
          rintro rfl
          have hrunning := hprinting.1
          rw [hstage] at hrunning
          cases hrunning
        dsimp only
        rw [setThread_threads, Function.update_of_ne hne]
        exact ⟨htext, hprinting⟩
  | createFails _ hmain => exact hs.join rfl rfl rfl
  | join _ _ hmain => exact hs.join rfl rfl rfl
  | joinFails _ hmain => exact hs.join rfl rfl rfl
  | exit hmain => exact ⟨hs.threads, fun started h => (by cases h), hs.console⟩
  | @print count holder text hheld hcount =>
      refine ⟨hs.threads, hs.creating, fun holder' text' h => ?_⟩
      dsimp only at h
      split_ifs at h with hrest
      cases h
      exact ⟨hrest, (hs.console holder text hheld).2⟩
  | @life a i answer e v hstage hloop ha hstep hfresh hallows =>
      refine hs.update ((hs.threads i).life hstage hloop hstep) (by simp [hstage]) rfl rfl ?_
      exact fun holder text h => .inr ⟨(allows_iff.mp hallows holder text h).2, h⟩
  | @loop a i w t input event e vm hin hw hstep hallows =>
      have hstage := (inLoop_iff.mp hin).1
      refine hs.update (i := i) (hs.surrounds hin hw hstep) (by simp [hstage])
        hw.frame.2.2.2.1 ?_ (hs.console_loop hin hw hstep hallows)
      rw [speaks_threads, setThread_threads, hw.threads_eq]
  | @park i hin hresult hask hwaiting hallows =>
      obtain ⟨hstage, hloop⟩ := inLoop_iff.mp hin
      refine hs.update ((hs.threads i).park hstage hloop hresult hask) (by simp [hstage]) rfl rfl ?_
      exact fun holder text h => .inr ⟨(allows_iff.mp hallows holder text h).2, h⟩
  | @conclude i success hstage hreturned =>
      refine hs.update ((hs.threads i).conclude hreturned) (by simp [hstage]) rfl rfl
        (hs.holds_other (fun hprinting => ?_) rfl)
      rw [hprinting.2.1] at hreturned
      cases hreturned
  | @abort i hstage =>
      refine hs.update ((hs.threads i).goOn (.inl hstage) (.inl rfl)) (by simp [hstage]) rfl rfl
        (hs.holds_other (fun hprinting => ?_) rfl)
      rw [hprinting.1] at hstage
      cases hstage
  | @close i hstage =>
      refine hs.update ((hs.threads i).goOn (.inr hstage) (.inr rfl)) (by simp [hstage]) rfl rfl
        (hs.holds_other (fun hprinting => ?_) rfl)
      rw [hprinting.1] at hstage
      cases hstage

theorem coherent_initial (n : ℕ) (config : Config) (host : Host HostPath) (stdin : List UInt8) :
    Coherent config (initial n config host stdin) where
  threads i := GuestThread.coherent_initial config i
  creating _ _ _ _ := rfl
  console _ _ h := by cases h

/-- **The program is coherent in every run.** -/
theorem coherent_of_run {host : Host HostPath} {stdin : List UInt8}
    {ok : WholeProgram n → ProgramAction n → Prop} {tr : List (ProgramEvent n)}
    (hrun : (wholeProgram sys sharedFiles n config host stdin).Run ok tr s) :
    Coherent config s := by
  refine hrun.invariant (I := fun _ s => Coherent config s)
    (coherent_initial n config host stdin) ?_
  intro tr s a x s' hs _ h
  exact hs.advance (step_cases h).2

end WholeProgram

end KvmHypervisor
