import KvmHypervisor.ProgramThreads
import KvmHypervisor.Simulations

/-!
# Views of the Program

Whoever watches only the shared buffer sees the machine `hypervisor`, whoever watches the exit
loops and what they say sees `exitLoops`, and whoever watches the resources sees `lifecycles`. So
what holds in every run of one of these holds of the program.

A VM whose tasks lead to a result counts as returned already: it asks nothing any more. A line
that a thread has begun counts as printed already, although others may yet write in the middle
of it.

## Main results

* `hypervisor_of_run`, `lifecycles_of_run`: every run of the program is a run of these machines.
* `streams_of_run`: what stands on the two output streams.
* `exitLoops_of_run`: the exit loops, executed on the answers a run gives them.
-/

open Transitions

namespace KvmHypervisor

open PosixFiles

variable {n : ℕ}

/-! ### The shared buffer -/

/-- Where a thread stands, for the shared buffer. -/
def GuestThread.status (t : GuestThread) : ThreadStatus :=
  match t.stage with
  | .notCreated | .runVirtualMachine =>
    match t.life.stage.result.or t.loop.departure with
    | some success => .returned success
    | none => if t.waiting then .waiting t.run else .running
  | .abortSharedBuffer => .returned false
  | .closeGuestFiles | .ended => .finished t.completedSuccessfully

/-- The program as the machine of the shared buffer. -/
def WholeProgram.system (s : WholeProgram n) : System n where
  shared := s.shared
  vms i := ⟨(s.threads i).sharedBuffer, (s.threads i).status⟩

/-- What the machine of the shared buffer sees of a step. -/
def ProgramEvent.event : ProgramEvent n → Option (Event n)
  | .created false | .joined false => some .abort
  | .port _ e => some e
  | .halted i transferCompleted => some (.halt i transferCompleted)
  | .concluded i true => some (.finish i true)
  | .aborted i => some (.finish i false)
  | _ => none

/-- A VM that leaves its loop with a failure shows it only at its end. -/
def Event.visible : Event n → Bool
  | .fail _ => false
  | _ => true

namespace GuestThread

variable {config : Config} {t : GuestThread}

/-- The status of a thread in its exit loop. -/
theorem status_of_inLoop (hstage : t.stage = .runVirtualMachine) (hloop : t.life.stage = .loop) :
    t.status = match t.loop.departure with
      | some success => .returned success
      | none => if t.waiting then .waiting t.run else .running := by
  simp only [status, hstage, hloop, Stage.result, Option.none_or]

theorem status_running (hstage : t.stage = .runVirtualMachine) (hloop : t.life.stage = .loop)
    (hnone : t.loop.departure = none) (hwaiting : t.waiting = false) : t.status = .running := by
  rw [status_of_inLoop hstage hloop, hnone, hwaiting]
  rfl

theorem status_returned (hstage : t.stage = .runVirtualMachine) (hloop : t.life.stage = .loop)
    {success : Bool} (hsome : t.loop.departure = some success) :
    t.status = .returned success := by
  rw [status_of_inLoop hstage hloop, hsome]

/-- A thread whose `runVirtualMachine` has a result. -/
theorem status_of_result (hstage : t.stage = .runVirtualMachine) {success : Bool}
    (hsome : t.life.stage.result = some success) : t.status = .returned success := by
  simp only [status, hstage, hsome, Option.some_or]

/-- A thread in its set-up. -/
theorem Coherent.status_of_setup (ht : Coherent config t) (hstage : t.stage = .runVirtualMachine)
    (hnone : t.life.stage.result = none) (hloop : t.life.stage ≠ .loop) :
    t.status = .running := by
  have hwaiting : t.waiting = false := by
    rw [← Bool.not_eq_true]
    exact fun h => hloop (ht.waiting h).2.1
  simp only [status, hstage, hnone, ht.entry hnone hloop, hwaiting, Option.none_or]
  rfl

end GuestThread

namespace WholeProgram

variable {sys : HostSystem} {sharedFiles : List (String × HostPath)} {config : Config}
variable {s s' w : WholeProgram n} {a : ProgramAction n}
variable {x : ProgramEvent n} {i j : Fin (n + 1)} {t : GuestThread}

/-- One thread has changed, and perhaps the shared buffer. -/
theorem system_of_update {σ : SharedBufferState} (hshared : s'.shared = σ)
    (hthreads : s'.threads = Function.update s.threads i t) :
    s'.system = ⟨σ, Function.update s.system.vms i ⟨t.sharedBuffer, t.status⟩⟩ := by
  simp only [system, hshared, hthreads, System.mk.injEq, true_and]
  funext j
  by_cases hj : j = i
  · subst hj
    simp only [Function.update_self]
  · simp only [Function.update_of_ne hj]

theorem system_setThread (s : WholeProgram n) (i : Fin (n + 1)) (t : GuestThread) :
    (s.setThread i t).system =
      ⟨s.shared, Function.update s.system.vms i ⟨t.sharedBuffer, t.status⟩⟩ :=
  system_of_update rfl rfl

theorem system_setThread_shared (s : WholeProgram n) (i : Fin (n + 1)) (t : GuestThread)
    (σ : SharedBufferState) :
    ({ s.setThread i t with shared := σ } : WholeProgram n).system =
      ⟨σ, Function.update s.system.vms i ⟨t.sharedBuffer, t.status⟩⟩ :=
  system_of_update rfl rfl

/-- A thread has changed in nothing the shared buffer sees. -/
theorem system_of_keep (hshared : s'.shared = s.shared)
    (hthreads : s'.threads = Function.update s.threads i t)
    (hbuffer : t.sharedBuffer = (s.threads i).sharedBuffer)
    (hstatus : t.status = (s.threads i).status) : s'.system = s.system := by
  rw [system_of_update hshared hthreads, hbuffer, hstatus]
  exact congrArg (System.mk s.shared) (Function.update_eq_self i s.system.vms)

/-- Only the status of a thread has changed. -/
theorem system_of_status (hshared : s'.shared = s.shared)
    (hthreads : s'.threads = Function.update s.threads i t)
    (hbuffer : t.sharedBuffer = (s.threads i).sharedBuffer) :
    s'.system = s.system.setStatus i t.status := by
  rw [system_of_update hshared hthreads, hbuffer]
  rfl

/-- What a step is for the shared buffer: nothing; VM `i` sets out to leave with a failure,
checks its transfer at `KVM_EXIT_HLT`, handles an exit, or has got over its `runVirtualMachine`;
`main` aborts. -/
inductive ShownBy (s s' : WholeProgram n) : ProgramEvent n → Prop
  | keep {x : ProgramEvent n} : x.event = none → s'.system = s.system → ShownBy s s' x
  | fail {x : ProgramEvent n} (i : Fin (n + 1)) : x.event = none →
      s.system.step (.fail i) = some (.fail i, s'.system) → ShownBy s s' x
  | halt {i : Fin (n + 1)} {transferCompleted : Bool} :
      s.system.step (.halt i) = some (.halt i transferCompleted, s'.system) →
      ShownBy s s' (.halted i transferCompleted)
  | port {i : Fin (n + 1)} {e : Event n} : (∀ j, e ≠ .fail j) →
      s.system.step (if (s.threads i).waiting then .wake i else .exit i (s.threads i).run) =
        some (e, s'.system) → ShownBy s s' (.port i e)
  | finish {x : ProgramEvent n} {i : Fin (n + 1)} {success : Bool} :
      x.event = some (.finish i success) →
      s.system.step (.finish i) = some (.finish i success, s'.system) → ShownBy s s' x
  | abort {x : ProgramEvent n} : x.event = some .abort →
      s.system.step .abort = some (.abort, s'.system) → ShownBy s s' x

/-- A thread sets out to leave with a failure. -/
theorem shownBy_fail (hshow : x.event = none) (hshared : s'.shared = s.shared)
    (hthreads : s'.threads = Function.update s.threads i t)
    (hbuffer : t.sharedBuffer = (s.threads i).sharedBuffer)
    (hbefore : (s.threads i).status = .running) (hafter : t.status = .returned false) :
    ShownBy s s' x := by
  refine .fail i hshow ?_
  rw [system_of_status hshared hthreads hbuffer, hafter]
  have hst : (s.system.vms i).status = .running := hbefore
  simp only [System.step, hst]

/-- A step of the exit loop that asks nothing of the shared buffer and is no check. -/
theorem shownBy_loop (hs : Coherent config s) {input : LoopInput} {e : LoopEvent} {vm : LoopVm}
    (hin : s.inLoop i = true) (h : (s.threads i).loop.step input = some (e, vm))
    (hinput : ∀ handled completed, input ≠ .sharedBufferIo handled completed)
    (hcheck : input = .proceed → (s.threads i).loop.tasks ≠ [.requireTransfer])
    (hshow : x.event = none) (hshared : s'.shared = s.shared)
    (hthreads : s'.threads = Function.update s.threads i { t with loop := vm })
    (hstage : t.stage = (s.threads i).stage) (hlife : t.life = (s.threads i).life)
    (hbuffer : t.sharedBuffer = (s.threads i).sharedBuffer)
    (hwaiting : t.waiting = (s.threads i).waiting) : ShownBy s s' x := by
  obtain ⟨hrun, hloop⟩ := inLoop_iff.mp hin
  have hquiet := (hs.threads i).waiting_eq_false h hinput
  have hrun' : t.stage = .runVirtualMachine := hstage.trans hrun
  have hloop' : t.life.stage = .loop := by rw [hlife, hloop]
  cases ((hs.threads i).orderly.step h).2 with
  | keep hkeep =>
      refine .keep hshow (system_of_keep hshared hthreads hbuffer ?_)
      cases hdeparture : (s.threads i).loop.departure with
      | none =>
          rw [GuestThread.status_running hrun hloop hdeparture hquiet]
          exact GuestThread.status_running hrun' hloop' (hkeep.trans hdeparture)
            (hwaiting.trans hquiet)
      | some success =>
          rw [GuestThread.status_returned hrun hloop hdeparture]
          exact GuestThread.status_returned (t := { t with loop := vm }) hrun' hloop'
            (hkeep.trans hdeparture)
  | fail hnone hfailed =>
      exact shownBy_fail hshow hshared hthreads hbuffer
        (GuestThread.status_running hrun hloop hnone hquiet)
        (GuestThread.status_returned (t := { t with loop := vm }) hrun' hloop' hfailed)
  | halt _ htasks hproceed => exact absurd htasks (hcheck hproceed)

/-- The check at `KVM_EXIT_HLT`. -/
theorem shownBy_halt (hs : Coherent config s) {e : LoopEvent} {vm : LoopVm}
    (hin : s.inLoop i = true) (h : (s.threads i).loop.step .proceed = some (e, vm))
    (hcheck : (s.threads i).loop.tasks.head? = some .requireTransfer)
    (hshared : s'.shared = s.shared)
    (hthreads : s'.threads = Function.update s.threads i { s.threads i with loop := vm }) :
    ShownBy s s' (.halted i (s.threads i).loop.transferCompleted) := by
  obtain ⟨hrun, hloop⟩ := inLoop_iff.mp hin
  have ht := hs.threads i
  have hquiet := ht.waiting_eq_false h fun _ _ heq => by cases heq
  obtain ⟨tasks, htasks⟩ := List.head?_eq_some_iff.mp hcheck
  have hresult := (LoopVm.step_eq_some h).1
  obtain rfl := ht.orderly.eq_nil hresult htasks (by simp)
  have hnone : (s.threads i).loop.departure = none := by
    rw [LoopVm.departure_of_running hresult, htasks]
    rfl
  have hdeparture : vm.departure = some (s.threads i).loop.transferCompleted := by
    simp only [LoopVm.step, hresult, htasks, LoopVm.perform] at h
    split_ifs at h with hcompleted
    · cases h
      rw [hcompleted]
      exact LoopVm.departure_of_running rfl
    · cases h
      rw [Bool.not_eq_true] at hcompleted
      rw [hcompleted]
      exact LoopVm.departure_of_running rfl
  rw [ht.transferCompleted]
  refine .halt ?_
  have hst : (s.system.vms i).status = .running :=
    GuestThread.status_running hrun hloop hnone hquiet
  have hst' : GuestThread.status { s.threads i with loop := vm } =
      .returned (s.threads i).sharedBuffer.transferCompleted := by
    rw [← ht.transferCompleted]
    exact GuestThread.status_returned (t := { s.threads i with loop := vm }) hrun hloop hdeparture
  rw [system_of_status hshared hthreads rfl, hst']
  simp only [System.step, hst]
  rfl

/-- An exit of the shared-buffer ports that is over. -/
theorem shownBy_port (hs : Coherent config s) {result : Bool} {frame : Frame} {e : LoopEvent}
    {vm : LoopVm} (hin : s.inLoop i = true)
    (hout : handleSharedBufferIo s.shared (s.threads i).sharedBuffer (s.threads i).run =
      .done result frame)
    (h : (s.threads i).loop.step (.sharedBufferIo result frame.vm.transferCompleted) =
      some (e, vm))
    (hshared : s'.shared = frame.state) (hthreads : s'.threads = Function.update s.threads i t)
    (hstage : t.stage = (s.threads i).stage) (hlife : t.life = (s.threads i).life)
    (hbuffer : t.sharedBuffer = frame.vm) (hwaiting : t.waiting = false) (hvm : t.loop = vm) :
    ShownBy s s' (.port i (if result then .call i ((exitLabel s.shared (s.threads i).sharedBuffer
      (s.threads i).run frame).getD (.deliverMode 0)) else .reject i)) := by
  obtain ⟨hrun, hloop⟩ := inLoop_iff.mp hin
  obtain ⟨hresult, htasks, -, rfl⟩ := (hs.threads i).orderly.sharedBufferIo h
  have hnone : (s.threads i).loop.departure = none := by
    rw [LoopVm.departure_of_running hresult, htasks]
    rfl
  have hafter : t.loop.departure = if result then none else some false := by
    rw [hvm]
    refine (LoopVm.departure_of_running ?_).trans ?_
    · exact hresult
    · cases result <;> rfl
  have hstatus : t.status = if result then .running else .returned false := by
    cases result with
    | true =>
        exact GuestThread.status_running (hstage.trans hrun) (by rw [hlife, hloop]) hafter hwaiting
    | false => exact GuestThread.status_returned (hstage.trans hrun) (by rw [hlife, hloop]) hafter
  have hhandle : s.system.handle i (s.threads i).run = .done result frame := hout
  have hexecute : s.system.execute i (s.threads i).run =
      (if result then .call i ((exitLabel s.shared (s.threads i).sharedBuffer
        (s.threads i).run frame).getD (.deliverMode 0)) else .reject i, s'.system) := by
    rw [System.execute, hhandle, system_of_update hshared hthreads, hbuffer, hstatus]
    cases result <;> rfl
  refine .port (fun j heq => ?_) ?_
  · cases result <;> cases heq
  · rw [← hexecute]
    cases hparked : (s.threads i).waiting with
    | true =>
        have hst : (s.system.vms i).status = .waiting (s.threads i).run := by
          refine (GuestThread.status_of_inLoop hrun hloop).trans ?_
          rw [hnone, hparked]
          rfl
        exact System.step_wake hst hhandle
    | false => exact System.step_exit (GuestThread.status_running hrun hloop hnone hparked) _

/-- **A step seen from the shared buffer.** -/
theorem shownBy_advance (hs : Coherent config s) (h : Advance sys sharedFiles config s a x s') :
    ShownBy s s' x := by
  cases h with
  | @create started hlt hmain =>
      refine .keep rfl (system_of_keep (i := ⟨started, hlt⟩) rfl rfl rfl ?_)
      simp only [GuestThread.status, hs.creating started hmain ⟨started, hlt⟩ le_rfl]
  | createFails | joinFails => exact .abort rfl rfl
  | join | exit | print => exact .keep rfl rfl
  | @life a i answer e v hstage hloop ha hstep =>
      have ht := hs.threads i
      rcases hloop with hout | ⟨success, hin, hresult, rfl⟩
      · rcases VmLife.result_step hout (VmLife.advance_step hstep) with hsame | ⟨hnone, hfailed⟩
        · refine .keep rfl (system_of_keep (i := i) rfl rfl rfl ?_)
          simp only [GuestThread.status, hstage, hsame]
        · exact shownBy_fail (i := i) rfl rfl rfl rfl (ht.status_of_setup hstage hnone hout)
            (GuestThread.status_of_result (t := { s.threads i with life := v }) hstage hfailed)
      · refine .keep rfl (system_of_keep (i := i) rfl rfl rfl ?_)
        have hafter : v.stage.result = some success := by
          rw [VmLife.step_loop hin hstep]
          rfl
        have hdeparture : (s.threads i).loop.departure = some success := by
          rw [LoopVm.departure, hresult]
          rfl
        rw [GuestThread.status_returned hstage hin hdeparture]
        exact GuestThread.status_of_result (t := { s.threads i with life := v }) hstage hafter
  | @loop a i w t input event e vm hin hw hstep =>
      cases hw with
      | port hout => exact shownBy_port hs hin hout hstep rfl rfl rfl rfl rfl rfl rfl
      | proceed =>
          split_ifs with hcheck
          · exact shownBy_halt hs hin hstep hcheck rfl rfl
          · refine shownBy_loop hs hin hstep (fun _ _ heq => by cases heq) (fun _ htasks => ?_)
              rfl rfl rfl rfl rfl rfl rfl
            rw [htasks] at hcheck
            exact hcheck rfl
      | fileHandled hframe =>
          refine shownBy_loop hs hin hstep (fun _ _ heq => by cases heq)
            (fun heq => by cases heq) ?_ rfl rfl rfl rfl rfl rfl
          rw [fileEvent]
          split <;> rfl
      | _ =>
          exact shownBy_loop hs hin hstep (fun _ _ heq => by cases heq)
            (fun heq => by cases heq) rfl rfl rfl rfl rfl rfl rfl
  | @park i hin hresult hask hwaiting hallows hout =>
      obtain ⟨hrun, hloop⟩ := inLoop_iff.mp hin
      have hnone : (s.threads i).loop.departure = none := by
        obtain ⟨tasks, htasks⟩ := List.head?_eq_some_iff.mp hask
        rw [LoopVm.departure_of_running hresult, htasks]
        rfl
      have hst : (s.system.vms i).status = .running :=
        GuestThread.status_running hrun hloop hnone hwaiting
      refine .port (fun _ heq => by cases heq) ?_
      have hhandle : s.system.handle i (s.threads i).run = .wait := hout
      rw [hwaiting, if_neg Bool.false_ne_true, System.step_exit hst, System.execute_wait hhandle,
        system_setThread, GuestThread.status_of_inLoop (t := { s.threads i with waiting := true })
        hrun hloop, hnone]
      rfl
  | @conclude i success hstage hreturned =>
      have hst : (s.system.vms i).status = .returned success :=
        GuestThread.status_of_result hstage (by rw [hreturned]; rfl)
      cases success with
      | true =>
          refine @ShownBy.finish _ _ _ _ i true rfl ?_
          rw [system_setThread]
          simp only [System.step, hst]
          rfl
      | false => exact .keep rfl (system_of_keep (i := i) rfl rfl rfl hst.symm)
  | @abort i hstage =>
      have hst : (s.system.vms i).status = .returned false := by
        simp only [system, GuestThread.status, hstage]
      refine @ShownBy.finish _ _ _ _ i false rfl ?_
      rw [abort, system_setThread_shared]
      simp only [System.step, hst, GuestThread.status, (hs.threads i).aborting hstage]
      rfl
  | @close i hstage =>
      refine .keep rfl (system_of_keep (i := i) rfl rfl rfl ?_)
      simp only [GuestThread.status, hstage]

end WholeProgram

/-! ### The exit loops -/

/-- What the holder of the console has yet to write. -/
def WholeProgram.unwritten (s : WholeProgram n) : List UInt8 :=
  match s.console with
  | none => []
  | some (_, text) => text

/-- The program as the machine of the exit loops. -/
def WholeProgram.loops (s : WholeProgram n) : ExitLoops (n + 1) where
  out := s.out.flatMap OutputWrite.lockedBytes ++ s.unwritten
  err := s.err.filterMap ErrorLine.report
  vms i := (s.threads i).loop

/-- What the machine of the exit loops sees of a step. -/
def ProgramEvent.loopEvent : ProgramEvent n → Option (Fin (n + 1) × LoopEvent)
  | .looped i e => some (i, e)
  | .requested i _ _ | .port i (.call _ _) | .port i (.reject _) | .read i _ | .injected i _
  | .halted i _ => some (i, .quiet)
  | _ => none

/-- What a step answers to an exit loop: the end of `KVM_RUN`, what the handler of the file port
or of the shared buffer returns, the next byte of standard input, how the injection ends. -/
def ProgramAction.loopInput (sys : HostSystem) (sharedFiles : List (String × HostPath))
    (s : WholeProgram n) : ProgramAction n → Option (Fin (n + 1) × LoopInput)
  | .kvmRun i result _ => some (i, .kvmRun result)
  | .fileIo i =>
    let t := s.threads i
    some (i, .fileIo
      (handleFileIo sys (contextOf sharedFiles i) t.run t.memory t.fileState s.host).isSome)
  | .sharedBufferIo i =>
    match handleSharedBufferIo s.shared (s.threads i).sharedBuffer (s.threads i).run with
    | .wait => none
    | .done result frame => some (i, .sharedBufferIo result frame.vm.transferCompleted)
  | .serialInput i => some (i, .serialInput s.stdin.head?)
  | .injected i success => some (i, .injected success)
  | .proceed i => some (i, .proceed)
  | _ => none

/-- What a step writes to standard output. -/
def ProgramEvent.writes : ProgramEvent n → List (OutputWrite n)
  | .printed i bytes => [.locked i bytes]
  | .life i e => e.writes i
  | _ => []

/-- What a step says on the error stream. -/
def ProgramEvent.errorLines : ProgramEvent n → List (ErrorLine n)
  | .created false => [.main "Failed to create VM thread"]
  | .joined false => [.main "Failed to join VM thread"]
  | .life i e => e.errorLines i
  | .looped i e => e.errorLines i
  | .injected i false => [.perror i "KVM_INTERRUPT"]
  | _ => []

/-- Only `KVM_RUN` and a task that asks nothing show anything. -/
theorem LoopVm.quiet_step {vm vm' : LoopVm} {input : LoopInput} {e : LoopEvent}
    (h : vm.step input = some (e, vm')) :
    (∃ result, input = .kvmRun result) ∨ e = .quiet ∨
      (input = .proceed ∧ vm.tasks.head? ≠ some .requireTransfer) := by
  obtain ⟨-, ⟨-, result, rfl, -⟩ | ⟨task, tasks, htasks, hperform⟩⟩ := LoopVm.step_eq_some h
  · exact .inl ⟨result, rfl⟩
  · right
    rw [htasks]
    cases task <;> cases input <;> simp only [LoopVm.perform, reduceCtorEq] at hperform
    case requireTransfer.proceed =>
      split_ifs at hperform <;> cases hperform <;> exact .inl rfl
    case readSerialInput.serialInput input =>
      cases input <;> cases hperform <;> exact .inl rfl
    case injectIrq.injected success =>
      cases success <;> cases hperform <;> exact .inl rfl
    all_goals first
      | exact .inr ⟨rfl, by simp⟩
      | cases hperform; exact .inl rfl

/-- Who prints holds the console. -/
theorem LoopEvent.printed_of_not_locks {e : LoopEvent} (h : e.locks = false) (id : ℕ) :
    e.printed id = [] := by
  cases e <;> first | rfl | cases h

/-- The reports of the loops among what a step of a loop says. -/
theorem LoopEvent.report_errorLines (e : LoopEvent) (i : Fin (n + 1)) :
    (e.errorLines i).filterMap ErrorLine.report = e.errors i := by
  cases e <;> rfl

/-- The set-up says nothing for the loops. -/
theorem LifeEvent.report_errorLines (e : LifeEvent) (i : Fin (n + 1)) :
    (e.errorLines i).filterMap ErrorLine.report = [] ∧
      (e.writes i).flatMap OutputWrite.lockedBytes = [] := by
  cases e with
  | reported report => cases report <;> exact ⟨rfl, rfl⟩
  | _ => exact ⟨rfl, rfl⟩

namespace WholeProgram

variable {sys : HostSystem} {sharedFiles : List (String × HostPath)} {config : Config}
variable {s s' w : WholeProgram n} {a : ProgramAction n}
variable {x : ProgramEvent n} {i : Fin (n + 1)} {t : GuestThread}

/-- The exit loops after a step of one thread outside its loop. -/
theorem loops_of_update {t : GuestThread}
    (hout : s'.out.flatMap OutputWrite.lockedBytes = s.out.flatMap OutputWrite.lockedBytes)
    (hconsole : s'.console = s.console)
    (herr : s'.err.filterMap ErrorLine.report = s.err.filterMap ErrorLine.report)
    (hthreads : s'.threads = Function.update s.threads i t)
    (hloop : t.loop = (s.threads i).loop) : s'.loops = s.loops := by
  simp only [loops, unwritten, hout, hconsole, herr, hthreads, ExitLoops.mk.injEq, true_and]
  funext j
  by_cases hj : j = i
  · subst hj
    rw [Function.update_self, hloop]
  · rw [Function.update_of_ne hj]

/-- A handler shows what the loop shows, and says no more than the loop says. -/
theorem Surrounds.loopEvent {input : LoopInput} {event : LoopEvent → ProgramEvent n}
    {e : LoopEvent} {vm : LoopVm} (hw : Surrounds sys sharedFiles s i a w t input event)
    (h : (s.threads i).loop.step input = some (e, vm)) :
    (event e).loopEvent = some (i, e) ∧ (event e).writes = [] ∧
      w.err ++ e.errorLines i = s.err ++ (event e).errorLines := by
  have hquiet := LoopVm.quiet_step h
  cases hw with
  | kvmRun | fileRejected | endOfInput => exact ⟨rfl, rfl, rfl⟩
  | injected success =>
      obtain rfl : e = .quiet := by simpa using hquiet
      cases success
      · exact ⟨rfl, rfl, List.append_nil _⟩
      · exact ⟨rfl, rfl, congrArg (· ++ []) (List.append_nil _)⟩
  | fileHandled =>
      obtain rfl : e = .quiet := by simpa using hquiet
      rw [fileEvent]
      split <;> exact ⟨rfl, rfl, rfl⟩
  | port =>
      obtain rfl : e = .quiet := by simpa using hquiet
      split <;> exact ⟨rfl, rfl, rfl⟩
  | input =>
      obtain rfl : e = .quiet := by simpa using hquiet
      exact ⟨rfl, rfl, rfl⟩
  | proceed =>
      split_ifs with hcheck
      · obtain rfl : e = .quiet := by simpa [hcheck] using hquiet
        exact ⟨rfl, rfl, rfl⟩
      · exact ⟨rfl, rfl, rfl⟩

/-- The loop gets what the handler answers. -/
theorem Surrounds.loopInput {input : LoopInput} {event : LoopEvent → ProgramEvent n}
    (hw : Surrounds sys sharedFiles s i a w t input event) :
    a.loopInput sys sharedFiles s = some (i, input) := by
  cases hw with
  | kvmRun | injected | proceed => rfl
  | fileRejected hframe | fileHandled hframe => simp only [ProgramAction.loopInput, hframe]; rfl
  | port hout => simp only [ProgramAction.loopInput, hout]
  | endOfInput hstdin | input hstdin => simp only [ProgramAction.loopInput, hstdin]; rfl

/-- A handler neither prints nor reports for the loop. -/
theorem Surrounds.streams {input : LoopInput} {event : LoopEvent → ProgramEvent n}
    (hw : Surrounds sys sharedFiles s i a w t input event) :
    w.out = s.out ∧ w.console = s.console ∧
      w.err.filterMap ErrorLine.report = s.err.filterMap ErrorLine.report := by
  cases hw with
  | injected success => cases success <;> exact ⟨rfl, rfl, by simp [ErrorLine.report]⟩
  | _ => exact ⟨rfl, rfl, rfl⟩

/-- What the loops have printed after a step of one of them. -/
theorem unwritten_speaks {e : LoopEvent} (hallows : s.allows i e.locks = true)
    (hconsole : w.console = s.console) :
    (w.speaks i e).unwritten = s.unwritten ++ e.printed i := by
  simp only [unwritten, speaks]
  split_ifs with hprinted
  · rw [hprinted, hconsole, List.append_nil]
  · have hfree : s.console = none := by
      by_contra hne
      obtain ⟨⟨holder, text⟩, hheld⟩ := Option.ne_none_iff_exists'.mp hne
      exact hprinted
        (LoopEvent.printed_of_not_locks (allows_iff.mp hallows holder text hheld).1 i)
    rw [hfree]
    rfl

/-- **A step seen from the exit loops.** -/
theorem loops_advance (h : Advance sys sharedFiles config s a x s') :
    (a.loopInput sys sharedFiles s = none ∧ x.loopEvent = none ∧ s'.loops = s.loops) ∨
      ∃ input e, a.loopInput sys sharedFiles s = some input ∧ x.loopEvent = some e ∧
        s.loops.step input = some (e, s'.loops) := by
  cases h with
  | @create started hlt hmain =>
      exact .inl ⟨rfl, rfl, loops_of_update (i := ⟨started, hlt⟩) rfl rfl rfl rfl rfl⟩
  | join | exit => exact .inl ⟨rfl, rfl, rfl⟩
  | createFails | joinFails =>
      refine .inl ⟨rfl, rfl, ?_⟩
      simp [loops, unwritten, ErrorLine.report]
  | @print count holder text hheld =>
      refine .inl ⟨rfl, rfl, ?_⟩
      simp only [loops, unwritten, hheld, ExitLoops.mk.injEq, and_true, List.flatMap_append,
        List.flatMap_singleton, OutputWrite.lockedBytes, List.append_assoc]
      split_ifs with hrest
      · rw [List.append_nil, ← List.take_append_drop count text, hrest, List.append_nil,
          List.take_take, min_self]
      · rw [List.take_append_drop]
  | @life a i answer e v hstage hloop ha =>
      obtain ⟨herr, hout⟩ := e.report_errorLines i
      refine .inl ⟨by rcases ha with rfl | ⟨rfl, -⟩ <;> rfl, rfl, loops_of_update (i := i)
        (t := { s.threads i with life := v }) ?_ rfl ?_ rfl rfl⟩
      · rw [List.flatMap_append, hout, List.append_nil]
      · rw [List.filterMap_append, herr, List.append_nil]
  | @park i hin hresult hask hwaiting hallows hout =>
      refine .inl ⟨?_, rfl, loops_of_update (i := i) rfl rfl rfl rfl rfl⟩
      simp only [ProgramAction.loopInput, hout]
  | @abort i | @close i => exact .inl ⟨rfl, rfl, loops_of_update (i := i) rfl rfl rfl rfl rfl⟩
  | @conclude i success =>
      exact .inl ⟨rfl, by cases success <;> rfl, loops_of_update (i := i) rfl rfl rfl rfl rfl⟩
  | @loop a i w t input event e vm hin hw hstep hallows =>
      refine .inr ⟨(i, input), (i, e), hw.loopInput, (hw.loopEvent hstep).1, ?_⟩
      obtain ⟨hout, hconsole, herr⟩ := hw.streams
      have hstep' : (s.loops.vms i).step input = some (e, vm) := hstep
      have hunwritten :=
        unwritten_speaks (w := w.setThread i { t with loop := vm }) hallows hconsole
      simp only [ExitLoops.step, hstep', Option.some.injEq, Prod.mk.injEq, true_and]
      simp only [loops, hunwritten, speaks_threads, setThread_threads, hw.threads_eq,
        ExitLoops.mk.injEq]
      refine ⟨?_, ?_, ?_⟩
      · rw [List.append_assoc, ← hout]
        rfl
      · rw [← e.report_errorLines i, ← herr, ← List.filterMap_append]
        rfl
      · funext j
        by_cases hj : j = i
        · subst hj
          simp only [Function.update_self]
        · simp only [Function.update_of_ne hj]

/-- **What a step adds to the streams** is what its event says. -/
theorem streams_advance (h : Advance sys sharedFiles config s a x s') :
    s'.out = s.out ++ x.writes ∧ s'.err = s.err ++ x.errorLines := by
  have hnil : ∀ {α : Type} (l : List α), l = l ++ [] := fun l => (List.append_nil l).symm
  cases h with
  | createFails | joinFails => exact ⟨hnil _, rfl⟩
  | print => exact ⟨rfl, hnil _⟩
  | life => exact ⟨rfl, rfl⟩
  | conclude => exact ⟨hnil _, hnil _⟩
  | loop hin hw hstep =>
      obtain ⟨-, hwrites, herr⟩ := hw.loopEvent hstep
      rw [hwrites, List.append_nil, ← herr]
      exact ⟨hw.streams.1, rfl⟩
  | _ => exact ⟨hnil _, hnil _⟩

end WholeProgram

/-! ### The resources -/

/-- The program as the machine of the VM lives. -/
def WholeProgram.lives (s : WholeProgram n) : Lifecycles (n + 1) where
  live := s.live
  vms i := (s.threads i).life

/-- What the machine of the VM lives sees of a step. -/
def ProgramEvent.lifeEvent : ProgramEvent n → Option (Fin (n + 1) × LifeEvent)
  | .life i e => some (i, e)
  | _ => none

namespace WholeProgram

variable {sys : HostSystem} {sharedFiles : List (String × HostPath)} {config : Config}
variable {s s' w : WholeProgram n} {a : ProgramAction n}
variable {x : ProgramEvent n} {i : Fin (n + 1)} {t : GuestThread}

/-- The lives after a step that is none of theirs. -/
theorem lives_of_update (hlive : s'.live = s.live)
    (hthreads : s'.threads = Function.update s.threads i t)
    (hlife : t.life = (s.threads i).life) : s'.lives = s.lives := by
  simp only [lives, hlive, hthreads, Lifecycles.mk.injEq, true_and]
  funext j
  by_cases hj : j = i
  · subst hj
    rw [Function.update_self, hlife]
  · rw [Function.update_of_ne hj]

/-- **A step seen from the resources.** -/
theorem lives_advance (h : Advance sys sharedFiles config s a x s') :
    (x.lifeEvent = none ∧ s'.lives = s.lives) ∨
      ∃ a e, s.lives.step config a = some (e, s'.lives) ∧ x.lifeEvent = some e := by
  cases h with
  | @create started hlt hmain =>
      exact .inl ⟨rfl, lives_of_update (i := ⟨started, hlt⟩) rfl rfl rfl⟩
  | createFails | join | joinFails | exit | print => exact .inl ⟨rfl, rfl⟩
  | @park i | @conclude i | @abort i | @close i =>
      exact .inl ⟨rfl, lives_of_update (i := i) rfl rfl rfl⟩
  | @life a i answer e v hstage hloop ha hstep hfresh =>
      refine .inr ⟨(i, answer), (i, e), ?_, rfl⟩
      have hstep' : (s.lives.vms i).step config.pageSize answer = some (e, v) := hstep
      have hfresh' : e.fresh s.lives.live = true := hfresh
      simp only [Lifecycles.step, hstep', hfresh', if_true, Option.some.injEq, Prod.mk.injEq,
        true_and]
      simp only [lives, setThread_threads, Lifecycles.mk.injEq, true_and]
      funext j
      by_cases hj : j = i
      · subst hj
        simp only [Function.update_self]
      · simp only [Function.update_of_ne hj]
  | @loop a i w t input event e vm hin hw hstep =>
      refine .inl ⟨?_, lives_of_update (i := i) (t := { t with loop := vm }) hw.frame.2.2.2.2 ?_
        hw.frame.2.1⟩
      · cases hw with
        | fileHandled => rw [fileEvent]; split <;> rfl
        | proceed => split_ifs <;> rfl
        | _ => rfl
      · rw [speaks_threads, setThread_threads, hw.threads_eq]

end WholeProgram

/-! ### The simulations -/

section Simulations

variable (sys : HostSystem) (sharedFiles : List (String × HostPath)) (n : ℕ) (config : Config)
variable (host : Host HostPath) (stdin : List UInt8)
variable (ok : WholeProgram n → ProgramAction n → Prop)

/-- **The program looks like `hypervisor`** to whoever watches the shared buffer. -/
theorem hypervisor_simulation :
    (wholeProgram sys sharedFiles n config host stdin).Simulation (hypervisor n) ok
      (fun _ s => s.Coherent config) WholeProgram.system ProgramEvent.event Event.visible where
  init := rfl
  step _ _ _ _ _ hs _ h := by
    cases WholeProgram.shownBy_advance hs (WholeProgram.step_cases h).2 with
    | keep hshow hsame => exact .inl ⟨hshow, hsame⟩
    | fail i hshow hstep => exact .inr ⟨.fail i, .fail i, hstep, hshow⟩
    | @halt i completed hstep => exact .inr ⟨.halt i, .halt i completed, hstep, rfl⟩
    | @port i e hvisible hstep =>
        refine .inr ⟨_, e, hstep, ?_⟩
        cases e with
        | fail j => exact absurd rfl (hvisible j)
        | _ => rfl
    | @finish _ i success hshow hstep =>
        exact .inr ⟨.finish i, .finish i success, hstep, hshow⟩
    | abort hshow hstep => exact .inr ⟨.abort, .abort, hstep, hshow⟩

/-- **The program follows `exitLoops`**, with the answers its handlers give. -/
theorem exitLoops_tracking :
    (wholeProgram sys sharedFiles n config host stdin).Tracking (exitLoops (n + 1)) ok
      (fun _ _ => True) WholeProgram.loops (ProgramAction.loopInput sys sharedFiles)
      ProgramEvent.loopEvent where
  init := rfl
  step _ _ _ _ _ _ _ h := WholeProgram.loops_advance (WholeProgram.step_cases h).2

/-- **The program looks like `exitLoops`** to whoever watches the loops. -/
theorem exitLoops_simulation :
    (wholeProgram sys sharedFiles n config host stdin).Simulation (exitLoops (n + 1)) ok
      (fun _ _ => True) WholeProgram.loops ProgramEvent.loopEvent fun _ => true :=
  (exitLoops_tracking sys sharedFiles n config host stdin ok).simulation

/-- **The program looks like `lifecycles`** to whoever watches the resources. -/
theorem lifecycles_simulation :
    (wholeProgram sys sharedFiles n config host stdin).Simulation (lifecycles (n + 1) config) ok
      (fun _ _ => True) WholeProgram.lives ProgramEvent.lifeEvent fun _ => true where
  init := rfl
  step _ _ _ _ _ _ _ h := WholeProgram.lives_advance (WholeProgram.step_cases h).2

/-- **Every run of the program is a run of `hypervisor`** with the events of the shared buffer,
apart from the failures a VM keeps to itself. -/
theorem hypervisor_of_run {tr : List (ProgramEvent n)} {s : WholeProgram n}
    (hrun : (wholeProgram sys sharedFiles n config host stdin).Run ok tr s) :
    ∃ tr', (hypervisor n).Run (fun _ _ => True) tr' s.system ∧
      tr'.filter Event.visible = tr.filterMap ProgramEvent.event :=
  (hypervisor_simulation sys sharedFiles n config host stdin ok).run
    (fun _ _ h => WholeProgram.coherent_of_run h) hrun

/-- The run that transfers a byte is one. -/
theorem hypervisor_of_run_returnsAfterByte : ∃ (tr : List (ProgramEvent 1)) (s : WholeProgram 1),
    s.main = .returned true ∧ ∃ tr', (hypervisor 1).Run (fun _ _ => True) tr' s.system ∧
      tr'.filter Event.visible = tr.filterMap ProgramEvent.event := by
  obtain ⟨tr, s, hrun, hmain, -⟩ := WholeProgram.exists_returnsAfterByte
  exact ⟨tr, s, hmain, hypervisor_of_run _ _ _ _ _ _ _ hrun⟩

/-- **What stands on the two output streams** is what the events of the run have written and
said, in order. -/
theorem streams_of_run {tr : List (ProgramEvent n)} {s : WholeProgram n}
    (hrun : (wholeProgram sys sharedFiles n config host stdin).Run ok tr s) :
    s.out = tr.reverse.flatMap ProgramEvent.writes ∧
      s.err = tr.reverse.flatMap ProgramEvent.errorLines := by
  refine hrun.invariant (I := fun tr s => s.out = tr.reverse.flatMap ProgramEvent.writes ∧
    s.err = tr.reverse.flatMap ProgramEvent.errorLines) ⟨rfl, rfl⟩ ?_
  rintro tr s a x s' ⟨hout, herr⟩ - h
  obtain ⟨hout', herr'⟩ := WholeProgram.streams_advance (WholeProgram.step_cases h).2
  rw [List.reverse_cons, List.flatMap_append, List.flatMap_append, List.flatMap_singleton,
    List.flatMap_singleton, hout', herr', hout, herr]
  exact ⟨rfl, rfl⟩

/-- **The exit loops of the program.** In every run, the machine of the exit loops, executed on
the answers that `KVM_RUN`, the handlers, standard input and the injections have given, shows what
the loops of the threads have shown and ends where they stand; what it has printed is what the
threads have written under `consoleMutex` and have yet to write. All else on the two output
streams comes from a set-up, from `inject_irq` or from `main`. -/
theorem exitLoops_of_run
    {rec : List (WholeProgram n × ProgramAction n × ProgramEvent n)} {s : WholeProgram n}
    (hrun : (wholeProgram sys sharedFiles n config host stdin).recorded.Run ok rec s) :
    (exitLoops (n + 1)).exec (fun _ _ => True) (exitLoops (n + 1)).init
        (rec.reverse.filterMap fun x => x.2.1.loopInput sys sharedFiles x.1) =
      some (rec.filterMap fun x => x.2.2.loopEvent, s.loops) ∧
    s.out = rec.reverse.flatMap (fun x => x.2.2.writes) ∧
    s.err = rec.reverse.flatMap fun x => x.2.2.errorLines := by
  refine ⟨(exitLoops_tracking sys sharedFiles n config host stdin ok).exec
    (fun _ _ _ => trivial) hrun, ?_⟩
  obtain ⟨hout, herr⟩ := streams_of_run sys sharedFiles n config host stdin ok
    (Machine.run_of_recorded hrun)
  rw [hout, herr, ← List.map_reverse, List.flatMap_map, List.flatMap_map]
  exact ⟨rfl, rfl⟩

/-- In the run that transfers a byte the loops print two lines, and nothing is said besides. -/
theorem exitLoops_of_run_returnsAfterByte :
    ∃ (rec : List (WholeProgram 1 × ProgramAction 1 × ProgramEvent 1)) (s : WholeProgram 1),
      s.stdout = bytesOf "[VM 1] KVM_EXIT_HLT\n[VM 0] KVM_EXIT_HLT\n" ∧
      (exitLoops 2).exec (fun _ _ => True) (exitLoops 2).init (rec.reverse.filterMap fun x =>
          x.2.1.loopInput (plainSystem fun _ => .completes) [] x.1) =
        some (rec.filterMap fun x => x.2.2.loopEvent, s.loops) ∧
      s.out = rec.reverse.flatMap (fun x => x.2.2.writes) ∧
      s.err = rec.reverse.flatMap fun x => x.2.2.errorLines := by
  obtain ⟨tr, s, hrun, -, hout⟩ := WholeProgram.exists_returnsAfterByte
  obtain ⟨rec, hrec, -⟩ := hrun.exists_recorded
  exact ⟨rec, s, hout, exitLoops_of_run _ _ _ _ _ _ _ hrec⟩

/-- **Every run of the program is a run of `lifecycles`**, with the system calls of the set-up. -/
theorem lifecycles_of_run {tr : List (ProgramEvent n)} {s : WholeProgram n}
    (hrun : (wholeProgram sys sharedFiles n config host stdin).Run ok tr s) :
    (lifecycles (n + 1) config).Run (fun _ _ => True) (tr.filterMap ProgramEvent.lifeEvent)
      s.lives :=
  (lifecycles_simulation sys sharedFiles n config host stdin ok).run_of_visible
    (fun _ _ _ => trivial) hrun

/-- The run that transfers a byte is one. -/
theorem lifecycles_of_run_returnsAfterByte : ∃ (tr : List (ProgramEvent 1)) (s : WholeProgram 1),
    s.main = .returned true ∧ (lifecycles 2 Lifecycles.smallConfig).Run (fun _ _ => True)
      (tr.filterMap ProgramEvent.lifeEvent) s.lives := by
  obtain ⟨tr, s, hrun, hmain, -⟩ := WholeProgram.exists_returnsAfterByte
  exact ⟨tr, s, hmain, lifecycles_of_run _ _ _ _ _ _ _ hrun⟩

end Simulations

end KvmHypervisor
