import KvmHypervisor.GuestRuns

/-!
# The Program as Its Default Guests

As long as the shared buffer is not stopped, the program with the guests of `guest/src` makes the
steps of the machine `defaultSystem`: its port instructions are the exits of the shared-buffer
ports, its file calls the requests of the file port. What is proved of that machine then holds of
the program.

A thread of `runGuest` has got over `runVirtualMachine` before it closes its files, and the
default guests do both at once. So here a thread counts as finished only when its files have been
closed.

## Main results

* `WholeProgram.plays_advance`: what a step of the program is for the default guests.
* `WholeProgram.Plays.follows`: the default guests make that step.
* `BootedProgram.defaultGuests_simulation`: a run without a stop is one of the default guests.
-/

open Transitions

namespace KvmHypervisor

open PosixFiles

variable {n : ℕ}

/-! ### Steps of one VM -/

namespace System

variable {s s' t : System n} {a : Action n} {e : Event n} {i : Fin (n + 1)}

/-- A VM that has ended takes no step. -/
theorem step_of_finished (hvm : a.vm = some i) {success : Bool}
    (hfinished : (s.vms i).status = .finished success) : s.step a = none := by
  cases a with
  | abort => cases hvm
  | _ =>
      obtain rfl := Option.some.inj hvm
      simp only [step, hfinished]

/-- The handler of VM `i` needs only the shared state and its own record. -/
theorem execute_local (hshared : t.shared = s.shared) (hvms : t.vms i = s.vms i) (run : KvmRun) :
    t.execute i run = ((s.execute i run).1,
      ⟨(s.execute i run).2.shared, Function.update t.vms i ((s.execute i run).2.vms i)⟩) := by
  have hhandle : t.handle i run = s.handle i run := by rw [handle, handle, hshared, hvms]
  unfold execute
  rw [hhandle, hshared, hvms]
  cases s.handle i run with
  | wait => simp [setStatus, hshared, hvms]
  | done result f => cases result <;> simp

/-- **A step of VM `i`** needs only the shared state and its own record. -/
theorem step_local (hvm : a.vm = some i) (hshared : t.shared = s.shared)
    (hvms : t.vms i = s.vms i) (h : s.step a = some (e, s')) :
    t.step a = some (e, ⟨s'.shared, Function.update t.vms i (s'.vms i)⟩) := by
  cases a with
  | abort => cases hvm
  | exit j run =>
      obtain rfl := Option.some.inj hvm
      cases hst : (s.vms j).status <;> simp only [step, hst, reduceCtorEq] at h
      rw [step_exit (by rw [hvms, hst]), execute_local hshared hvms, Option.some.inj h]
  | wake j =>
      obtain rfl := Option.some.inj hvm
      cases hst : (s.vms j).status <;> simp only [step, hst, reduceCtorEq] at h
      rename_i run
      cases hout : s.handle j run with
      | wait => simp only [hout, reduceCtorEq] at h
      | done result f =>
          simp only [hout, Option.some.injEq] at h
          have hhandle : t.handle j run = .done result f := by
            rw [handle, hshared, hvms]
            exact hout
          rw [step_wake (by rw [hvms, hst]) hhandle, execute_local hshared hvms, h]
  | halt j | fail j =>
      obtain rfl := Option.some.inj hvm
      cases hst : (s.vms j).status <;> simp only [step, hst, reduceCtorEq] at h
      cases h
      simp [step, hvms, hst, setStatus, hshared]
  | finish j =>
      obtain rfl := Option.some.inj hvm
      cases hst : (s.vms j).status <;> simp only [step, hst, reduceCtorEq] at h
      rename_i success
      cases success <;> cases h <;> simp [step, hvms, hst, setStatus, hshared]

/-- A VM that has ended with a failure has stopped the system. -/
theorem stopped_of_finished {ok : System n → Action n → Prop} {tr : List (Event n)}
    (hrun : (hypervisor n).Run ok tr s) (hfinished : (s.vms i).status = .finished false) :
    s.shared.stopped = true := by
  refine hrun.invariant (I := fun _ s => ∀ i, (s.vms i).status = .finished false →
    s.shared.stopped = true) (fun i h => by cases h) ?_ i hfinished
  rintro - s a e s' hI - h i hi
  by_cases hvm : a.vm = some i
  · obtain ⟨j, run, hpending, hrun⟩ | ⟨j, rfl, -, -, rfl⟩ | ⟨j, rfl, -, -, rfl⟩ |
      ⟨j, rfl, -, -, rfl⟩ | ⟨j, rfl, -, -, rfl⟩ | ⟨rfl, -, rfl⟩ := step_cases h
    · obtain rfl : j = i := Option.some.inj ((vm_of_pending hpending).symm.trans hvm)
      obtain ⟨f, c, -, -, -, -, rfl⟩ | ⟨-, -, rfl⟩ | ⟨-, -, rfl⟩ := execute_cases hrun <;>
        simp at hi
    all_goals cases hvm
    all_goals first | rfl | simp at hi
  · rw [vms_of_ne h hvm] at hi
    exact stopped_step h (hI i hi)

/-- A port instruction is served, parks or is rejected. -/
theorem visible_of_port {run : KvmRun} (h : s.step a = some (e, s'))
    (ha : a = .exit i run ∨ a = .wake i) :
    (∃ c, e = .call i c) ∨ e = .park i ∨ e = .reject i := by
  have hvm : a.vm = some i := by rcases ha with rfl | rfl <;> rfl
  obtain ⟨j, run', hpending, hrun⟩ | ⟨j, rfl, -⟩ | ⟨j, rfl, -⟩ | ⟨j, rfl, -⟩ | ⟨j, rfl, -⟩ |
    ⟨rfl, -⟩ := step_cases h
  · obtain rfl : j = i := Option.some.inj ((vm_of_pending hpending).symm.trans hvm)
    obtain ⟨f, c, -, -, -, rfl, -⟩ | ⟨-, rfl, -⟩ | ⟨-, rfl, -⟩ := execute_cases hrun
    · exact .inl ⟨c, rfl⟩
    · exact .inr (.inr rfl)
    · exact .inr (.inl rfl)
  all_goals rcases ha with ha | ha <;> cases ha

end System

/-! ### The shared buffer, with ends that close the files -/

/-- Where a thread stands, for the default guests: it ends when its files have been closed. -/
def GuestThread.closingStatus (t : GuestThread) : ThreadStatus :=
  match t.stage with
  | .closeGuestFiles => .returned t.completedSuccessfully
  | _ => t.status

/-- A thread in its loop. -/
theorem GuestThread.closingStatus_running {t : GuestThread} (hstage : t.stage = .runVirtualMachine)
    (hloop : t.life.stage = .loop) (hnone : t.loop.departure = none)
    (hwaiting : t.waiting = false) : t.closingStatus = .running := by
  simp only [closingStatus, hstage]
  exact status_running hstage hloop hnone hwaiting

/-- The program as the hypervisor of the default guests. -/
def WholeProgram.closingSystem (s : WholeProgram n) : System n where
  shared := s.shared
  vms i := ⟨(s.threads i).sharedBuffer, (s.threads i).closingStatus⟩

namespace WholeProgram

variable {s s' : WholeProgram n} {i : Fin (n + 1)} {t : GuestThread}

/-- A thread that is not about to close its files stands where it stands for the shared buffer. -/
theorem closingSystem_vms_of_ne (hstage : (s.threads i).stage ≠ .closeGuestFiles) :
    s.closingSystem.vms i = s.system.vms i := by
  have hstatus : (s.threads i).closingStatus = (s.threads i).status := by
    unfold GuestThread.closingStatus
    split <;> first | rfl | contradiction
  simp only [closingSystem, system, hstatus]

/-- One thread has changed. -/
theorem closingSystem_of_update (hshared : s'.shared = s.shared)
    (hthreads : s'.threads = Function.update s.threads i t) :
    s'.closingSystem = ⟨s.shared,
      Function.update s.closingSystem.vms i ⟨t.sharedBuffer, t.closingStatus⟩⟩ := by
  simp only [closingSystem, hshared, hthreads, System.mk.injEq, true_and]
  funext j
  by_cases hj : j = i
  · subst hj
    simp only [Function.update_self]
  · simp only [Function.update_of_ne hj]

/-- A thread has changed in nothing the default guests see. -/
theorem closingSystem_of_keep (hshared : s'.shared = s.shared)
    (hthreads : s'.threads = Function.update s.threads i t)
    (hbuffer : t.sharedBuffer = (s.threads i).sharedBuffer)
    (hstatus : t.closingStatus = (s.threads i).closingStatus) :
    s'.closingSystem = s.closingSystem := by
  rw [closingSystem_of_update hshared hthreads, hbuffer, hstatus]
  exact congrArg (System.mk s.shared) (Function.update_eq_self i s.closingSystem.vms)

/-- No thread has come further in `runGuest`. -/
def SameStages (s s' : WholeProgram n) : Prop :=
  ∀ i, (s'.threads i).stage = (s.threads i).stage ∧
    (s'.threads i).completedSuccessfully = (s.threads i).completedSuccessfully

theorem SameStages.of_update (hthreads : s'.threads = Function.update s.threads i t)
    (hstage : t.stage = (s.threads i).stage)
    (hcompleted : t.completedSuccessfully = (s.threads i).completedSuccessfully) :
    SameStages s s' := by
  intro j
  rw [hthreads]
  by_cases hj : j = i
  · subst hj
    rw [Function.update_self]
    exact ⟨hstage, hcompleted⟩
  · rw [Function.update_of_ne hj]
    exact ⟨rfl, rfl⟩

/-- A VM that has not changed for the shared buffer has not changed for the default guests. -/
theorem SameStages.closingSystem_vms (hstages : SameStages s s')
    (hvms : s'.system.vms i = s.system.vms i) :
    s'.closingSystem.vms i = s.closingSystem.vms i := by
  obtain ⟨hstage, hcompleted⟩ := hstages i
  by_cases hclosing : (s.threads i).stage = .closeGuestFiles
  · have hbuffer : (s'.threads i).sharedBuffer = (s.threads i).sharedBuffer :=
      congrArg VmThread.context hvms
    simp only [closingSystem, GuestThread.closingStatus, hstage.trans hclosing, hclosing,
      hcompleted, hbuffer]
  · rw [closingSystem_vms_of_ne hclosing, closingSystem_vms_of_ne (hstage.trans_ne hclosing), hvms]

/-- Where the shared buffer sees no step, the default guests see none. -/
theorem SameStages.closingSystem_eq (hstages : SameStages s s') (h : s'.system = s.system) :
    s'.closingSystem = s.closingSystem := by
  have hshared : s'.shared = s.shared := congrArg System.shared h
  have hvms : s'.closingSystem.vms = s.closingSystem.vms :=
    funext fun i => hstages.closingSystem_vms (congrFun (congrArg System.vms h) i)
  rw [show s'.closingSystem = ⟨s'.shared, s'.closingSystem.vms⟩ from rfl, hshared, hvms]
  rfl

/-- A step of the shared buffer is one of the default guests. -/
theorem SameStages.closingSystem_step (hstages : SameStages s s') {a : Action n} {e : Event n}
    (hvm : a.vm = some i) (h : s.system.step a = some (e, s'.system)) :
    s.closingSystem.step a = some (e, s'.closingSystem) := by
  have hstage : (s.threads i).stage ≠ .closeGuestFiles := by
    intro hclosing
    have hfinished : (s.system.vms i).status = .finished (s.threads i).completedSuccessfully := by
      simp only [system, GuestThread.status, hclosing]
    rw [System.step_of_finished hvm hfinished] at h
    cases h
  have hlocal := System.step_local (s := s.system) (t := s.closingSystem) hvm rfl
    (closingSystem_vms_of_ne hstage) h
  have hvms : s'.closingSystem.vms =
      Function.update s.closingSystem.vms i (s'.system.vms i) := by
    funext j
    by_cases hj : j = i
    · subst hj
      rw [Function.update_self]
      exact closingSystem_vms_of_ne ((hstages j).1.trans_ne hstage)
    · rw [Function.update_of_ne hj]
      refine hstages.closingSystem_vms (System.vms_of_ne h ?_)
      rw [hvm]
      exact fun heq => hj (Option.some.inj heq).symm
  rw [hlocal, ← hvms]
  rfl

end WholeProgram

/-! ### Steps of the program -/

/-- What the default guests see of a step. -/
def ProgramEvent.defaultEvent : ProgramEvent n → Option (DefaultEvent n)
  | .requested i _ answer => some (.file i answer)
  | .port _ e => some (.port e)
  | .halted i transferCompleted => some (.port (.halt i transferCompleted))
  | .closed i => some (.port (.finish i true))
  | _ => none

/-- A VM that leaves its loop with a failure shows it only at its end. -/
def DefaultEvent.visible : DefaultEvent n → Bool
  | .port e => e.visible
  | .file _ _ => true

namespace WholeProgram

variable {sys : HostSystem} {sharedFiles : List (String × HostPath)} {config : Config}
variable {s s' w : WholeProgram n} {a : ProgramAction n} {x : ProgramEvent n}
variable {i : Fin (n + 1)} {t : GuestThread}

/-- The thread of VM `i` is in its loop, with one task left. -/
structure Attends (s : WholeProgram n) (i : Fin (n + 1)) (task : Task) : Prop where
  inLoop : s.inLoop i = true
  result : (s.threads i).loop.result = none
  tasks : (s.threads i).loop.tasks = [task]

/-- What a step of the program is for the default guests: nothing; a VM fails; an instruction at
the shared buffer; a halt; a file call; the end of a thread. -/
inductive Plays (sys : HostSystem) (sharedFiles : List (String × HostPath))
    (s s' : WholeProgram n) : ProgramEvent n → Prop
  | idle {x : ProgramEvent n} : x.defaultEvent = none → s'.closingSystem = s.closingSystem →
      s'.files = s.files → Plays sys sharedFiles s s' x
  | crash {x : ProgramEvent n} (i : Fin (n + 1)) : x.defaultEvent = none →
      s.closingSystem.step (.fail i) = some (.fail i, s'.closingSystem) → s'.files = s.files →
      Plays sys sharedFiles s s' x
  | port {i : Fin (n + 1)} {e : Event n} : s.Attends i .handleSharedBufferIo →
      s.closingSystem.step
        (if (s.threads i).waiting then .wake i else .exit i (s.threads i).run) =
          some (e, s'.closingSystem) → s'.files = s.files → Plays sys sharedFiles s s' (.port i e)
  | halt {i : Fin (n + 1)} {transferCompleted : Bool} : s.Attends i .requireTransfer →
      s.closingSystem.step (.halt i) = some (.halt i transferCompleted, s'.closingSystem) →
      s'.files = s.files → Plays sys sharedFiles s s' (.halted i transferCompleted)
  | file {i : Fin (n + 1)} {call : GuestCall (n + 1)} {answer : Answer} :
      s.Attends i .handleFileIo → (s.closingSystem.vms i).status = .running →
      requestOf i (s.threads i) = some call → s'.closingSystem = s.closingSystem →
      (fileLayer sys sharedFiles).step s.files (.request call) = (some answer, s'.files) →
      Plays sys sharedFiles s s' (.requested i call answer)
  | close {i : Fin (n + 1)} :
      s.closingSystem.step (.finish i) = some (.finish i true, s'.closingSystem) →
      ((fileLayer sys sharedFiles).step s.files (.finish i)).2 = s'.files →
      Plays sys sharedFiles s s' (.closed i)

/-- A step the files do not see. -/
theorem files_eq_of_advance (h : Advance sys sharedFiles config s a x s')
    (hshow : x.fileEvent = none) : s'.files = s.files := by
  rcases files_advance h with ⟨-, hfiles⟩ | ⟨input, -, hshown⟩
  · exact hfiles
  · rw [hshow] at hshown
    cases hshown

/-- A step that neither the shared buffer nor the files show. -/
theorem plays_quiet (hs : Coherent config s) (h : Advance sys sharedFiles config s a x s')
    (hstages : SameStages s s') (hevent : x.event = none) (hfile : x.fileEvent = none)
    (hdefault : x.defaultEvent = none) : Plays sys sharedFiles s s' x := by
  have hfiles := files_eq_of_advance h hfile
  cases shownBy_advance hs h with
  | keep _ hsame => exact .idle hdefault (hstages.closingSystem_eq hsame) hfiles
  | fail i _ hstep => exact .crash i hdefault (hstages.closingSystem_step rfl hstep) hfiles
  | halt | port => cases hevent
  | finish hshow | abort hshow =>
      rw [hevent] at hshow
      cases hshow

/-- The shared buffer's part of an event at its ports. -/
theorem step_of_port (hs : Coherent config s) {e : Event n}
    (h : Advance sys sharedFiles config s a (.port i e) s')
    (hfinish : ∀ j success, e ≠ .finish j success) (habort : e ≠ .abort) :
    s.system.step (if (s.threads i).waiting then .wake i else .exit i (s.threads i).run) =
      some (e, s'.system) := by
  cases shownBy_advance hs h with
  | keep hshow | fail _ hshow => cases hshow
  | port _ hstep => exact hstep
  | finish hshow => exact absurd (Option.some.inj hshow) (hfinish _ _)
  | abort hshow => exact absurd (Option.some.inj hshow) habort

/-- An instruction at the shared buffer. -/
theorem plays_port (hs : Coherent config s) {e : Event n}
    (h : Advance sys sharedFiles config s a (.port i e) s') (hstages : SameStages s s')
    (hattends : s.Attends i .handleSharedBufferIo) (hfinish : ∀ j success, e ≠ .finish j success)
    (habort : e ≠ .abort) : Plays sys sharedFiles s s' (.port i e) := by
  refine .port hattends (hstages.closingSystem_step (i := i) ?_ (step_of_port hs h hfinish habort))
    (files_eq_of_advance h rfl)
  split_ifs <;> rfl

/-- The check at `KVM_EXIT_HLT`. -/
theorem plays_halt (hs : Coherent config s) {transferCompleted : Bool}
    (h : Advance sys sharedFiles config s a (.halted i transferCompleted) s')
    (hstages : SameStages s s') (hattends : s.Attends i .requireTransfer) :
    Plays sys sharedFiles s s' (.halted i transferCompleted) := by
  refine .halt hattends ?_ (files_eq_of_advance h rfl)
  cases shownBy_advance hs h with
  | keep hshow | fail _ hshow | finish hshow | abort hshow => cases hshow
  | halt hstep => exact hstages.closingSystem_step rfl hstep

/-- A file request that was served. -/
theorem plays_file {call : GuestCall (n + 1)} {answer : Answer}
    (h : Advance sys sharedFiles config s a (.requested i call answer) s')
    (hshared : s'.shared = s.shared) (hthreads : s'.threads = Function.update s.threads i t)
    (hbuffer : t.sharedBuffer = (s.threads i).sharedBuffer)
    (hattends : s.Attends i .handleFileIo) (hwaiting : (s.threads i).waiting = false)
    (hrequest : requestOf i (s.threads i) = some call) (hstage' : t.stage = .runVirtualMachine)
    (hloop' : t.life.stage = .loop) (hdeparture' : t.loop.departure = none)
    (hwaiting' : t.waiting = false) : Plays sys sharedFiles s s' (.requested i call answer) := by
  obtain ⟨hin, hresult, htasks⟩ := hattends
  obtain ⟨hstage, hloop⟩ := inLoop_iff.mp hin
  have hdeparture : (s.threads i).loop.departure = none := by
    rw [LoopVm.departure_of_running hresult, htasks]
    rfl
  have hstatus := GuestThread.closingStatus_running hstage hloop hdeparture hwaiting
  have hafter := GuestThread.closingStatus_running hstage' hloop' hdeparture' hwaiting'
  refine .file ⟨hin, hresult, htasks⟩ hstatus hrequest
    (closingSystem_of_keep hshared hthreads hbuffer (hafter.trans hstatus.symm)) ?_
  rcases files_advance h with ⟨hshown, -⟩ | ⟨input, hfiles, hshown⟩
  · cases hshown
  · obtain ⟨rfl, hanswer⟩ := Prod.mk.inj (Option.some.inj hshown)
    exact Prod.ext hanswer.symm hfiles

/-- A step of the exit loop. -/
theorem plays_loop (hs : Coherent config s) {input : LoopInput}
    {event : LoopEvent → ProgramEvent n} {e : LoopEvent} {vm : LoopVm} (hin : s.inLoop i = true)
    (hw : Surrounds sys sharedFiles s i a w t input event)
    (hstep : (s.threads i).loop.step input = some (e, vm))
    (hallows : s.allows i e.locks = true) :
    Plays sys sharedFiles s ((w.setThread i { t with loop := vm }).speaks i e) (event e) := by
  have h : Advance sys sharedFiles config s a (event e)
      ((w.setThread i { t with loop := vm }).speaks i e) := .loop hin hw hstep hallows
  obtain ⟨hstage, hlife, hcompleted, -⟩ := hw.frame
  have hthreads : ((w.setThread i { t with loop := vm }).speaks i e).threads =
      Function.update s.threads i { t with loop := vm } := by
    rw [speaks_threads, setThread_threads, hw.threads_eq]
  have hstages : SameStages s ((w.setThread i { t with loop := vm }).speaks i e) :=
    .of_update hthreads hstage hcompleted
  have ho := (hs.threads i).orderly
  cases hw with
  | port hout =>
      obtain ⟨hresult, htasks, -, -⟩ := ho.sharedBufferIo hstep
      refine plays_port hs h hstages ⟨hin, hresult, htasks⟩ (fun _ _ heq => ?_) fun heq => ?_
      all_goals split_ifs at heq
  | proceed =>
      split_ifs at h ⊢ with hcheck
      · obtain ⟨tasks, htasks⟩ := List.head?_eq_some_iff.mp hcheck
        have hresult := (LoopVm.step_eq_some hstep).1
        obtain rfl := ho.eq_nil hresult htasks (by simp)
        exact plays_halt hs h hstages ⟨hin, hresult, htasks⟩
      · exact plays_quiet hs h hstages rfl rfl rfl
  | @fileHandled frame hframe =>
      have hwaiting := (hs.threads i).waiting_eq_false hstep fun _ _ heq => by cases heq
      obtain ⟨hresult, ⟨-, result, hinput, -⟩ | ⟨task, tasks, htasks, hperform⟩⟩ :=
        LoopVm.step_eq_some hstep
      · cases hinput
      cases task <;> simp only [LoopVm.perform, reduceCtorEq] at hperform
      obtain rfl := ho.eq_nil hresult htasks (.inl rfl)
      cases hperform
      cases hrequest : requestOf i (s.threads i) with
      | none =>
          simp only [fileEvent, hrequest] at h ⊢
          exact plays_quiet hs h hstages rfl rfl rfl
      | some call =>
          simp only [fileEvent, hrequest] at h ⊢
          obtain ⟨hrun, hloop⟩ := inLoop_iff.mp hin
          exact plays_file h rfl hthreads rfl ⟨hin, hresult, htasks⟩ hwaiting hrequest hrun hloop
            (LoopVm.departure_of_running hresult) hwaiting
  | _ => exact plays_quiet hs h hstages rfl rfl rfl

/-- `runGuest` closes the files of its VM and ends. -/
theorem plays_close (h : Advance sys sharedFiles config s a (s.close sys i).1 (s.close sys i).2)
    (hstage : (s.threads i).stage = .closeGuestFiles)
    (hcompleted : (s.threads i).completedSuccessfully = true) :
    Plays sys sharedFiles s (s.close sys i).2 (s.close sys i).1 := by
  have hst : (s.closingSystem.vms i).status = .returned true := by
    simp only [closingSystem, GuestThread.closingStatus, hstage, hcompleted]
  refine .close ?_ ?_
  · simp only [System.step, hst]
    rw [closingSystem_of_update (s := s) (i := i) (show (s.close sys i).2.shared = _ from rfl) rfl]
    simp only [GuestThread.closingStatus, GuestThread.status, hcompleted]
    rfl
  · rcases files_advance h with ⟨hshown, -⟩ | ⟨input, hfiles, hshown⟩
    · cases hshown
    · obtain ⟨rfl, -⟩ := Prod.mk.inj (Option.some.inj hshown)
      exact hfiles

/-- **A step seen from the default guests**, as long as it does not stop the shared buffer. -/
theorem plays_advance (hs : Coherent config s)
    (hfailed : ∀ i, (s.system.vms i).status = .finished false → s.shared.stopped = true)
    (h : Advance sys sharedFiles config s a x s') (hstopped : s.shared.stopped = false)
    (hstopped' : s'.shared.stopped = false) : Plays sys sharedFiles s s' x := by
  have hadvance := h
  cases h with
  | @create started hlt hmain =>
      refine .idle rfl (closingSystem_of_keep (i := ⟨started, hlt⟩) rfl rfl rfl ?_)
        (files_eq_of_advance hadvance rfl)
      simp only [GuestThread.closingStatus, GuestThread.status,
        hs.creating started hmain ⟨started, hlt⟩ le_rfl]
  | createFails | joinFails | abort => cases hstopped'
  | join | exit | print => exact .idle rfl rfl rfl
  | @life a i =>
      exact plays_quiet hs hadvance (.of_update (i := i) rfl rfl rfl) rfl rfl rfl
  | loop hin hw hstep hallows => exact plays_loop hs hin hw hstep hallows
  | @park i hin hresult hask =>
      obtain ⟨tasks, htasks⟩ := List.head?_eq_some_iff.mp hask
      obtain rfl := (hs.threads i).orderly.eq_nil hresult htasks (by simp)
      exact plays_port hs hadvance
        (.of_update (i := i) rfl rfl rfl) ⟨hin, hresult, htasks⟩
        (by rintro _ _ ⟨⟩) (by rintro ⟨⟩)
  | @conclude i success hstage hreturned =>
      refine .idle (by cases success <;> rfl)
        (closingSystem_of_keep (i := i) rfl rfl rfl ?_)
        (files_eq_of_advance hadvance (by cases success <;> rfl))
      have hbefore : (s.threads i).closingStatus = .returned success := by
        simp only [GuestThread.closingStatus, hstage]
        exact GuestThread.status_of_result hstage (by rw [hreturned]; rfl)
      rw [hbefore]
      cases success <;> rfl
  | @close i hstage =>
      refine plays_close hadvance hstage ?_
      by_contra hnot
      rw [Bool.not_eq_true] at hnot
      have hstatus : (s.system.vms i).status = .finished false := by
        simp only [system, GuestThread.status, hstage, hnot]
      rw [hfailed i hstatus] at hstopped
      cases hstopped

end WholeProgram

/-! ### The default guests -/

namespace DefaultGuests

variable {World : Type} {T : Transducer World (FileInput (n + 1)) (Option Answer)}
variable {layout : Fin (n + 1) → RunLayout} {s s' : DefaultGuests n World} {m : DefaultMove n}

/-- A move that stands for an action of the hypervisor. -/
theorem step_of_action {a : Action n} (ha : s.action layout m = some a) {e : Event n}
    {system : System n} (h : s.system.step a = some (e, system)) :
    s.step T layout m = some (s.advance T (e, system)) := by
  cases m with
  | file i memory address => cases ha
  | _ => simp only [DefaultGuests.step, ha, Option.bind_some, h, Option.map_some]

/-- Only a file call shows as one. -/
theorem file_of_step {i : Fin (n + 1)} {answer : Answer}
    (h : s.step T layout m = some (.file i answer, s')) :
    ∃ memory address, m = .file i memory address := by
  obtain ⟨a, e₀, system, -, -, hadv⟩ | ⟨j, memory, address, call, answer', world, rfl, -, he, -⟩ :=
    step_cases h
  · cases e₀ <;> cases hadv
  · cases he
    exact ⟨memory, address, rfl⟩

/-- A file call shows as one. -/
theorem event_of_file {i : Fin (n + 1)} {memory : GuestMemory} {address : ℕ} {e : DefaultEvent n}
    (h : s.step T layout m = some (e, s')) (hm : m = .file i memory address) :
    ∃ answer, e = .file i answer := by
  subst hm
  obtain ⟨call, answer, world, -, rfl, -⟩ := serve_eq_some.mp h
  exact ⟨answer, rfl⟩

end DefaultGuests

/-- Events that answer no guest leave its program alone. -/
theorem ProgramEvent.follow_of_defaultEvent {x : ProgramEvent n} (h : x.defaultEvent = none)
    (i : Fin (n + 1)) (p : DefaultProgram) : x.follow i p = p := by
  cases x <;> first | rfl | cases h

namespace Aligned

variable {layout : RunLayout} {t : GuestThread} {g : Guest} {p : DefaultProgram}
variable {b : List UInt8}

/-- The guest of a thread that handles an exit of the shared-buffer ports. -/
theorem asks (hA : Aligned layout t g p b) (hlife : t.life.stage.result = none)
    (hresult : t.loop.result = none) (htasks : t.loop.tasks = [.handleSharedBufferIo]) :
    ∃ command, t.run = command.exit layout ∧ p.next = some command := by
  obtain ⟨-, hposition⟩ := hA.position hlife hresult (by rw [htasks]; rfl)
  cases hposition with
  | asking _ _ _ hrun hnext => exact ⟨_, hrun, hnext⟩
  | console _ hconsole =>
      rw [htasks] at hconsole
      exact hconsole.elim
  | still htasks' | interrupting htasks' | halting htasks' | requesting _ htasks'
  | fetching _ htasks' | served _ htasks' | answered _ _ _ htasks' =>
      rw [htasks] at htasks'
      simp at htasks'

/-- The guest of a thread that checks the transfer has come to its end. -/
theorem halts (hA : Aligned layout t g p b) (hlife : t.life.stage.result = none)
    (hresult : t.loop.result = none) (htasks : t.loop.tasks = [.requireTransfer]) :
    Halts t g p b := by
  obtain ⟨-, hposition⟩ := hA.position hlife hresult (by rw [htasks]; rfl)
  cases hposition with
  | halting _ hhalts => exact hhalts
  | console _ hconsole =>
      rw [htasks] at hconsole
      exact hconsole.elim
  | still htasks' | interrupting htasks' | asking _ htasks' | requesting _ htasks'
  | fetching _ htasks' | served _ htasks' | answered _ _ _ htasks' =>
      rw [htasks] at htasks'
      simp at htasks'

/-- The guest of a thread that serves a request has made a file call. -/
theorem requests (hA : Aligned layout t g p b) (hlife : t.life.stage.result = none)
    (hresult : t.loop.result = none) (htasks : t.loop.tasks = [.handleFileIo]) {i : Fin (n + 1)}
    {request : GuestCall (n + 1)} (hrequest : WholeProgram.requestOf i t = some request) :
    ∃ call buffer, p.fileCall = some call ∧ call.InMemory t.memory buffer ∧
      request = ⟨i, t.memory, call.request buffer⟩ := by
  obtain ⟨-, hposition⟩ := hA.position hlife hresult (by rw [htasks]; rfl)
  cases hposition with
  | @requesting call _ buffer _ _ _ _ _ hrun hat hcall =>
      rw [hat.requestOf hrun] at hrequest
      exact ⟨call, buffer, hcall, hat.2.2.2, (Option.some.inj hrequest).symm⟩
  | fetching _ _ _ hrun =>
      rw [WholeProgram.requestOf, hrun, if_neg (by simp [PortCommand.exit, kvmExitIoIn,
        kvmExitIoOut])] at hrequest
      cases hrequest
  | console _ hconsole =>
      rw [htasks] at hconsole
      exact hconsole.elim
  | still htasks' | interrupting htasks' | halting htasks' | asking _ htasks'
  | served _ htasks' | answered _ _ _ htasks' =>
      rw [htasks] at htasks'
      simp at htasks'

end Aligned

namespace WholeProgram

variable {sys : HostSystem} {sharedFiles : List (String × HostPath)} {config : Config}
variable {s s' : WholeProgram n} {x : ProgramEvent n}
variable {layout : Fin (n + 1) → RunLayout} {guests : Fin (n + 1) → Guest}
variable {programs : Fin (n + 1) → DefaultProgram} {outputs : Fin (n + 1) → List UInt8}
variable {world : FileWorld (n + 1)}

/-- The program as the default guests, with what is left of their programs. -/
def asDefault (s : WholeProgram n) (programs : Fin (n + 1) → DefaultProgram) :
    DefaultGuests n (FileWorld (n + 1)) where
  system := s.closingSystem
  world := s.files
  programs := programs

/-- An attending thread is in its loop. -/
theorem Attends.life {i : Fin (n + 1)} {task : Task} (h : s.Attends i task) :
    (s.threads i).life.stage.result = none := by
  rw [(inLoop_iff.mp h.inLoop).2]
  rfl

/-- An instruction at the shared buffer is one of the default guest's. -/
theorem follows_port (hA : BootedProgram.AllAligned layout s guests programs outputs)
    {i : Fin (n + 1)} {e : Event n} (hattends : s.Attends i .handleSharedBufferIo)
    (hstep : s.closingSystem.step
      (if (s.threads i).waiting then .wake i else .exit i (s.threads i).run) =
        some (e, s'.closingSystem)) (hfiles : s'.files = s.files) :
    (defaultSystem (fileLayer sys sharedFiles) layout world).Follows DefaultEvent.visible
      (ProgramEvent.port i e).defaultEvent (s.asDefault programs)
      (s'.asDefault fun j => (ProgramEvent.port i e).follow j (programs j)) := by
  obtain ⟨command, hrun, hnext⟩ := (hA i).asks hattends.life hattends.result hattends.tasks
  obtain ⟨m, a, ha, hm, hport⟩ : ∃ m a,
      (if (s.threads i).waiting then .wake i else .exit i (s.threads i).run) = a ∧
      (s.asDefault programs).action layout m = some a ∧
      (a = .exit i (s.threads i).run ∨ a = .wake i) := by
    cases (s.threads i).waiting with
    | true => exact ⟨.wake i, .wake i, rfl, rfl, .inr rfl⟩
    | false =>
        refine ⟨.issue i, .exit i (s.threads i).run, rfl, ?_, .inl rfl⟩
        show (programs i).next.map _ = _
        rw [hnext, hrun]
        rfl
  rw [ha] at hstep
  have hevent := System.visible_of_port hstep hport
  refine .inr ⟨m, .port e, (DefaultGuests.step_of_action hm hstep).trans ?_, ?_⟩
  · rcases hevent with ⟨c, rfl⟩ | rfl | rfl
    · simp only [DefaultGuests.advance, asDefault, hfiles, Option.some.injEq, Prod.mk.injEq,
        true_and]
      congr 1
      funext j
      by_cases hj : j = i
      · subst hj
        simp [ProgramEvent.follow]
      · rw [Function.update_of_ne hj]
        exact (if_neg (Ne.symm hj)).symm
    all_goals
      simp only [DefaultGuests.advance, asDefault, hfiles]
      rfl
  · rcases hevent with ⟨c, rfl⟩ | rfl | rfl <;> rfl

/-- A file request is a call of the default guest. -/
theorem follows_file (hA : BootedProgram.AllAligned layout s guests programs outputs)
    {i : Fin (n + 1)} {request : GuestCall (n + 1)} {answer : Answer}
    (hattends : s.Attends i .handleFileIo) (hrunning : (s.closingSystem.vms i).status = .running)
    (hrequest : requestOf i (s.threads i) = some request)
    (hsame : s'.closingSystem = s.closingSystem)
    (hserved : (fileLayer sys sharedFiles).step s.files (.request request) =
      (some answer, s'.files)) :
    (defaultSystem (fileLayer sys sharedFiles) layout world).Follows DefaultEvent.visible
      (ProgramEvent.requested i request answer).defaultEvent (s.asDefault programs)
      (s'.asDefault fun j => (ProgramEvent.requested i request answer).follow j (programs j)) := by
  obtain ⟨call, buffer, hcall, hmemory, rfl⟩ :=
    (hA i).requests hattends.life hattends.result hattends.tasks hrequest
  have hstep : (s.asDefault programs).serve (fileLayer sys sharedFiles) i (s.threads i).memory
      buffer = some (.file i answer,
        (s.asDefault programs).afterFile i buffer answer s'.files) :=
    DefaultGuests.serve_eq_some.mpr
      ⟨call, answer, s'.files, ⟨hrunning, hcall, hmemory, hserved⟩, rfl, rfl⟩
  refine .inr ⟨.file i (s.threads i).memory buffer, .file i answer, hstep.trans ?_, rfl⟩
  simp only [DefaultGuests.afterFile, asDefault, hsame, Option.some.injEq, Prod.mk.injEq,
    true_and]
  congr 1
  funext j
  by_cases hj : j = i
  · subst hj
    simp only [Function.update_self, ProgramEvent.follow, if_true]
    exact (DefaultProgram.returned_request hcall buffer answer).symm
  · rw [Function.update_of_ne hj]
    exact (if_neg (Ne.symm hj)).symm

/-- **A step of the program is one of its default guests.** -/
theorem Plays.follows (h : Plays sys sharedFiles s s' x)
    (hA : BootedProgram.AllAligned layout s guests programs outputs) :
    (defaultSystem (fileLayer sys sharedFiles) layout world).Follows DefaultEvent.visible
      x.defaultEvent (s.asDefault programs) (s'.asDefault fun j => x.follow j (programs j)) := by
  cases h with
  | idle hdefault hsame hfiles =>
      refine .inl ⟨hdefault, ?_⟩
      simp only [asDefault, hsame, hfiles, ProgramEvent.follow_of_defaultEvent hdefault]
  | crash i hdefault hstep hfiles =>
      have haction : (s.asDefault programs).action layout (.crash i) = some (.fail i) := rfl
      refine .inr ⟨.crash i, .port (.fail i),
        (DefaultGuests.step_of_action haction hstep).trans ?_, hdefault⟩
      simp only [DefaultGuests.advance, asDefault, hfiles,
        ProgramEvent.follow_of_defaultEvent hdefault]
  | port hattends hstep hfiles => exact follows_port hA hattends hstep hfiles
  | @halt i transferCompleted hattends hstep hfiles =>
      obtain ⟨-, -, vmMode, hprogram, -⟩ :=
        (hA i).halts hattends.life hattends.result hattends.tasks
      have haction : (s.asDefault programs).action layout (.halt i) = some (.halt i) := by
        simp only [DefaultGuests.action, asDefault, hprogram, DefaultProgram.transferred]
      refine .inr ⟨.halt i, .port (.halt i transferCompleted),
        (DefaultGuests.step_of_action haction hstep).trans ?_, rfl⟩
      simp only [DefaultGuests.advance, asDefault, hfiles]
      rfl
  | file hattends hrunning hrequest hsame hserved =>
      exact follows_file hA hattends hrunning hrequest hsame hserved
  | @close i hstep hfiles =>
      have haction : (s.asDefault programs).action layout (.finish i) = some (.finish i) := rfl
      refine .inr ⟨.finish i, .port (.finish i true),
        (DefaultGuests.step_of_action haction hstep).trans ?_, rfl⟩
      simp only [DefaultGuests.advance, asDefault, hfiles]
      rfl

/-- The shared buffer stays stopped. -/
theorem ShownBy.stopped (h : ShownBy s s' x) (hstop : s.shared.stopped = true) :
    s'.shared.stopped = true := by
  cases h with
  | keep _ hsame =>
      have hshared : s'.shared = s.shared := congrArg System.shared hsame
      rw [hshared, hstop]
  | fail _ _ hstep | halt hstep | port _ hstep | finish _ hstep | abort _ hstep =>
      exact System.stopped_step (s := s.system) hstep hstop

end WholeProgram

/-! ### Runs -/

/-- What the default guests see of a step. -/
def BootedEvent.defaultEvent (x : BootedEvent n) : Option (DefaultEvent n) :=
  x.programEvent.bind ProgramEvent.defaultEvent

/-- The program with its guests, as the default guests. -/
def BootedProgram.asDefault (tr : List (BootedEvent n)) (s : BootedProgram n) :
    DefaultGuests n (FileWorld (n + 1)) :=
  s.program.asDefault fun i => programOf i (programEvents tr)

namespace BootedProgram

variable {sys : HostSystem} {sharedFiles : List (String × HostPath)} {config : Config}
variable {layout : Fin (n + 1) → RunLayout} {host : Host HostPath} {stdin : List UInt8}
variable {ok : BootedProgram n → BootedAction n → Prop} {tr : List (BootedEvent n)}
variable {s s' : BootedProgram n} {a : BootedAction n} {x : BootedEvent n}
variable {world : FileWorld (n + 1)}

/-- A step of the program. -/
theorem follows_program {b : ProgramAction n} {y : ProgramEvent n}
    (hrun : (bootedProgram sys sharedFiles n config layout host stdin).Run ok tr s)
    (h : s.program.step sys sharedFiles config b = some (y, s'.program))
    (hstopped : s.program.shared.stopped = false) (hstopped' : s'.program.shared.stopped = false) :
    (defaultSystem (fileLayer sys sharedFiles) layout world).Follows DefaultEvent.visible
      (BootedEvent.program y).defaultEvent (asDefault tr s) (asDefault (.program y :: tr) s') := by
  obtain ⟨hs, hA⟩ := aligned_of_run hrun
  obtain ⟨tr', hsystem, -⟩ := (hypervisor_simulation sys sharedFiles n config host stdin
    fun _ _ => True).run (fun _ _ h => WholeProgram.coherent_of_run h)
      (wholeProgram_of_booted sys sharedFiles n config layout host stdin ok hrun)
  exact (WholeProgram.plays_advance hs (fun i hi => System.stopped_of_finished hsystem hi)
    (WholeProgram.step_cases h).2 hstopped hstopped').follows hA

/-- **As long as the shared buffer is not stopped, the program is its default guests.** -/
theorem defaultGuests_simulation (sys : HostSystem) (sharedFiles : List (String × HostPath))
    (config : Config) (layout : Fin (n + 1) → RunLayout) (host : Host HostPath)
    (stdin : List UInt8) (ok : BootedProgram n → BootedAction n → Prop) :
    (bootedProgram sys sharedFiles n config layout host stdin).TracedSimulation
      (defaultSystem (fileLayer sys sharedFiles) layout (FileWorld.start host)) ok
      (fun s => s.program.shared.stopped = false) asDefault BootedEvent.defaultEvent
      DefaultEvent.visible where
  init := rfl
  keep_of_step tr s a x s' hrun h hstopped := by
    have hprogram : ∀ {b y w}, s.program.step sys sharedFiles config b = some (y, w) →
        w.shared.stopped = false → s.program.shared.stopped = false := by
      intro b y w hs hnot
      rw [← Bool.not_eq_true] at hnot ⊢
      exact fun hstop => hnot ((WholeProgram.shownBy_advance (aligned_of_run hrun).1
        (WholeProgram.step_cases hs).2).stopped hstop)
    cases step_cases h with
    | program _ hs | kvmRun _ _ hs => exact hprogram hs hstopped
    | guest => exact hstopped
  step tr s a x s' hrun _ h hstopped hstopped' := by
    cases step_cases h with
    | program _ hs | kvmRun _ _ hs => exact follows_program hrun hs hstopped hstopped'
    | guest =>
        refine .inl ⟨?_, ?_⟩
        · rw [BootedEvent.defaultEvent, BootedEvent.programEvent_ofMove, Option.bind_none]
        · rw [asDefault, asDefault, programEvents,
            List.filterMap_cons_none (BootedEvent.programEvent_ofMove ..)]
          rfl

end BootedProgram

end KvmHypervisor
