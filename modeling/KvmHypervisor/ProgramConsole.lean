import KvmHypervisor.ConsoleOutput
import KvmHypervisor.ProgramViews

/-!
# The Console of the Program

Standard output of the whole program. A thread that prints a line of its VM holds
`consoleMutex`, so the lines of `ConsoleOutput` stand there one after the other, each of them in
one piece. The set-up of a VM holds no mutex. It prints with `printf` when the kernel has another
version of the KVM interface and when the image does not fit into the guest memory, and then its
text stands alone, without a prefix, or in the middle of the line of another VM.

## Main results

* `console_in_order_of_run`: every run in which the set-ups have nothing to print.
* `console_in_order_false`: an image that is too large.
* `exists_tornLine`: its message in the line of another VM.
-/

open Transitions

namespace KvmHypervisor

open PosixFiles

variable {n : ℕ}

/-! ### Set-ups that print nothing -/

/-- The report goes to standard output. -/
def SetupReport.isPrinted : SetupReport → Bool
  | .printed _ => true
  | _ => false

namespace VmLife

/-- The answer suits the program: the kernel has its version of the interface, and the image is
not larger than the guest memory from `GUEST_START_ADDR` on. -/
def Suits (v : VmLife) (answer : KernelAnswer) : Prop :=
  match v.stage, answer with
  | .getApiVersion, .value api => api = kvmApiVersion
  | .tellImage, .value size =>
    size.toNat ≤ (v.vm.memSize + (2 ^ 64 - guestStartAddr)) % 2 ^ 64
  | _, _ => True

instance (v : VmLife) (answer : KernelAnswer) : Decidable (v.Suits answer) := by
  unfold Suits
  split <;> infer_instance

/-- What the set-up has yet to report does not go to standard output. -/
def Discreet (v : VmLife) : Prop :=
  match v.stage with
  | .report reports => ∀ report ∈ reports, report.isPrinted = false
  | .reportImage report => report.isPrinted = false
  | _ => True

/-- A step has printed nothing, and there is nothing to print after it. -/
structure PrintsNothing (n : ℕ) (e : LifeEvent) (v : VmLife) : Prop where
  discreet : v.Discreet
  writes : ∀ i : Fin (n + 1), e.writes i = []

variable {v v' : VmLife} {e : LifeEvent} {answer : KernelAnswer} {pageSize : ℕ}

/-- What is shown of an outcome is shown of the step that has it. -/
theorem PrintsNothing.of_eq {p : LifeEvent × VmLife} (h : some p = some (e, v'))
    (hp : p.2.Discreet) (hwrites : ∀ i : Fin (n + 1), p.1.writes i = []) :
    PrintsNothing n e v' := by
  cases Option.some.inj h
  exact ⟨hp, hwrites⟩

/-- Releasing a resource prints nothing. -/
theorem writes_release (v : VmLife) (k : VmSlot) (stage : Stage) (i : Fin (n + 1)) :
    (v.release k stage).1.writes i = [] := by
  rw [release]
  cases v.handles k <;> rfl

/-- After a release only the stage decides. -/
theorem Discreet.release (k : VmSlot) {stage : Stage} (h : Discreet { v with stage := stage }) :
    (v.release k stage).2.Discreet := by
  rw [VmLife.release]
  cases v.handles k <;> exact h

theorem discreet_vmInit (hsuits : v.Suits answer) (h : v.vmInit answer = some (e, v')) :
    PrintsNothing n e v' := by
  have hreport : ∀ (w : VmLife) (text : String),
      Discreet { w with stage := .report (initFailed (.perror text)) } := by
    intro w text
    simp [Discreet, initFailed, SetupReport.isPrinted]
  unfold vmInit at h
  cases hstage : v.stage <;> cases answer <;> simp only [hstage, reduceCtorEq] at h
  case getApiVersion.value api =>
    simp only [Suits, hstage] at hsuits
    rw [if_neg (not_not.mpr hsuits)] at h
    exact .of_eq h trivial fun _ => rfl
  case getVcpuMmapSize.value size =>
    split_ifs at h
    · exact .of_eq h (hreport _ _) fun _ => rfl
    · exact .of_eq h trivial fun _ => rfl
  case mapMemory.acquired address | mapRun.acquired address =>
    split_ifs at h
    exact .of_eq h trivial fun _ => rfl
  all_goals first
    | exact .of_eq h trivial fun _ => rfl
    | exact .of_eq h (hreport _ _) fun _ => rfl

theorem discreet_loadImage (hv : v.Discreet) (hsuits : v.Suits answer)
    (h : v.loadImage answer = some (e, v')) :
    PrintsNothing n e v' := by
  have hreport : ∀ (w : VmLife) (text : String),
      Discreet { w with stage := .reportImage (.perror text) } := fun _ _ => rfl
  have hfailed : Discreet { v with stage := .report [loadFailed] } := by
    simp [Discreet, loadFailed, SetupReport.isPrinted]
  unfold loadImage at h
  cases hstage : v.stage <;> cases answer <;> simp only [hstage, reduceCtorEq] at h
  case openImage.failed =>
    exact .of_eq h (by simp [Discreet, goto, loadFailed, SetupReport.isPrinted]) fun _ => rfl
  case openImage.acquired file =>
    split_ifs at h
    exact .of_eq h trivial fun _ => rfl
  case tellImage.value size =>
    simp only [Suits, hstage] at hsuits
    split_ifs at h with hneg hlarge
    · exact .of_eq h (hreport _ _) fun _ => rfl
    · exact absurd hlarge (not_lt.mpr hsuits)
    · exact .of_eq h trivial fun _ => rfl
  case readImage.content size bytes =>
    split_ifs at h
    · exact .of_eq h (hreport _ _) fun _ => rfl
    · exact .of_eq h trivial fun _ => rfl
  case reportImage.proceed report =>
    refine .of_eq h trivial fun _ => ?_
    simp only [Discreet, hstage] at hv
    cases report <;> first | rfl | cases hv
  case closeImage.proceed loaded =>
    cases loaded
    · exact .of_eq h (.release _ hfailed) (writes_release _ _ _)
    · exact .of_eq h (.release _ trivial) (writes_release _ _ _)
  all_goals first
    | exact .of_eq h trivial fun _ => rfl
    | exact .of_eq h (hreport _ _) fun _ => rfl

theorem discreet_vmDestroy (h : v.vmDestroy answer = some (e, v')) :
    PrintsNothing n e v' := by
  unfold vmDestroy at h
  cases hstage : v.stage <;> cases answer <;> simp only [hstage, reduceCtorEq] at h
  all_goals exact .of_eq h (.release _ trivial) (writes_release _ _ _)

/-- **A step of a set-up prints nothing**, if the answers suit the program. -/
theorem Discreet.step (hv : v.Discreet) (hsuits : v.Suits answer)
    (h : v.step pageSize answer = some (e, v')) :
    PrintsNothing n e v' := by
  have hreport : ∀ (operation : String) (errorNumber : ℕ), Discreet
      { v with stage := .report [.error (.systemError operation errorNumber)] } := by
    intro operation errorNumber
    simp [Discreet, SetupReport.isPrinted]
  unfold VmLife.step at h
  split at h <;> rename_i hstage
  case h_2 | h_4 | h_6 => exact .of_eq h (hreport _ _) fun _ => rfl
  case h_9 report reports =>
    simp only [Discreet, hstage, List.mem_cons, forall_eq_or_imp] at hv
    refine .of_eq h hv.2 fun _ => ?_
    obtain ⟨hprinted, -⟩ := hv
    cases report <;> first | rfl | cases hprinted
  case h_10 =>
    rw [Option.or_eq_some_iff, Option.or_eq_some_iff] at h
    rcases h with (hinit | ⟨-, hload⟩) | ⟨-, hdestroy⟩
    · exact discreet_vmInit hsuits hinit
    · exact discreet_loadImage hv hsuits hload
    · exact discreet_vmDestroy hdestroy
  all_goals exact .of_eq h trivial fun _ => rfl

end VmLife

/-! ### The streams in such runs -/

namespace WholeProgram

variable {sys : HostSystem} {sharedFiles : List (String × HostPath)} {config : Config}
variable {s s' : WholeProgram n} {a : ProgramAction n} {x : ProgramEvent n}

/-- The kernel answers the set-ups what suits the program. -/
def SetUpsSuit (s : WholeProgram n) (a : ProgramAction n) : Prop :=
  match a with
  | .life i answer => (s.threads i).life.Suits answer
  | _ => True

instance (s : WholeProgram n) (a : ProgramAction n) : Decidable (s.SetUpsSuit a) := by
  unfold SetUpsSuit
  split <;> infer_instance

/-- All that stands on standard output has been written under `consoleMutex`, and the set-ups
have nothing else to print. -/
structure Undisturbed (s : WholeProgram n) : Prop where
  lives : ∀ i, (s.threads i).life.Discreet
  out : s.stdout = s.out.flatMap OutputWrite.lockedBytes

/-- A step that prints nothing, or holds the console. -/
theorem Undisturbed.update (hU : Undisturbed s) {writes : List (OutputWrite n)}
    (hlives : ∀ i, (s'.threads i).life.Discreet) (hout : s'.out = s.out ++ writes)
    (hwrites : writes.flatMap OutputWrite.bytes = writes.flatMap OutputWrite.lockedBytes) :
    Undisturbed s' where
  lives := hlives
  out := by rw [stdout, hout, List.flatMap_append, List.flatMap_append, ← hU.out, hwrites, stdout]

/-- **A step disturbs nobody**, if the kernel answers what suits the program. -/
theorem Undisturbed.advance (hU : Undisturbed s) (hsuits : s.SetUpsSuit a)
    (h : Advance sys sharedFiles config s a x s') : Undisturbed s' := by
  have hkeep : ∀ {i : Fin (n + 1)} {t : GuestThread} {threads : Fin (n + 1) → GuestThread},
      threads = Function.update s.threads i t → t.life.Discreet →
      ∀ j, (threads j).life.Discreet := by
    intro i t threads heq ht
    rw [heq, Function.forall_update_iff s.threads fun _ t => t.life.Discreet]
    exact ⟨ht, fun j _ => hU.lives j⟩
  cases h with
  | @create started hlt =>
      exact hU.update (hkeep (i := ⟨started, hlt⟩) rfl (hU.lives _)) (List.append_nil _).symm rfl
  | createFails | join | joinFails | exit =>
      exact hU.update hU.lives (List.append_nil _).symm rfl
  | print => exact hU.update hU.lives rfl rfl
  | @life _ i answer e v hstage hloop ha hstep =>
      have hanswer : (s.threads i).life.Suits answer := by
        rcases ha with rfl | ⟨rfl, hin⟩
        · exact hsuits
        · simp only [VmLife.Suits, hin]
      obtain ⟨hdiscreet, hwrites⟩ := (hU.lives i).step (n := n) hanswer hstep
      exact hU.update (hkeep (i := i) rfl hdiscreet) rfl (by rw [hwrites]; rfl)
  | @loop _ i w t input event e vm hin hw hstep =>
      refine hU.update (hkeep (i := i) (t := { t with loop := vm }) ?_ ?_)
        (hw.streams.1.trans (List.append_nil _).symm) rfl
      · rw [speaks_threads, setThread_threads, hw.threads_eq]
      · rw [show ({ t with loop := vm } : GuestThread).life = (s.threads i).life from hw.frame.2.1]
        exact hU.lives i
  | @park i | @conclude i | @abort i | @close i =>
      exact hU.update (hkeep (i := i) rfl (hU.lives i)) (List.append_nil _).symm rfl

end WholeProgram

/-! ### What the guests write -/

/-- What the end of a `KVM_RUN` of VM `i` writes to the serial port. -/
def ProgramAction.serialOutput (i : Fin (n + 1)) : ProgramAction n → List UInt8
  | .kvmRun j result _ => if j = i then (LoopInput.kvmRun result).serialOutput else []
  | _ => []

namespace WholeProgram

variable {sys : HostSystem} {sharedFiles : List (String × HostPath)} {config : Config}
variable {s s' : WholeProgram n} {a : ProgramAction n} {x : ProgramEvent n}
variable {rec : List (WholeProgram n × ProgramAction n × ProgramEvent n)}

/-- What the guest of VM `i` has written to the serial port, in order. -/
def writtenTo (i : Fin (n + 1))
    (rec : List (WholeProgram n × ProgramAction n × ProgramEvent n)) : List UInt8 :=
  rec.reverse.flatMap fun x => x.2.1.serialOutput i

/-- The lines the threads have printed, in order. -/
def linesOf (rec : List (WholeProgram n × ProgramAction n × ProgramEvent n)) :
    List (ConsoleLine (n + 1)) :=
  consoleLines (rec.filterMap fun x => x.2.2.loopEvent)

/-- What an exit loop is answered holds what its guest writes. -/
theorem serialOutput_of_loopInput {i j : Fin (n + 1)} {input : LoopInput}
    (h : a.loopInput sys sharedFiles s = some (j, input)) :
    a.serialOutput i = if j = i then input.serialOutput else [] := by
  cases a with
  | sharedBufferIo k =>
      simp only [ProgramAction.loopInput] at h
      split at h <;> cases h
      exact (ite_self _).symm
  | kvmRun => cases h; rfl
  | fileIo | serialInput | injected | proceed =>
      cases h
      exact (ite_self _).symm
  | _ => cases h

/-- Nothing is written where no exit loop is answered. -/
theorem serialOutput_of_loopInput_eq_none {i : Fin (n + 1)}
    (h : a.loopInput sys sharedFiles s = none) : a.serialOutput i = [] := by
  cases a with
  | kvmRun => cases h
  | _ => rfl

/-- A step takes what its exit writes. -/
theorem writtenBytes_advance (i : Fin (n + 1))
    (h : Advance sys sharedFiles config s a x s') (tr : List (Fin (n + 1) × LoopEvent)) :
    writtenBytes i (x.loopEvent.toList ++ tr) = writtenBytes i tr ++ a.serialOutput i := by
  rcases loops_advance h with ⟨hinput, hevent, -⟩ | ⟨⟨j, input⟩, e, hinput, hevent, hstep⟩
  · rw [hevent, serialOutput_of_loopInput_eq_none hinput, List.append_nil]
    rfl
  · obtain ⟨k, input', event, vm, hpair, rfl, hvm, -⟩ := ExitLoops.step_eq_some hstep
    obtain ⟨rfl, rfl⟩ := Prod.mk.inj hpair
    rw [hevent, serialOutput_of_loopInput hinput, ← LoopVm.written_step hvm]
    exact writtenBytes_cons i j event tr

/-- **What the loops have taken is what the guests have written.** -/
theorem writtenBytes_eq_writtenTo {sys : HostSystem} {sharedFiles : List (String × HostPath)}
    {config : Config} {host : Host HostPath} {stdin : List UInt8}
    {ok : WholeProgram n → ProgramAction n → Prop} (i : Fin (n + 1))
    (hrun : (wholeProgram sys sharedFiles n config host stdin).recorded.Run ok rec s) :
    writtenBytes i (rec.filterMap fun x => x.2.2.loopEvent) = writtenTo i rec := by
  induction hrun with
  | refl => rfl
  | @step rec t u a x _ _ hs ih =>
      obtain ⟨e, hstep, rfl⟩ := Machine.recorded_step_eq_some.mp hs
      rw [writtenTo, List.reverse_cons, List.flatMap_append, List.flatMap_singleton,
        ← writtenTo, ← ih, ← writtenBytes_advance i (step_cases hstep).2]
      rw [List.filterMap_cons]
      cases e.loopEvent <;> rfl

/-! ### The console in order -/

/-- **The console in order**, at a moment when no thread holds `consoleMutex`: standard output is
a sequence of whole lines, each of one VM, and the lines of a VM hold what its guest has written,
as far as it does not stand in its buffer yet. -/
structure InOrder (rec : List (WholeProgram n × ProgramAction n × ProgramEvent n))
    (s : WholeProgram n) : Prop where
  output : s.stdout = (linesOf rec).flatMap ConsoleLine.render
  newlineFree : ∀ line ∈ linesOf rec, newline ∉ line.text
  messages : ∀ line ∈ linesOf rec, line.kind = .message →
    line.text = haltText ∨ ∃ exitReason, line.text = unexpectedExitText exitReason
  accounting : ∀ i, serialBytes i (linesOf rec) ++ (s.threads i).loop.serialOutputBuffer =
    writtenTo i rec

section Runs

variable {host : Host HostPath} {stdin : List UInt8}

/-- The threads write under `consoleMutex` alone, as long as the set-ups have nothing to print. -/
theorem undisturbed_of_run {tr : List (ProgramEvent n)}
    (hrun : (wholeProgram sys sharedFiles n config host stdin).Run SetUpsSuit tr s) :
    Undisturbed s := by
  refine hrun.invariant (I := fun _ s => Undisturbed s) ?_ ?_
  · exact { lives := fun _ => trivial, out := rfl }
  · intro _ _ _ _ _ hU hsuits h
    exact hU.advance hsuits (step_cases h).2

/-- **Console lines of different VMs never mix**, in every run in which the kernel has the version
of the interface that the program has, and every image fits into the guest memory. -/
theorem console_in_order_of_run
    (hrun : (wholeProgram sys sharedFiles n config host stdin).recorded.Run SetUpsSuit rec s)
    (hfree : s.console = none) : InOrder rec s := by
  obtain ⟨hexec, -⟩ := exitLoops_of_run sys sharedFiles n config host stdin SetUpsSuit hrun
  have hloops : ConsoleInv (rec.filterMap fun x => x.2.2.loopEvent) s.loops :=
    console_of_run (Machine.path_of_exec hexec)
  have hout : s.loops.out = s.stdout := by
    rw [(undisturbed_of_run (Machine.run_of_recorded hrun)).out, loops, unwritten, hfree,
      List.append_nil]
  exact
    { output := hout ▸ hloops.output
      newlineFree := hloops.newlineFree
      messages := hloops.messages
      accounting := fun i => (hloops.accounting i).trans (writtenBytes_eq_writtenTo i hrun) }

end Runs

/-! ### Runs on the console -/

/-- A guest writes a byte to the serial port. -/
def writesByte (i : Fin 2) (output : UInt8) : ProgramAction 1 :=
  .kvmRun i (.exited kvmExitIo ((PortCommand.outb serialPort output).exit .smallest)) fun _ => 0

/-- Two VMs each write a letter and end the line. They flush in the other order. -/
def twoLines : List (ProgramAction 1) :=
  [.create true, .create true] ++ boots writerVm 3 ++ boots readerVm 6 ++
    [writesByte writerVm 65, writesByte readerVm 66, writesByte writerVm newline,
      writesByte readerVm newline, .proceed readerVm, .print 4, .print 5, .proceed writerVm,
      .print 9]

/-- Their letters stand on two lines. -/
theorem console_in_order_of_run_twoLines :
    ∃ (rec : List (WholeProgram 1 × ProgramAction 1 × ProgramEvent 1)) (s : WholeProgram 1),
      s.stdout = bytesOf "[VM 1] B\n[VM 0] A\n" ∧ InOrder rec s := by
  have hexec : (smallProgram.exec SetUpsSuit smallProgram.init twoLines).map
      (fun p => (p.2.stdout, p.2.console.isNone)) =
        some (bytesOf "[VM 1] B\n[VM 0] A\n", true) := by
    decide +kernel
  obtain ⟨tr, s, hrun, hobs⟩ := Machine.exists_of_exec hexec
  obtain ⟨hout, hfree⟩ := Prod.mk.inj hobs
  obtain ⟨rec, hrec, -⟩ := Machine.Run.exists_recorded hrun
  exact ⟨rec, s, hout, console_in_order_of_run hrec (Option.isNone_iff_eq_none.mp hfree)⟩

/-- A VM with 2 MiB of memory gets an image of 2 MiB, too large from `GUEST_START_ADDR` on. -/
def largeImage (i : Fin 2) (k : ℕ) : List (ProgramAction 1) :=
  [.acquired k, .value 12, .acquired (k + 1), .acquired k, .succeeded, .acquired (k + 2),
    .value 4096, .acquired (k + 1), .registers default, .succeeded, .acquired k, .succeeded,
    .value (2 * miB)].map (.life i)

/-- Standard output is not always a sequence of lines of the VMs: the image of one VM is too
large. -/
theorem console_in_order_false :
    ¬∀ (sys : HostSystem) (sharedFiles : List (String × HostPath)) (n : ℕ) (config : Config)
      (host : Host HostPath) (stdin : List UInt8) (tr : List (ProgramEvent n))
      (s : WholeProgram n), (wholeProgram sys sharedFiles n config host stdin).Run
        (fun _ _ => True) tr s → s.console = none →
      ∃ lines : List (ConsoleLine (n + 1)), s.stdout = lines.flatMap ConsoleLine.render := by
  intro hall
  have hexec : (smallProgram.exec (fun _ _ => True) smallProgram.init
      ([.create true, .create true] ++ largeImage readerVm 3 ++ [.life readerVm .proceed])).map
      (fun p => (p.2.stdout.head?, p.2.console.isNone)) = some (some 71, true) := by
    decide +kernel
  obtain ⟨tr, s, hrun, hobs⟩ := Machine.exists_of_exec hexec
  obtain ⟨hhead, hfree⟩ := Prod.mk.inj hobs
  obtain ⟨lines, hlines⟩ := hall _ _ _ _ _ _ tr s hrun (Option.isNone_iff_eq_none.mp hfree)
  rw [hlines] at hhead
  cases lines with
  | nil => cases hhead
  | cons line lines =>
      -- Every line begins with a bracket, the message of the set-up with a letter.
      have hbracket : ((line :: lines).flatMap ConsoleLine.render).head? = some 91 := rfl
      rw [hbracket] at hhead
      cases hhead

/-- The message may stand in the middle of a line of the other VM. -/
theorem exists_tornLine : ∃ tr s, smallProgram.Run (fun _ _ => True) tr s ∧ s.console = none ∧
    s.stdout = bytesOf "[VM 0] Guest image is too large for the VM memory\nA\n" := by
  have hexec : (smallProgram.exec (fun _ _ => True) smallProgram.init
      ([.create true, .create true] ++ boots writerVm 3 ++ largeImage readerVm 6 ++
        [writesByte writerVm 65, writesByte writerVm newline, .proceed writerVm, .print 7,
          .life readerVm .proceed, .print 2])).map
      (fun p => (p.2.console.isNone, p.2.stdout)) =
        some (true, bytesOf "[VM 0] Guest image is too large for the VM memory\nA\n") := by
    decide +kernel
  obtain ⟨tr, s, hrun, hobs⟩ := Machine.exists_of_exec hexec
  obtain ⟨hfree, hout⟩ := Prod.mk.inj hobs
  exact ⟨tr, s, hrun, Option.isNone_iff_eq_none.mp hfree, hout⟩

end WholeProgram

end KvmHypervisor
