import KvmHypervisor.SharedBuffer
import KvmHypervisor.Transitions
import Mathlib.Logic.Function.Basic

/-!
# The Exit Loop

The loop of `runVirtualMachine` and the serial port. A VM thread asks KVM to run its
guest, and when the guest exits it works off the tasks its exit calls for. Each task holds
at most one of the mutexes once, so a task is the step between which the threads of
different VMs interleave; `LoopVm.tasks` is what the thread has left to do for the current
exit, and with nothing left it calls `KVM_RUN`.

What the loop cannot decide itself is the input of a step: the result of `KVM_RUN`, whether
`handleFileIo` and `handleSharedBufferIo` handled their exit (neither touches the console),
what `std::cin` delivers, and whether an injection succeeds. The loop is entered when the
guest has been loaded; what `vm_init` and `load_guest_image` may print before that belongs
to no exit, and `WholeProgram` adds it.

A VM collects what its guest writes to port `0xE9` in `serialOutputBuffer` and prints the
buffer at the end of a line, before it reads input, and before most of its `return`s.
`LeavesUnflushed` singles out the two that do not flush.

## Main results

* `flushed_of_run`: in a run without such a step every VM that has left its loop has nothing
  pending.
* `unflushed_of_leaves`: a VM that takes such a step never prints what it has pending.
-/

open Transitions

namespace KvmHypervisor

/-! ### Constants -/

/-- `FILE_IO_PORT`. -/
def fileIoPort : ℕ := 0x278

/-- The port of the serial console. -/
def serialPort : ℕ := 0xE9

/-- `KVM_EXIT_IO`. -/
def kvmExitIo : ℕ := 2

/-- `KVM_EXIT_HLT`. -/
def kvmExitHlt : ℕ := 5

/-- `KVM_EXIT_IRQ_WINDOW_OPEN`. -/
def kvmExitIrqWindowOpen : ℕ := 7

/-- `KVM_EXIT_SHUTDOWN`. -/
def kvmExitShutdown : ℕ := 8

/-- `EINTR`. -/
def eintr : ℕ := 4

/-- `IRQ_COUNT`: one interrupt assigns the mode and one transfers data. -/
def irqCount : ℕ := 2

/-- The newline character. -/
def newline : UInt8 := 10

/-! ### What the threads print -/

/-- The bytes of an ASCII string. -/
def bytesOf (text : String) : List UInt8 :=
  text.toList.map fun c => UInt8.ofNat c.toNat

/-- The prefix of a console line. -/
def vmPrefix (id : ℕ) : List UInt8 :=
  bytesOf "[VM " ++ bytesOf (toString id) ++ bytesOf "] "

/-- What `flushSerialOutput` prints. -/
def flushSerialOutput (id : ℕ) (serialOutputBuffer : List UInt8) (finishLine : Bool) :
    List UInt8 :=
  if serialOutputBuffer.isEmpty then []
  else
    vmPrefix id ++ serialOutputBuffer ++
      (if finishLine && serialOutputBuffer.getLast? != some newline then [newline] else [])

/-- The text `printHalt` prints after the prefix. -/
def haltText : List UInt8 :=
  bytesOf "KVM_EXIT_HLT"

/-- The text `printUnexpectedExit` prints after the prefix. -/
def unexpectedExitText (exitReason : ℕ) : List UInt8 :=
  bytesOf "Unexpected VM exit. Exit code: " ++ bytesOf (toString exitReason)

/-- What a thread reports on the error stream: `printError`, `printSystemError`, or the report
of an I/O exit nobody is responsible for. -/
inductive ErrorReport where
  | message (text : String)
  | systemError (operation : String) (errorNumber : ℕ)
  | unexpectedIo (exitReason port size count : ℕ)
deriving DecidableEq

/-! ### One VM -/

/-- What is left to do for an exit. -/
inductive Task where
  | handleFileIo
  | handleSharedBufferIo
  | flushSerialOutput (finishLine : Bool)
  | readSerialInput
  | injectIrq
  | requireTransfer
  | printError (report : ErrorReport)
  | printHalt
  | printUnexpectedExit (exitReason : ℕ)
  | leave (success : Bool)
deriving DecidableEq

/-- The variables of `runVirtualMachine` and the fields of `GuestContext` it uses. `result` is
what it has returned. -/
structure LoopVm where
  serialOutputBuffer : List UInt8
  interruptCount : ℕ
  requestInterruptWindow : Bool
  transferCompleted : Bool
  tasks : List Task
  result : Option Bool
deriving DecidableEq

/-- A VM about to run its guest for the first time. -/
def LoopVm.initial : LoopVm where
  serialOutputBuffer := []
  interruptCount := irqCount
  requestInterruptWindow := decide (irqCount > 0)
  transferCompleted := false
  tasks := []
  result := none

/-- What `ioctl(KVM_RUN)` yields: an error number, or the reason of an exit with the run
mapping. -/
inductive KvmRunResult where
  | failed (errorNumber : ℕ)
  | exited (exitReason : ℕ) (run : KvmRun)

/-- What the world answers to a step of the loop; `proceed` for a step that asks nothing. -/
inductive LoopInput where
  | kvmRun (result : KvmRunResult)
  | fileIo (handled : Bool)
  | sharedBufferIo (handled transferCompleted : Bool)
  | serialInput (input : Option UInt8)
  | injected (success : Bool)
  | proceed

/-- What a step of the loop did. -/
inductive LoopEvent where
  | quiet
  | wrote (output : UInt8)
  | printedSerial (serialOutputBuffer : List UInt8) (finishLine : Bool)
  | printedMessage (text : List UInt8)
  | reported (report : ErrorReport)
  | returned (success : Bool)
deriving DecidableEq

/-- The step holds `consoleMutex`. -/
def LoopEvent.locks : LoopEvent → Bool
  | .printedSerial _ _ | .printedMessage _ | .reported _ => true
  | _ => false

/-- The byte of the guest a step has taken. -/
def LoopEvent.written : LoopEvent → List UInt8
  | .wrote output => [output]
  | _ => []

/-- The byte an exit writes to the serial port: it stands in the run mapping, at the data offset
of an output of one byte. -/
def LoopInput.serialOutput : LoopInput → List UInt8
  | .kvmRun (.exited exitReason run) =>
    if exitReason = kvmExitIo ∧ run.io.port = serialPort ∧ run.io.size = 1 ∧ run.io.count = 1 ∧
        run.io.dataOffset < run.runMmapSize ∧ run.io.direction = kvmExitIoOut then
      [run.bytes run.io.dataOffset]
    else []
  | _ => []

/-- What a step adds to standard output. -/
def LoopEvent.printed (id : ℕ) : LoopEvent → List UInt8
  | .printedSerial serialOutputBuffer finishLine =>
    KvmHypervisor.flushSerialOutput id serialOutputBuffer finishLine
  | .printedMessage text => vmPrefix id ++ text ++ [newline]
  | _ => []

/-- The end of an I/O exit that was not handled. -/
def handlingFailed : List Task :=
  [.flushSerialOutput true, .printError (.message "Failed to handle an I/O exit"), .leave false]

namespace LoopVm

/-- `handleSerialIo`, up to its first flush. -/
def handleSerialIo (vm : LoopVm) (exitReason : ℕ) (run : KvmRun) : LoopEvent × LoopVm :=
  if run.io.port ≠ serialPort ∨ run.io.size ≠ 1 ∨ run.io.count ≠ 1 then
    (.quiet, { vm with
      tasks := .printError (.unexpectedIo exitReason run.io.port run.io.size run.io.count) ::
        handlingFailed })
  else if run.io.dataOffset ≥ run.runMmapSize then
    (.quiet, { vm with
      tasks := .printError (.message "I/O data offset is outside the KVM run mapping") ::
        handlingFailed })
  else if run.io.direction = kvmExitIoOut then
    let output := run.bytes run.io.dataOffset
    (.wrote output, { vm with
      serialOutputBuffer := vm.serialOutputBuffer ++ [output]
      tasks := if output = newline then [.flushSerialOutput false] else [] })
  else if run.io.direction = kvmExitIoIn then
    (.quiet, { vm with tasks := [.flushSerialOutput true, .readSerialInput] })
  else
    (.quiet, { vm with
      tasks := .printError (.message "Unexpected I/O direction") :: handlingFailed })

/-- One iteration of the loop of `runVirtualMachine`, up to the first thing that holds a mutex. -/
def runVirtualMachine (vm : LoopVm) : KvmRunResult → LoopEvent × LoopVm
  | .failed errorNumber =>
    if errorNumber = eintr then (.quiet, vm)
    else
      (.quiet, { vm with
        tasks := [.printError (.systemError "KVM_RUN" errorNumber), .leave false] })
  | .exited exitReason run =>
    if exitReason = kvmExitIo then
      if run.io.port = fileIoPort then (.quiet, { vm with tasks := [.handleFileIo] })
      else if run.io.port = sharedBufferPort ∨ run.io.port = sharedBufferStatusPort then
        (.quiet, { vm with tasks := [.handleSharedBufferIo] })
      else vm.handleSerialIo exitReason run
    else if exitReason = kvmExitIrqWindowOpen then
      if vm.interruptCount > 0 then (.quiet, { vm with tasks := [.injectIrq] })
      else (.quiet, { vm with requestInterruptWindow := decide (vm.interruptCount > 0) })
    else if exitReason = kvmExitHlt then
      (.quiet, { vm with tasks := [.flushSerialOutput true, .requireTransfer] })
    else if exitReason = kvmExitShutdown then
      (.quiet, { vm with
        tasks := [.flushSerialOutput true, .printUnexpectedExit exitReason, .leave false] })
    else
      (.quiet, { vm with
        tasks := [.flushSerialOutput true, .printUnexpectedExit exitReason, .leave false] })

/-- Carrying out a task, with `tasks` left after it. -/
def perform (vm : LoopVm) (tasks : List Task) : Task → LoopInput → Option (LoopEvent × LoopVm)
  | .handleFileIo, .fileIo handled =>
    some (.quiet, { vm with tasks := if handled then tasks else handlingFailed })
  | .handleSharedBufferIo, .sharedBufferIo handled transferCompleted =>
    some (.quiet, { vm with
      transferCompleted := vm.transferCompleted || transferCompleted
      tasks := if handled then tasks else handlingFailed })
  | .flushSerialOutput finishLine, .proceed =>
    if vm.serialOutputBuffer.isEmpty then some (.quiet, { vm with tasks })
    else
      some (.printedSerial vm.serialOutputBuffer finishLine,
        { vm with serialOutputBuffer := [], tasks })
  | .readSerialInput, .serialInput input =>
    match input with
    | some _ => some (.quiet, { vm with tasks })
    | none =>
      some (.quiet, { vm with
        tasks := .printError (.message "Failed to read serial input") :: handlingFailed })
  | .injectIrq, .injected success =>
    if success then
      some (.quiet, { vm with
        interruptCount := vm.interruptCount - 1
        requestInterruptWindow := decide (vm.interruptCount - 1 > 0)
        tasks })
    else
      some (.quiet, { vm with
        tasks := [.printError (.message "Failed to inject an interrupt"), .leave false] })
  | .requireTransfer, .proceed =>
    if vm.transferCompleted then some (.quiet, { vm with tasks := [.printHalt, .leave true] })
    else
      some (.quiet, { vm with
        tasks := [
          .printError (.message "VM halted before completing the shared buffer transfer"),
          .leave false] })
  | .printError report, .proceed => some (.reported report, { vm with tasks })
  | .printHalt, .proceed => some (.printedMessage haltText, { vm with tasks })
  | .printUnexpectedExit exitReason, .proceed =>
    some (.printedMessage (unexpectedExitText exitReason), { vm with tasks })
  | .leave success, .proceed =>
    some (.returned success, { vm with tasks := [], result := some success })
  | _, _ => none

/-- One step of a VM thread in its loop. -/
def step (vm : LoopVm) (input : LoopInput) : Option (LoopEvent × LoopVm) :=
  match vm.result, vm.tasks, input with
  | none, [], .kvmRun result => some (vm.runVirtualMachine result)
  | none, task :: tasks, input => vm.perform tasks task input
  | _, _, _ => none

end LoopVm

/-! ### The threads -/

/-- The exit loops of `n` VMs and the two output streams they share. -/
structure ExitLoops (n : ℕ) where
  out : List UInt8
  err : List (Fin n × ErrorReport)
  vms : Fin n → LoopVm

/-- What a step adds to the error stream. -/
def LoopEvent.errors {n : ℕ} (i : Fin n) : LoopEvent → List (Fin n × ErrorReport)
  | .reported report => [(i, report)]
  | _ => []

namespace ExitLoops

variable {n : ℕ}

/-- All VMs are about to run their guests. -/
def initial (n : ℕ) : ExitLoops n where
  out := []
  err := []
  vms _ := .initial

/-- VM `i` takes a step. -/
def step (s : ExitLoops n) (a : Fin n × LoopInput) :
    Option ((Fin n × LoopEvent) × ExitLoops n) :=
  match (s.vms a.1).step a.2 with
  | none => none
  | some (e, vm) =>
    some ((a.1, e),
      { out := s.out ++ e.printed a.1
        err := s.err ++ e.errors a.1
        vms := Function.update s.vms a.1 vm })

end ExitLoops

/-- The machine of the exit loops. -/
def exitLoops (n : ℕ) : Machine (ExitLoops n) (Fin n × LoopInput) (Fin n × LoopEvent) where
  init := .initial n
  step := ExitLoops.step

/-- **What a step does**: one VM moves, and prints what its event says. -/
theorem ExitLoops.step_eq_some {n : ℕ} {s s' : ExitLoops n} {a : Fin n × LoopInput}
    {e : Fin n × LoopEvent} (h : s.step a = some (e, s')) :
    ∃ i input event vm, a = (i, input) ∧ e = (i, event) ∧
      (s.vms i).step input = some (event, vm) ∧ s'.out = s.out ++ event.printed i ∧
      s'.vms = Function.update s.vms i vm := by
  obtain ⟨i, input⟩ := a
  unfold ExitLoops.step at h
  cases hvm : (s.vms i).step input with
  | none => simp [hvm] at h
  | some p =>
      obtain ⟨event, vm⟩ := p
      rw [hvm] at h
      cases h
      exact ⟨i, input, event, vm, rfl, rfl, hvm, rfl, rfl⟩

/-- **What a step of a VM is**: an iteration of its loop when nothing is left to do, and else
the next task. -/
theorem LoopVm.step_eq_some {vm vm' : LoopVm} {input : LoopInput} {e : LoopEvent}
    (h : vm.step input = some (e, vm')) : vm.result = none ∧
      ((vm.tasks = [] ∧ ∃ result, input = .kvmRun result ∧
        vm.runVirtualMachine result = (e, vm')) ∨
      ∃ task tasks, vm.tasks = task :: tasks ∧ vm.perform tasks task input = some (e, vm')) := by
  cases hresult : vm.result with
  | some success => simp [LoopVm.step, hresult] at h
  | none =>
      refine ⟨rfl, ?_⟩
      cases htasks : vm.tasks with
      | nil =>
          cases input with
          | kvmRun result =>
              simp only [LoopVm.step, hresult, htasks, Option.some.injEq] at h
              exact .inl ⟨rfl, result, rfl, h⟩
          | _ => simp [LoopVm.step, hresult, htasks] at h
      | cons task tasks =>
          simp only [LoopVm.step, hresult, htasks] at h
          exact .inr ⟨task, tasks, rfl, h⟩

/-- What the handler of the serial port takes is what the exit writes. -/
theorem LoopVm.written_handleSerialIo (vm : LoopVm) {run : KvmRun} :
    (vm.handleSerialIo kvmExitIo run).1.written =
      (LoopInput.kvmRun (.exited kvmExitIo run)).serialOutput := by
  rw [LoopVm.handleSerialIo, LoopInput.serialOutput]
  split_ifs with hshape hbounds hout hin hexit <;> first | rfl | (exfalso; omega)

/-- **What a step takes of a guest is what its exit writes.** -/
theorem LoopVm.written_step {vm vm' : LoopVm} {input : LoopInput} {e : LoopEvent}
    (h : vm.step input = some (e, vm')) : e.written = input.serialOutput := by
  obtain ⟨-, ⟨-, result, rfl, hrun⟩ | ⟨task, tasks, -, hperform⟩⟩ := LoopVm.step_eq_some h
  · cases result with
    | failed errorNumber =>
        rw [LoopVm.runVirtualMachine] at hrun
        split_ifs at hrun <;> cases hrun <;> rfl
    | exited exitReason run =>
        have hother : exitReason ≠ kvmExitIo ∨ run.io.port ≠ serialPort →
            (LoopInput.kvmRun (.exited exitReason run)).serialOutput = [] := fun hnot =>
          if_neg fun hexit => hnot.elim (absurd hexit.1) (absurd hexit.2.1)
        rw [LoopVm.runVirtualMachine] at hrun
        split_ifs at hrun with hio hfile hbuffer
        · cases hrun
          rw [hother (.inr (by rw [hfile]; decide))]
          rfl
        · cases hrun
          rw [hother (.inr (by rcases hbuffer with h | h <;> rw [h] <;> decide))]
          rfl
        · subst hio
          rw [show e = (vm.handleSerialIo kvmExitIo run).1 by rw [hrun]]
          exact vm.written_handleSerialIo
        all_goals
          cases hrun
          rw [hother (.inl hio)]
          rfl
  · unfold LoopVm.perform at hperform
    split at hperform
    all_goals first | split at hperform | skip
    all_goals cases hperform
    all_goals rfl

/-! ### Who leaves with output pending -/

/-- The step by which a VM sets out to leave its loop without flushing: `KVM_RUN` fails with
something other than an interruption, or an injection fails, while output is pending. -/
def LeavesUnflushed (vm : LoopVm) (input : LoopInput) : Prop :=
  vm.serialOutputBuffer ≠ [] ∧
    match input with
    | .kvmRun (.failed errorNumber) => errorNumber ≠ eintr
    | .injected success => success = false
    | _ => False

instance (vm : LoopVm) (input : LoopInput) : Decidable (LeavesUnflushed vm input) := by
  unfold LeavesUnflushed
  refine @instDecidableAnd _ _ _ ?_
  split <;> infer_instance

/-- The discipline of a run without such a step. -/
def NeverLeavesUnflushed {n : ℕ} (s : ExitLoops n) (a : Fin n × LoopInput) : Prop :=
  ¬LeavesUnflushed (s.vms a.1) a.2

instance {n : ℕ} (s : ExitLoops n) (a : Fin n × LoopInput) :
    Decidable (NeverLeavesUnflushed s a) :=
  inferInstanceAs (Decidable (¬_))

/-- The tasks flush before they can end the loop. A failed injection is not among the ways
out. -/
def Flushes : List Task → Prop
  | [] => True
  | .flushSerialOutput _ :: _ => True
  | .requireTransfer :: _ => False
  | .leave _ :: _ => False
  | _ :: tasks => Flushes tasks

/-- A VM has nothing pending, or has not returned and will flush before it does. -/
def FlushInv (vm : LoopVm) : Prop :=
  vm.serialOutputBuffer = [] ∨ (vm.result = none ∧ Flushes vm.tasks)

/-- An unhandled exit flushes. -/
theorem flushes_handlingFailed : Flushes handlingFailed :=
  trivial

theorem FlushInv.handleSerialIo {vm : LoopVm} (h : vm.result = none) (exitReason : ℕ)
    (run : KvmRun) : FlushInv (vm.handleSerialIo exitReason run).2 := by
  unfold LoopVm.handleSerialIo
  split
  · exact .inr ⟨h, flushes_handlingFailed⟩
  split
  · exact .inr ⟨h, flushes_handlingFailed⟩
  split
  · refine .inr ⟨h, ?_⟩
    dsimp only
    split <;> trivial
  split
  · exact .inr ⟨h, trivial⟩
  · exact .inr ⟨h, flushes_handlingFailed⟩

/-- An iteration keeps the invariant, unless `KVM_RUN` fails with output pending. -/
theorem FlushInv.runVirtualMachine {vm : LoopVm} {result : KvmRunResult} (h : vm.result = none)
    (htasks : vm.tasks = []) (hok : ¬LeavesUnflushed vm (.kvmRun result)) :
    FlushInv (vm.runVirtualMachine result).2 := by
  have hidle : FlushInv vm := .inr ⟨h, by rw [htasks]; trivial⟩
  cases result with
  | failed errorNumber =>
      by_cases he : errorNumber = eintr
      · rw [LoopVm.runVirtualMachine, if_pos he]
        exact hidle
      · rw [LoopVm.runVirtualMachine, if_neg he]
        left
        by_contra hpending
        exact hok ⟨hpending, he⟩
  | exited exitReason run =>
      rw [LoopVm.runVirtualMachine]
      split
      · split
        · exact .inr ⟨h, trivial⟩
        split
        · exact .inr ⟨h, trivial⟩
        · exact .handleSerialIo h exitReason run
      split
      · split
        · exact .inr ⟨h, trivial⟩
        · exact .inr ⟨h, by rw [htasks]; trivial⟩
      split
      · exact .inr ⟨h, trivial⟩
      split
      · exact .inr ⟨h, trivial⟩
      · exact .inr ⟨h, trivial⟩

/-- A VM with nothing pending prints nothing more by its tasks, and has nothing pending
after them. -/
theorem LoopVm.perform_empty {vm vm' : LoopVm} {tasks : List Task} {task : Task}
    {input : LoopInput} {e : LoopEvent} (hempty : vm.serialOutputBuffer = [])
    (h : vm.perform tasks task input = some (e, vm')) : vm'.serialOutputBuffer = [] := by
  unfold LoopVm.perform at h
  split at h
  all_goals first | (split at h) | skip
  all_goals first | (cases h; exact hempty) | (cases h; rfl) | cases h

/-- A task keeps the invariant, unless it is an injection that fails with output pending. -/
theorem FlushInv.perform {vm vm' : LoopVm} {tasks : List Task} {task : Task}
    {input : LoopInput} {e : LoopEvent} (hresult : vm.result = none)
    (hflushes : Flushes (task :: tasks)) (hok : ¬LeavesUnflushed vm input)
    (h : vm.perform tasks task input = some (e, vm')) : FlushInv vm' := by
  by_cases hempty : vm.serialOutputBuffer = []
  · exact .inl (LoopVm.perform_empty hempty h)
  cases task with
  | handleFileIo =>
      cases input <;> simp only [LoopVm.perform, reduceCtorEq] at h
      cases h
      refine .inr ⟨hresult, ?_⟩
      dsimp only
      split
      · exact hflushes
      · exact flushes_handlingFailed
  | handleSharedBufferIo =>
      cases input <;> simp only [LoopVm.perform, reduceCtorEq] at h
      cases h
      refine .inr ⟨hresult, ?_⟩
      dsimp only
      split
      · exact hflushes
      · exact flushes_handlingFailed
  | flushSerialOutput finishLine =>
      cases input <;> simp only [LoopVm.perform, reduceCtorEq] at h
      rw [if_neg (by simpa using hempty)] at h
      cases h
      exact .inl rfl
  | readSerialInput =>
      cases input with
      | serialInput input =>
          cases input <;> cases h
          · exact .inr ⟨hresult, flushes_handlingFailed⟩
          · exact .inr ⟨hresult, hflushes⟩
      | _ => cases h
  | injectIrq =>
      cases input with
      | injected success =>
          cases success with
          | false => exact absurd ⟨hempty, rfl⟩ hok
          | true =>
              cases h
              exact .inr ⟨hresult, hflushes⟩
      | _ => cases h
  | requireTransfer => exact hflushes.elim
  | printError report | printHalt | printUnexpectedExit exitReason =>
      cases input <;> cases h
      exact .inr ⟨hresult, hflushes⟩
  | leave success => exact hflushes.elim

/-- **Every step of a VM keeps the invariant**, unless it leaves output pending. -/
theorem FlushInv.step {vm vm' : LoopVm} {input : LoopInput} {e : LoopEvent}
    (hI : FlushInv vm) (hok : ¬LeavesUnflushed vm input)
    (h : vm.step input = some (e, vm')) : FlushInv vm' := by
  obtain ⟨hresult, ⟨htasks, result, rfl, hrun⟩ | ⟨task, tasks, htasks, hperform⟩⟩ :=
    LoopVm.step_eq_some h
  · rw [show vm' = (vm.runVirtualMachine result).2 by rw [hrun]]
    exact .runVirtualMachine hresult htasks hok
  · obtain hempty | ⟨-, hflushes⟩ := hI
    · exact .inl (LoopVm.perform_empty hempty hperform)
    · rw [htasks] at hflushes
      exact .perform hresult hflushes hok hperform

/-- In a run without such a step every VM that has left its loop has nothing pending. -/
theorem flushed_of_run {n : ℕ} {tr : List (Fin n × LoopEvent)} {s : ExitLoops n} {i : Fin n}
    {success : Bool} (hrun : (exitLoops n).Run NeverLeavesUnflushed tr s)
    (hreturned : (s.vms i).result = some success) : (s.vms i).serialOutputBuffer = [] := by
  have hI : ∀ j, FlushInv (s.vms j) := by
    refine hrun.invariant (I := fun _ s => ∀ j, FlushInv (s.vms j)) ?_ ?_
    · exact fun _ => .inl rfl
    · intro tr s a e s' hI hok hs j
      obtain ⟨i, input, event, vm, rfl, rfl, hvm, -, hvms⟩ := ExitLoops.step_eq_some hs
      rw [hvms]
      by_cases hji : j = i
      · subst hji
        rw [Function.update_self]
        exact (hI j).step hok hvm
      · rw [Function.update_of_ne hji]
        exact hI j
  obtain hempty | ⟨hnone, -⟩ := hI i
  · exact hempty
  · rw [hreturned] at hnone
    cases hnone

/-- A VM that is leaving with `pending` in its buffer: what is left to do prints none of it. -/
def Leaving (pending : List UInt8) (vm : LoopVm) : Prop :=
  vm.serialOutputBuffer = pending ∧
    ((∃ report, vm.tasks = [.printError report, .leave false]) ∨ vm.tasks = [.leave false] ∨
      (vm.tasks = [] ∧ vm.result = some false))

/-- A VM that has set out to leave without flushing is leaving with what it had pending. -/
theorem LeavesUnflushed.leaving {vm vm' : LoopVm} {input : LoopInput} {e : LoopEvent}
    (hleave : LeavesUnflushed vm input) (h : vm.step input = some (e, vm')) :
    Leaving vm.serialOutputBuffer vm' := by
  obtain ⟨-, hfails⟩ := hleave
  obtain ⟨-, ⟨-, result, rfl, hrun⟩ | ⟨task, tasks, -, hperform⟩⟩ := LoopVm.step_eq_some h
  · cases result with
    | failed errorNumber =>
        rw [LoopVm.runVirtualMachine, if_neg hfails] at hrun
        cases hrun
        exact ⟨rfl, .inl ⟨_, rfl⟩⟩
    | exited => exact hfails.elim
  · cases input with
    | injected success =>
        obtain rfl : success = false := hfails
        cases task <;> cases hperform
        exact ⟨rfl, .inl ⟨_, rfl⟩⟩
    | kvmRun => cases task <;> cases hperform
    | _ => exact hfails.elim

/-- Whatever a leaving VM does, it keeps what it has pending. -/
theorem Leaving.step {pending : List UInt8} {vm vm' : LoopVm} {input : LoopInput}
    {e : LoopEvent} (hL : Leaving pending vm) (h : vm.step input = some (e, vm')) :
    Leaving pending vm' := by
  obtain ⟨hpending, ⟨report, htasks⟩ | htasks | ⟨htasks, hresult⟩⟩ := hL
  · cases hresult : vm.result <;> cases input <;>
      simp only [LoopVm.step, hresult, htasks, LoopVm.perform, reduceCtorEq] at h
    cases h
    exact ⟨hpending, .inr (.inl rfl)⟩
  · cases hresult : vm.result <;> cases input <;>
      simp only [LoopVm.step, hresult, htasks, LoopVm.perform, reduceCtorEq] at h
    cases h
    exact ⟨hpending, .inr (.inr ⟨rfl, rfl⟩)⟩
  · simp [LoopVm.step, hresult] at h

/-- **The step is the only way to leave output behind, and it does**: after it, in every
continuation, the VM has the same output pending. -/
theorem unflushed_of_leaves {n : ℕ} {ok : ExitLoops n → Fin n × LoopInput → Prop}
    {s s' t : ExitLoops n} {i : Fin n} {input : LoopInput} {e : Fin n × LoopEvent}
    {tr : List (Fin n × LoopEvent)} (hleave : LeavesUnflushed (s.vms i) input)
    (hs : (exitLoops n).step s (i, input) = some (e, s'))
    (hpath : (exitLoops n).Path ok s' tr t) :
    Leaving (s.vms i).serialOutputBuffer (t.vms i) ∧ (t.vms i).serialOutputBuffer ≠ [] := by
  suffices hL : Leaving (s.vms i).serialOutputBuffer (t.vms i) by
    refine ⟨hL, ?_⟩
    rw [hL.1]
    exact hleave.1
  refine hpath.invariant (I := fun t => Leaving (s.vms i).serialOutputBuffer (t.vms i)) ?_ ?_
  · obtain ⟨j, input, event, vm, ha, -, hvm, -, hvms⟩ := ExitLoops.step_eq_some hs
    cases ha
    rw [hvms, Function.update_self]
    exact hleave.leaving hvm
  · intro t a e u hL _ hs
    obtain ⟨j, input, event, vm, rfl, rfl, hvm, -, hvms⟩ := ExitLoops.step_eq_some hs
    rw [hvms]
    by_cases hij : i = j
    · subst hij
      rw [Function.update_self]
      exact hL.step hvm
    · rw [Function.update_of_ne hij]
      exact hL

end KvmHypervisor
