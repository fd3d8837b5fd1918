import KvmHypervisor.FileExits
import KvmHypervisor.FileRuns
import KvmHypervisor.Threads
import KvmHypervisor.VmResources

/-!
# The Whole Program

`main` and the threads it creates, with everything they share: the shared buffer, the host with
its files, the resources of the kernel, standard input and the console. `main` creates a thread
for each VM and joins them; a thread runs `runGuest`, which is `runVirtualMachine` (its set-up,
its exit loop with the three handlers, and `vm_destroy`) and what follows it.

The parts are those of the other modules: `VmLife.step`, `LoopVm.step`, `handleSharedBufferIo`,
`handleFileIo`, `closeGuestFiles`. Here they work on one state, and the answers the exit loop
got as inputs in `ExitLoop` are what the handlers really return. The guests are unconstrained:
`KVM_RUN` may end in any way, with any contents of the run mapping and of the guest memory.

A step touches at most one of the things that are shared, and holds the mutex of it, if it has
one. A line of the console takes several steps: the thread locks `consoleMutex`, hands the line
to the stream bit by bit, and unlocks. The `printf` and `perror` of the set-up and the messages
of `main` lock nothing. The program starts when `main` has accepted its arguments and the shared
files.

## Main results

* `WholeProgram.step_cases`: everything a step can do.
-/

open Transitions

namespace KvmHypervisor

open PosixFiles

/-! ### The state -/

/-- Where a thread stands in `runGuest`. -/
inductive ThreadStage where
  | notCreated
  | runVirtualMachine
  | abortSharedBuffer
  | closeGuestFiles
  | ended
deriving DecidableEq

/-- The `GuestContext` of a VM and its thread: the variables of `runVirtualMachine`, those of its
loop, the run mapping and the guest memory as the guest left them. `waiting` says that the
thread is parked in a condition wait. -/
structure GuestThread where
  stage : ThreadStage
  completedSuccessfully : Bool
  life : VmLife
  loop : LoopVm
  run : KvmRun
  memory : GuestMemory
  waiting : Bool
  sharedBuffer : SharedBufferVmState
  fileState : FileState

/-- Where `main` stands: it has created `started` threads, or it has joined `joined` of
`started` threads, or it has returned. -/
inductive MainStage where
  | creating (started : ℕ)
  | joining (joined started : ℕ) (allGuestsSucceeded : Bool)
  | returned (allGuestsSucceeded : Bool)
deriving DecidableEq

/-- A write to standard output: by a thread that holds `consoleMutex`, or by a `printf`. -/
inductive OutputWrite (n : ℕ) where
  | locked (i : Fin (n + 1)) (bytes : List UInt8)
  | printf (i : Fin (n + 1)) (bytes : List UInt8)
deriving DecidableEq

/-- What is written. -/
def OutputWrite.bytes {n : ℕ} : OutputWrite n → List UInt8
  | .locked _ bytes | .printf _ bytes => bytes

/-- What is written under `consoleMutex`. -/
def OutputWrite.lockedBytes {n : ℕ} : OutputWrite n → List UInt8
  | .locked _ bytes => bytes
  | .printf _ _ => []

/-- What is said on the error stream: by an exit loop, by a set-up, by `perror` or by `main`. The
text of the error number at the end of a line is left out. -/
inductive ErrorLine (n : ℕ) where
  | loop (i : Fin (n + 1)) (report : ErrorReport)
  | setup (i : Fin (n + 1)) (report : ErrorReport)
  | perror (i : Fin (n + 1)) (text : String)
  | main (text : String)
deriving DecidableEq

/-- The report of an exit loop. -/
def ErrorLine.report {n : ℕ} : ErrorLine n → Option (Fin (n + 1) × ErrorReport)
  | .loop i report => some (i, report)
  | _ => none

/-- The program with `n + 1` VMs. `console` is the thread that holds `consoleMutex`, with what
it has yet to write. `out` holds the writes to standard output, and `err` what has been said on
the error stream, in the order in which it was begun. -/
structure WholeProgram (n : ℕ) where
  main : MainStage
  shared : SharedBufferState
  host : Host HostPath
  live : Finset Resource
  stdin : List UInt8
  console : Option (Fin (n + 1) × List UInt8)
  out : List (OutputWrite n)
  err : List (ErrorLine n)
  threads : Fin (n + 1) → GuestThread

/-- What can happen next: `main` goes on, with the outcome of `pthread_create` or
`pthread_join`; who holds the console writes some bytes of its line; a thread gets an answer of
the kernel in its set-up or on its way out; its `KVM_RUN` ends; it carries out a task of its exit
loop; it goes on in `runGuest`. -/
inductive ProgramAction (n : ℕ) where
  | create (success : Bool)
  | join (success : Bool)
  | exit
  | print (count : ℕ)
  | life (i : Fin (n + 1)) (answer : KernelAnswer)
  | leave (i : Fin (n + 1))
  | kvmRun (i : Fin (n + 1)) (result : KvmRunResult) (memory : ℕ → UInt8)
  | fileIo (i : Fin (n + 1))
  | sharedBufferIo (i : Fin (n + 1))
  | serialInput (i : Fin (n + 1))
  | injected (i : Fin (n + 1)) (success : Bool)
  | proceed (i : Fin (n + 1))
  | conclude (i : Fin (n + 1))
  | abort (i : Fin (n + 1))
  | close (i : Fin (n + 1))

/-- What a step did. A `requested` event is a file request that was served, a `port` event the
outcome of a shared-buffer exit, a `halted` event the check at `KVM_EXIT_HLT`. -/
inductive ProgramEvent (n : ℕ) where
  | created (success : Bool)
  | joined (success : Bool)
  | exited (success : Bool)
  | printed (i : Fin (n + 1)) (bytes : List UInt8)
  | life (i : Fin (n + 1)) (e : LifeEvent)
  | looped (i : Fin (n + 1)) (e : LoopEvent)
  | requested (i : Fin (n + 1)) (call : GuestCall (n + 1)) (answer : Answer)
  | port (i : Fin (n + 1)) (e : Event n)
  | read (i : Fin (n + 1)) (input : UInt8)
  | injected (i : Fin (n + 1)) (success : Bool)
  | halted (i : Fin (n + 1)) (transferCompleted : Bool)
  | concluded (i : Fin (n + 1)) (success : Bool)
  | aborted (i : Fin (n + 1))
  | closed (i : Fin (n + 1))

/-- What a step of the set-up prints with `printf`. -/
def LifeEvent.writes {n : ℕ} (i : Fin (n + 1)) : LifeEvent → List (OutputWrite n)
  | .reported (.printed text) => [.printf i (bytesOf text)]
  | _ => []

/-- What a step of the set-up says on the error stream. -/
def LifeEvent.errorLines {n : ℕ} (i : Fin (n + 1)) : LifeEvent → List (ErrorLine n)
  | .reported (.perror text) => [.perror i text]
  | .reported (.error report) => [.setup i report]
  | _ => []

/-- The step holds `consoleMutex`. -/
def LifeEvent.locks : LifeEvent → Bool
  | .reported (.error _) => true
  | _ => false

/-- What a step of the loop says on the error stream. -/
def LoopEvent.errorLines {n : ℕ} (i : Fin (n + 1)) : LoopEvent → List (ErrorLine n)
  | .reported report => [.loop i report]
  | _ => []

/-- The run mapping before the guest has run. -/
def KvmRun.zero : KvmRun where
  io := { direction := 0, size := 0, port := 0, count := 0, dataOffset := 0 }
  bytes _ := 0
  runMmapSize := 0

/-- The run mapping after `KVM_RUN`: that of the exit, or the one before. -/
def KvmRunResult.mapping (before : KvmRun) : KvmRunResult → KvmRun
  | .exited _ run => run
  | .failed _ => before

/-- The context of a VM as `main` sets it up: VM 0 is the writer. -/
def GuestThread.initial {n : ℕ} (config : Config) (i : Fin (n + 1)) : GuestThread where
  stage := .notCreated
  completedSuccessfully := false
  life := .initial config
  loop := .initial
  run := .zero
  memory := { size := config.memorySize, bytes := fun _ => 0 }
  waiting := false
  sharedBuffer := ((System.initial n).vms i).context
  fileState := .initial

namespace WholeProgram

variable {n : ℕ}

/-- `main` before it creates the threads, on a host, with what will arrive on standard input. -/
def initial (n : ℕ) (config : Config) (host : Host HostPath) (stdin : List UInt8) :
    WholeProgram n where
  main := .creating 0
  shared := .initial n
  host := (FileWorld.start (n := n + 1) host).host
  live := ∅
  stdin := stdin
  console := none
  out := []
  err := []
  threads := .initial config

/-- A thread goes on as `t`. -/
def setThread (s : WholeProgram n) (i : Fin (n + 1)) (t : GuestThread) : WholeProgram n :=
  { s with threads := Function.update s.threads i t }

/-- Standard output. -/
def stdout (s : WholeProgram n) : List UInt8 :=
  s.out.flatMap OutputWrite.bytes

/-- Thread `i` may go on: it has written its line, and if it `locks`, the console is free. -/
def allows (s : WholeProgram n) (i : Fin (n + 1)) (locks : Bool) : Bool :=
  match s.console with
  | none => true
  | some (holder, _) => !locks && decide (holder ≠ i)

/-- Thread `i` has taken a step of its loop: it begins a line, or it reports on the error
stream. -/
def speaks (s : WholeProgram n) (i : Fin (n + 1)) (e : LoopEvent) : WholeProgram n :=
  { s with
    console := if e.printed i = [] then s.console else some (i, e.printed i)
    err := s.err ++ e.errorLines i }

/-! ### Steps -/

/-- The loop of `main` around `pthread_create`: a new thread, or no more threads and an abort of
the shared buffer. -/
def create (s : WholeProgram n) (success : Bool) : Option (ProgramEvent n × WholeProgram n) :=
  match s.main with
  | .creating started =>
    if h : started < n + 1 then
      if success then
        let i : Fin (n + 1) := ⟨started, h⟩
        some (.created true, { s.setThread i { s.threads i with stage := .runVirtualMachine } with
          main :=
            if started + 1 = n + 1 then .joining 0 (n + 1) true else .creating (started + 1) })
      else
        some (.created false, { s with
          main := .joining 0 started false
          shared := abortSharedBuffer s.shared
          err := s.err ++ [.main "Failed to create VM thread"] })
    else none
  | _ => none

/-- The loop of `main` around `pthread_join`. A join that succeeds has waited for the end of its
thread. -/
def join (s : WholeProgram n) (success : Bool) : Option (ProgramEvent n × WholeProgram n) :=
  match s.main with
  | .joining joined started allGuestsSucceeded =>
    if h : joined < started ∧ joined < n + 1 then
      let t := s.threads ⟨joined, h.2⟩
      if success then
        if t.stage = .ended then
          some (.joined true, { s with
            main := .joining (joined + 1) started
              (allGuestsSucceeded && t.completedSuccessfully) })
        else none
      else
        some (.joined false, { s with
          main := .joining (joined + 1) started false
          shared := abortSharedBuffer s.shared
          err := s.err ++ [.main "Failed to join VM thread"] })
    else none
  | _ => none

/-- The end of `main`. -/
def exit (s : WholeProgram n) : Option (ProgramEvent n × WholeProgram n) :=
  match s.main with
  | .joining joined started allGuestsSucceeded =>
    if joined = started then
      some (.exited allGuestsSucceeded, { s with main := .returned allGuestsSucceeded })
    else none
  | _ => none

/-- Who holds the console writes `count` more bytes of its line, and unlocks after the last. -/
def print (s : WholeProgram n) (count : ℕ) : Option (ProgramEvent n × WholeProgram n) :=
  match s.console with
  | none => none
  | some (i, text) =>
    if 0 < count then
      some (.printed i (text.take count), { s with
        console := if text.drop count = [] then none else some (i, text.drop count)
        out := s.out ++ [.locked i (text.take count)] })
    else none

/-- A system call of the set-up or of `vm_destroy`, a report, or the end of the loop. -/
def life (config : Config) (s : WholeProgram n) (i : Fin (n + 1)) (answer : KernelAnswer) :
    Option (ProgramEvent n × WholeProgram n) :=
  let t := s.threads i
  match t.life.step config.pageSize answer with
  | none => none
  | some (e, life) =>
    if e.fresh s.live ∧ s.allows i e.locks then
      some (.life i e, { s.setThread i { t with life } with
        live := e.apply s.live
        out := s.out ++ e.writes i
        err := s.err ++ e.errorLines i })
    else none

/-- The exit loop has returned, and `runVirtualMachine` goes on with `vm_destroy`. -/
def leave (config : Config) (s : WholeProgram n) (i : Fin (n + 1)) :
    Option (ProgramEvent n × WholeProgram n) :=
  match (s.threads i).loop.result with
  | none => none
  | some success => s.life config i (.loopReturned success)

/-- A step of the exit loop, of a thread that is otherwise `t`. -/
def loop (s : WholeProgram n) (i : Fin (n + 1)) (t : GuestThread) (input : LoopInput)
    (event : LoopEvent → ProgramEvent n) : Option (ProgramEvent n × WholeProgram n) :=
  match t.loop.step input with
  | none => none
  | some (e, loop) =>
    if s.allows i e.locks then some (event e, (s.setThread i { t with loop }).speaks i e) else none

/-- `KVM_RUN` ends. -/
def kvmRun (s : WholeProgram n) (i : Fin (n + 1)) (result : KvmRunResult) (memory : ℕ → UInt8) :
    Option (ProgramEvent n × WholeProgram n) :=
  let t := s.threads i
  s.loop i { t with run := result.mapping t.run, memory := { t.memory with bytes := memory } }
    (.kvmRun result) (.looped i)

variable (sys : HostSystem) (sharedFiles : List (String × HostPath))

/-- The request an exit of the file port carries. -/
def requestOf (i : Fin (n + 1)) (t : GuestThread) : Option (GuestCall (n + 1)) :=
  if t.run.io.direction = kvmExitIoOut then
    match getFileIoData t.run with
    | none => none
    | some data =>
      (getGuestMemory t.memory (readUint32 t.run.bytes data) fileRequestSize).map fun start =>
        ⟨i, t.memory, .decode t.memory.bytes start⟩
  else none

/-- The event of a file exit that was handled. -/
def fileEvent (i : Fin (n + 1)) (t : GuestThread) (frame : FileIoFrame) (e : LoopEvent) :
    ProgramEvent n :=
  match requestOf i t with
  | some call => .requested i call ⟨frame.state.fetch, frame.memory⟩
  | none => .looped i e

/-- The call of `handleFileIo`. -/
def fileIo (s : WholeProgram n) (i : Fin (n + 1)) : Option (ProgramEvent n × WholeProgram n) :=
  let t := s.threads i
  match handleFileIo sys (contextOf sharedFiles i) t.run t.memory t.fileState s.host with
  | none => s.loop i t (.fileIo false) (.looped i)
  | some frame =>
    { s with host := frame.host }.loop i
      { t with
        run := { t.run with bytes := frame.bytes }
        memory := frame.memory
        fileState := frame.state } (.fileIo true) (fileEvent i t frame)

/-- The call of `handleSharedBufferIo`, or its continuation after a wait. A parked thread goes on
when it need not wait any more. -/
def sharedBufferIo (s : WholeProgram n) (i : Fin (n + 1)) :
    Option (ProgramEvent n × WholeProgram n) :=
  let t := s.threads i
  match handleSharedBufferIo s.shared t.sharedBuffer t.run with
  | .wait =>
    if t.loop.result = none ∧ t.loop.tasks.head? = some .handleSharedBufferIo ∧
        t.waiting = false ∧ s.allows i false then
      some (.port i (.park i), s.setThread i { t with waiting := true })
    else none
  | .done result frame =>
    { s with shared := frame.state }.loop i
      { t with
        run := { t.run with bytes := frame.bytes }
        sharedBuffer := frame.vm
        waiting := false } (.sharedBufferIo result frame.vm.transferCompleted) fun _ =>
      .port i (if result then
        .call i ((exitLabel s.shared t.sharedBuffer t.run frame).getD (.deliverMode 0))
      else .reject i)

/-- `std::cin.get`: the next byte of standard input, for the guest, if there is one. -/
def serialInput (s : WholeProgram n) (i : Fin (n + 1)) : Option (ProgramEvent n × WholeProgram n) :=
  let t := s.threads i
  match s.stdin with
  | [] => s.loop i t (.serialInput none) (.looped i)
  | input :: stdin =>
    { s with stdin := stdin }.loop i
      { t with run := { t.run with bytes := writeUint8 t.run.bytes t.run.io.dataOffset input } }
      (.serialInput (some input)) fun _ => .read i input

/-- `inject_irq`, which says so if it fails. -/
def injected (s : WholeProgram n) (i : Fin (n + 1)) (success : Bool) :
    Option (ProgramEvent n × WholeProgram n) :=
  let line : ErrorLine n := .perror i "KVM_INTERRUPT"
  { s with err := s.err ++ if success then [] else [line] }.loop i (s.threads i)
    (.injected success) fun _ => .injected i success

/-- A task that asks nothing. -/
def proceed (s : WholeProgram n) (i : Fin (n + 1)) : Option (ProgramEvent n × WholeProgram n) :=
  let t := s.threads i
  s.loop i t .proceed
    (if t.loop.tasks.head? = some .requireTransfer then
      fun _ => .halted i t.loop.transferCompleted
    else .looped i)

/-- `runVirtualMachine` has returned to `runGuest`. -/
def conclude (s : WholeProgram n) (i : Fin (n + 1)) : Option (ProgramEvent n × WholeProgram n) :=
  let t := s.threads i
  match t.life.stage with
  | .returned success =>
    some (.concluded i success, s.setThread i { t with
      completedSuccessfully := success
      stage := if success then .closeGuestFiles else .abortSharedBuffer })
  | _ => none

/-- `runGuest` aborts the shared buffer after a failure. -/
def abort (s : WholeProgram n) (i : Fin (n + 1)) : ProgramEvent n × WholeProgram n :=
  (.aborted i, { s.setThread i { s.threads i with stage := .closeGuestFiles } with
    shared := abortSharedBuffer s.shared })

/-- `runGuest` closes the files of its VM and ends. -/
def close (s : WholeProgram n) (i : Fin (n + 1)) : ProgramEvent n × WholeProgram n :=
  let t := s.threads i
  let (fileState, host) := closeGuestFiles sys t.fileState s.host
  (.closed i, { s.setThread i { t with fileState, stage := .ended } with host })

/-- The thread of VM `i` is in `runVirtualMachine`, in its exit loop or not. -/
def inLoop (s : WholeProgram n) (i : Fin (n + 1)) : Bool :=
  (s.threads i).stage = .runVirtualMachine ∧ (s.threads i).life.stage = .loop

/-- One step of the program, which has not returned from `main`. -/
def move (config : Config) (s : WholeProgram n) : ProgramAction n →
    Option (ProgramEvent n × WholeProgram n)
  | .create success => s.create success
  | .join success => s.join success
  | .exit => s.exit
  | .print count => s.print count
  | .life i answer =>
    if (s.threads i).stage = .runVirtualMachine ∧ (s.threads i).life.stage ≠ .loop then
      s.life config i answer
    else none
  | .leave i => if s.inLoop i then s.leave config i else none
  | .kvmRun i result memory => if s.inLoop i then s.kvmRun i result memory else none
  | .fileIo i => if s.inLoop i then s.fileIo sys sharedFiles i else none
  | .sharedBufferIo i => if s.inLoop i then s.sharedBufferIo i else none
  | .serialInput i => if s.inLoop i then s.serialInput i else none
  | .injected i success => if s.inLoop i then s.injected i success else none
  | .proceed i => if s.inLoop i then s.proceed i else none
  | .conclude i => if (s.threads i).stage = .runVirtualMachine then s.conclude i else none
  | .abort i => if (s.threads i).stage = .abortSharedBuffer then some (s.abort i) else none
  | .close i => if (s.threads i).stage = .closeGuestFiles then some (s.close sys i) else none

/-- One step of the program. The return from `main` ends the process with all its threads. -/
def step (config : Config) (s : WholeProgram n) (a : ProgramAction n) :
    Option (ProgramEvent n × WholeProgram n) :=
  match s.main with
  | .returned _ => none
  | _ => s.move sys sharedFiles config a

end WholeProgram

/-- The program with `n + 1` VMs. -/
def wholeProgram (sys : HostSystem) (sharedFiles : List (String × HostPath)) (n : ℕ)
    (config : Config) (host : Host HostPath) (stdin : List UInt8) :
    Machine (WholeProgram n) (ProgramAction n) (ProgramEvent n) where
  init := .initial n config host stdin
  step := WholeProgram.step sys sharedFiles config

/-! ### Inversion of a step -/

namespace WholeProgram

variable {n : ℕ} {sys : HostSystem} {sharedFiles : List (String × HostPath)} {config : Config}
variable {s s' : WholeProgram n} {a : ProgramAction n}
variable {x : ProgramEvent n} {i : Fin (n + 1)}

/-- What surrounds a step of the exit loop of VM `i`: the action, the program `w` and the thread
`t` as the handler leaves them, the input the loop gets, and the event. -/
inductive Surrounds (sys : HostSystem) (sharedFiles : List (String × HostPath))
    (s : WholeProgram n) (i : Fin (n + 1)) : ProgramAction n → WholeProgram n → GuestThread →
      LoopInput → (LoopEvent → ProgramEvent n) → Prop
  | kvmRun (result : KvmRunResult) (memory : ℕ → UInt8) :
      Surrounds sys sharedFiles s i (.kvmRun i result memory) s
        { s.threads i with
          run := result.mapping (s.threads i).run
          memory := { (s.threads i).memory with bytes := memory } } (.kvmRun result) (.looped i)
  | fileRejected :
      handleFileIo sys (contextOf sharedFiles i) (s.threads i).run (s.threads i).memory
        (s.threads i).fileState s.host = none →
      Surrounds sys sharedFiles s i (.fileIo i) s (s.threads i) (.fileIo false) (.looped i)
  | fileHandled {frame : FileIoFrame} :
      handleFileIo sys (contextOf sharedFiles i) (s.threads i).run (s.threads i).memory
        (s.threads i).fileState s.host = some frame →
      Surrounds sys sharedFiles s i (.fileIo i) { s with host := frame.host }
        { s.threads i with
          run := { (s.threads i).run with bytes := frame.bytes }
          memory := frame.memory
          fileState := frame.state } (.fileIo true) (fileEvent i (s.threads i) frame)
  | port {result : Bool} {frame : Frame} :
      handleSharedBufferIo s.shared (s.threads i).sharedBuffer (s.threads i).run =
        .done result frame →
      Surrounds sys sharedFiles s i (.sharedBufferIo i) { s with shared := frame.state }
        { s.threads i with
          run := { (s.threads i).run with bytes := frame.bytes }
          sharedBuffer := frame.vm
          waiting := false } (.sharedBufferIo result frame.vm.transferCompleted) fun _ =>
        .port i (if result then .call i ((exitLabel s.shared (s.threads i).sharedBuffer
          (s.threads i).run frame).getD (.deliverMode 0)) else .reject i)
  | endOfInput : s.stdin = [] →
      Surrounds sys sharedFiles s i (.serialInput i) s (s.threads i) (.serialInput none) (.looped i)
  | input {input : UInt8} {stdin : List UInt8} : s.stdin = input :: stdin →
      Surrounds sys sharedFiles s i (.serialInput i) { s with stdin := stdin }
        { s.threads i with
          run := { (s.threads i).run with
            bytes := writeUint8 (s.threads i).run.bytes (s.threads i).run.io.dataOffset input } }
        (.serialInput (some input)) fun _ => .read i input
  | injected (success : Bool) :
      Surrounds sys sharedFiles s i (.injected i success)
        { s with err := s.err ++ if success then [] else [ErrorLine.perror i "KVM_INTERRUPT"] }
        (s.threads i) (.injected success) fun _ => .injected i success
  | proceed : Surrounds sys sharedFiles s i (.proceed i) s (s.threads i) .proceed
      (if (s.threads i).loop.tasks.head? = some .requireTransfer then
        fun _ => .halted i (s.threads i).loop.transferCompleted
      else .looped i)

/-- **What a step can do.** -/
inductive Advance (sys : HostSystem) (sharedFiles : List (String × HostPath)) (config : Config)
    (s : WholeProgram n) : ProgramAction n → ProgramEvent n → WholeProgram n → Prop
  | create {started : ℕ} (h : started < n + 1) : s.main = .creating started →
      Advance sys sharedFiles config s (.create true) (.created true)
        { s.setThread ⟨started, h⟩
            { s.threads ⟨started, h⟩ with stage := .runVirtualMachine } with
          main :=
            if started + 1 = n + 1 then .joining 0 (n + 1) true else .creating (started + 1) }
  | createFails {started : ℕ} : started < n + 1 → s.main = .creating started →
      Advance sys sharedFiles config s (.create false) (.created false) { s with
        main := .joining 0 started false
        shared := abortSharedBuffer s.shared
        err := s.err ++ [.main "Failed to create VM thread"] }
  | join {joined started : ℕ} {ok : Bool} (h : joined < n + 1) : joined < started →
      s.main = .joining joined started ok → (s.threads ⟨joined, h⟩).stage = .ended →
      Advance sys sharedFiles config s (.join true) (.joined true) { s with
        main := .joining (joined + 1) started
          (ok && (s.threads ⟨joined, h⟩).completedSuccessfully) }
  | joinFails {joined started : ℕ} {ok : Bool} : joined < started →
      s.main = .joining joined started ok →
      Advance sys sharedFiles config s (.join false) (.joined false) { s with
        main := .joining (joined + 1) started false
        shared := abortSharedBuffer s.shared
        err := s.err ++ [.main "Failed to join VM thread"] }
  | exit {started : ℕ} {ok : Bool} : s.main = .joining started started ok →
      Advance sys sharedFiles config s .exit (.exited ok) { s with main := .returned ok }
  | print {count : ℕ} {i : Fin (n + 1)} {text : List UInt8} : s.console = some (i, text) →
      0 < count → Advance sys sharedFiles config s (.print count) (.printed i (text.take count))
        { s with
          console := if text.drop count = [] then none else some (i, text.drop count)
          out := s.out ++ [.locked i (text.take count)] }
  | life {a : ProgramAction n} {i : Fin (n + 1)} {answer : KernelAnswer} {e : LifeEvent}
      {v : VmLife} : (s.threads i).stage = .runVirtualMachine →
      ((s.threads i).life.stage ≠ .loop ∨ ∃ success, (s.threads i).life.stage = .loop ∧
        (s.threads i).loop.result = some success ∧ answer = .loopReturned success) →
      (a = .life i answer ∨ (a = .leave i ∧ (s.threads i).life.stage = .loop)) →
      (s.threads i).life.step config.pageSize answer = some (e, v) → e.fresh s.live = true →
      s.allows i e.locks = true →
      Advance sys sharedFiles config s a (.life i e)
        { s.setThread i { s.threads i with life := v } with
          live := e.apply s.live
          out := s.out ++ e.writes i
          err := s.err ++ e.errorLines i }
  | loop {a : ProgramAction n} {i : Fin (n + 1)} {w : WholeProgram n} {t : GuestThread}
      {input : LoopInput} {event : LoopEvent → ProgramEvent n} {e : LoopEvent} {vm : LoopVm} :
      s.inLoop i = true → Surrounds sys sharedFiles s i a w t input event →
      (s.threads i).loop.step input = some (e, vm) → s.allows i e.locks = true →
      Advance sys sharedFiles config s a (event e)
        ((w.setThread i { t with loop := vm }).speaks i e)
  | park {i : Fin (n + 1)} : s.inLoop i = true → (s.threads i).loop.result = none →
      (s.threads i).loop.tasks.head? = some .handleSharedBufferIo →
      (s.threads i).waiting = false → s.allows i false = true →
      handleSharedBufferIo s.shared (s.threads i).sharedBuffer (s.threads i).run = .wait →
      Advance sys sharedFiles config s (.sharedBufferIo i) (.port i (.park i))
        (s.setThread i { s.threads i with waiting := true })
  | conclude {i : Fin (n + 1)} {success : Bool} : (s.threads i).stage = .runVirtualMachine →
      (s.threads i).life.stage = .returned success →
      Advance sys sharedFiles config s (.conclude i) (.concluded i success)
        (s.setThread i { s.threads i with
          completedSuccessfully := success
          stage := if success then .closeGuestFiles else .abortSharedBuffer })
  | abort {i : Fin (n + 1)} : (s.threads i).stage = .abortSharedBuffer →
      Advance sys sharedFiles config s (.abort i) (s.abort i).1 (s.abort i).2
  | close {i : Fin (n + 1)} : (s.threads i).stage = .closeGuestFiles →
      Advance sys sharedFiles config s (.close i) (s.close sys i).1 (s.close sys i).2

/-- What a step needs from the console. -/
theorem allows_iff {locks : Bool} : s.allows i locks = true ↔
    ∀ holder text, s.console = some (holder, text) → locks = false ∧ holder ≠ i := by
  unfold allows
  cases s.console with
  | none => simp
  | some p =>
      obtain ⟨holder, text⟩ := p
      simp

/-- `loop` by outcome. -/
theorem loop_eq_some {t : GuestThread} {input : LoopInput} {event : LoopEvent → ProgramEvent n}
    (h : s.loop i t input event = some (x, s')) :
    ∃ e vm, t.loop.step input = some (e, vm) ∧ s.allows i e.locks = true ∧ x = event e ∧
      s' = (s.setThread i { t with loop := vm }).speaks i e := by
  unfold loop at h
  cases hvm : t.loop.step input with
  | none => simp [hvm] at h
  | some p =>
      obtain ⟨e, vm⟩ := p
      simp only [hvm, Option.ite_none_right_eq_some] at h
      obtain ⟨hallows, h⟩ := h
      cases h
      exact ⟨e, vm, rfl, hallows, rfl, rfl⟩

/-- A step of the exit loop with its surroundings. -/
theorem Advance.of_loop {w : WholeProgram n} {t : GuestThread} {input : LoopInput}
    {event : LoopEvent → ProgramEvent n} (hin : s.inLoop i = true)
    (hw : Surrounds sys sharedFiles s i a w t input event)
    (h : w.loop i t input event = some (x, s')) : Advance sys sharedFiles config s a x s' := by
  obtain ⟨e, vm, hvm, hallows, rfl, rfl⟩ := loop_eq_some h
  have hloop : t.loop = (s.threads i).loop := by cases hw <;> rfl
  have hconsole : w.allows i e.locks = s.allows i e.locks := by cases hw <;> rfl
  rw [hloop] at hvm
  exact .loop hin hw hvm (hconsole ▸ hallows)

theorem advance_create {success : Bool} (h : s.create success = some (x, s')) :
    Advance sys sharedFiles config s (.create success) x s' := by
  unfold create at h
  cases hmain : s.main with
  | creating started =>
      simp only [hmain] at h
      by_cases hlt : started < n + 1
      · rw [dif_pos hlt] at h
        cases success <;> cases h
        · exact .createFails hlt hmain
        · exact .create hlt hmain
      · rw [dif_neg hlt] at h
        cases h
  | _ => simp only [hmain, reduceCtorEq] at h

theorem advance_join {success : Bool} (h : s.join success = some (x, s')) :
    Advance sys sharedFiles config s (.join success) x s' := by
  unfold join at h
  cases hmain : s.main with
  | joining joined started ok =>
      simp only [hmain] at h
      split_ifs at h with hlt hsuccess hended
      · subst hsuccess
        cases h
        exact .join hlt.2 hlt.1 hmain hended
      · obtain rfl : success = false := by simpa using hsuccess
        cases h
        exact .joinFails hlt.1 hmain
  | _ => simp only [hmain, reduceCtorEq] at h

theorem advance_exit (h : s.exit = some (x, s')) :
    Advance sys sharedFiles config s .exit x s' := by
  unfold exit at h
  cases hmain : s.main with
  | joining joined started ok =>
      simp only [hmain] at h
      split_ifs at h with heq
      cases h
      exact .exit (heq ▸ hmain)
  | _ => simp only [hmain, reduceCtorEq] at h

theorem advance_print {count : ℕ} (h : s.print count = some (x, s')) :
    Advance sys sharedFiles config s (.print count) x s' := by
  unfold print at h
  cases hconsole : s.console with
  | none => simp only [hconsole, reduceCtorEq] at h
  | some p =>
      obtain ⟨i, text⟩ := p
      simp only [hconsole] at h
      rw [Option.ite_none_right_eq_some] at h
      obtain ⟨hcount, h⟩ := h
      cases h
      exact .print hconsole hcount

theorem advance_life {answer : KernelAnswer} (hstage : (s.threads i).stage = .runVirtualMachine)
    (hloop : (s.threads i).life.stage ≠ .loop ∨ ∃ success, (s.threads i).life.stage = .loop ∧
      (s.threads i).loop.result = some success ∧ answer = .loopReturned success)
    (ha : a = .life i answer ∨ (a = .leave i ∧ (s.threads i).life.stage = .loop))
    (h : s.life config i answer = some (x, s')) :
    Advance sys sharedFiles config s a x s' := by
  unfold life at h
  cases hv : (s.threads i).life.step config.pageSize answer with
  | none => simp [hv] at h
  | some p =>
      obtain ⟨e, v⟩ := p
      simp only [hv] at h
      split_ifs at h with hgo
      cases h
      exact .life hstage hloop ha hv hgo.1 hgo.2

theorem inLoop_iff : s.inLoop i = true ↔
    (s.threads i).stage = .runVirtualMachine ∧ (s.threads i).life.stage = .loop :=
  decide_eq_true_iff

/-- **A step is one of those**, and `main` has not returned. -/
theorem step_cases (h : s.step sys sharedFiles config a = some (x, s')) :
    (∀ ok, s.main ≠ .returned ok) ∧ Advance sys sharedFiles config s a x s' := by
  unfold step at h
  have hmain : ∀ ok, s.main ≠ .returned ok := by
    intro ok heq
    rw [heq] at h
    cases h
  refine ⟨hmain, ?_⟩
  replace h : s.move sys sharedFiles config a = some (x, s') := by
    cases hm : s.main with
    | returned ok => exact absurd hm (hmain ok)
    | _ =>
        rw [hm] at h
        exact h
  cases a <;> simp only [move, Option.ite_none_right_eq_some] at h
  case create success => exact advance_create h
  case join success => exact advance_join h
  case exit => exact advance_exit h
  case print count => exact advance_print h
  all_goals obtain ⟨hin, h⟩ := h
  case life i answer => exact advance_life hin.1 (.inl hin.2) (.inl rfl) h
  case leave i =>
    obtain ⟨hstage, hloop⟩ := inLoop_iff.mp hin
    unfold leave at h
    cases hresult : (s.threads i).loop.result with
    | none => simp [hresult] at h
    | some success =>
        rw [hresult] at h
        exact advance_life hstage (.inr ⟨success, hloop, hresult, rfl⟩) (.inr ⟨rfl, hloop⟩) h
  case kvmRun i result memory => exact .of_loop hin (.kvmRun result memory) h
  case fileIo i =>
    unfold fileIo at h
    cases hframe : handleFileIo sys (contextOf sharedFiles i) (s.threads i).run
        (s.threads i).memory (s.threads i).fileState s.host with
    | none =>
        simp only [hframe] at h
        exact .of_loop hin (.fileRejected hframe) h
    | some frame =>
        simp only [hframe] at h
        exact .of_loop hin (.fileHandled hframe) h
  case sharedBufferIo i =>
    unfold sharedBufferIo at h
    cases hout : handleSharedBufferIo s.shared (s.threads i).sharedBuffer (s.threads i).run with
    | wait =>
        simp only [hout] at h
        split_ifs at h with hpark
        cases h
        exact .park hin hpark.1 hpark.2.1 hpark.2.2.1 hpark.2.2.2 hout
    | done result frame =>
        simp only [hout] at h
        exact .of_loop hin (.port hout) h
  case serialInput i =>
    unfold serialInput at h
    cases hstdin : s.stdin with
    | nil =>
        simp only [hstdin] at h
        exact .of_loop hin (.endOfInput hstdin) h
    | cons input stdin =>
        simp only [hstdin] at h
        exact .of_loop hin (.input hstdin) h
  case injected i success => exact .of_loop hin (.injected success) h
  case proceed i => exact .of_loop hin .proceed h
  case conclude i =>
    unfold conclude at h
    cases hstage : (s.threads i).life.stage <;> simp only [hstage, reduceCtorEq] at h
    cases h
    exact .conclude hin hstage
  case abort i =>
    cases h
    exact .abort hin
  case close i =>
    cases h
    exact .close hin

/-! ### A run -/

/-- A VM comes to its loop, with descriptor numbers and addresses from `k` on. -/
def boots (i : Fin 2) (k : ℕ) : List (ProgramAction 1) :=
  [.acquired k, .value 12, .acquired (k + 1), .acquired k, .succeeded, .acquired (k + 2),
    .value 4096, .acquired (k + 1), .registers default, .succeeded, .acquired k, .succeeded,
    .value 1, .content [0xF4], .proceed, .succeeded].map (.life i)

/-- A guest executes a port instruction, and the handler of the shared buffer takes it. -/
def exchanges (i : Fin 2) (command : PortCommand) : List (ProgramAction 1) :=
  [.kvmRun i (.exited kvmExitIo (command.exit .smallest)) fun _ => 0, .sharedBufferIo i]

/-- A guest halts, and its thread ends. -/
def halts (i : Fin 2) : List (ProgramAction 1) :=
  [.kvmRun i (.exited kvmExitHlt .zero) fun _ => 0, .proceed i, .proceed i, .proceed i,
    .print 20, .proceed i, .leave i, .life i .proceed, .life i .proceed, .life i .proceed,
    .life i .proceed, .life i .proceed, .conclude i, .close i]

/-- Two VMs come to their loops, transfer one byte, and the reader ends. -/
def transfersByte : List (ProgramAction 1) :=
  [.create true, .create true] ++ boots writerVm 3 ++ boots readerVm 6 ++
    exchanges writerVm (.inb 0x510) ++ exchanges readerVm (.inb 0x510) ++
    exchanges writerVm (.outl 0x510 1) ++ exchanges writerVm (.outb 0x510 7) ++
    exchanges readerVm (.inl 0x510) ++ exchanges readerVm (.inb 0x510) ++
    exchanges readerVm (.outl 0x520 1) ++ exchanges writerVm (.inl 0x520) ++ halts readerVm

/-- Then the writer ends, and `main` returns. -/
def returnsAfterByte : List (ProgramAction 1) :=
  transfersByte ++ halts writerVm ++ [.join true, .join true, .exit]

/-- The program with two VMs, on a host with one file and no input. -/
def smallProgram : Machine (WholeProgram 1) (ProgramAction 1) (ProgramEvent 1) :=
  wholeProgram (plainSystem fun _ => .completes) [] 1 Lifecycles.smallConfig sharedA []

/-- It exits with success, and both VMs have halted. -/
theorem exists_returnsAfterByte : ∃ tr s, smallProgram.Run (fun _ _ => True) tr s ∧
    s.main = .returned true ∧
    s.stdout = bytesOf "[VM 1] KVM_EXIT_HLT\n[VM 0] KVM_EXIT_HLT\n" := by
  have hexec : (smallProgram.exec (fun _ _ => True) smallProgram.init returnsAfterByte).map
      (fun p => (p.2.main, p.2.stdout)) =
        some (.returned true, bytesOf "[VM 1] KVM_EXIT_HLT\n[VM 0] KVM_EXIT_HLT\n") := by
    decide +kernel
  obtain ⟨tr, s, hrun, hobs⟩ := Machine.exists_of_exec hexec
  exact ⟨tr, s, hrun, (Prod.mk.inj hobs).1, (Prod.mk.inj hobs).2⟩

end WholeProgram

end KvmHypervisor
