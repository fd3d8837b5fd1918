import KvmHypervisor.GuestConsole
import KvmHypervisor.GuestInterrupts
import KvmHypervisor.GuestReads

/-!
# Results of the Program and Its Guests

What the guests of `guest/src` make of the whole program, in every run of it.

## Main results

* `interrupts_of_run`: what a guest makes of its interrupts.
* `defaultGuests_of_run`: as long as nothing fails, the program is its default guests.
* `readerFile_of_success`: what the readers are left with when `main` returns success.
* `transcript_of_success`: what stands on standard output then.
-/

open Interactions Transitions

namespace KvmHypervisor

open PosixFiles

variable {n : ℕ}

/-! ### A run -/

namespace BootedProgram

/-- The bytes of a 32-bit number in memory. -/
def littleEndian (value : ℕ) : List UInt8 :=
  [UInt8.ofNat value, UInt8.ofNat (value / 2 ^ 8), UInt8.ofNat (value / 2 ^ 16),
    UInt8.ofNat (value / 2 ^ 24)]

/-- Guest memory with the request of a call at address zero and `data` behind it. -/
def callMemory (call : FileCall) (data : List UInt8) : ℕ → UInt8 :=
  let request := call.request fileRequestSize
  let bytes := littleEndian request.operation ++ littleEndian (toUint32 request.descriptor) ++
    littleEndian request.buffer ++ littleEndian (toUint32 request.count) ++
    littleEndian (toUint32 request.offset) ++ littleEndian request.flags.toNat
  fun k => (bytes ++ data).getD k 0

/-- A guest comes to an exit that needs no memory. -/
def exits (i : Fin 2) : BootedAction 1 :=
  .exit i (fun _ => 0) 0 0

/-- A guest writes bytes to the serial port. -/
def writesBytes (i : Fin 2) (text : List UInt8) : List (BootedAction 1) :=
  text.flatMap fun byte => exits i ::
    (if byte = newline then [.program (.proceed i), .program (.print 4096)] else []) ++ [.guest i]

/-- A guest comes to the OUT of a file call. -/
def asksFile (i : Fin 2) (call : FileCall) (data : List UInt8) : BootedAction 1 :=
  .exit i (callMemory call data) 0 fileRequestSize

/-- A guest fetches the result of a file call. -/
def fetchesResult (i : Fin 2) : List (BootedAction 1) :=
  [.guest i, exits i, .program (.fileIo i), .guest i]

/-- A guest makes a file call. -/
def callsFile (i : Fin 2) (call : FileCall) (data : List UInt8) : List (BootedAction 1) :=
  asksFile i call data :: .program (.fileIo i) :: fetchesResult i

/-- A guest executes an instruction at the shared buffer. -/
def usesBuffer (i : Fin 2) : List (BootedAction 1) :=
  [exits i, .program (.sharedBufferIo i), .guest i]

/-- A guest takes an interrupt. -/
def takesInterrupt (i : Fin 2) : List (BootedAction 1) :=
  [.window i fun _ => 0, .program (.injected i true), .guest i]

/-- The paths of the guests, as strings of C. -/
def guestTxt : List UInt8 :=
  bytesOf "guest.txt" ++ [0]

def readerTxt : List UInt8 :=
  bytesOf "reader.txt" ++ [0]

/-- A guest tests its file and enables interrupts. -/
def testsFile (i : Fin 2) : List (BootedAction 1) :=
  callsFile i (.openFile "guest.txt" (fileOpenReadWrite ||| fileOpenCreate)) guestTxt ++
    callsFile i (.write 3 testMessage) testMessage ++ callsFile i (.lseek 3 0 fileSeekSet) [] ++
    callsFile i (.read 3 testMessage.length) [] ++ callsFile i (.close 3) [] ++
    writesBytes i (bytesOf "File content: File I/O works!\n") ++ [.guest i]

/-- A guest learns its mode in the handler of its first interrupt. -/
def learnsMode (i : Fin 2) (vmMode : UInt8) : List (BootedAction 1) :=
  takesInterrupt i ++ usesBuffer i ++ writesBytes i (modeText vmMode) ++ [.guest i]

/-- A writer comes to its read, sends what it has read, and asks for the result. -/
def opensSource : List (BootedAction 1) :=
  takesInterrupt writerVm ++ callsFile writerVm (.openFile "guest.txt" fileOpenRead) guestTxt ++
    [asksFile writerVm (.read 4 (bufferSize + 1)) []]

def sendsBytes : List (BootedAction 1) :=
  fetchesResult writerVm ++ callsFile writerVm (.close 4) [] ++
    (List.replicate (testMessage.length + 1) (usesBuffer writerVm)).flatten

/-- A reader stores what it receives. -/
def storesBytes : List (BootedAction 1) :=
  takesInterrupt readerVm ++
    (List.replicate (testMessage.length + 2) (usesBuffer readerVm)).flatten ++
    callsFile readerVm (.openFile "reader.txt" (fileOpenWrite ||| fileOpenCreate)) readerTxt ++
    callsFile readerVm (.lseek 4 0 fileSeekSet) [] ++
    callsFile readerVm (.write 4 testMessage) testMessage ++ callsFile readerVm (.close 4) []

/-- A guest greets and halts, and its thread ends. -/
def halts (i : Fin 2) (input : UInt8) : List (BootedAction 1) :=
  [.guest i, .guest i] ++
    writesBytes i (bytesOf
      "Shared buffer transfer complete.\nHello, world!\nEnter one character: ") ++
    [exits i, .program (.proceed i), .program (.print 4096), .program (.serialInput i),
      .guest i] ++
    writesBytes i (bytesOf "Guest received: " ++ [input, newline]) ++
    [exits i, .program (.proceed i), .program (.proceed i), .program (.proceed i),
      .program (.print 4096), .program (.proceed i), .program (.leave i)] ++
    List.replicate 5 (.program (.life i .proceed)) ++ [.program (.conclude i), .program (.close i)]

/-- Two VMs boot, and the writer comes to its read. -/
def untilRead : List (BootedAction 1) :=
  [.program (.create true), .program (.create true)] ++
    (WholeProgram.boots writerVm 3).map .program ++ (WholeProgram.boots readerVm 6).map .program ++
    testsFile writerVm ++ testsFile readerVm ++ learnsMode writerVm vmModeWriter ++
    learnsMode readerVm 0 ++ opensSource

/-- They transfer what the writer has read, and `main` returns. -/
def afterRead : List (BootedAction 1) :=
  sendsBytes ++ storesBytes ++ usesBuffer writerVm ++ halts writerVm 65 ++ halts readerVm 66 ++
    [.program (.join true), .program (.join true), .program .exit]

/-- A host on which an earlier run has left files of the VMs, `reader.txt` with 20 bytes. -/
def usedHost : Host HostPath :=
  { oneFileHost ["root", "vm_files", "vm_0", "guest.txt"] (.made []) with
    names := fun p =>
      if p = ["root", "vm_files", "vm_0", "guest.txt"] then some 0
      else if p = ["root", "vm_files", "vm_1", "guest.txt"] then some 1
      else if p = ["root", "vm_files", "vm_1", "reader.txt"] then some 2
      else none
    files := fun o => if o = 2 then .made (List.replicate 20 9) else .made []
    nextIno := 3
    named_lt := by
      intro p n hp
      split_ifs at hp <;> (obtain rfl := Option.some.inj hp; decide)
    open_lt := by
      intro fd d hd
      exact absurd hd (by simp [oneFileHost]) }

/-- The program with two VMs and their guests, on such a host. -/
def smallGuests : Machine (BootedProgram 1) (BootedAction 1) (BootedEvent 1) :=
  bootedProgram (plainSystem fun _ => .completes) [] 1 Lifecycles.smallConfig
    (fun _ => .smallest) usedHost [65, 66]

/-- What the two VMs print. -/
def transcript : List UInt8 :=
  bytesOf "[VM 0] File content: File I/O works!\n[VM 1] File content: File I/O works!\n" ++
    bytesOf "[VM 0] Mode: writer\n[VM 1] Mode: reader\n" ++
    bytesOf "[VM 0] Shared buffer transfer complete.\n[VM 0] Hello, world!\n" ++
    bytesOf "[VM 0] Enter one character: \n[VM 0] Guest received: A\n[VM 0] KVM_EXIT_HLT\n" ++
    bytesOf "[VM 1] Shared buffer transfer complete.\n[VM 1] Hello, world!\n" ++
    bytesOf "[VM 1] Enter one character: \n[VM 1] Guest received: B\n[VM 1] KVM_EXIT_HLT\n"

/-- What the run comes to: whether the writer reads, how `main` ends, what `guest.txt` holds at the
read and `reader.txt` in the end, and what has been printed. -/
def smallRun : Option ((Bool × MainStage) × (Option (List UInt8) × Option (List UInt8)) ×
    List UInt8) :=
  (smallGuests.exec (fun _ _ => True) smallGuests.init untilRead).bind fun p =>
    (smallGuests.step p.2 (.program (.fileIo writerVm))).bind fun q =>
      (smallGuests.exec (fun _ _ => True) q.2 afterRead).map fun r =>
        ((decide q.1.ReadsSource, r.2.program.main),
          (contentsOf (plainSystem fun _ => .completes) [] p.2.program.host writerVm "guest.txt",
            contentsOf (plainSystem fun _ => .completes) [] r.2.program.host readerVm
              "reader.txt"), r.2.program.stdout)

/-- The two VMs run their guests to the end. -/
theorem exists_smallRun : ∃ tr s t, smallGuests.Run (fun _ _ => True) tr s ∧
    s.program.main = .returned true ∧ SourceRead smallGuests (fun _ _ => True) tr s t ∧
    contentsOf (plainSystem fun _ => .completes) [] t.program.host (0 : Fin 2) "guest.txt" =
      some testMessage ∧
    contentsOf (plainSystem fun _ => .completes) [] s.program.host (1 : Fin 2) "reader.txt" =
      some (testMessage ++ List.replicate 5 9) ∧
    s.program.stdout = transcript := by
  have hexec : smallRun = some ((true, .returned true),
      (some testMessage, some (testMessage ++ List.replicate 5 9)), transcript) := by
    decide +kernel
  obtain ⟨⟨tr₁, t⟩, hbefore, hexec⟩ := Option.bind_eq_some_iff.mp hexec
  obtain ⟨⟨x, u⟩, hread, hexec⟩ := Option.bind_eq_some_iff.mp hexec
  obtain ⟨⟨tr₂, s⟩, hafter, hexec⟩ := Option.map_eq_some_iff.mp hexec
  simp only [Prod.mk.injEq, decide_eq_true_eq] at hexec
  obtain ⟨⟨hreads, hmain⟩, ⟨hguest, hreader⟩, hstdout⟩ := hexec
  have hsource : SourceRead smallGuests (fun _ _ => True) (tr₂ ++ x :: tr₁) s t :=
    ⟨tr₁, tr₂, _, x, u, Machine.path_of_exec hbefore, trivial, hread, hreads,
      Machine.path_of_exec hafter, rfl⟩
  have hrun : smallGuests.Run (fun _ _ => True) (x :: tr₁) u :=
    Machine.Run.step (Machine.path_of_exec hbefore) trivial hread
  exact ⟨_, s, t, hrun.trans (Machine.path_of_exec hafter), hmain, hsource, hguest, hreader,
    hstdout⟩

end BootedProgram

/-! ### Results -/

section Runs

variable {sys : HostSystem} {sharedFiles : List (String × HostPath)} {config : Config}
variable {layout : Fin (n + 1) → RunLayout} {host : Host HostPath} {stdin : List UInt8}
variable {ok : BootedProgram n → BootedAction n → Prop} {tr : List (BootedEvent n)}
variable {s : BootedProgram n}

/-- All threads have finished when `main` has returned success. -/
theorem finished_of_returned
    (hrun : (bootedProgram sys sharedFiles n config layout host stdin).Run ok tr s)
    (hreturned : s.program.main = .returned true) (i : Fin (n + 1)) :
    WholeProgram.Finished s.program i :=
  WholeProgram.finished_of_success
    (wholeProgram_of_booted sys sharedFiles n config layout host stdin ok hrun) hreturned i

/-- **The interrupts of a guest.** It takes no more than `IRQ_COUNT`, and its handler interrupts
nothing but the loop of `main`; when `runVirtualMachine` has returned success, it has taken all
of them. -/
theorem interrupts_of_run
    (hrun : (bootedProgram sys sharedFiles n config layout host stdin).Run ok tr s)
    (i : Fin (n + 1)) :
    interruptsOf i tr ≤ irqCount ∧
    ((s.guests i).handler.isSome = true → (s.guests i).main = .waiting ∧
      (s.guests i).interruptFlag = false ∧ (s.guests i).injected = false) ∧
    ((s.program.threads i).life.stage.result = some true → interruptsOf i tr = irqCount) := by
  obtain ⟨hsteady, hcount⟩ := accounted_interrupts_of_run hrun i
  refine ⟨by omega, fun hhandler => ⟨hsteady.waits (.inr hhandler), hsteady.masked hhandler⟩,
    fun hresult => ?_⟩
  cases (aligned_of_run hrun).2 i with
  | running hnone =>
      rw [hresult] at hnone
      cases hnone
  | departed success hdeparture hhalts =>
      rw [hresult, Option.some_or] at hdeparture
      obtain ⟨hzero, hinjected, -⟩ := hhalts (Option.some.inj hdeparture).symm
      rw [hzero, hinjected] at hcount
      exact hcount

end Runs

namespace BootedProgram

/-- Both VMs of the run have taken all their interrupts. -/
theorem interrupts_of_run_smallRun : ∃ tr s, smallGuests.Run (fun _ _ => True) tr s ∧
    ∀ i, interruptsOf i tr = irqCount := by
  obtain ⟨tr, s, t, hrun, hmain, -⟩ := exists_smallRun
  refine ⟨tr, s, hrun, fun i => (interrupts_of_run hrun i).2.2 ?_⟩
  rw [(finished_of_returned hrun hmain i).life]
  rfl

end BootedProgram

section Runs

variable {sys : HostSystem} {sharedFiles : List (String × HostPath)} {config : Config}
variable {layout : Fin (n + 1) → RunLayout} {host : Host HostPath} {stdin : List UInt8}
variable {ok : BootedProgram n → BootedAction n → Prop} {tr : List (BootedEvent n)}
variable {s : BootedProgram n}

/-- **The program is its default guests** as long as the shared buffer has not been stopped: what
they show is what the program has shown. -/
theorem defaultGuests_of_run
    (hrun : (bootedProgram sys sharedFiles n config layout host stdin).Run ok tr s)
    (hstopped : s.program.shared.stopped = false) :
    ∃ tr', (defaultSystem (fileLayer sys sharedFiles) layout (FileWorld.start host)).Run
        (fun _ _ => True) tr' (BootedProgram.asDefault tr s) ∧
      tr'.filter DefaultEvent.visible = tr.filterMap BootedEvent.defaultEvent :=
  (BootedProgram.defaultGuests_simulation sys sharedFiles config layout host stdin ok).run hrun
    hstopped

/-- The shared buffer has not been stopped when `main` has returned success. -/
theorem not_stopped_of_returned
    (hrun : (bootedProgram sys sharedFiles n config layout host stdin).Run ok tr s)
    (hreturned : s.program.main = .returned true) : s.program.shared.stopped = false :=
  WholeProgram.stopped_of_success
    (wholeProgram_of_booted sys sharedFiles n config layout host stdin ok hrun) hreturned

/-- The default guests have ended successfully then. -/
theorem asDefault_finished
    (hrun : (bootedProgram sys sharedFiles n config layout host stdin).Run ok tr s)
    (hreturned : s.program.main = .returned true) (i : Fin (n + 1)) :
    ((BootedProgram.asDefault tr s).system.vms i).status = .finished true := by
  have hfinished := finished_of_returned hrun hreturned i
  simp only [BootedProgram.asDefault, WholeProgram.asDefault, WholeProgram.closingSystem,
    GuestThread.closingStatus, GuestThread.status, hfinished.ended, hfinished.completed]

end Runs

namespace BootedProgram

/-- The default guests of the run end successfully. -/
theorem defaultGuests_of_run_smallRun : ∃ tr tr' s, smallGuests.Run (fun _ _ => True) tr s ∧
    (defaultSystem (fileLayer (plainSystem fun _ => .completes) []) (fun _ => .smallest)
      (FileWorld.start usedHost)).Run (fun _ _ => True) tr' (asDefault tr s) ∧
    ∀ i, ((asDefault tr s).system.vms i).status = .finished true := by
  obtain ⟨tr, s, t, hrun, hmain, -⟩ := exists_smallRun
  obtain ⟨tr', hdefault, -⟩ := defaultGuests_of_run hrun (not_stopped_of_returned hrun hmain)
  exact ⟨tr, tr', s, hrun, hdefault, asDefault_finished hrun hmain⟩

end BootedProgram

/-- **The files of a successful run.** When `main` has returned success, the writer has made its
read. For every such read, with `held` in its `guest.txt`: every reader finds in its `reader.txt`
the first bytes of `held`, up to the capacity of the buffer, and behind them what stood there
before the program was started.

No host call fails without cause, the originals of the shared files lie outside the directories
of the VMs, and no `reader.txt` is a hard link to a `guest.txt`. -/
theorem readerFile_of_success (canonical : String → Option HostPath) (paths : List String)
    (sharedFiles : List (String × HostPath)) (host : Host HostPath)
    (hshared : configureSharedFiles canonical host [] paths = .ok sharedFiles) (n : ℕ)
    (sys : HostSystem) (hκ : sys.kernel.Faultless)
    (hout : OutsideVmFiles sys sharedFiles (n + 1) host)
    (hapart : ∀ i j : Fin (n + 1), i ≠ 0 → ∀ m,
      host.names (sys.localPathAt i "reader.txt") = some m →
        host.names (sys.localPathAt j "guest.txt") ≠ some m)
    (config : Config) (layout : Fin (n + 1) → RunLayout) (stdin : List UInt8)
    (ok : BootedProgram n → BootedAction n → Prop) (tr : List (BootedEvent n))
    (s : BootedProgram n)
    (hrun : (bootedProgram sys sharedFiles n config layout host stdin).Run ok tr s)
    (hreturned : s.program.main = .returned true) :
    (∃ t, SourceRead (bootedProgram sys sharedFiles n config layout host stdin) ok tr s t) ∧
    ∀ t, SourceRead (bootedProgram sys sharedFiles n config layout host stdin) ok tr s t →
      ∃ held, contentsOf sys sharedFiles t.program.host (0 : Fin (n + 1)) "guest.txt" =
          some held ∧
        ∀ i : Fin (n + 1), i ≠ 0 →
          contentsOf sys sharedFiles s.program.host i "reader.txt" =
            some (held.take bufferSize ++
              ((contentsOf sys sharedFiles host i "reader.txt").getD []).drop
                (held.take bufferSize).length) := by
  have hstopped := not_stopped_of_returned hrun hreturned
  have hfinished := asDefault_finished hrun hreturned
  obtain ⟨tr', hdefault, -⟩ := (BootedProgram.defaultGuests_simulation sys sharedFiles config
    layout host stdin ok).run hrun hstopped
  constructor
  · have hhalted := DefaultGuests.halted_of_run hdefault
    obtain hearly | hreads := exists_sourceRead hrun hstopped (hhalted.noFailure hfinished)
    · obtain ⟨writer, hdone⟩ := hhalted 0 (.inr (hfinished 0))
      rw [show programOf 0 (BootedProgram.programEvents tr) = _ from hdone] at hearly
      cases hearly
    · exact hreads
  · intro t hread
    obtain ⟨tr₁, tr₂, -, hreads⟩ := hread.writerReads hstopped
    exact stored_of_writerReads canonical paths hshared hκ hout hapart hfinished hreads

namespace BootedProgram

/-- An old `reader.txt` of 20 bytes keeps its last five. -/
theorem readerFile_of_success_smallRun : ∃ tr s t, smallGuests.Run (fun _ _ => True) tr s ∧
    SourceRead smallGuests (fun _ _ => True) tr s t ∧
    contentsOf (plainSystem fun _ => .completes) [] s.program.host (1 : Fin 2) "reader.txt" =
      some (testMessage ++ List.replicate 5 9) := by
  obtain ⟨tr, s, t, hrun, hmain, hread, hguest, -⟩ := exists_smallRun
  refine ⟨tr, s, t, hrun, hread, ?_⟩
  have hapart : ∀ i j : Fin 2, i ≠ 0 → ∀ m,
      usedHost.names ((plainSystem fun _ => .completes).localPathAt i "reader.txt") = some m →
        usedHost.names ((plainSystem fun _ => .completes).localPathAt j "guest.txt") ≠ some m := by
    intro i j hi m hreader hguest
    obtain rfl : i = 1 := by omega
    obtain rfl : 2 = m := Option.some.inj hreader
    revert hguest
    revert j
    decide +kernel
  obtain ⟨held, hheld, hreaders⟩ := (readerFile_of_success (fun _ => none) [] [] usedHost rfl 1
    (plainSystem fun _ => .completes) (fun _ => rfl) nofun hapart Lifecycles.smallConfig
    (fun _ => .smallest) [65, 66] (fun _ _ => True) tr s hrun hmain).2 t hread
  obtain rfl : testMessage = held := Option.some.inj (hguest.symm.trans hheld)
  rw [hreaders 1 (by decide)]
  decide +kernel

end BootedProgram

section Runs

variable {sys : HostSystem} {sharedFiles : List (String × HostPath)} {config : Config}
variable {layout : Fin (n + 1) → RunLayout} {host : Host HostPath} {stdin : List UInt8}
variable {ok : BootedProgram n → BootedAction n → Prop} {tr : List (BootedEvent n)}
variable {s : BootedProgram n}

/-- **What a successful run has printed.** When `main` has returned success, nothing has been said
on the error stream, and standard output is a sequence of whole lines, each of one VM. The lines
of a VM hold the text of its boot test, its mode, which is that of the writer for VM 0 and that of
a reader for the others, and the texts of a transfer that succeeded; and one of them is
`KVM_EXIT_HLT`. -/
theorem transcript_of_success
    (hrun : (bootedProgram sys sharedFiles n config layout host stdin).Run ok tr s)
    (hreturned : s.program.main = .returned true) :
    ∃ lines : List (ConsoleLine (n + 1)), s.program.err = [] ∧
      s.program.stdout = lines.flatMap ConsoleLine.render ∧
      (∀ line ∈ lines, newline ∉ line.text) ∧
      ∀ i, IsGuestOutput (modeOf i) (serialBytes i lines) ∧ messagesOf i lines = [haltText] := by
  have hwhole := wholeProgram_of_booted sys sharedFiles n config layout host stdin ok hrun
  have hloops := console_of_run ((exitLoops_simulation sys sharedFiles n config host stdin
    fun _ _ => True).run_of_visible (fun _ _ _ => trivial) hwhole)
  refine ⟨_, ?_, WholeProgram.stdout_of_success hwhole hreturned, hloops.newlineFree,
    fun i => ⟨?_, ?_⟩⟩
  · rw [(streams_of_run sys sharedFiles n config host stdin _ hwhole).2, List.flatMap_eq_nil_iff]
    exact fun x hx => WholeProgram.errorLines_of_success hwhole hreturned (List.mem_reverse.mp hx)
  · have hfinished := finished_of_returned hrun hreturned i
    have hempty : (s.program.threads i).loop.serialOutputBuffer = [] := by
      refine ((WholeProgram.coherent_of_run hwhole).threads i).silent.leaving ?_
      rw [LoopVm.departure, hfinished.result]
      rfl
    have hserial := hloops.accounting i
    rw [show (s.program.loops.vms i).serialOutputBuffer = [] from hempty, List.append_nil,
      writtenBytes_eq_flatMap] at hserial
    rw [hserial]
    exact isGuestOutput_of_result hrun (by rw [hfinished.life]; rfl)
  · rw [messagesOf_consoleLines, (WholeProgram.farewell_of_success hwhole hreturned i).2]
    rfl

end Runs

namespace BootedProgram

/-- Both guests of the run have greeted, each in its own lines. -/
theorem transcript_of_success_smallRun : ∃ s : BootedProgram 1,
    s.program.stdout = transcript ∧ ∃ lines : List (ConsoleLine 2),
      s.program.stdout = lines.flatMap ConsoleLine.render ∧
        ∀ i, IsGuestOutput (modeOf i) (serialBytes i lines) := by
  obtain ⟨tr, s, t, hrun, hmain, -, -, -, hstdout⟩ := exists_smallRun
  obtain ⟨lines, -, hlines, -, hguests⟩ := transcript_of_success hrun hmain
  exact ⟨s, hstdout, lines, hlines, fun i => (hguests i).1⟩

end BootedProgram

end KvmHypervisor
