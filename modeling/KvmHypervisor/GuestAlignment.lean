import KvmHypervisor.FileViews
import KvmHypervisor.GuestPhases
import KvmHypervisor.LastWords
import KvmHypervisor.ProgramViews

/-!
# Guests and Their Threads

Where a guest stands between two steps of its thread. An instruction that exits is on its way
while the thread handles the exit: the phase of the guest is then the one it will be in with the
answer, which is what the handlers leave in the run mapping and in guest memory.

## Main results

* `Aligned.kvmRun`, `Aligned.surrounds`, `Aligned.injected`, `Aligned.move`: a thread and its
  guest stay aligned, whatever the hypervisor answers.
-/

open Interactions Transitions

namespace KvmHypervisor

open PosixFiles

variable {n : ℕ}

/-! ### What an instruction gets -/

@[simp] theorem Guest.resume_inFlight (g : Guest) (inFlight : InFlight)
    (answer : (query : GuestQuery) → query.Reply) :
    ({ g with inFlight } : Guest).resume answer = g.resume answer := by
  unfold resume
  cases g.handler <;> cases g.main <;> rfl

/-- An answer fits its query. -/
theorem admits_answerOf (layout : RunLayout) (run : KvmRun) (memory : GuestMemory) (buffer : ℕ)
    (query : GuestQuery) : query.Admits (answerOf layout run memory buffer query) := by
  cases query with
  | port command =>
      cases command with
      | inb port => exact (run.bytes layout.dataOffset).toNat_lt
      | inl port => exact readUint32_lt run.bytes layout.dataOffset
      | outb port value | outl port value => trivial
  | file call => simp [GuestQuery.Admits, answerOf, GuestMemory.slice]

/-- The answer of the shared buffer arrives. -/
theorem answerOf_port {σ : SharedBufferState} {v : SharedBufferVmState} {layout : RunLayout}
    {command : PortCommand} {f : Frame} {c : Call}
    (h : handleSharedBufferIo σ v (command.exit layout) = .done true f)
    (hc : exitLabel σ v (command.exit layout) f = some c) (memory : GuestMemory) (buffer : ℕ) :
    answerOf layout { command.exit layout with bytes := f.bytes } memory buffer (.port command) =
      (c.response : ℕ) := by
  obtain ⟨data, hsel, hlabel⟩ := exitLabel_eq_some hc
  have hdata := (selectHandler_cases hsel).1
  rw [getIoData_exit] at hdata
  obtain rfl := Option.some.inj hdata
  rw [handleSharedBufferIo, hsel] at h
  have hserves := selectHandler_serves hsel h
  rw [← hlabel]
  cases command with
  | inb port =>
      cases hhandler : c.handler <;> rw [hhandler] at hserves <;>
        first | rfl | simp [Handler.Serves, PortCommand.exit, kvmExitIoIn, kvmExitIoOut] at hserves
  | inl port =>
      cases hhandler : c.handler <;> rw [hhandler] at hserves <;>
        first | rfl | simp [Handler.Serves, PortCommand.exit, kvmExitIoIn, kvmExitIoOut] at hserves
  | outb port value =>
      cases hhandler : c.handler <;> rw [hhandler] at hserves <;>
        first | rfl | simp [Handler.Serves, PortCommand.exit, kvmExitIoIn, kvmExitIoOut] at hserves
  | outl port value =>
      cases hhandler : c.handler <;> rw [hhandler] at hserves <;>
        first | rfl | simp [Handler.Serves, PortCommand.exit, kvmExitIoIn, kvmExitIoOut] at hserves

/-- A program goes on with the result of a call and with what was read. -/
theorem DefaultProgram.returned_eq_replied (p : DefaultProgram) (address : ℕ) (answer : Answer) :
    p.returned address answer =
      p.replied ⟨answer.result, answer.memory.slice address answer.result.toNat⟩ := by
  let reply : FileReply := ⟨answer.result, answer.memory.slice address answer.result.toNat⟩
  have hlength : reply.data.length = reply.result.toNat := by simp [reply, GuestMemory.slice]
  have hslice := FileReply.slice_answer hlength
  cases p with
  | readSource fd =>
      show _ = closeSource fd answer.result (reply.answer.memory.slice 0 reply.result.toNat)
      rw [hslice]
      rfl
  | _ => rfl

/-- Only the buffer of a read matters. -/
theorem DefaultProgram.returned_request {p : DefaultProgram} {call : FileCall}
    (h : p.fileCall = some call) (address : ℕ) (answer : Answer) :
    p.returned (call.request address).buffer answer = p.returned address answer := by
  cases p <;> cases h <;> rfl

/-- The exit of a file call carries its request. -/
theorem FileCall.At.requestOf {call : FileCall} {t : GuestThread} {request buffer : ℕ}
    (h : call.At t.memory request buffer) {layout : RunLayout}
    (hrun : t.run = (PortCommand.outl fileIoPort request).exit layout) (i : Fin (n + 1)) :
    WholeProgram.requestOf i t = some ⟨i, t.memory, call.request buffer⟩ := by
  obtain ⟨hfits, hmemory, hdecode, -⟩ := h
  have hlayout := layout.fits
  have hdata : getFileIoData t.run = some layout.dataOffset := by
    rw [hrun, getFileIoData, if_neg (by simp [PortCommand.exit]),
      if_neg (by simp [PortCommand.exit]; omega)]
    rfl
  have hread : readUint32 t.run.bytes layout.dataOffset = request := by
    rw [hrun]
    exact readUint32_writeUint32 _ _ hfits
  rw [WholeProgram.requestOf, if_pos (by rw [hrun]; rfl), hdata]
  dsimp only
  rw [hread, hmemory, Option.map_some, hdecode]

/-! ### Positions -/

/-- What is left to do for an exit of the console. -/
def IsConsoleTasks : List Task → Prop
  | [] | [.flushSerialOutput _] | [.readSerialInput] | [.flushSerialOutput _, .readSerialInput] =>
    True
  | _ => False

namespace Phase

/-- The phase of a guest once it gets `reply`. -/
def Gets (count : ℕ) (g : Guest) (query : GuestQuery) (reply : query.Reply) (p : DefaultProgram)
    (w : List UInt8) : Prop :=
  ∀ answer : (query : GuestQuery) → query.Reply, answer query = reply →
    Phase count (g.resume answer) p w

variable {count : ℕ} {g : Guest} {query : GuestQuery} {next : query.Reply → DefaultProgram}
variable {w : List UInt8}

/-- Any admitted reply will do. -/
theorem Goes.gets (h : Goes count g query next w) {reply : query.Reply}
    (hreply : query.Admits reply) : Gets count g query reply (next reply) w := by
  rintro answer rfl
  exact h answer hreply

end Phase

/-- What a guest that halts has come to. -/
structure Halts (t : GuestThread) (g : Guest) (p : DefaultProgram) (w : List UInt8) : Prop where
  interruptCount : t.loop.interruptCount = 0
  injected : g.injected = false
  program : ∃ vmMode, p = .transferred vmMode true ∧ IsGuestOutput vmMode w

/-- Where the guest of a thread in its exit loop stands: between two instructions; with the
thread about to inject an interrupt or about to check the transfer; or at an instruction that
exits. -/
inductive Position (layout : RunLayout) (t : GuestThread) (g : Guest) :
    DefaultProgram → List UInt8 → Prop
  | still {p : DefaultProgram} {w : List UInt8} : t.loop.tasks = [] →
      t.fileState.pendingResults = [] → Phase t.loop.interruptCount g p w →
      Position layout t g p w
  | interrupting {p : DefaultProgram} {w : List UInt8} : t.loop.tasks = [.injectIrq] →
      t.fileState.pendingResults = [] → Phase t.loop.interruptCount g p w →
      g.interruptible = true → 0 < t.loop.interruptCount → Position layout t g p w
  | halting {p : DefaultProgram} {w : List UInt8} :
      t.loop.tasks = [.flushSerialOutput true, .requireTransfer] ∨
        t.loop.tasks = [.requireTransfer] → Halts t g p w → Position layout t g p w
  | console {query : GuestQuery} {p : DefaultProgram} {w : List UInt8} : g.inFlight = .port →
      IsConsoleTasks t.loop.tasks → t.fileState.pendingResults = [] →
      Phase.Goes t.loop.interruptCount g query (fun _ => p) w → Position layout t g p w
  | asking {command : PortCommand} {p : DefaultProgram} {w : List UInt8} : g.inFlight = .port →
      t.loop.tasks = [.handleSharedBufferIo] → t.fileState.pendingResults = [] →
      t.run = command.exit layout → p.next = some command →
      Phase.Goes t.loop.interruptCount g (.port command) (fun (response : ℕ) => p.resume response)
        w → Position layout t g p w
  | requesting {call : FileCall} {request buffer : ℕ} {p : DefaultProgram} {w : List UInt8} :
      g.inFlight = .request buffer → t.loop.tasks = [.handleFileIo] →
      t.fileState.pendingResults = [] →
      t.run = (PortCommand.outl fileIoPort request).exit layout →
      call.At t.memory request buffer → p.fileCall = some call →
      Phase.Goes t.loop.interruptCount g (.file call) (fun (reply : FileReply) => p.replied reply)
        w → Position layout t g p w
  | served {call : FileCall} {result : ℤ} {buffer : ℕ} {p : DefaultProgram} {w : List UInt8} :
      g.inFlight = .request buffer ∨ g.inFlight = .submitted buffer → t.loop.tasks = [] →
      t.fileState.pendingResults = [result] →
      Phase.Gets t.loop.interruptCount g (.file call)
        (⟨result, t.memory.slice buffer result.toNat⟩ : FileReply) p w → Position layout t g p w
  | fetching {call : FileCall} {result : ℤ} {buffer : ℕ} {p : DefaultProgram} {w : List UInt8} :
      g.inFlight = .result buffer → t.loop.tasks = [.handleFileIo] →
      t.fileState.pendingResults = [result] →
      t.run = (PortCommand.inl fileIoPort).exit layout →
      Phase.Gets t.loop.interruptCount g (.file call)
        (⟨result, t.memory.slice buffer result.toNat⟩ : FileReply) p w → Position layout t g p w
  | answered (query : GuestQuery) (buffer : ℕ) {p : DefaultProgram} {w : List UInt8} :
      (g.inFlight = .port ∧ buffer = 0) ∨ g.inFlight = .result buffer → t.loop.tasks = [] →
      t.fileState.pendingResults = [] →
      Phase.Gets t.loop.interruptCount g query (answerOf layout t.run t.memory buffer query) p w →
      Position layout t g p w

/-- A thread and its guest: the guest is in a position, or the thread has returned from its loop
or is about to. -/
inductive Aligned (layout : RunLayout) (t : GuestThread) (g : Guest) (p : DefaultProgram)
    (w : List UInt8) : Prop
  | running : t.life.stage.result = none → t.loop.result = none → t.fileState.Int32 →
      Position layout t g p w → Aligned layout t g p w
  | departed (success : Bool) : t.life.stage.result.or t.loop.departure = some success →
      (success = true → Halts t g p w) → Aligned layout t g p w

/-- How a program goes on at an event. -/
def ProgramEvent.follow (i : Fin (n + 1)) (p : DefaultProgram) : ProgramEvent n → DefaultProgram
  | .port _ (.call j c) => if j = i then p.resume c.response else p
  | .requested j call answer =>
    if j = i then p.returned call.request.buffer answer else p
  | _ => p

/-! ### Steps of the exit loop -/

theorem LoopEvent.written_quiet : LoopEvent.quiet.written = [] := rfl

namespace LoopVm

variable {vm vm' : LoopVm} {input : LoopInput} {e : LoopEvent}

/-- A VM that departs asks nothing, takes no byte of its guest and no interrupt. -/
theorem proceed_of_departure {success : Bool} (hdeparture : vm.departure = some success)
    (h : vm.step input = some (e, vm')) :
    input = .proceed ∧ e.written = [] ∧ vm'.interruptCount = vm.interruptCount := by
  obtain ⟨hresult, ⟨htasks, -⟩ | ⟨task, tasks, htasks, hperform⟩⟩ := step_eq_some h
  · rw [departure_of_running hresult, htasks] at hdeparture
    cases hdeparture
  · rw [departure_of_running hresult, htasks] at hdeparture
    cases task with
    | handleFileIo | handleSharedBufferIo | readSerialInput | injectIrq | requireTransfer =>
        cases hdeparture
    | flushSerialOutput finishLine =>
        cases input <;> simp only [perform, reduceCtorEq] at hperform
        split_ifs at hperform <;> cases hperform <;> exact ⟨rfl, rfl, rfl⟩
    | printError | printHalt | printUnexpectedExit | leave =>
        cases input <;> simp only [perform, reduceCtorEq] at hperform
        cases hperform
        exact ⟨rfl, rfl, rfl⟩

/-- A flush empties the buffer. -/
theorem step_flush (hresult : vm.result = none) {finishLine : Bool} {tasks : List Task}
    (htasks : vm.tasks = .flushSerialOutput finishLine :: tasks)
    (h : vm.step input = some (e, vm')) :
    input = .proceed ∧ e.written = [] ∧ vm' = { vm with serialOutputBuffer := [], tasks } := by
  simp only [step, hresult, htasks] at h
  cases input <;> simp only [perform, reduceCtorEq] at h
  split_ifs at h with hempty <;> cases h
  · refine ⟨rfl, rfl, ?_⟩
    rw [List.isEmpty_iff] at hempty
    simp only [hempty]
  · exact ⟨rfl, rfl, rfl⟩

/-- The check at `KVM_EXIT_HLT`. -/
theorem step_check (hresult : vm.result = none) (htasks : vm.tasks = [.requireTransfer])
    (h : vm.step input = some (e, vm')) :
    input = .proceed ∧ e.written = [] ∧ vm'.departure = some vm.transferCompleted ∧
      vm'.interruptCount = vm.interruptCount := by
  simp only [step, hresult, htasks] at h
  cases input <;> simp only [perform, reduceCtorEq] at h
  split_ifs at h with hcompleted <;> cases h
  · exact ⟨rfl, rfl, by rw [hcompleted]; exact departure_of_running hresult, rfl⟩
  · rw [Bool.not_eq_true] at hcompleted
    exact ⟨rfl, rfl, by rw [hcompleted]; exact departure_of_running hresult, rfl⟩

end LoopVm

/-- An exit of the file port keeps all values of the file state in range. -/
theorem FileState.Int32.handleFileIo {sys : HostSystem} {context : GuestContext} {run : KvmRun}
    {memory : GuestMemory} {s : FileState} {h : Host HostPath} {frame : FileIoFrame}
    (hs : s.Int32) (hframe : KvmHypervisor.handleFileIo sys context run memory s h = some frame) :
    frame.state.Int32 := by
  have hstep : (filePort sys context).step s ⟨run, memory, h⟩ =
      some (FileExit.event sys context ⟨run, memory, h⟩ s frame, frame.state) := by
    simp only [filePort, hframe]
  exact (filePort_step hs hstep).1

/-- A thread that leaves its loop with a failure. -/
theorem Aligned.of_failed {layout : RunLayout} {t : GuestThread} {g : Guest} {p : DefaultProgram}
    {w : List UInt8} (hlife : t.life.stage.result = none) (hresult : t.loop.result = none)
    (htasks : departs t.loop.tasks = some false) : Aligned layout t g p w := by
  refine .departed false ?_ fun h => by cases h
  rw [hlife, Option.none_or, LoopVm.departure_of_running hresult, htasks]

namespace WholeProgram

variable {sys : HostSystem} {sharedFiles : List (String × HostPath)} {config : Config}
variable {s w : WholeProgram n} {a : ProgramAction n} {i : Fin (n + 1)} {t : GuestThread}
variable {input : LoopInput} {event : LoopEvent → ProgramEvent n} {e : LoopEvent} {vm : LoopVm}
variable {layout : RunLayout} {g : Guest} {p : DefaultProgram} {b : List UInt8}

/-- A task that asks nothing changes nothing but the loop. -/
theorem Surrounds.of_proceed (hw : Surrounds sys sharedFiles s i a w t .proceed event) :
    t = s.threads i ∧ ∀ p e, (event e).follow i p = p := by
  cases hw
  refine ⟨rfl, fun p e => ?_⟩
  split_ifs <;> rfl

/-- The thread has sent its guest to its end. -/
theorem Surrounds.departed (hw : Surrounds sys sharedFiles s i a w t input event)
    (hlife : (s.threads i).life.stage.result = none) {success : Bool}
    (hdeparture : (s.threads i).loop.departure = some success)
    (horderly : (s.threads i).loop.Orderly) (hhalts : success = true → Halts (s.threads i) g p b)
    (h : (s.threads i).loop.step input = some (e, vm)) :
    Aligned layout { t with loop := vm } g ((event e).follow i p) (b ++ e.written) := by
  obtain ⟨rfl, hwritten, hcount⟩ := LoopVm.proceed_of_departure hdeparture h
  obtain ⟨rfl, hfollow⟩ := hw.of_proceed
  rw [hfollow, hwritten, List.append_nil]
  have hkeep : vm.departure = some success := by
    cases (horderly.step h).2 with
    | keep hkeep => rw [hkeep, hdeparture]
    | fail hnone => rw [hnone] at hdeparture; cases hdeparture
    | halt hnone => rw [hnone] at hdeparture; cases hdeparture
  refine .departed success ?_ fun htrue => ?_
  · rw [hlife, Option.none_or, hkeep]
  · obtain ⟨hzero, hinjected, hprogram⟩ := hhalts htrue
    exact ⟨hcount.trans hzero, hinjected, hprogram⟩

/-- The thread is about to check the transfer of a guest that has halted. -/
theorem Surrounds.halting (hw : Surrounds sys sharedFiles s i a w t input event)
    (hlife : (s.threads i).life.stage.result = none) (hresult : (s.threads i).loop.result = none)
    (hint : (s.threads i).fileState.Int32)
    (htasks : (s.threads i).loop.tasks = [.flushSerialOutput true, .requireTransfer] ∨
      (s.threads i).loop.tasks = [.requireTransfer]) (hhalts : Halts (s.threads i) g p b)
    (h : (s.threads i).loop.step input = some (e, vm)) :
    Aligned layout { t with loop := vm } g ((event e).follow i p) (b ++ e.written) := by
  obtain ⟨hzero, hinjected, hprogram⟩ := hhalts
  rcases htasks with htasks | htasks
  · obtain ⟨rfl, hwritten, rfl⟩ := LoopVm.step_flush hresult htasks h
    obtain ⟨rfl, hfollow⟩ := hw.of_proceed
    rw [hfollow, hwritten, List.append_nil]
    exact .running hlife hresult hint (.halting (.inr rfl) ⟨hzero, hinjected, hprogram⟩)
  · obtain ⟨rfl, hwritten, hdeparture, hcount⟩ := LoopVm.step_check hresult htasks h
    obtain ⟨rfl, hfollow⟩ := hw.of_proceed
    rw [hfollow, hwritten, List.append_nil]
    refine .departed (s.threads i).loop.transferCompleted ?_ fun _ => ?_
    · rw [hlife, Option.none_or, hdeparture]
    · exact ⟨hcount.trans hzero, hinjected, hprogram⟩

/-- The thread handles an exit of the console. -/
theorem Surrounds.console (hw : Surrounds sys sharedFiles s i a w t input event)
    (hlife : (s.threads i).life.stage.result = none) (hresult : (s.threads i).loop.result = none)
    (hint : (s.threads i).fileState.Int32) {task : Task} {tasks : List Task}
    (htasks : (s.threads i).loop.tasks = task :: tasks) (hconsole : IsConsoleTasks (task :: tasks))
    (hflight : g.inFlight = .port) (hpending : (s.threads i).fileState.pendingResults = [])
    {query : GuestQuery}
    (hgoes : Phase.Goes (s.threads i).loop.interruptCount g query (fun _ => p) b)
    (h : (s.threads i).loop.step input = some (e, vm)) :
    Aligned layout { t with loop := vm } g ((event e).follow i p) (b ++ e.written) := by
  cases task with
  | flushSerialOutput finishLine =>
      obtain ⟨rfl, hwritten, rfl⟩ := LoopVm.step_flush hresult htasks h
      obtain ⟨rfl, hfollow⟩ := hw.of_proceed
      rw [hfollow, hwritten, List.append_nil]
      have hrest : IsConsoleTasks tasks := by
        rcases tasks with _ | ⟨task', _ | ⟨task'', tasks⟩⟩
        · trivial
        · cases task' <;> trivial
        · cases task' <;> exact hconsole.elim
      exact .running hlife hresult hint (.console hflight hrest hpending hgoes)
  | readSerialInput =>
      have hnil : tasks = [] := by
        cases tasks with
        | nil => rfl
        | cons => exact hconsole.elim
      subst hnil
      simp only [LoopVm.step, hresult, htasks] at h
      cases hw <;> simp only [LoopVm.perform, reduceCtorEq] at h
      · cases h
        exact .of_failed hlife hresult rfl
      · cases h
        refine .running hlife hresult hint ?_
        rw [LoopEvent.written_quiet, List.append_nil]
        exact .console hflight trivial hpending hgoes
  | _ => cases tasks <;> exact hconsole.elim

/-- The thread asks the shared buffer. -/
theorem Surrounds.asking (hw : Surrounds sys sharedFiles s i a w t input event)
    (hlife : (s.threads i).life.stage.result = none) (hresult : (s.threads i).loop.result = none)
    (hint : (s.threads i).fileState.Int32)
    (htasks : (s.threads i).loop.tasks = [.handleSharedBufferIo])
    (hflight : g.inFlight = .port) (hpending : (s.threads i).fileState.pendingResults = [])
    {command : PortCommand} (hrun : (s.threads i).run = command.exit layout)
    (hgoes : Phase.Goes (s.threads i).loop.interruptCount g (.port command)
      (fun (response : ℕ) => p.resume response) b)
    (h : (s.threads i).loop.step input = some (e, vm)) :
    Aligned layout { t with loop := vm } g ((event e).follow i p) (b ++ e.written) := by
  simp only [LoopVm.step, hresult, htasks] at h
  cases hw <;> simp only [LoopVm.perform, reduceCtorEq] at h
  case port result frame hout =>
    cases h
    cases result with
    | false => exact .of_failed hlife hresult rfl
    | true =>
        obtain ⟨c, hlabel, -⟩ := handle_accepted hout
        have hanswer := answerOf_port (hrun ▸ hout) (hrun ▸ hlabel) (s.threads i).memory 0
        have hgets := hgoes.gets (admits_answerOf layout
          { command.exit layout with bytes := frame.bytes } (s.threads i).memory 0 (.port command))
        rw [hanswer] at hgets
        refine .running hlife hresult hint ?_
        rw [LoopEvent.written_quiet, List.append_nil]
        simp only [if_true, hlabel, Option.getD_some, ProgramEvent.follow]
        refine .answered (.port command) 0 (.inl ⟨hflight, rfl⟩) rfl hpending ?_
        show Phase.Gets _ g _
          (answerOf layout { (s.threads i).run with bytes := frame.bytes } _ 0 _) _ _
        rw [hrun, hanswer]
        exact hgets

/-- The thread submits the request of a file call. -/
theorem Surrounds.requesting (hw : Surrounds sys sharedFiles s i a w t input event)
    (hlife : (s.threads i).life.stage.result = none) (hresult : (s.threads i).loop.result = none)
    (hint : (s.threads i).fileState.Int32) (htasks : (s.threads i).loop.tasks = [.handleFileIo])
    (hpending : (s.threads i).fileState.pendingResults = []) {call : FileCall}
    {request buffer : ℕ} (hflight : g.inFlight = .request buffer)
    (hrun : (s.threads i).run = (PortCommand.outl fileIoPort request).exit layout)
    (hat : call.At (s.threads i).memory request buffer) (hcall : p.fileCall = some call)
    (hgoes : Phase.Goes (s.threads i).loop.interruptCount g (.file call)
      (fun (reply : FileReply) => p.replied reply) b)
    (h : (s.threads i).loop.step input = some (e, vm)) :
    Aligned layout { t with loop := vm } g ((event e).follow i p) (b ++ e.written) := by
  simp only [LoopVm.step, hresult, htasks] at h
  cases hw <;> simp only [LoopVm.perform, reduceCtorEq] at h
  case fileRejected hrejected =>
    cases h
    exact .of_failed hlife hresult rfl
  case fileHandled frame hframe =>
    cases h
    have hrequest := hat.requestOf hrun i
    obtain ⟨hnone, -⟩ | ⟨call', reply, hrequest', -, hreply, hstate, hmemory, -⟩ :=
      handled_cases hframe
    · rw [hrequest] at hnone
      cases hnone
    · have hkept : reply.state.pendingResults = [] := by
        rw [← hreply, pendingResults_processFileRequest, hpending]
      have hresults : frame.state.pendingResults = [frame.state.fetch] := by
        rw [hstate, pendingResults_push, hkept, fetch_push]
        rfl
      refine .running hlife hresult (hint.handleFileIo hframe) ?_
      rw [LoopEvent.written_quiet, List.append_nil, fileEvent, hrequest]
      simp only [ProgramEvent.follow, if_true]
      rw [DefaultProgram.returned_request hcall, DefaultProgram.returned_eq_replied]
      refine .served (.inl hflight) rfl hresults (hgoes.gets ?_)
      simp [GuestQuery.Admits, GuestMemory.slice]

/-- The thread fetches the result of a file call. -/
theorem Surrounds.fetching (hw : Surrounds sys sharedFiles s i a w t input event)
    (hlife : (s.threads i).life.stage.result = none) (hresult : (s.threads i).loop.result = none)
    (hint : (s.threads i).fileState.Int32) (htasks : (s.threads i).loop.tasks = [.handleFileIo])
    {call : FileCall} {result : ℤ} {buffer : ℕ} (hflight : g.inFlight = .result buffer)
    (hpending : (s.threads i).fileState.pendingResults = [result])
    (hrun : (s.threads i).run = (PortCommand.inl fileIoPort).exit layout)
    (hgets : Phase.Gets (s.threads i).loop.interruptCount g (.file call)
      (⟨result, (s.threads i).memory.slice buffer result.toNat⟩ : FileReply) p b)
    (h : (s.threads i).loop.step input = some (e, vm)) :
    Aligned layout { t with loop := vm } g ((event e).follow i p) (b ++ e.written) := by
  simp only [LoopVm.step, hresult, htasks] at h
  cases hw <;> simp only [LoopVm.perform, reduceCtorEq] at h
  case fileRejected hrejected =>
    cases h
    exact .of_failed hlife hresult rfl
  case fileHandled frame hframe =>
    cases h
    have hint' := hint.handleFileIo hframe
    have hin : (s.threads i).run.io.direction = kvmExitIoIn := by rw [hrun]; rfl
    have hrequest : requestOf i (s.threads i) = none := by
      rw [requestOf, if_neg (by rw [hin]; decide)]
    have hfetch : (s.threads i).fileState.fetch = result := by
      rw [FileState.fetch, hpending]
      rfl
    obtain ⟨data, hdata, ⟨hout, -⟩ | ⟨-, rfl⟩⟩ := handleFileIo_cases hframe
    · rw [hin] at hout
      cases hout
    · obtain rfl := getFileIoData_eq_some hdata
      have hread : readInt32 (writeUint32 (s.threads i).run.bytes (s.threads i).run.io.dataOffset
          (toUint32 (s.threads i).fileState.fetch)) layout.dataOffset = result := by
        rw [hfetch, show layout.dataOffset = (s.threads i).run.io.dataOffset by rw [hrun]; rfl]
        exact readInt32_writeUint32 _ _ (hfetch ▸ hint.fetch)
      refine .running hlife hresult hint' ?_
      rw [LoopEvent.written_quiet, List.append_nil, fileEvent, hrequest]
      refine .answered (.file call) buffer (.inr hflight) rfl ?_ ?_
      · rw [pendingResults_pop, hpending]
        rfl
      · rw [answerOf, hread]
        exact hgets

/-- **A step of the loop** that is no return of `KVM_RUN` and no injection. -/
theorem Surrounds.aligned (hw : Surrounds sys sharedFiles s i a w t input event)
    (hs : s.Coherent config) (hin : s.inLoop i = true)
    (hkvm : ∀ result, input ≠ .kvmRun result) (hinject : ∀ success, input ≠ .injected success)
    (h : (s.threads i).loop.step input = some (e, vm)) (hA : Aligned layout (s.threads i) g p b) :
    Aligned layout { t with loop := vm } g ((event e).follow i p) (b ++ e.written) := by
  have hlife : (s.threads i).life.stage.result = none := by
    rw [(inLoop_iff.mp hin).2]
    rfl
  have hidle : (s.threads i).loop.tasks ≠ [] := by
    intro htasks
    obtain ⟨-, ⟨-, result, rfl, -⟩ | ⟨task, tasks, htasks', -⟩⟩ := LoopVm.step_eq_some h
    · exact hkvm result rfl
    · rw [htasks] at htasks'
      cases htasks'
  cases hA with
  | departed success hdeparture hhalts =>
      rw [hlife, Option.none_or] at hdeparture
      exact hw.departed hlife hdeparture (hs.threads i).orderly hhalts h
  | running _ hresult hint hposition =>
      cases hposition with
      | still htasks | served _ htasks | answered _ _ _ htasks => exact absurd htasks hidle
      | interrupting htasks =>
          simp only [LoopVm.step, hresult, htasks] at h
          cases input <;> simp only [LoopVm.perform, reduceCtorEq] at h
          exact absurd rfl (hinject _)
      | halting htasks hhalts => exact hw.halting hlife hresult hint htasks hhalts h
      | console hflight hconsole hpending hgoes =>
          obtain ⟨task, tasks, htasks⟩ := List.exists_cons_of_ne_nil hidle
          exact hw.console hlife hresult hint htasks (htasks ▸ hconsole) hflight hpending hgoes h
      | asking hflight htasks hpending hrun _ hgoes =>
          exact hw.asking hlife hresult hint htasks hflight hpending hrun hgoes h
      | requesting hflight htasks hpending hrun hat hcall hgoes =>
          exact hw.requesting hlife hresult hint htasks hpending hflight hrun hat hcall hgoes h
      | fetching hflight htasks hpending hrun hgets =>
          exact hw.fetching hlife hresult hint htasks hflight hpending hrun hgets h

end WholeProgram

/-! ### Returns of `KVM_RUN` -/

namespace LoopVm

variable (vm : LoopVm) (layout : RunLayout)

/-- The loop at the exit of a port instruction. -/
theorem run_outb (value : UInt8) :
    vm.runVirtualMachine (.exited kvmExitIo ((PortCommand.outb serialPort value).exit layout)) =
      (.wrote value, { vm with
        serialOutputBuffer := vm.serialOutputBuffer ++ [value]
        tasks := if value = newline then [.flushSerialOutput false] else [] }) := by
  have hfits := layout.fits
  have hlt : ¬layout.dataOffset ≥ layout.runMmapSize := by omega
  simp [runVirtualMachine, handleSerialIo, PortCommand.exit, serialPort, fileIoPort,
    sharedBufferPort, sharedBufferStatusPort, hlt, writeUint8_self]

theorem run_inb :
    vm.runVirtualMachine (.exited kvmExitIo ((PortCommand.inb serialPort).exit layout)) =
      (.quiet, { vm with tasks := [.flushSerialOutput true, .readSerialInput] }) := by
  have hfits := layout.fits
  have hlt : ¬layout.dataOffset ≥ layout.runMmapSize := by omega
  simp [runVirtualMachine, handleSerialIo, PortCommand.exit, serialPort, fileIoPort,
    sharedBufferPort, sharedBufferStatusPort, hlt, kvmExitIoIn, kvmExitIoOut]

theorem run_sharedBuffer {command : PortCommand}
    (hport : command.port = sharedBufferPort ∨ command.port = sharedBufferStatusPort) :
    vm.runVirtualMachine (.exited kvmExitIo (command.exit layout)) =
      (.quiet, { vm with tasks := [.handleSharedBufferIo] }) := by
  have hio : (command.exit layout).io.port = command.port := by cases command <;> rfl
  have hfile : ¬(command.exit layout).io.port = fileIoPort := by
    rcases hport with heq | heq <;> rw [hio, heq] <;> decide
  rw [runVirtualMachine, if_pos rfl, if_neg hfile, hio, if_pos hport]

theorem run_fileIo {command : PortCommand} (hport : command.port = fileIoPort) :
    vm.runVirtualMachine (.exited kvmExitIo (command.exit layout)) =
      (.quiet, { vm with tasks := [.handleFileIo] }) := by
  have hio : (command.exit layout).io.port = command.port := by cases command <;> rfl
  rw [runVirtualMachine, if_pos rfl, hio, if_pos hport]

end LoopVm

namespace Aligned

variable {layout : RunLayout} {t : GuestThread} {g g' : Guest} {p : DefaultProgram}
variable {b : List UInt8} {e : LoopEvent} {vm : LoopVm}

/-- The thread is in its loop and has not sent its guest to its end. -/
theorem position (hA : Aligned layout t g p b) (hlife : t.life.stage.result = none)
    (hresult : t.loop.result = none) (htasks : departs t.loop.tasks = none) :
    t.fileState.Int32 ∧ Position layout t g p b := by
  cases hA with
  | running _ _ hint hposition => exact ⟨hint, hposition⟩
  | departed success hdeparture =>
      rw [hlife, Option.none_or, LoopVm.departure_of_running hresult, htasks] at hdeparture
      cases hdeparture

/-- With no instruction on its way, the guest of a thread in `KVM_RUN` is between two. -/
theorem still (hposition : Position layout t g p b) (htasks : t.loop.tasks = [])
    (hflight : g.inFlight = .none) :
    t.fileState.pendingResults = [] ∧ Phase t.loop.interruptCount g p b := by
  cases hposition with
  | still _ hpending hphase => exact ⟨hpending, hphase⟩
  | interrupting htasks' | halting htasks' | asking _ htasks' | requesting _ htasks'
  | fetching _ htasks' =>
      rw [htasks] at htasks'
      simp at htasks'
  | console hflight' | served hflight' | answered _ _ hflight' =>
      rw [hflight] at hflight'
      simp at hflight'

/-- **`KVM_RUN` returns.** -/
theorem kvmRun (hA : Aligned layout t g p b) (hlife : t.life.stage.result = none)
    (hresult : t.loop.result = none) (htasks : t.loop.tasks = []) {result : KvmRunResult}
    {memory : ℕ → UInt8} (hreturns : g.Returns layout t result memory g')
    (h : t.loop.step (.kvmRun result) = some (e, vm)) :
    Aligned layout
      { t with
        run := result.mapping t.run
        memory := { t.memory with bytes := memory }
        loop := vm } g' p (b ++ e.written) := by
  obtain ⟨hint, hposition⟩ := hA.position hlife hresult (by rw [htasks]; rfl)
  simp only [LoopVm.step, hresult, htasks, Option.some.injEq] at h
  cases hreturns with
  | port memory _ hflight hquery =>
      obtain ⟨hpending, hphase⟩ := still hposition htasks hflight
      rcases hphase.ask_port hquery with ⟨value, rfl, hgoes⟩ | ⟨rfl, hgoes⟩ | ⟨hnext, hgoes⟩
      · rw [LoopVm.run_outb] at h
        cases h
        refine .running hlife hresult hint (.console rfl ?_ hpending hgoes)
        dsimp only
        split_ifs <;> trivial
      · rw [LoopVm.run_inb] at h
        cases h
        rw [LoopEvent.written_quiet, List.append_nil]
        exact .running hlife hresult hint (.console rfl trivial hpending hgoes)
      · rw [LoopVm.run_sharedBuffer _ _ (DefaultProgram.port_of_next hnext)] at h
        cases h
        rw [LoopEvent.written_quiet, List.append_nil]
        exact .running hlife hresult hint (.asking rfl rfl hpending rfl hnext hgoes)
  | request _ hflight hquery hat =>
      obtain ⟨hpending, hphase⟩ := still hposition htasks hflight
      obtain ⟨hcall, hgoes⟩ := hphase.ask_file hquery
      rw [LoopVm.run_fileIo _ _ rfl] at h
      cases h
      rw [LoopEvent.written_quiet, List.append_nil]
      exact .running hlife hresult hint (.requesting rfl rfl hpending rfl hat hcall hgoes)
  | result _ hflight =>
      rw [LoopVm.run_fileIo _ _ rfl] at h
      cases h
      rw [LoopEvent.written_quiet, List.append_nil]
      cases hposition with
      | served hflight' _ hpending hgets =>
          rw [hflight, InFlight.submitted.injEq] at hflight'
          obtain rfl := hflight'.resolve_left (by simp)
          exact .running hlife hresult hint (.fetching rfl rfl hpending rfl hgets)
      | still _ _ hphase =>
          rw [hphase.inFlight_eq_none] at hflight
          cases hflight
      | interrupting htasks' | halting htasks' | asking _ htasks' | requesting _ htasks'
      | fetching _ htasks' =>
          rw [htasks] at htasks'
          simp at htasks'
      | console hflight' | answered _ _ hflight' =>
          rw [hflight] at hflight'
          simp at hflight'
  | halt memory _ hflight hending =>
      obtain ⟨hpending, hphase⟩ := still hposition htasks hflight
      cases h
      rw [LoopEvent.written_quiet, List.append_nil]
      obtain ⟨vmMode, hzero, hinjected, hprogram, houtput⟩ := hphase.halt hending
      exact .running hlife hresult hint
        (.halting (.inl rfl) ⟨hzero, hinjected, vmMode, hprogram, houtput⟩)
  | shutdown memory =>
      cases h
      exact .of_failed hlife hresult rfl
  | window memory _ hopen =>
      have hflight : g.inFlight = .none := by
        simp only [Guest.interruptible, Bool.and_eq_true, beq_iff_eq] at hopen
        exact hopen.2
      obtain ⟨hpending, hphase⟩ := still hposition htasks hflight
      rw [LoopVm.runVirtualMachine, if_neg (by decide), if_pos rfl] at h
      split_ifs at h with hcount <;> cases h <;>
        rw [LoopEvent.written_quiet, List.append_nil]
      · exact .running hlife hresult hint (.interrupting rfl hpending hphase hopen hcount)
      · exact .running hlife hresult hint (.still htasks hpending hphase)
  | failed errorNumber =>
      rw [LoopVm.runVirtualMachine] at h
      split_ifs at h <;> cases h
      · rw [LoopEvent.written_quiet, List.append_nil]
        exact hA
      · exact .of_failed hlife hresult rfl

/-- What an injection finds: a guest that waits for an interrupt. -/
structure Injects (t : GuestThread) (g : Guest) (p : DefaultProgram) (b : List UInt8) : Prop where
  result : t.loop.result = none
  int32 : t.fileState.Int32
  tasks : t.loop.tasks = [.injectIrq]
  pendingResults : t.fileState.pendingResults = []
  phase : Phase t.loop.interruptCount g p b
  interruptible : g.interruptible = true
  pos : 0 < t.loop.interruptCount

/-- **An injection** comes when the guest waits for it. -/
theorem injects (hA : Aligned layout t g p b) (hlife : t.life.stage.result = none)
    {success : Bool} (h : t.loop.step (.injected success) = some (e, vm)) :
    Injects t g p b := by
  cases hA with
  | departed success' hdeparture =>
      rw [hlife, Option.none_or] at hdeparture
      cases (LoopVm.proceed_of_departure hdeparture h).1
  | running _ hresult hint hposition =>
      cases hposition with
      | interrupting htasks hpending hphase hopen hcount =>
          exact ⟨hresult, hint, htasks, hpending, hphase, hopen, hcount⟩
      | halting htasks =>
          rcases htasks with htasks | htasks <;>
            simp [LoopVm.step, hresult, htasks, LoopVm.perform] at h
      | console _ hconsole =>
          cases htasks : t.loop.tasks with
          | nil => simp [LoopVm.step, hresult, htasks] at h
          | cons task tasks =>
              rw [htasks] at hconsole
              cases task with
              | flushSerialOutput | readSerialInput =>
                  simp [LoopVm.step, hresult, htasks, LoopVm.perform] at h
              | _ => cases tasks <;> exact hconsole.elim
      | still htasks | served _ htasks | answered _ _ _ htasks | asking _ htasks
      | requesting _ htasks | fetching _ htasks =>
          simp [LoopVm.step, hresult, htasks, LoopVm.perform] at h

/-- The interrupt is injected, or the injection fails. -/
theorem injected (hA : Aligned layout t g p b) (hlife : t.life.stage.result = none)
    {success : Bool} (h : t.loop.step (.injected success) = some (e, vm)) :
    Aligned layout { t with loop := vm } (if success then { g with injected := true } else g) p
      (b ++ e.written) := by
  obtain ⟨hresult, hint, htasks, hpending, hphase, hopen, hcount⟩ := hA.injects hlife h
  simp only [LoopVm.step, hresult, htasks, LoopVm.perform] at h
  cases success with
  | false =>
      cases h
      exact .of_failed hlife rfl rfl
  | true =>
      cases h
      rw [LoopEvent.written_quiet, List.append_nil]
      exact .running hlife rfl hint (.still rfl hpending (hphase.inject hopen hcount).2.2)

/-- **A guest moves by itself.** -/
theorem move (hA : Aligned layout t g p b) (hlife : t.life.stage.result = none)
    (hresult : t.loop.result = none) (htasks : t.loop.tasks = [])
    (hmove : g.move layout t = some g') : Aligned layout t g' p b := by
  obtain ⟨hint, hposition⟩ := hA.position hlife hresult (by rw [htasks]; rfl)
  refine .running hlife hresult hint ?_
  rw [Guest.move] at hmove
  cases hposition with
  | still _ hpending hphase =>
      rw [hphase.inFlight_eq_none] at hmove
      exact .still htasks hpending (hphase.proceed hmove)
  | console hflight _ hpending hgoes =>
      rw [hflight] at hmove
      cases hmove
      exact .still htasks hpending (hgoes _ (admits_answerOf ..))
  | answered query buffer hflight _ hpending hgets =>
      rcases hflight with ⟨hflight, rfl⟩ | hflight <;> rw [hflight] at hmove <;> cases hmove
      · exact .still htasks hpending (hgets _ rfl)
      · exact .still htasks hpending (hgets _ rfl)
  | served hflight _ hpending hgets =>
      rcases hflight with hflight | hflight <;> rw [hflight] at hmove <;> cases hmove
      exact .served (.inr rfl) htasks hpending hgets
  | interrupting htasks' | halting htasks' | asking _ htasks' | requesting _ htasks'
  | fetching _ htasks' =>
      rw [htasks] at htasks'
      simp at htasks'

end Aligned

end KvmHypervisor
