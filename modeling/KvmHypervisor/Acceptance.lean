import KvmHypervisor.PortIo

/-!
# Which Commands Are Accepted

The other direction of `handle_accepted`: in which states the exit of a port instruction is
accepted, and in which it parks. The hypotheses are the tests of the handler that serves the
command of a guest in its role. `command_of_handle` is the link back: the label of an
accepted exit names the instruction that caused it.
-/

namespace KvmHypervisor

/-! ### From labels to instructions -/

/-- The port instruction behind an accepted call. -/
def Call.command : Call → PortCommand
  | .deliverMode _ => .inb sharedBufferPort
  | .beginWriterRound requestedBytes _ => .outl sharedBufferPort requestedBytes
  | .writeSharedByte value _ => .outb sharedBufferPort value
  | .finishWriterRound _ _ => .inl sharedBufferStatusPort
  | .beginReaderRound _ _ => .inl sharedBufferPort
  | .readSharedByte _ => .inb sharedBufferPort
  | .finishReaderRound _ reportedBytes => .outl sharedBufferStatusPort reportedBytes

/-- The operand of the instruction fits its register. -/
def PortCommand.Fits : PortCommand → Prop
  | .outl _ value => value < 2 ^ 32
  | _ => True

section Labels

variable {σ : SharedBufferState} {v : SharedBufferVmState} {layout : RunLayout}
variable {command : PortCommand} {f : Frame} {c : Call} {data : ℕ}

/-- An accepted exit is one that its handler serves. -/
theorem selectHandler_serves {run : KvmRun} {handler : Handler} {f f' : Frame}
    (h : selectHandler v run = some (handler, data))
    (hcall : handler.call run.io f data = .done true f') : handler.Serves run.io := by
  obtain ⟨-, -, rfl | hserves⟩ := selectHandler_cases h
  · simp only [Handler.call, deliverMode] at hcall
    split_ifs at hcall with hguard
    · cases hcall
    · simpa only [Handler.Serves, not_or, ne_eq, Decidable.not_not] using hguard
  · exact hserves

/-- The exit of an instruction that a handler serves is labelled with the instruction. -/
theorem Handler.label_command {handler : Handler} (hfits : command.Fits)
    (hserves : handler.Serves (command.exit layout).io) :
    (handler.label layout.dataOffset ⟨σ, v, (command.exit layout).bytes, false⟩ f).command =
      command := by
  cases command with
  | inb port =>
      cases handler with
      | deliverMode | readSharedByte =>
          obtain ⟨rfl, -, -⟩ := hserves
          rfl
      | _ => simp [Handler.Serves, PortCommand.exit, kvmExitIoIn, kvmExitIoOut] at hserves
  | inl port =>
      cases handler with
      | finishWriterRound | beginReaderRound =>
          obtain ⟨rfl, -, -⟩ := hserves
          rfl
      | _ => simp [Handler.Serves, PortCommand.exit, kvmExitIoIn, kvmExitIoOut] at hserves
  | outb port value =>
      have hwritten := writeUint8_self (fun _ => 0) layout.dataOffset value
      cases handler with
      | writeSharedByte =>
          obtain ⟨rfl, -, -⟩ := hserves
          exact congrArg (PortCommand.outb sharedBufferPort) hwritten
      | _ => simp [Handler.Serves, PortCommand.exit, kvmExitIoIn, kvmExitIoOut] at hserves
  | outl port value =>
      have hwritten := readUint32_writeUint32 (fun _ => 0) layout.dataOffset hfits
      cases handler with
      | beginWriterRound | finishReaderRound =>
          obtain ⟨rfl, -, -⟩ := hserves
          exact congrArg (PortCommand.outl _) hwritten
      | _ => simp [Handler.Serves, PortCommand.exit, kvmExitIoIn, kvmExitIoOut] at hserves

/-- **An accepted exit of an instruction is labelled with that instruction.** -/
theorem command_of_handle (hfits : command.Fits)
    (h : handleSharedBufferIo σ v (command.exit layout) = .done true f)
    (hc : exitLabel σ v (command.exit layout) f = some c) : c.command = command := by
  obtain ⟨data, hsel, hlabel⟩ := exitLabel_eq_some hc
  have hdata := (selectHandler_cases hsel).1
  rw [getIoData_exit] at hdata
  obtain rfl := Option.some.inj hdata
  rw [handleSharedBufferIo, hsel] at h
  rw [← hlabel]
  exact Handler.label_command hfits (selectHandler_serves hsel h)

end Labels

/-! ### Calls that wait -/

section Waits

variable {σ : SharedBufferState} {v : SharedBufferVmState} {run : KvmRun} {data : ℕ}

/-- The status read goes through when every reader has acknowledged the generation the
writer has published. -/
theorem handle_finishWriterRound_accepted
    (hsel : selectHandler v run = some (.finishWriterRound, data)) (hstop : σ.stopped = false)
    (hw : v.writeGeneration ≠ 0) (hready : σ.dataReady = true)
    (hgen : σ.generation = v.writeGeneration) (hall : σ.completedReaders = σ.readerCount) :
    ∃ f, handleSharedBufferIo σ v run = .done true f := by
  rw [handleSharedBufferIo, hsel]
  simp [Handler.call, finishWriterRound, hstop, hw, hready, hgen, hall]

/-- A reader with nothing open gets the next round when there is one. -/
theorem handle_beginReaderRound_accepted
    (hsel : selectHandler v run = some (.beginReaderRound, data)) (hstop : σ.stopped = false)
    (hclosed : ¬(v.lastReadGeneration < v.activeReadGeneration ∧ v.readCompleted = false))
    (hready : σ.dataReady = true) (hnew : v.lastReadGeneration < σ.generation) :
    ∃ f, handleSharedBufferIo σ v run = .done true f := by
  rw [handleSharedBufferIo, hsel]
  simp only [Handler.call, beginReaderRound, hstop, hready]
  rw [if_neg (by simpa using hclosed), if_neg (by simp [hnew]), if_neg (by simp)]
  exact ⟨_, rfl⟩

end Waits

/-! ### Acceptance and waiting of the instructions -/

section Commands

variable {σ : SharedBufferState} {v : SharedBufferVmState} (layout : RunLayout)

/-- The first `inb` delivers the mode. -/
theorem handle_mode_accepted (hd : v.modeDelivered = false) :
    ∃ f, handleSharedBufferIo σ v ((PortCommand.inb sharedBufferPort).exit layout) =
      .done true f := by
  rw [handleSharedBufferIo, selectHandler_mode layout hd]
  simp [Handler.call, deliverMode, PortCommand.exit]

variable (hd : v.modeDelivered = true) (hstop : σ.stopped = false)
include hd hstop

section Writer

variable (hm : v.mode = vmModeWriter)
include hm

/-- The writer may announce a round when none is in progress. -/
theorem handle_outl_accepted (k : ℕ) (hround : σ.roundInProgress = false) :
    ∃ f, handleSharedBufferIo σ v ((PortCommand.outl sharedBufferPort k).exit layout) =
      .done true f := by
  rw [handleSharedBufferIo, selectHandler_outl layout hd hm]
  simp [Handler.call, beginWriterRound, hstop, hround]

/-- The writer may send as many bytes as it has announced. -/
theorem handle_outb_accepted (b : UInt8) (hround : σ.roundInProgress = true)
    (hready : σ.dataReady = false) (hlt : σ.receivedBytes < σ.expectedBytes) :
    ∃ f, handleSharedBufferIo σ v ((PortCommand.outb sharedBufferPort b).exit layout) =
      .done true f := by
  rw [handleSharedBufferIo, selectHandler_outb layout hd hm]
  simp [Handler.call, writeSharedByte, hstop, hround, hready, Nat.not_le.mpr hlt]

/-- The writer's status is available when every reader has acknowledged the generation it
has published. -/
theorem handle_inl_status_accepted (hw : v.writeGeneration ≠ 0) (hready : σ.dataReady = true)
    (hgen : σ.generation = v.writeGeneration) (hall : σ.completedReaders = σ.readerCount) :
    ∃ f, handleSharedBufferIo σ v ((PortCommand.inl sharedBufferStatusPort).exit layout) =
      .done true f :=
  handle_finishWriterRound_accepted (selectHandler_inl_status layout hd hm) hstop hw hready hgen
    hall

/-- It waits for the acknowledgments that are missing. -/
theorem handle_inl_status_wait (hw : v.writeGeneration ≠ 0)
    (hall : σ.completedReaders ≠ σ.readerCount) :
    handleSharedBufferIo σ v ((PortCommand.inl sharedBufferStatusPort).exit layout) = .wait := by
  rw [handleSharedBufferIo, selectHandler_inl_status layout hd hm]
  simp [Handler.call, finishWriterRound, hstop, hw, hall]

omit hstop in
/-- A writer without a published round of its own is told so. -/
theorem handle_inl_status_rejected (hw : v.writeGeneration = 0) :
    ∃ f, handleSharedBufferIo σ v ((PortCommand.inl sharedBufferStatusPort).exit layout) =
      .done false f := by
  rw [handleSharedBufferIo, selectHandler_inl_status layout hd hm]
  simp [Handler.call, finishWriterRound, hw]

end Writer

section Reader

variable (hm : v.mode = vmModeReader)
include hm

/-- A reader with nothing open may begin a round when there is a generation it has not
read. -/
theorem handle_inl_accepted
    (hclosed : ¬(v.lastReadGeneration < v.activeReadGeneration ∧ v.readCompleted = false))
    (hready : σ.dataReady = true) (hnew : v.lastReadGeneration < σ.generation) :
    ∃ f, handleSharedBufferIo σ v ((PortCommand.inl sharedBufferPort).exit layout) =
      .done true f :=
  handle_beginReaderRound_accepted (selectHandler_inl layout hd hm) hstop hclosed hready hnew

/-- Otherwise it waits for one. -/
theorem handle_inl_wait
    (hclosed : ¬(v.lastReadGeneration < v.activeReadGeneration ∧ v.readCompleted = false))
    (hold : ¬(σ.dataReady = true ∧ v.lastReadGeneration < σ.generation)) :
    handleSharedBufferIo σ v ((PortCommand.inl sharedBufferPort).exit layout) = .wait := by
  rw [handleSharedBufferIo, selectHandler_inl layout hd hm]
  simp only [Handler.call, beginReaderRound, hstop]
  rw [if_neg (by simpa using hclosed), if_pos (by simpa using hold)]

/-- A reader may read the bytes of the generation it has begun. -/
theorem handle_inb_accepted (hactive : v.activeReadGeneration = σ.generation)
    (hlt : v.readOffset < σ.size) :
    ∃ f, handleSharedBufferIo σ v ((PortCommand.inb sharedBufferPort).exit layout) =
      .done true f := by
  rw [handleSharedBufferIo, selectHandler_inb layout hd hm]
  simp [Handler.call, readSharedByte, hstop, hactive, Nat.not_le.mpr hlt]

/-- A reader may acknowledge the generation it has begun once it has read all of it. -/
theorem handle_outl_status_accepted (hsize : σ.size < 2 ^ 32)
    (hcompleted : v.readCompleted = false) (hactive : v.activeReadGeneration = σ.generation)
    (hoffset : v.readOffset = σ.size) (hcount : σ.completedReaders < σ.readerCount) :
    ∃ f, handleSharedBufferIo σ v
      ((PortCommand.outl sharedBufferStatusPort σ.size).exit layout) = .done true f := by
  rw [handleSharedBufferIo, selectHandler_outl_status layout hd hm]
  simp [Handler.call, finishReaderRound, PortCommand.exit, readUint32_writeUint32 _ _ hsize, hstop,
    hcompleted, hactive, hoffset, Nat.not_le.mpr hcount]

end Reader

end Commands

end KvmHypervisor
