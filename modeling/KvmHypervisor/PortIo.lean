import KvmHypervisor.Calls

/-!
# Port Instructions and Their Exits

The port instructions of `guest/inc/io.h` and the exits KVM makes of them. An exit carries
one datum (`count` is `1`) of one or four bytes, placed at an offset inside the run
mapping; where exactly is the `RunLayout` of the VM, which the guest cannot influence.

The `selectHandler_` theorems evaluate the dispatcher on the exits of a guest that has
received its mode and uses the ports of its role.
-/

namespace KvmHypervisor

/-- The port instructions: `inb`, `inl`, `outb`, `outl`. -/
inductive PortCommand where
  | inb (port : ℕ)
  | inl (port : ℕ)
  | outb (port : ℕ) (value : UInt8)
  | outl (port : ℕ) (value : ℕ)
deriving DecidableEq

/-- Where KVM places the datum of an exit in the run mapping of a VM. -/
structure RunLayout where
  dataOffset : ℕ
  runMmapSize : ℕ
  fits : dataOffset + 4 ≤ runMmapSize

/-- The smallest layout: a mapping that holds one datum and nothing else. -/
def RunLayout.smallest : RunLayout where
  dataOffset := 0
  runMmapSize := 4
  fits := Nat.le_refl 4

/-- The exit of a port instruction. The bytes an IN will overwrite are zero. -/
def PortCommand.exit (layout : RunLayout) (command : PortCommand) : KvmRun :=
  let io (direction size port : ℕ) : KvmIo :=
    { direction, size, port, count := 1, dataOffset := layout.dataOffset }
  match command with
  | .inb port =>
    { io := io kvmExitIoIn 1 port, bytes := fun _ => 0, runMmapSize := layout.runMmapSize }
  | .inl port =>
    { io := io kvmExitIoIn 4 port, bytes := fun _ => 0, runMmapSize := layout.runMmapSize }
  | .outb port value =>
    { io := io kvmExitIoOut 1 port
      bytes := writeUint8 (fun _ => 0) layout.dataOffset value
      runMmapSize := layout.runMmapSize }
  | .outl port value =>
    { io := io kvmExitIoOut 4 port
      bytes := writeUint32 (fun _ => 0) layout.dataOffset value
      runMmapSize := layout.runMmapSize }

/-- The exit of a port instruction is well formed. -/
theorem getIoData_exit (layout : RunLayout) (command : PortCommand) :
    getIoData (command.exit layout) = some layout.dataOffset := by
  have hfits := layout.fits
  cases command <;>
    · simp [getIoData, PortCommand.exit]
      omega

section Select

variable {v : SharedBufferVmState} (layout : RunLayout)

theorem selectHandler_mode (hd : v.modeDelivered = false) :
    selectHandler v ((PortCommand.inb sharedBufferPort).exit layout) =
      some (.deliverMode, layout.dataOffset) := by
  rw [selectHandler, getIoData_exit]
  simp [PortCommand.exit, hd]

variable (hd : v.modeDelivered = true)
include hd

theorem selectHandler_outl (hm : v.mode = vmModeWriter) (k : ℕ) :
    selectHandler v ((PortCommand.outl sharedBufferPort k).exit layout) =
      some (.beginWriterRound, layout.dataOffset) := by
  rw [selectHandler, getIoData_exit]
  simp [PortCommand.exit, hd, hm]

theorem selectHandler_outb (hm : v.mode = vmModeWriter) (b : UInt8) :
    selectHandler v ((PortCommand.outb sharedBufferPort b).exit layout) =
      some (.writeSharedByte, layout.dataOffset) := by
  rw [selectHandler, getIoData_exit]
  simp [PortCommand.exit, hd, hm]

theorem selectHandler_inl_status (hm : v.mode = vmModeWriter) :
    selectHandler v ((PortCommand.inl sharedBufferStatusPort).exit layout) =
      some (.finishWriterRound, layout.dataOffset) := by
  rw [selectHandler, getIoData_exit]
  simp [PortCommand.exit, hd, hm, sharedBufferPort,
    sharedBufferStatusPort]

theorem selectHandler_inl (hm : v.mode = vmModeReader) :
    selectHandler v ((PortCommand.inl sharedBufferPort).exit layout) =
      some (.beginReaderRound, layout.dataOffset) := by
  rw [selectHandler, getIoData_exit]
  simp [PortCommand.exit, hd, hm, vmModeReader, vmModeWriter]

theorem selectHandler_inb (hm : v.mode = vmModeReader) :
    selectHandler v ((PortCommand.inb sharedBufferPort).exit layout) =
      some (.readSharedByte, layout.dataOffset) := by
  rw [selectHandler, getIoData_exit]
  simp [PortCommand.exit, hd, hm, vmModeReader, vmModeWriter]

theorem selectHandler_outl_status (hm : v.mode = vmModeReader) (k : ℕ) :
    selectHandler v ((PortCommand.outl sharedBufferStatusPort k).exit layout) =
      some (.finishReaderRound, layout.dataOffset) := by
  rw [selectHandler, getIoData_exit]
  simp [PortCommand.exit, hd, hm, sharedBufferPort,
    sharedBufferStatusPort, vmModeReader, vmModeWriter]

end Select

end KvmHypervisor
