import Mathlib.Algebra.Group.Nat.Defs
import Mathlib.Data.Nat.Notation

/-!
# The Shared Buffer and Its Handlers

The data model of `shared_buffer.hpp` and the handlers of `shared_buffer.cpp`, one
definition per source function. A handler call works on a `Frame`: the shared record,
the calling VM's own record, and the bytes of its `kvm_run` mapping. A handler either
parks in its `condition.wait` (`Outcome.wait`) or returns (`Outcome.done`) with the frame
it leaves behind; whether it called `notify_all` is recorded in the frame.

Every handler that waits evaluates its predicate before it assigns anything, and what it
tests before the wait are fields of the calling VM, which nobody else writes. Evaluating
the whole handler again at a wake-up is therefore the same as resuming it at the wait,
and that is how a parked thread continues in this model.

`uint64_t` and `uint32_t` values are natural numbers reduced where the source can
overflow: `generation` wraps at `2 ^ 64`. The other `size_t` fields are bounded by a
32-bit byte count or by the number of readers and never wrap.
-/

namespace KvmHypervisor

/-! ### Protocol constants -/

/-- `BUFFER_SIZE`. -/
def bufferSize : ℕ := 256

/-- `SHARED_BUFFER_PORT`: mode, byte count, and data. -/
def sharedBufferPort : ℕ := 0x510

/-- `SHARED_BUFFER_STATUS_PORT`: final count and acknowledgment. -/
def sharedBufferStatusPort : ℕ := 0x520

/-- `VM_MODE_READER`. -/
def vmModeReader : UInt8 := 0

/-- `VM_MODE_WRITER`. -/
def vmModeWriter : UInt8 := 1

/-- `KVM_EXIT_IO_IN`. -/
def kvmExitIoIn : ℕ := 0

/-- `KVM_EXIT_IO_OUT`. -/
def kvmExitIoOut : ℕ := 1

/-! ### Records -/

/-- `SharedBufferState`, without its mutex and condition variable. -/
structure SharedBufferState where
  data : Vector UInt8 bufferSize
  size : ℕ
  expectedBytes : ℕ
  receivedBytes : ℕ
  readerCount : ℕ
  completedReaders : ℕ
  generation : ℕ
  dataReady : Bool
  roundInProgress : Bool
  stopped : Bool

/-- `SharedBufferVmState`: what one VM remembers of its own rounds. -/
structure SharedBufferVmState where
  mode : UInt8
  readOffset : ℕ
  lastReadGeneration : ℕ
  activeReadGeneration : ℕ
  writeGeneration : ℕ
  modeDelivered : Bool
  readCompleted : Bool
  transferCompleted : Bool

/-- The record a VM starts with, apart from its mode. -/
def SharedBufferVmState.initial (mode : UInt8) : SharedBufferVmState where
  mode := mode
  readOffset := 0
  lastReadGeneration := 0
  activeReadGeneration := 0
  writeGeneration := 0
  modeDelivered := false
  readCompleted := false
  transferCompleted := false

/-- The record `main` starts with: all fields zero but `readerCount`. -/
def SharedBufferState.initial (readerCount : ℕ) : SharedBufferState where
  data := Vector.replicate bufferSize 0
  size := 0
  expectedBytes := 0
  receivedBytes := 0
  readerCount := readerCount
  completedReaders := 0
  generation := 0
  dataReady := false
  roundInProgress := false
  stopped := false

/-- The `io` member of `struct kvm_run`. -/
structure KvmIo where
  direction : ℕ
  size : ℕ
  port : ℕ
  count : ℕ
  dataOffset : ℕ

/-- An I/O exit as the host sees it: the `io` member, the bytes of the shared run mapping,
and the mapping's length `run_mmap_size`. -/
structure KvmRun where
  io : KvmIo
  bytes : ℕ → UInt8
  runMmapSize : ℕ

/-- What one handler call reads and writes. -/
structure Frame where
  state : SharedBufferState
  vm : SharedBufferVmState
  bytes : ℕ → UInt8
  notified : Bool

/-- How a handler call ends: parked in its wait, or returned with a result. -/
inductive Outcome where
  | wait
  | done (result : Bool) (frame : Frame)

/-! ### Access to the exit's data -/

/-- `getIoData`: the offset of the data in the run mapping, if the exit is well formed. -/
def getIoData (run : KvmRun) : Option ℕ :=
  if run.io.count ≠ 1 ∨ (run.io.size ≠ 1 ∧ run.io.size ≠ 4) then none
  else if run.io.dataOffset > run.runMmapSize ∨
      run.io.size > run.runMmapSize - run.io.dataOffset then none
  else some run.io.dataOffset

/-- `readUint32`: four bytes, least significant first. -/
def readUint32 (bytes : ℕ → UInt8) (data : ℕ) : ℕ :=
  (bytes data).toNat + 2 ^ 8 * (bytes (data + 1)).toNat + 2 ^ 16 * (bytes (data + 2)).toNat
    + 2 ^ 24 * (bytes (data + 3)).toNat

/-- `*data = value` for one byte. -/
def writeUint8 (bytes : ℕ → UInt8) (data : ℕ) (value : UInt8) : ℕ → UInt8 :=
  fun k => if k = data then value else bytes k

/-- `writeUint32`: the value modulo `2 ^ 32`, least significant byte first. -/
def writeUint32 (bytes : ℕ → UInt8) (data value : ℕ) : ℕ → UInt8 :=
  fun k =>
    if k = data then UInt8.ofNat value
    else if k = data + 1 then UInt8.ofNat (value / 2 ^ 8)
    else if k = data + 2 then UInt8.ofNat (value / 2 ^ 16)
    else if k = data + 3 then UInt8.ofNat (value / 2 ^ 24)
    else bytes k

/-- Reading back a 32-bit value that was just written. -/
theorem readUint32_writeUint32 (bytes : ℕ → UInt8) (data : ℕ) {value : ℕ}
    (h : value < 2 ^ 32) : readUint32 (writeUint32 bytes data value) data = value := by
  simp [readUint32, writeUint32]
  omega

/-! ### The handlers -/

/-- `finishWriterData`: publish the buffer under the next generation. -/
def finishWriterData (f : Frame) : Frame :=
  { f with
    state := { f.state with
      dataReady := true
      generation := (f.state.generation + 1) % 2 ^ 64 }
    vm := { f.vm with writeGeneration := (f.state.generation + 1) % 2 ^ 64 }
    notified := true }

/-- `deliverMode`. -/
def deliverMode (io : KvmIo) (f : Frame) (data : ℕ) : Outcome :=
  if io.port ≠ sharedBufferPort ∨ io.direction ≠ kvmExitIoIn ∨ io.size ≠ 1 then .done false f
  else
    .done true { f with
      bytes := writeUint8 f.bytes data f.vm.mode
      vm := { f.vm with modeDelivered := true } }

/-- `beginWriterRound`: wait until no round is in progress, then start one. -/
def beginWriterRound (f : Frame) (data : ℕ) : Outcome :=
  let requestedBytes := readUint32 f.bytes data
  if ¬(f.state.stopped ∨ ¬f.state.roundInProgress) then .wait
  else if f.state.stopped then .done false f
  else
    let f' := { f with
      state := { f.state with
        expectedBytes := requestedBytes
        receivedBytes := 0
        size := min requestedBytes bufferSize
        completedReaders := 0
        dataReady := false
        roundInProgress := true }
      vm := { f.vm with writeGeneration := 0 } }
    .done true (if requestedBytes = 0 then finishWriterData f' else f')

/-- `writeSharedByte`: consume one byte, store it if it fits, publish after the last. -/
def writeSharedByte (f : Frame) (value : UInt8) : Outcome :=
  if f.state.stopped ∨ ¬f.state.roundInProgress ∨ f.state.dataReady ∨
      f.state.receivedBytes ≥ f.state.expectedBytes then .done false f
  else
    let f' := { f with
      state := { f.state with
        data :=
          if f.state.receivedBytes < bufferSize then
            f.state.data.setIfInBounds f.state.receivedBytes value
          else f.state.data
        receivedBytes := f.state.receivedBytes + 1 } }
    .done true
      (if f'.state.receivedBytes = f'.state.expectedBytes then finishWriterData f' else f')

/-- `finishWriterRound`: wait until every reader has acknowledged the published data. -/
def finishWriterRound (f : Frame) (data : ℕ) : Outcome :=
  let generation := f.vm.writeGeneration
  if generation = 0 then .done false f
  else if ¬(f.state.stopped ∨ (f.state.dataReady ∧ f.state.generation = generation ∧
      f.state.completedReaders = f.state.readerCount)) then .wait
  else if f.state.stopped then .done false f
  else
    .done true { f with
      bytes := writeUint32 f.bytes data f.state.size
      state := { f.state with roundInProgress := false }
      vm := { f.vm with writeGeneration := 0, transferCompleted := true }
      notified := true }

/-- `beginReaderRound`: wait for a generation newer than the last one read. -/
def beginReaderRound (f : Frame) (data : ℕ) : Outcome :=
  if f.vm.activeReadGeneration > f.vm.lastReadGeneration ∧ ¬f.vm.readCompleted then
    .done false f
  else if ¬(f.state.stopped ∨
      (f.state.dataReady ∧ f.state.generation > f.vm.lastReadGeneration)) then .wait
  else if f.state.stopped then .done false f
  else
    .done true { f with
      vm := { f.vm with
        readOffset := 0
        activeReadGeneration := f.state.generation
        readCompleted := false }
      bytes := writeUint32 f.bytes data f.state.size }

/-- `readSharedByte`. The index is in bounds whenever `size` is at most `BUFFER_SIZE`. -/
def readSharedByte (f : Frame) (data : ℕ) : Outcome :=
  if f.state.stopped ∨ f.vm.activeReadGeneration ≠ f.state.generation ∨
      f.vm.readOffset ≥ f.state.size then .done false f
  else
    .done true { f with
      bytes := writeUint8 f.bytes data (f.state.data[f.vm.readOffset]?.getD 0)
      vm := { f.vm with readOffset := f.vm.readOffset + 1 } }

/-- `finishReaderRound`: the acknowledgment of one reader. -/
def finishReaderRound (f : Frame) (data : ℕ) : Outcome :=
  let reportedBytes := readUint32 f.bytes data
  if f.state.stopped ∨ f.vm.readCompleted ∨
      f.vm.activeReadGeneration ≠ f.state.generation ∨
      f.vm.readOffset ≠ f.state.size ∨ reportedBytes ≠ f.state.size ∨
      f.state.completedReaders ≥ f.state.readerCount then .done false f
  else
    .done true { f with
      vm := { f.vm with
        readCompleted := true
        lastReadGeneration := f.vm.activeReadGeneration
        transferCompleted := true }
      state := { f.state with completedReaders := f.state.completedReaders + 1 }
      notified := true }

/-! ### The dispatcher -/

/-- The handlers `handleSharedBufferIo` can call. -/
inductive Handler where
  | deliverMode
  | beginWriterRound
  | writeSharedByte
  | finishWriterRound
  | beginReaderRound
  | readSharedByte
  | finishReaderRound
deriving DecidableEq

/-- The decisions of `handleSharedBufferIo`: which handler an exit is for and where its
data lies, or `none` where the source returns `false` without calling one. -/
def selectHandler (vm : SharedBufferVmState) (run : KvmRun) : Option (Handler × ℕ) :=
  if run.io.port ≠ sharedBufferPort ∧ run.io.port ≠ sharedBufferStatusPort then none
  else
    match getIoData run with
    | none => none
    | some data =>
      if ¬vm.modeDelivered then some (.deliverMode, data)
      else if run.io.port = sharedBufferPort ∧ vm.mode = vmModeWriter then
        if run.io.direction = kvmExitIoOut ∧ run.io.size = 4 then some (.beginWriterRound, data)
        else if run.io.direction = kvmExitIoOut ∧ run.io.size = 1 then
          some (.writeSharedByte, data)
        else none
      else if run.io.port = sharedBufferPort ∧ vm.mode = vmModeReader then
        if run.io.direction = kvmExitIoIn ∧ run.io.size = 4 then some (.beginReaderRound, data)
        else if run.io.direction = kvmExitIoIn ∧ run.io.size = 1 then
          some (.readSharedByte, data)
        else none
      else if run.io.port = sharedBufferStatusPort ∧ vm.mode = vmModeWriter ∧
          run.io.direction = kvmExitIoIn ∧ run.io.size = 4 then some (.finishWriterRound, data)
      else if run.io.port = sharedBufferStatusPort ∧ vm.mode = vmModeReader ∧
          run.io.direction = kvmExitIoOut ∧ run.io.size = 4 then some (.finishReaderRound, data)
      else none

/-- Calling the selected handler. -/
def Handler.call (handler : Handler) (io : KvmIo) (f : Frame) (data : ℕ) : Outcome :=
  match handler with
  | .deliverMode => KvmHypervisor.deliverMode io f data
  | .beginWriterRound => KvmHypervisor.beginWriterRound f data
  | .writeSharedByte => KvmHypervisor.writeSharedByte f (f.bytes data)
  | .finishWriterRound => KvmHypervisor.finishWriterRound f data
  | .beginReaderRound => KvmHypervisor.beginReaderRound f data
  | .readSharedByte => KvmHypervisor.readSharedByte f data
  | .finishReaderRound => KvmHypervisor.finishReaderRound f data

/-- `handleSharedBufferIo`. -/
def handleSharedBufferIo (state : SharedBufferState) (vm : SharedBufferVmState)
    (run : KvmRun) : Outcome :=
  let f : Frame := { state, vm, bytes := run.bytes, notified := false }
  match selectHandler vm run with
  | none => .done false f
  | some (handler, data) => handler.call run.io f data

/-- `abortSharedBuffer`. -/
def abortSharedBuffer (state : SharedBufferState) : SharedBufferState :=
  { state with stopped := true }

end KvmHypervisor
