import KvmHypervisor.DefaultGuests
import KvmHypervisor.ExitLoop
import KvmHypervisor.Interactions

/-!
# The Code of the Guest

The functions of `guest/src`, as interactive programs. What they ask is a port instruction or a
call of `file.h`; all else they do stays inside the guest. `main` runs `test_file_io`, enables
interrupts, waits until the handler has set `transfer_finished`, and runs to its end; it meets
the shared buffer only in `irq0_handler`.
-/

open Interactions

namespace KvmHypervisor

/-! ### Queries -/

/-- What the code of the guest asks. -/
inductive GuestQuery where
  | port (command : PortCommand)
  | file (call : FileCall)

/-- The result of a file call, and what a read has left in its buffer. -/
structure FileReply where
  result : ℤ
  data : List UInt8

/-- The answer to a query: the value of an IN, or the result of a file call. -/
def GuestQuery.Reply : GuestQuery → Type
  | .port _ => ℕ
  | .file _ => FileReply

/-- Code of the guest with a result. -/
abbrev GuestCode :=
  Interaction GuestQuery GuestQuery.Reply

namespace GuestCode

/-! ### `io.h` and `file.c` -/

/-- `outb`. -/
def outb (port : ℕ) (value : UInt8) : GuestCode Unit :=
  .ask (.port (.outb port value)) fun _ => .pure ()

/-- `inb`. -/
def inb (port : ℕ) : GuestCode UInt8 :=
  .ask (.port (.inb port)) fun (response : ℕ) => .pure (UInt8.ofNat response)

/-- `outl`. -/
def outl (port value : ℕ) : GuestCode Unit :=
  .ask (.port (.outl port value)) fun _ => .pure ()

/-- `inl`. -/
def inl (port : ℕ) : GuestCode ℕ :=
  .ask (.port (.inl port)) fun (response : ℕ) => .pure response

/-- A call of `file.h`. -/
def callFile (call : FileCall) : GuestCode FileReply :=
  .ask (.file call) fun (reply : FileReply) => .pure reply

/-- `open`, of a path that is not null. -/
def openFile (path : String) (flags : BitVec 32) : GuestCode ℤ := do
  let reply ← callFile (.openFile path flags)
  return reply.result

/-- `close`. -/
def close (fd : ℤ) : GuestCode ℤ := do
  let reply ← callFile (.close fd)
  return reply.result

/-- `read`, into a buffer that is not null. -/
def read (fd : ℤ) (count : ℕ) : GuestCode (ℤ × List UInt8) := do
  let reply ← callFile (.read fd count)
  return (reply.result, reply.data)

/-- `write`, from a buffer that is not null. -/
def write (fd : ℤ) (buf : List UInt8) : GuestCode ℤ := do
  let reply ← callFile (.write fd buf)
  return reply.result

/-- `lseek`. -/
def lseek (fd offset : ℤ) (offFlag : BitVec 32) : GuestCode ℤ := do
  let reply ← callFile (.lseek fd offset offFlag)
  return reply.result

/-- `serial_write`, of the characters before the terminator. -/
def serialWrite : List UInt8 → GuestCode Unit
  | [] => return
  | character :: message => do
    outb serialPort character
    serialWrite message

/-! ### `interrupts.c` -/

/-- The loop of `write_shared_buffer`. -/
def sendBytes : List UInt8 → GuestCode Unit
  | [] => return
  | value :: buffer => do
    outb sharedBufferPort value
    sendBytes buffer

/-- `write_shared_buffer`. The buffer holds as many bytes as the read has returned. -/
def writeSharedBuffer : GuestCode Bool := do
  let fd ← openFile "guest.txt" fileOpenRead
  let (bytesRead, buffer) ← (if 0 ≤ fd then read fd (bufferSize + 1) else pure (-1, []))
  let closeResult ← (if 0 ≤ fd then close fd else pure (-1))
  let count := if 0 ≤ bytesRead then bytesRead.toNat else 0
  outl sharedBufferPort count
  sendBytes (buffer.take count)
  let written ← inl sharedBufferStatusPort
  let expected := if count > bufferSize then bufferSize else count
  return decide (0 ≤ bytesRead) && closeResult == 0 && written == expected

/-- The loop of `read_shared_buffer`, with `left` bytes to come. -/
def receiveBytes (left : ℕ) (buffer : List UInt8) : GuestCode (List UInt8) :=
  match left with
  | 0 => return buffer
  | left + 1 => do
    let value ← inb sharedBufferPort
    receiveBytes left (buffer ++ [value])

/-- `read_shared_buffer`. -/
def readSharedBuffer : GuestCode Bool := do
  let count ← inl sharedBufferPort
  if count > bufferSize then
    outl sharedBufferStatusPort 0
    return false
  else
    let buffer ← receiveBytes count []
    outl sharedBufferStatusPort count
    let fd ← openFile "reader.txt" (fileOpenWrite ||| fileOpenCreate)
    let seekResult ← (if 0 ≤ fd then lseek fd 0 fileSeekSet else pure (-1))
    let bytesWritten ← (if seekResult = 0 then write fd buffer else pure (-1))
    let closeResult ← (if 0 ≤ fd then close fd else pure (-1))
    return bytesWritten == (count : ℤ) && closeResult == 0

end GuestCode

/-- The static variables of `interrupts.c`, apart from the descriptor table. -/
structure GuestGlobals where
  transferFinished : Bool
  transferSucceeded : Bool
  vmMode : UInt8
  modeInitialized : Bool

/-- All of them start as zero. -/
def GuestGlobals.initial : GuestGlobals where
  transferFinished := false
  transferSucceeded := false
  vmMode := 0
  modeInitialized := false

/-- What `irq0_handler` prints at the first interrupt. -/
def modeText (vmMode : UInt8) : List UInt8 :=
  if vmMode = vmModeWriter then bytesOf "Mode: writer\n" else bytesOf "Mode: reader\n"

namespace GuestCode

/-- `irq0_handler`, with the variables as it leaves them. Nobody else reads them before. -/
def irq0Handler (globals : GuestGlobals) : GuestCode GuestGlobals := do
  if !globals.modeInitialized then
    let vmMode ← inb sharedBufferPort
    serialWrite (modeText vmMode)
    return { globals with vmMode, modeInitialized := true }
  else
    let transferSucceeded ←
      (if globals.vmMode = vmModeWriter then writeSharedBuffer else readSharedBuffer)
    return { globals with transferSucceeded, transferFinished := true }

/-! ### `main.c` -/

/-- `test_file_io`. The buffer ends with a zero byte of its own. -/
def testFileIo : GuestCode Unit := do
  let fd ← openFile "guest.txt" (fileOpenReadWrite ||| fileOpenCreate)
  let bytesWritten ← (if 0 ≤ fd then write fd testMessage else pure (-1))
  let seekResult ←
    (if bytesWritten = testMessage.length then lseek fd 0 fileSeekSet else pure (-1))
  let (bytesRead, buffer) ←
    (if seekResult = 0 then read fd testMessage.length else pure (-1, []))
  let closeResult ← (if 0 ≤ fd then close fd else pure (-1))
  if bytesWritten ≠ testMessage.length ∨ seekResult ≠ 0 ∨ bytesRead ≠ testMessage.length ∨
      closeResult < 0 then
    serialWrite (bytesOf "File I/O failed!\n")
  else
    serialWrite (bytesOf "File content: ")
    serialWrite (buffer.takeWhile (· ≠ 0))
    outb serialPort newline

end GuestCode

/-- How `main` ends: in its loop around `hlt`, or at `ud2`. -/
inductive GuestEnd where
  | hlt
  | ud2
deriving DecidableEq

/-- `main` after its loop. -/
def GuestCode.finishMain (communicationSucceeded : Bool) : GuestCode GuestEnd := do
  if !communicationSucceeded then
    serialWrite (bytesOf "Shared buffer transfer failed.\n")
    return .ud2
  else
    serialWrite (bytesOf "Shared buffer transfer complete.\n")
    serialWrite (bytesOf "Hello, world!\n")
    serialWrite (bytesOf "Enter one character: ")
    let input ← inb serialPort
    serialWrite (bytesOf "Guest received: ")
    outb serialPort input
    outb serialPort newline
    return .hlt

end KvmHypervisor
