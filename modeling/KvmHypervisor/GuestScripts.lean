import KvmHypervisor.GuestCode

/-!
# What the Guest Does

The code of the guest along its `DefaultProgram`. An observer follows a program at the shared
buffer and the files and writes down the serial output; it expects every query of the code, and
where a function returns it stands where the function has brought the program.

## Main results

* `testFileIo_meets`, `irq0Handler_mode`, `irq0Handler_transfer`, `finishMain_meets`: each part of
  the guest along its program, with what it prints.
-/

open Interactions

namespace KvmHypervisor

/-! ### The observer -/

/-- The answer of a file layer that a reply stands for. -/
def FileReply.answer (reply : FileReply) : Answer :=
  ⟨reply.result, memoryOf reply.data.length reply.data⟩

@[simp] theorem FileReply.result_answer (reply : FileReply) :
    reply.answer.result = reply.result := rfl

/-- Its memory holds the data of the reply. -/
theorem FileReply.slice_answer {reply : FileReply} (h : reply.data.length = reply.result.toNat) :
    reply.answer.memory.slice 0 reply.result.toNat = reply.data := by
  rw [← h]
  refine List.ext_getElem (by simp [GuestMemory.slice]) fun k hk hk' => ?_
  simp [GuestMemory.slice, answer, memoryOf, hk']

/-- How a program goes on after a file call. -/
def DefaultProgram.replied (reply : FileReply) (p : DefaultProgram) : DefaultProgram :=
  p.returned 0 reply.answer

/-- How far a guest has come: the program it still has to do, and its serial output. -/
structure GuestProgress where
  program : DefaultProgram
  written : List UInt8

/-- What the observer expects of a guest, and how it follows. -/
inductive GuestProgress.Moves (g : GuestProgress) :
    (query : GuestQuery) → query.Reply → GuestProgress → Prop
  | serialOut (value : UInt8) (response : ℕ) :
      Moves g (.port (.outb serialPort value)) response
        { g with written := g.written ++ [value] }
  | serialIn (response : ℕ) : Moves g (.port (.inb serialPort)) response g
  | port {command : PortCommand} (h : g.program.next = some command) (response : ℕ) :
      Moves g (.port command) response { g with program := g.program.resume response }
  | file {call : FileCall} (h : g.program.fileCall = some call) (reply : FileReply) :
      Moves g (.file call) reply { g with program := g.program.replied reply }

/-- The answers a guest can get: what an IN delivers fits its register, and a read returns the
length of what it has read. -/
def GuestQuery.Admits : (query : GuestQuery) → query.Reply → Prop
  | .port (.inb _), (response : ℕ) => response < 2 ^ 8
  | .port (.inl _), (response : ℕ) => response < 2 ^ 32
  | .port _, _ => True
  | .file _, (reply : FileReply) => reply.data.length = reply.result.toNat

/-- Watched from `g`, the code does what the program of `g` says and returns with `post`. -/
def GuestProgress.Meets {α : Type} (g : GuestProgress) (post : GuestProgress → α → Prop)
    (code : GuestCode α) : Prop :=
  Interaction.Meets GuestProgress.Moves GuestQuery.Admits post g code

namespace GuestProgress

variable {α β : Type} {g : GuestProgress} {post : GuestProgress → α → Prop}

/-- Code in sequence. -/
theorem Meets.bind {code : GuestCode α} {f : α → GuestCode β} {post' : GuestProgress → β → Prop}
    (h : g.Meets post code) (hf : ∀ t result, post t result → t.Meets post' (f result)) :
    g.Meets post' (code >>= f) :=
  Interaction.Meets.bind h hf

/-- A weaker condition on the result. -/
theorem Meets.mono {code : GuestCode α} {post' : GuestProgress → α → Prop}
    (h : g.Meets post code) (hpost : ∀ t result, post t result → post' t result) :
    g.Meets post' code :=
  Interaction.Meets.mono h hpost

end GuestProgress

namespace GuestCode

variable {g : GuestProgress} {w : List UInt8}

/-! ### The functions of `io.h` and `file.c` -/

/-- An `outb` to the serial port. -/
theorem outb_serial (value : UInt8) :
    g.Meets (fun t _ => t = { g with written := g.written ++ [value] }) (outb serialPort value) :=
  fun response _ => ⟨_, .serialOut value response, rfl⟩

/-- An `inb` from the serial port. -/
theorem inb_serial : g.Meets (fun t _ => t = g) (inb serialPort) :=
  fun response _ => ⟨_, .serialIn response, rfl⟩

/-- An `outb` the program expects. -/
theorem outb_meets {port : ℕ} {value : UInt8} (hnext : g.program.next = some (.outb port value)) :
    g.Meets (fun t _ => ∃ response, t = { g with program := g.program.resume response })
      (outb port value) :=
  fun response _ => ⟨_, .port hnext response, response, rfl⟩

/-- An `outl` the program expects. -/
theorem outl_meets {port value : ℕ} (hnext : g.program.next = some (.outl port value)) :
    g.Meets (fun t _ => ∃ response, t = { g with program := g.program.resume response })
      (outl port value) :=
  fun response _ => ⟨_, .port hnext response, response, rfl⟩

/-- An `inb` the program expects. -/
theorem inb_meets {port : ℕ} (hnext : g.program.next = some (.inb port)) :
    g.Meets (fun t value => t = { g with program := g.program.resume value.toNat })
      (inb port) := by
  intro (response : ℕ) (hresponse : response < 2 ^ 8)
  refine ⟨_, .port hnext response, ?_⟩
  have hvalue : (UInt8.ofNat response).toNat = response := Nat.mod_eq_of_lt hresponse
  show _ = ({ g with program := g.program.resume (UInt8.ofNat response).toNat } : GuestProgress)
  rw [hvalue]

/-- An `inl` the program expects. -/
theorem inl_meets {port : ℕ} (hnext : g.program.next = some (.inl port)) :
    g.Meets (fun t value => t = { g with program := g.program.resume value }) (inl port) :=
  fun response _ => ⟨_, .port hnext response, rfl⟩

/-- A function of `file.c`. -/
theorem callFile_meets {α : Type} {call : FileCall} {f : FileReply → α}
    (hcall : g.program.fileCall = some call) :
    g.Meets (fun t result => ∃ reply : FileReply,
        t = { g with program := g.program.replied reply } ∧
          reply.data.length = reply.result.toNat ∧ result = f reply)
      (callFile call >>= fun reply => pure (f reply)) :=
  fun reply hreply => ⟨_, .file hcall reply, reply, rfl, hreply, rfl⟩

/-- What `serial_write` prints. -/
theorem serialWrite_meets (message : List UInt8) :
    g.Meets (fun t _ => t = { g with written := g.written ++ message }) (serialWrite message) := by
  induction message generalizing g with
  | nil =>
      show g = { g with written := g.written ++ [] }
      rw [List.append_nil]
  | cons character message ih =>
      refine (outb_serial character).bind ?_
      rintro t - rfl
      have hih := ih (g := { g with written := g.written ++ [character] })
      rw [List.append_assoc, List.singleton_append] at hih
      exact hih

/-! ### The loops of the transfers -/

/-- The loop of a writer, after the bytes `sent`. -/
theorem sendBytes_meets (read : Bool) (left sent : List UInt8) :
    GuestProgress.Meets ⟨.send read (sent ++ left) sent.length, w⟩
      (fun g _ => g = ⟨.send read (sent ++ left) (sent ++ left).length, w⟩) (sendBytes left) := by
  induction left generalizing sent with
  | nil =>
      rw [List.append_nil]
      exact rfl
  | cons value left ih =>
      have hvalue : (sent ++ value :: left)[sent.length]? = some value := by simp
      refine (outb_meets (by simp only [DefaultProgram.next, hvalue])).bind ?_
      rintro t - ⟨response, rfl⟩
      have hlength : (sent ++ [value]).length = sent.length + 1 := List.length_append
      have hih := ih (sent ++ [value])
      rw [hlength, List.append_assoc, List.singleton_append] at hih
      simp only [DefaultProgram.resume, hvalue]
      exact hih

/-- The loop of a reader, with `left` bytes to come. -/
theorem receiveBytes_meets (left : ℕ) (buffer : List UInt8) :
    GuestProgress.Meets ⟨.receive (buffer.length + left) buffer, w⟩
      (fun g buffer' => buffer'.length = buffer.length + left ∧
        g = ⟨.receive buffer'.length buffer', w⟩) (receiveBytes left buffer) := by
  induction left generalizing buffer with
  | zero => exact ⟨rfl, rfl⟩
  | succ left ih =>
      have hlt : buffer.length < buffer.length + (left + 1) := by omega
      refine (inb_meets (by simp only [DefaultProgram.next, if_pos hlt])).bind ?_
      rintro t value rfl
      have hih := ih (buffer ++ [value])
      simp only [DefaultProgram.resume, if_pos hlt, UInt8.ofNat_toNat]
      rw [List.length_append, List.length_singleton, Nat.add_assoc, Nat.add_comm 1] at hih
      exact hih

/-! ### The transfers -/

/-- **`write_shared_buffer`** from its start to its end. -/
theorem writeSharedBuffer_meets :
    GuestProgress.Meets ⟨.openSource, w⟩ (fun g succeeded => g = ⟨.done true succeeded, w⟩)
      writeSharedBuffer := by
  -- the part at the shared buffer, after the file calls
  have hsend : ∀ (bytesRead closeResult : ℤ) (buffer : List UInt8),
      buffer.length = bytesRead.toNat →
      GuestProgress.Meets ⟨.announce (decide (0 ≤ bytesRead) && closeResult == 0) buffer, w⟩
        (fun g succeeded => g = ⟨.done true succeeded, w⟩) (do
          let count := if 0 ≤ bytesRead then bytesRead.toNat else 0
          outl sharedBufferPort count
          sendBytes (buffer.take count)
          let written ← inl sharedBufferStatusPort
          let expected := if count > bufferSize then bufferSize else count
          return decide (0 ≤ bytesRead) && closeResult == 0 && written == expected) := by
    intro bytesRead closeResult buffer hlength
    have hcount : (if 0 ≤ bytesRead then bytesRead.toNat else 0) = buffer.length := by
      split_ifs <;> omega
    simp only [hcount, List.take_length]
    refine (outl_meets rfl).bind ?_
    rintro t - ⟨response, rfl⟩
    refine (sendBytes_meets _ buffer []).bind ?_
    rintro t - rfl
    have hend : buffer[buffer.length]? = none := by simp
    refine (inl_meets (by simp only [DefaultProgram.next, List.nil_append, hend])).bind ?_
    rintro t written rfl
    have hexpected : (if buffer.length > bufferSize then bufferSize else buffer.length) =
        min buffer.length bufferSize := by
      split_ifs <;> omega
    simp only [DefaultProgram.resume, List.nil_append, hend, hexpected]
    exact rfl
  refine (callFile_meets rfl).bind ?_
  rintro t fd ⟨opened, rfl, -, rfl⟩
  simp only [DefaultProgram.replied, DefaultProgram.returned, FileReply.result_answer]
  by_cases hfd : 0 ≤ opened.result
  · simp only [hfd, ↓reduceIte]
    refine (callFile_meets rfl).bind ?_
    rintro t - ⟨bytes, rfl, hbytes, rfl⟩
    refine (callFile_meets rfl).bind ?_
    rintro t - ⟨closed, rfl, -, rfl⟩
    simp only [DefaultProgram.replied, DefaultProgram.returned, FileReply.result_answer,
      FileReply.slice_answer hbytes]
    exact hsend bytes.result closed.result bytes.data hbytes
  · simp only [hfd, ↓reduceIte]
    exact hsend (-1) (-1) [] rfl

/-- **`read_shared_buffer`** from its start to its end. -/
theorem readSharedBuffer_meets :
    GuestProgress.Meets ⟨.ask, w⟩ (fun g succeeded => g = ⟨.done false succeeded, w⟩)
      readSharedBuffer := by
  refine (inl_meets rfl).bind ?_
  rintro t count rfl
  simp only [DefaultProgram.resume]
  by_cases hlarge : bufferSize < count
  · simp only [hlarge, ↓reduceIte]
    refine (outl_meets rfl).bind ?_
    rintro t - ⟨response, rfl⟩
    exact rfl
  · simp only [hlarge, ↓reduceIte]
    have hreceive := receiveBytes_meets (w := w) count []
    rw [List.length_nil, Nat.zero_add] at hreceive
    refine hreceive.bind ?_
    rintro t buffer ⟨rfl, rfl⟩
    refine (outl_meets (by simp only [DefaultProgram.next, lt_irrefl, ↓reduceIte])).bind ?_
    rintro t - ⟨response, rfl⟩
    simp only [DefaultProgram.resume, lt_irrefl, ↓reduceIte]
    refine (callFile_meets rfl).bind ?_
    rintro t fd ⟨opened, rfl, -, rfl⟩
    simp only [DefaultProgram.replied, DefaultProgram.returned, FileReply.result_answer]
    by_cases hfd : 0 ≤ opened.result
    · simp only [hfd, ↓reduceIte]
      refine (callFile_meets rfl).bind ?_
      rintro t sought ⟨moved, rfl, -, rfl⟩
      simp only [DefaultProgram.replied, DefaultProgram.returned, FileReply.result_answer]
      by_cases hsought : moved.result = 0
      · simp only [hsought, ↓reduceIte]
        refine (callFile_meets rfl).bind ?_
        rintro t bytesWritten ⟨stored, rfl, -, rfl⟩
        refine (callFile_meets rfl).bind ?_
        rintro t closeResult ⟨closed, rfl, -, rfl⟩
        exact rfl
      · simp only [hsought, ↓reduceIte]
        refine (callFile_meets rfl).bind ?_
        rintro t closeResult ⟨closed, rfl, -, rfl⟩
        exact rfl
    · simp only [hfd, ↓reduceIte]
      -- neither of the two values is one of a success
      show _ = _
      simp

/-! ### The interrupt handler -/

/-- The program of a transfer. -/
def transferProgram (vmMode : UInt8) : DefaultProgram :=
  if vmMode = vmModeWriter then .openSource else .ask

/-- **The first interrupt**: the handler stores the mode and prints it. -/
theorem irq0Handler_mode {globals : GuestGlobals} (h : globals.modeInitialized = false) :
    GuestProgress.Meets ⟨.mode, w⟩
      (fun t globals' => globals' = { globals with
          vmMode := globals'.vmMode, modeInitialized := true } ∧
        t = ⟨transferProgram globals'.vmMode, w ++ modeText globals'.vmMode⟩)
      (irq0Handler globals) := by
  rw [irq0Handler, h]
  refine (inb_meets rfl).bind ?_
  rintro t vmMode rfl
  refine (serialWrite_meets (modeText vmMode)).bind ?_
  rintro t - rfl
  refine ⟨rfl, ?_⟩
  have hmode : vmMode.toNat = vmModeWriter.toNat ↔ vmMode = vmModeWriter := UInt8.toNat_inj
  simp only [DefaultProgram.resume, transferProgram, hmode]

/-- **The second interrupt**: the handler makes the transfer. -/
theorem irq0Handler_transfer {globals : GuestGlobals} (h : globals.modeInitialized = true) :
    GuestProgress.Meets ⟨transferProgram globals.vmMode, w⟩
      (fun t globals' => globals' = { globals with
          transferSucceeded := globals'.transferSucceeded, transferFinished := true } ∧
        t = ⟨.done (decide (globals.vmMode = vmModeWriter)) globals'.transferSucceeded, w⟩)
      (irq0Handler globals) := by
  rw [irq0Handler, h]
  by_cases hmode : globals.vmMode = vmModeWriter
  · simp only [transferProgram, hmode, ↓reduceIte]
    refine writeSharedBuffer_meets.bind ?_
    rintro t succeeded rfl
    exact ⟨rfl, rfl⟩
  · simp only [transferProgram, hmode, ↓reduceIte]
    refine readSharedBuffer_meets.bind ?_
    rintro t succeeded rfl
    exact ⟨rfl, rfl⟩

/-! ### `main` -/

/-- What `test_file_io` prints. -/
def IsTestOutput (text : List UInt8) : Prop :=
  text = bytesOf "File I/O failed!\n" ∨
    ∃ buffer : List UInt8, buffer.length = testMessage.length ∧
      text = bytesOf "File content: " ++ buffer.takeWhile (· ≠ 0) ++ [newline]

/-- **`test_file_io`** from its start to its end. -/
theorem testFileIo_meets :
    GuestProgress.Meets ⟨.testOpen, w⟩
      (fun t _ => ∃ text, IsTestOutput text ∧ t = ⟨.mode, w ++ text⟩) testFileIo := by
  -- what is printed in the end, whatever the calls have returned
  have hprint : ∀ (bytesWritten seekResult bytesRead closeResult : ℤ) (buffer : List UInt8),
      (bytesRead = testMessage.length → buffer.length = testMessage.length) →
      GuestProgress.Meets ⟨.mode, w⟩ (fun t _ => ∃ text, IsTestOutput text ∧ t = ⟨.mode, w ++ text⟩)
        (if bytesWritten ≠ testMessage.length ∨ seekResult ≠ 0 ∨ bytesRead ≠ testMessage.length ∨
            closeResult < 0 then
          serialWrite (bytesOf "File I/O failed!\n")
        else do
          serialWrite (bytesOf "File content: ")
          serialWrite (buffer.takeWhile (· ≠ 0))
          outb serialPort newline) := by
    intro bytesWritten seekResult bytesRead closeResult buffer hbuffer
    split_ifs with hfailed
    · refine (serialWrite_meets _).mono ?_
      rintro t - rfl
      exact ⟨_, .inl rfl, rfl⟩
    · simp only [not_or, not_not] at hfailed
      refine (serialWrite_meets _).bind ?_
      rintro t - rfl
      refine (serialWrite_meets _).bind ?_
      rintro t - rfl
      refine (outb_serial newline).mono ?_
      rintro t - rfl
      exact ⟨_, .inr ⟨buffer, hbuffer hfailed.2.2.1, rfl⟩, by simp only [List.append_assoc]⟩
  refine (callFile_meets rfl).bind ?_
  rintro t fd ⟨opened, rfl, -, rfl⟩
  simp only [DefaultProgram.replied, DefaultProgram.returned, FileReply.result_answer]
  by_cases hfd : 0 ≤ opened.result
  · simp only [hfd, ↓reduceIte]
    refine (callFile_meets rfl).bind ?_
    rintro t bytesWritten ⟨stored, rfl, -, rfl⟩
    simp only [DefaultProgram.replied, DefaultProgram.returned, FileReply.result_answer]
    by_cases hstored : stored.result = testMessage.length
    · simp only [hstored, ↓reduceIte]
      refine (callFile_meets rfl).bind ?_
      rintro t seekResult ⟨moved, rfl, -, rfl⟩
      simp only [DefaultProgram.replied, DefaultProgram.returned, FileReply.result_answer]
      by_cases hmoved : moved.result = 0
      · simp only [hmoved, ↓reduceIte]
        refine (callFile_meets rfl).bind ?_
        rintro t - ⟨bytes, rfl, hbytes, rfl⟩
        refine (callFile_meets rfl).bind ?_
        rintro t closeResult ⟨closed, rfl, -, rfl⟩
        refine hprint _ _ _ _ _ fun hall => ?_
        have hresult : bytes.result = testMessage.length := hall
        rw [hbytes, hresult]
        rfl
      · simp only [hmoved, ↓reduceIte]
        refine (callFile_meets rfl).bind ?_
        rintro t closeResult ⟨closed, rfl, -, rfl⟩
        exact hprint _ _ (-1) _ [] fun hall => by cases hall
    · simp only [hstored, ↓reduceIte]
      refine (callFile_meets rfl).bind ?_
      rintro t closeResult ⟨closed, rfl, -, rfl⟩
      exact hprint _ (-1) (-1) _ [] fun hall => by cases hall
  · simp only [hfd, ↓reduceIte]
    exact hprint (-1) (-1) (-1) (-1) [] fun hall => by cases hall

/-- What `main` prints after a transfer that has succeeded, with the character it has got. -/
def completeText (input : UInt8) : List UInt8 :=
  bytesOf "Shared buffer transfer complete.\n" ++ bytesOf "Hello, world!\n" ++
    bytesOf "Enter one character: " ++ bytesOf "Guest received: " ++ [input] ++ [newline]

/-- **The end of `main`**: it halts after a success, and only then. -/
theorem finishMain_meets (succeeded : Bool) :
    g.Meets (fun t ending => t.program = g.program ∧
        if succeeded then ending = .hlt ∧ ∃ input, t.written = g.written ++ completeText input
        else ending = .ud2)
      (finishMain succeeded) := by
  cases succeeded with
  | false =>
      refine (serialWrite_meets _).bind ?_
      rintro t - rfl
      exact ⟨rfl, rfl⟩
  | true =>
      refine (serialWrite_meets _).bind ?_
      rintro t - rfl
      refine (serialWrite_meets _).bind ?_
      rintro t - rfl
      refine (serialWrite_meets _).bind ?_
      rintro t - rfl
      refine inb_serial.bind ?_
      rintro t input rfl
      refine (serialWrite_meets _).bind ?_
      rintro t - rfl
      refine (outb_serial input).bind ?_
      rintro t - rfl
      refine (outb_serial newline).bind ?_
      rintro t - rfl
      refine ⟨rfl, rfl, input, ?_⟩
      simp only [completeText, List.append_assoc]

end GuestCode

end KvmHypervisor
