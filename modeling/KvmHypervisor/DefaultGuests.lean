import KvmHypervisor.FileRuns
import KvmHypervisor.ReferenceGuests

/-!
# The Default Guests

The guest of `guest/src` on every VM: `test_file_io` at boot, the mode with the first
interrupt, and one transfer with the second. A writer runs `write_shared_buffer`, which sends
what one read of `guest.txt` returns; a reader runs `read_shared_buffer`, which stores what it
receives in `reader.txt`. A guest whose transfer succeeded halts, any other runs into `ud2`.
The console is left out.

`DefaultProgram` is what such a guest still has to do. Its port instructions go to the
hypervisor of `Threads`, its file requests to a file layer. The machine is generic in the
file layer, so that the host can be exchanged for a machine that answers alike.

## Main results

* `DefaultGuests.step_cases`: a step is a step of the hypervisor, or serves a file request.
* `DefaultGuests.simulate`: file layers that answer alike give the same runs.
* `noFailure_of_path`: in a run without a failure at its end there was none before.
* `halted_of_run`: a VM that ends successfully has run its program to the end.
-/

open Transitions

namespace KvmHypervisor

/-! ### File calls -/

/-- The calls of `file.h`. -/
inductive FileCall where
  | openFile (path : String) (flags : BitVec 32)
  | close (fd : ℤ)
  | read (fd : ℤ) (count : ℕ)
  | write (fd : ℤ) (data : List UInt8)
  | lseek (fd offset : ℤ) (flags : BitVec 32)

namespace FileCall

/-- The request `file.c` submits for a call whose path or buffer is at `address`. -/
def request (address : ℕ) : FileCall → FileRequest
  | openFile _ flags =>
    { operation := 1, descriptor := 0, buffer := address, count := 0, offset := 0, flags := flags }
  | close fd =>
      { operation := 2, descriptor := fd, buffer := 0, count := 0, offset := 0, flags := 0 }
  | read fd count =>
    { operation := 3, descriptor := fd, buffer := address, count := count, offset := 0, flags := 0 }
  | write fd data =>
    { operation := 4, descriptor := fd, buffer := address, count := data.length, offset := 0
      flags := 0 }
  | lseek fd offset flags =>
    { operation := 5, descriptor := fd, buffer := 0, count := 0, offset := offset, flags := flags }

/-- Guest memory holds the path or the buffer of a call at `address`. -/
def InMemory (memory : GuestMemory) (address : ℕ) : FileCall → Prop
  | openFile path _ => readGuestFileName memory address = some path
  | close _ | lseek _ _ _ => True
  | read _ count => getGuestMemory memory address count = some address
  | write _ data => getGuestMemory memory address data.length = some address ∧
      memory.slice address data.length = data

instance (memory : GuestMemory) (address : ℕ) (call : FileCall) :
    Decidable (call.InMemory memory address) :=
  match call with
  | openFile _ _ => inferInstanceAs (Decidable (_ = _))
  | close _ | lseek _ _ _ => inferInstanceAs (Decidable True)
  | read _ _ => inferInstanceAs (Decidable (_ = _))
  | write _ _ => inferInstanceAs (Decidable (_ ∧ _))

end FileCall

/-! ### Programs -/

/-- The text that `test_file_io` writes: `File I/O works!`. -/
def testMessage : List UInt8 :=
  [70, 105, 108, 101, 32, 73, 47, 79, 32, 119, 111, 114, 107, 115, 33]

/-- What a default guest still has to do. -/
inductive DefaultProgram where
  /-- `test_file_io`, before its calls. -/
  | testOpen
  | testWrite (fd : ℤ)
  | testSeek (fd : ℤ)
  | testRead (fd : ℤ)
  | testClose (fd : ℤ)
  /-- `irq0_handler` at the first interrupt. -/
  | mode
  /-- `write_shared_buffer`, before its calls; the buffer holds what was read. -/
  | openSource
  | readSource (fd : ℤ)
  | closeSource (fd bytesRead : ℤ) (buffer : List UInt8)
  /-- Before `outl(SHARED_BUFFER_PORT, count)`; the file has been `read` and closed or not. -/
  | announce (read : Bool) (buffer : List UInt8)
  /-- After `sent` of the bytes. -/
  | send (read : Bool) (buffer : List UInt8) (sent : ℕ)
  /-- `read_shared_buffer`, before `inl(SHARED_BUFFER_PORT)`. -/
  | ask
  /-- In the loop over the `count` bytes. -/
  | receive (count : ℕ) (buffer : List UInt8)
  /-- Told of more bytes than the buffer can hold. -/
  | refuse
  | openTarget (buffer : List UInt8)
  | seekTarget (fd : ℤ) (buffer : List UInt8)
  | writeTarget (fd : ℤ) (buffer : List UInt8)
  | closeTarget (fd bytesWritten : ℤ) (count : ℕ)
  /-- The transfer of a writer or a reader has returned. -/
  | done (writer succeeded : Bool)

namespace DefaultProgram

/-- The port instruction a guest executes next, if it is at one. -/
def next : DefaultProgram → Option PortCommand
  | mode => some (.inb sharedBufferPort)
  | announce _ buffer => some (.outl sharedBufferPort buffer.length)
  | send _ buffer sent =>
    match buffer[sent]? with
    | some value => some (.outb sharedBufferPort value)
    | none => some (.inl sharedBufferStatusPort)
  | ask => some (.inl sharedBufferPort)
  | receive count buffer =>
    if buffer.length < count then some (.inb sharedBufferPort)
    else some (.outl sharedBufferStatusPort count)
  | refuse => some (.outl sharedBufferStatusPort 0)
  | _ => none

/-- How a guest goes on after its instruction returned `response`. -/
def resume (response : ℕ) : DefaultProgram → DefaultProgram
  | mode => if response = vmModeWriter.toNat then openSource else ask
  | announce read buffer => send read buffer 0
  | send read buffer sent =>
    match buffer[sent]? with
    | some _ => send read buffer (sent + 1)
    | none => done true (read && response == min buffer.length bufferSize)
  | ask => if bufferSize < response then refuse else receive response []
  | receive count buffer =>
    if buffer.length < count then receive count (buffer ++ [UInt8.ofNat response])
    else openTarget buffer
  | refuse => done false false
  | p => p

/-- The file call a guest makes next, if it is at one. -/
def fileCall : DefaultProgram → Option FileCall
  | testOpen => some (.openFile "guest.txt" (fileOpenReadWrite ||| fileOpenCreate))
  | testWrite fd => some (.write fd testMessage)
  | testSeek fd | seekTarget fd _ => some (.lseek fd 0 fileSeekSet)
  | testRead fd => some (.read fd testMessage.length)
  | openSource => some (.openFile "guest.txt" fileOpenRead)
  | readSource fd => some (.read fd (bufferSize + 1))
  | openTarget _ => some (.openFile "reader.txt" (fileOpenWrite ||| fileOpenCreate))
  | writeTarget fd buffer => some (.write fd buffer)
  | testClose fd | closeSource fd _ _ | closeTarget fd _ _ => some (.close fd)
  | _ => none

/-- How a guest goes on after its file call was answered. What it read is at `address`. -/
def returned (address : ℕ) (answer : Answer) : DefaultProgram → DefaultProgram
  | testOpen => if 0 ≤ answer.result then testWrite answer.result else mode
  | testWrite fd => if answer.result = testMessage.length then testSeek fd else testClose fd
  | testSeek fd => if answer.result = 0 then testRead fd else testClose fd
  | testRead fd => testClose fd
  | testClose _ => mode
  | openSource => if 0 ≤ answer.result then readSource answer.result else announce false []
  | readSource fd =>
    closeSource fd answer.result (answer.memory.slice address answer.result.toNat)
  | closeSource _ bytesRead buffer =>
    announce (decide (0 ≤ bytesRead) && answer.result == 0) buffer
  | openTarget buffer =>
      if 0 ≤ answer.result then seekTarget answer.result buffer else done false false
  | seekTarget fd buffer =>
    if answer.result = 0 then writeTarget fd buffer else closeTarget fd (-1) buffer.length
  | writeTarget fd buffer => closeTarget fd answer.result buffer.length
  | closeTarget _ bytesWritten count => done false (bytesWritten == count && answer.result == 0)
  | p => p

/-- The bytes a reader has received and not stored yet. -/
def received : DefaultProgram → Option (List UInt8)
  | openTarget buffer | seekTarget _ buffer | writeTarget _ buffer => some buffer
  | _ => none

/-- The transfer cannot succeed any more. -/
def failed : DefaultProgram → Bool
  | closeSource _ bytesRead _ => decide (bytesRead < 0)
  | announce read _ | send read _ _ => !read
  | refuse => true
  | closeTarget _ bytesWritten count => bytesWritten != count
  | done _ succeeded => !succeeded
  | _ => false

/-- A transfer that has failed stays so at the ports. -/
theorem failed_resume {p : DefaultProgram} (h : p.failed = true) (response : ℕ) :
    (p.resume response).failed = true := by
  cases p with
  | announce | refuse => exact h
  | closeSource | closeTarget | done => exact h
  | send read buffer sent =>
      obtain rfl : read = false := by simpa [failed] using h
      rw [resume]
      cases buffer[sent]? <;> rfl
  | _ => cases h

/-- A transfer that has failed stays so at file calls. -/
theorem failed_returned {p : DefaultProgram} (h : p.failed = true) (address : ℕ)
    (answer : Answer) : (p.returned address answer).failed = true := by
  cases p with
  | closeSource fd bytesRead buffer =>
      have hlt : bytesRead < 0 := by simpa [failed] using h
      simp only [returned, failed, decide_eq_false (not_le.mpr hlt), Bool.false_and, Bool.not_false]
  | closeTarget fd bytesWritten count =>
      have hne : (bytesWritten == (count : ℤ)) = false := by simpa [failed] using h
      simp only [returned, failed, hne, Bool.false_and, Bool.not_false]
  | announce | send | refuse | done => exact h
  | _ => cases h

end DefaultProgram

/-! ### The machine -/

variable {n : ℕ} {World : Type}

/-- The hypervisor and a file layer, with a default guest on every VM. -/
structure DefaultGuests (n : ℕ) (World : Type) where
  system : System n
  world : World
  programs : Fin (n + 1) → DefaultProgram

/-- What can happen next. A VM may fail at any time, in `ud2` or on the host. -/
inductive DefaultMove (n : ℕ) where
  | issue (i : Fin (n + 1))
  | wake (i : Fin (n + 1))
  | file (i : Fin (n + 1)) (memory : GuestMemory) (address : ℕ)
  | halt (i : Fin (n + 1))
  | crash (i : Fin (n + 1))
  | finish (i : Fin (n + 1))

/-- What a step did. -/
inductive DefaultEvent (n : ℕ) where
  | port (e : Event n)
  | file (i : Fin (n + 1)) (answer : Answer)

/-- The thread is in its exit loop, between exits. -/
def ThreadStatus.isRunning : ThreadStatus → Bool
  | .running => true
  | _ => false

/-- The thread has left its loop with a failure. -/
def ThreadStatus.unsuccessful : ThreadStatus → Bool
  | .returned success | .finished success => !success
  | _ => false

namespace DefaultGuests

/-- The guests after a step of the hypervisor: the answer to a call goes to the program that
made it, and a thread that ends closes the files of its VM. -/
def advance (T : Transducer World (FileInput (n + 1)) (Option Answer))
    (s : DefaultGuests n World) : Event n × System n → DefaultEvent n × DefaultGuests n World
  | (.call i c, system) =>
    (.port (.call i c),
      { s with
        system := system
        programs := Function.update s.programs i ((s.programs i).resume c.response) })
  | (.finish i success, system) =>
    (.port (.finish i success),
      { s with system := system, world := (T.step s.world (.finish i)).2 })
  | (e, system) => (.port e, { s with system := system })

/-- The action of the hypervisor a move stands for. A guest halts after a transfer that
succeeded. -/
def action (layout : Fin (n + 1) → RunLayout) (s : DefaultGuests n World) :
    DefaultMove n → Option (Action n)
  | .issue i => (s.programs i).next.map (.issue (layout i) i)
  | .wake i => some (.wake i)
  | .halt i =>
    match s.programs i with
    | .done _ true => some (.halt i)
    | _ => none
  | .crash i => some (.fail i)
  | .finish i => some (.finish i)
  | .file _ _ _ => none

/-- A running VM makes its next file call. -/
def serve (T : Transducer World (FileInput (n + 1)) (Option Answer)) (s : DefaultGuests n World)
    (i : Fin (n + 1)) (memory : GuestMemory) (address : ℕ) :
    Option (DefaultEvent n × DefaultGuests n World) :=
  match (s.programs i).fileCall with
  | none => none
  | some call =>
    if (s.system.vms i).status.isRunning = true ∧ call.InMemory memory address then
      match T.step s.world (.request ⟨i, memory, call.request address⟩) with
      | (none, _) => none
      | (some answer, world) =>
        some (.file i answer,
          { s with
            world := world
            programs := Function.update s.programs i ((s.programs i).returned address answer) })
    else none

/-- One step of the default guests. -/
def step (T : Transducer World (FileInput (n + 1)) (Option Answer))
    (layout : Fin (n + 1) → RunLayout) (s : DefaultGuests n World) :
    DefaultMove n → Option (DefaultEvent n × DefaultGuests n World)
  | .file i memory address => s.serve T i memory address
  | m => (s.action layout m).bind fun a => (s.system.step a).map (s.advance T)

end DefaultGuests

/-- The hypervisor running the default guest on every VM, on a file layer that starts in
`world`. -/
def defaultSystem (T : Transducer World (FileInput (n + 1)) (Option Answer))
    (layout : Fin (n + 1) → RunLayout) (world : World) :
    Machine (DefaultGuests n World) (DefaultMove n) (DefaultEvent n) where
  init := ⟨System.initial n, world, fun _ => .testOpen⟩
  step := DefaultGuests.step T layout

/-- A failure of a thread is final. -/
theorem System.unsuccessful_step {s s' : System n} {a : Action n} {e : Event n}
    (h : s.step a = some (e, s')) {i : Fin (n + 1)}
    (hi : (s.vms i).status.unsuccessful = true) : (s'.vms i).status.unsuccessful = true := by
  have hother : ∀ {j : Fin (n + 1)}, (s.vms j).status.unsuccessful = false → i ≠ j := by
    rintro j hj rfl
    rw [hi] at hj
    cases hj
  have hset : ∀ {j : Fin (n + 1)} {status : ThreadStatus},
      (s.vms j).status.unsuccessful = false →
        ((s.setStatus j status).vms i).status.unsuccessful = true := by
    intro j status hj
    rw [setStatus_of_ne _ _ (hother hj), hi]
  obtain ⟨j, run, hpending, hrun⟩ | ⟨j, -, hst, -, rfl⟩ | ⟨j, -, hst, -, rfl⟩ |
    ⟨j, -, hst, -, rfl⟩ | ⟨j, -, hst, -, rfl⟩ | ⟨-, -, rfl⟩ := step_cases h
  · have hj : (s.vms j).status.unsuccessful = false := by
      cases hst : (s.vms j).status with
      | returned success => exact absurd hpending (not_pending_of_returned hst)
      | finished success =>
          cases a <;> simp only [pending] at hpending <;> grind
      | _ => rfl
    obtain ⟨f, c, -, -, -, -, rfl⟩ | ⟨-, -, rfl⟩ | ⟨-, -, rfl⟩ := execute_cases hrun
    · simpa only [Function.update_of_ne (hother hj)] using hi
    · exact hset hj
    · exact hset hj
  · exact hset (by rw [hst]; rfl)
  · exact hset (by rw [hst]; rfl)
  · exact hset (by rw [hst]; rfl)
  · by_cases hij : i = j
    · subst hij
      rw [setStatus_status_self]
      rfl
    · show ((s.setStatus j _).vms i).status.unsuccessful = true
      rw [setStatus_of_ne _ _ hij, hi]
  · exact hi

/-! ### Inversion of a step -/

namespace DefaultGuests

variable {T : Transducer World (FileInput (n + 1)) (Option Answer)}
variable {layout : Fin (n + 1) → RunLayout} {s s' : DefaultGuests n World}
variable {world : World} {m : DefaultMove n} {e : DefaultEvent n}

/-- A file call that was served. -/
structure Served (T : Transducer World (FileInput (n + 1)) (Option Answer))
    (s : DefaultGuests n World) (i : Fin (n + 1)) (memory : GuestMemory) (address : ℕ)
    (call : FileCall) (answer : Answer) (world : World) : Prop where
  running : (s.system.vms i).status = .running
  fileCall : (s.programs i).fileCall = some call
  inMemory : call.InMemory memory address
  answered : T.step s.world (.request ⟨i, memory, call.request address⟩) = (some answer, world)

/-- The guests after a file call. -/
def afterFile (s : DefaultGuests n World) (i : Fin (n + 1)) (address : ℕ) (answer : Answer)
    (world : World) : DefaultGuests n World :=
  { s with
    world := world
    programs := Function.update s.programs i ((s.programs i).returned address answer) }

@[simp] theorem system_afterFile (i : Fin (n + 1)) (address : ℕ) (answer : Answer) (world : World) :
    (s.afterFile i address answer world).system = s.system := rfl

@[simp] theorem world_afterFile (i : Fin (n + 1)) (address : ℕ) (answer : Answer) (world : World) :
    (s.afterFile i address answer world).world = world := rfl

@[simp] theorem programs_afterFile_self (i : Fin (n + 1)) (address : ℕ) (answer : Answer)
    (world : World) : (s.afterFile i address answer world).programs i =
      (s.programs i).returned address answer :=
  Function.update_self ..

theorem programs_afterFile_of_ne {i j : Fin (n + 1)} (hij : i ≠ j) (address : ℕ)
    (answer : Answer) (world : World) :
    (s.afterFile j address answer world).programs i = s.programs i :=
  Function.update_of_ne hij ..

theorem isRunning_iff {status : ThreadStatus} : status.isRunning = true ↔ status = .running := by
  cases status <;> simp [ThreadStatus.isRunning]

/-- `serve` by outcome. -/
theorem serve_eq_some {i : Fin (n + 1)} {memory : GuestMemory} {address : ℕ} :
    s.serve T i memory address = some (e, s') ↔ ∃ call answer world,
      s.Served T i memory address call answer world ∧ e = .file i answer ∧
        s' = s.afterFile i address answer world := by
  constructor
  · intro h
    rw [serve] at h
    cases hcall : (s.programs i).fileCall with
    | none =>
        rw [hcall] at h
        cases h
    | some call =>
        rw [hcall] at h
        dsimp only at h
        split_ifs at h with hok
        obtain ⟨hrunning, hmemory⟩ := hok
        rcases hanswer : T.step s.world (.request ⟨i, memory, call.request address⟩) with
          ⟨_ | answer, world⟩
        · rw [hanswer] at h
          cases h
        · rw [hanswer] at h
          cases h
          exact
            ⟨call, answer, world, ⟨isRunning_iff.mp hrunning, hcall, hmemory, hanswer⟩, rfl, rfl⟩
  · rintro ⟨call, answer, world, ⟨hrunning, hcall, hmemory, hanswer⟩, rfl, rfl⟩
    rw [serve, hcall]
    dsimp only
    rw [if_pos ⟨isRunning_iff.mpr hrunning, hmemory⟩, hanswer]
    rfl

/-- **What a step can do**: a step of the hypervisor, or a file call. -/
theorem step_cases (h : s.step T layout m = some (e, s')) :
    (∃ a e₀ system, s.action layout m = some a ∧ s.system.step a = some (e₀, system) ∧
      s.advance T (e₀, system) = (e, s')) ∨
    (∃ i memory address call answer world, m = .file i memory address ∧
      s.Served T i memory address call answer world ∧ e = .file i answer ∧
      s' = s.afterFile i address answer world) := by
  cases m with
  | file i memory address =>
      obtain ⟨call, answer, world, hserved, he, hs'⟩ := serve_eq_some.mp h
      exact .inr ⟨i, memory, address, call, answer, world, rfl, hserved, he, hs'⟩
  | _ =>
      simp only [step, Option.bind_eq_some_iff, Option.map_eq_some_iff] at h
      obtain ⟨a, ha, ⟨e₀, system⟩, hs, hadv⟩ := h
      exact .inl ⟨a, e₀, system, ha, hs, hadv⟩

/-- What `advance` makes of the hypervisor's step. -/
theorem system_advance {e₀ : Event n} {system : System n}
    (h : s.advance T (e₀, system) = (e, s')) : s'.system = system := by
  cases e₀ <;> cases h <;> rfl

/-- The program of a VM changes only with an answer to it. -/
theorem programs_advance {e₀ : Event n} {system : System n}
    (h : s.advance T (e₀, system) = (e, s')) (i : Fin (n + 1)) :
    s'.programs i = s.programs i ∨
      ∃ c, e₀ = .call i c ∧ s'.programs i = (s.programs i).resume c.response := by
  cases e₀ with
  | call j c =>
      cases h
      by_cases hij : i = j
      · subst hij
        exact .inr ⟨c, rfl, Function.update_self ..⟩
      · exact .inl (Function.update_of_ne hij ..)
  | _ =>
      cases h
      exact .inl rfl

/-! ### Failures -/

/-- No VM has failed, and every transfer can still succeed. -/
def NoFailure (s : DefaultGuests n World) : Prop :=
  ∀ i, (s.system.vms i).status.unsuccessful = false ∧ (s.programs i).failed = false

/-- **Failures are final.** -/
theorem NoFailure.of_step (hs' : s'.NoFailure) (h : s.step T layout m = some (e, s')) :
    s.NoFailure := by
  intro i
  obtain ⟨hstatus, hprogram⟩ := hs' i
  obtain ⟨a, e₀, system, -, hsystem, hadv⟩ |
    ⟨j, memory, address, call, answer, world, -, -, -, rfl⟩ := step_cases h
  · rw [system_advance hadv] at hstatus
    constructor
    · by_contra hfailed
      rw [Bool.not_eq_false] at hfailed
      rw [System.unsuccessful_step hsystem hfailed] at hstatus
      cases hstatus
    · by_contra hfailed
      rw [Bool.not_eq_false] at hfailed
      obtain heq | ⟨c, -, heq⟩ := programs_advance hadv i
      · rw [heq, hfailed] at hprogram
        cases hprogram
      · rw [heq, DefaultProgram.failed_resume hfailed] at hprogram
        cases hprogram
  · refine ⟨hstatus, ?_⟩
    by_contra hfailed
    rw [Bool.not_eq_false] at hfailed
    by_cases hij : i = j
    · subst hij
      rw [programs_afterFile_self, DefaultProgram.failed_returned hfailed] at hprogram
      cases hprogram
    · rw [programs_afterFile_of_ne hij, hfailed] at hprogram
      cases hprogram

/-- A run without a failure at its end has none before. -/
theorem noFailure_of_path {ok : DefaultGuests n World → DefaultMove n → Prop}
    {tr : List (DefaultEvent n)} (h : (defaultSystem T layout world).Path ok s tr s')
    (hs' : s'.NoFailure) : s.NoFailure := by
  induction h with
  | refl => exact hs'
  | step _ _ hs ih => exact ih (hs'.of_step hs)

/-! ### Successful ends -/

/-- A VM that has ended successfully has run its program to the end. -/
def Halted (s : DefaultGuests n World) : Prop :=
  ∀ i, (s.system.vms i).status = .returned true ∨ (s.system.vms i).status = .finished true →
    ∃ writer, s.programs i = .done writer true

/-- Only a guest whose transfer succeeded halts. -/
theorem done_of_halt {i : Fin (n + 1)} (h : s.action layout m = some (.halt i)) :
    ∃ writer, s.programs i = .done writer true := by
  cases m with
  | halt j =>
      simp only [action] at h
      split at h
      · rename_i writer hdone
        cases h
        exact ⟨writer, hdone⟩
      · cases h
  | issue j =>
      obtain ⟨command, -, hc⟩ := Option.map_eq_some_iff.mp h
      cases hc
  | _ => cases h

/-- A program that has halted goes on no more, whatever its VM does. -/
theorem Halted.step (hs : s.Halted) (h : s.step T layout m = some (e, s')) : s'.Halted := by
  intro i hstatus
  obtain ⟨a, e₀, system, ha, hsystem, hadv⟩ |
    ⟨j, memory, address, call, answer, world, -, hserved, -, rfl⟩ := step_cases h
  · rw [system_advance hadv] at hstatus
    by_cases hvm : a.vm = some i
    · obtain ⟨j, run, hpending, hrun⟩ | ⟨j, rfl, -, rfl, rfl⟩ | ⟨j, rfl, -, rfl, rfl⟩ |
        ⟨j, rfl, hreturned, rfl, rfl⟩ | ⟨j, rfl, -, rfl, rfl⟩ | ⟨rfl, -, -⟩ :=
          System.step_cases hsystem
      · obtain rfl : j = i := Option.some.inj ((System.vm_of_pending hpending).symm.trans hvm)
        obtain ⟨f, c, -, -, -, -, rfl⟩ | ⟨-, -, rfl⟩ | ⟨-, -, rfl⟩ := System.execute_cases hrun <;>
          simp at hstatus
      · cases hvm
        cases hadv
        exact done_of_halt ha
      · cases hvm
        simp at hstatus
      · cases hvm
        cases hadv
        exact hs _ (.inl hreturned)
      · cases hvm
        simp at hstatus
      · cases hvm
    · rw [System.vms_of_ne hsystem hvm] at hstatus
      obtain heq | ⟨c, rfl, -⟩ := programs_advance hadv i
      · rw [heq]
        exact hs i hstatus
      · exact absurd (System.vm_of_call hsystem) hvm
  · have hij : i ≠ j := by
      rintro rfl
      rw [system_afterFile, hserved.running] at hstatus
      rcases hstatus with hstatus | hstatus <;> cases hstatus
    rw [programs_afterFile_of_ne hij]
    exact hs i hstatus

/-- **VMs that end successfully have run their programs to the end.** -/
theorem halted_of_run {ok : DefaultGuests n World → DefaultMove n → Prop}
    {tr : List (DefaultEvent n)} (h : (defaultSystem T layout world).Run ok tr s) : s.Halted :=
  h.invariant (I := fun _ s => s.Halted)
    (fun i hi => by rcases hi with hi | hi <;> cases hi) fun _ _ _ _ _ hI _ hs => hI.step hs

/-- When all VMs have ended successfully there was no failure. -/
theorem Halted.noFailure (hs : s.Halted)
    (hfinished : ∀ i, (s.system.vms i).status = .finished true) : s.NoFailure := by
  intro i
  obtain ⟨writer, hdone⟩ := hs i (.inr (hfinished i))
  rw [hfinished i, hdone]
  exact ⟨rfl, rfl⟩

/-! ### Exchanging the file layer -/

section Exchange

variable {World' : Type} {T' : Transducer World' (FileInput (n + 1)) (Option Answer)}
variable {R : World → World' → Prop}

/-- The same guests on related worlds. -/
structure Matches (R : World → World' → Prop) (s : DefaultGuests n World)
    (t : DefaultGuests n World') : Prop where
  system : t.system = s.system
  world : R s.world t.world
  programs : t.programs = s.programs

/-- What a step of the hypervisor makes of the same guests on the other file layer. -/
theorem Matches.advance
    (hstep : ∀ w w' input, R w w' →
      (T.step w input).1 = (T'.step w' input).1 ∧ R (T.step w input).2 (T'.step w' input).2)
    {t : DefaultGuests n World'} (hst : Matches R s t) {e₀ : Event n} {system : System n}
    (h : s.advance T (e₀, system) = (e, s')) :
    ∃ t', t.advance T' (e₀, system) = (e, t') ∧ Matches R s' t' := by
  obtain ⟨-, hworld, hprograms⟩ := hst
  cases e₀ with
  | call i c =>
      cases h
      exact ⟨_, rfl, rfl, hworld, by rw [hprograms]⟩
  | finish i success =>
      cases h
      exact ⟨_, rfl, rfl, (hstep _ _ _ hworld).2, hprograms⟩
  | _ =>
      cases h
      exact ⟨_, rfl, rfl, hworld, hprograms⟩

/-- One step on the other file layer. -/
theorem Matches.step
    (hstep : ∀ w w' input, R w w' →
      (T.step w input).1 = (T'.step w' input).1 ∧ R (T.step w input).2 (T'.step w' input).2)
    {t : DefaultGuests n World'} (hst : Matches R s t) (h : s.step T layout m = some (e, s')) :
    ∃ t', t.step T' layout m = some (e, t') ∧ Matches R s' t' := by
  cases m with
  | file i memory address =>
      obtain ⟨call, answer, world, ⟨hrunning, hcall, hmemory, hanswer⟩, rfl, rfl⟩ :=
        serve_eq_some.mp h
      obtain ⟨heq, hR⟩ := hstep _ _ (.request ⟨i, memory, call.request address⟩) hst.world
      rw [hanswer] at heq hR
      refine ⟨t.afterFile i address answer _, serve_eq_some.mpr ⟨call, answer, _,
        ⟨?_, ?_, hmemory, Prod.ext heq.symm rfl⟩, rfl, rfl⟩, hst.system, hR, ?_⟩
      · rw [hst.system, hrunning]
      · rw [hst.programs, hcall]
      · rw [afterFile, afterFile, hst.programs]
  | _ =>
      simp only [DefaultGuests.step, Option.bind_eq_some_iff, Option.map_eq_some_iff] at h ⊢
      obtain ⟨a, ha, ⟨e₀, system⟩, hs, hadv⟩ := h
      obtain ⟨t', hadv', hst'⟩ := hst.advance hstep hadv
      refine ⟨t', ⟨a, ?_, (e₀, system), by rw [hst.system, hs], hadv'⟩, hst'⟩
      simpa only [action, hst.programs] using ha

/-- **File layers that answer alike give the same runs.** -/
theorem simulate
    (hstep : ∀ w w' input, R w w' →
      (T.step w input).1 = (T'.step w' input).1 ∧ R (T.step w input).2 (T'.step w' input).2)
    {ok : DefaultGuests n World → DefaultMove n → Prop} {world' : World'}
    {t : DefaultGuests n World'} (hst : Matches R s t) {tr : List (DefaultEvent n)}
    (h : (defaultSystem T layout world).Path ok s tr s') :
    ∃ t', (defaultSystem T' layout world').Path (fun _ _ => True) t tr t' ∧ Matches R s' t' := by
  induction h with
  | refl => exact ⟨t, .refl, hst⟩
  | step _ _ hs ih =>
      obtain ⟨t', hpath, hst'⟩ := ih
      obtain ⟨t'', hs', hst''⟩ := hst'.step hstep hs
      exact ⟨t'', .step hpath trivial hs', hst''⟩

end Exchange

end DefaultGuests

end KvmHypervisor
