import KvmHypervisor.GuestCode
import KvmHypervisor.Simulations
import KvmHypervisor.WholeProgram

/-!
# The Program and Its Guests

The whole program, with the guest of `guest/src` on every VM. A guest is a processor that runs
`main` or, interrupted, `irq0_handler`. It has the interrupt flag, which `sti` sets, the gate of
the handler clears, and the return from the handler restores, and an interrupt that
`KVM_INTERRUPT` has left for its next entry.

A guest runs while its thread is in `KVM_RUN`. It moves by itself until it comes to an
instruction that exits; the exit is the one `KVM_RUN` of the program ends with, and what the
handlers leave in the run mapping is what the guest goes on with. KVM also returns when the
interrupt window opens, if it has been asked to: when the guest could take an interrupt.

A call of `file.c` is two instructions, the OUT of the address of a request in guest memory and
the IN of its result. Where the compiler places the request and the buffers is up to the step;
between the two instructions the guest stores nothing.

## Main results

* `BootedProgram.step_cases`: everything a step can do.
* `wholeProgram_of_booted`: every run with the guests is a run of the whole program.
-/

open Interactions Transitions

namespace KvmHypervisor

open PosixFiles

/-! ### A guest -/

/-- Where `main` stands: before `sti`, in its loop around `pause`, or behind the loop. -/
inductive GuestMain where
  | booting (code : GuestCode Unit)
  | waiting
  | finishing (code : GuestCode GuestEnd)

/-- What of an instruction is on its way: nothing; an exit on a port; for a file call, with its
buffer, the OUT of the request, nothing between the two instructions, or the IN of the result. -/
inductive InFlight where
  | none
  | port
  | request (buffer : ℕ)
  | submitted (buffer : ℕ)
  | result (buffer : ℕ)
deriving DecidableEq

/-- A guest. -/
structure Guest where
  globals : GuestGlobals
  main : GuestMain
  handler : Option (GuestCode GuestGlobals)
  interruptFlag : Bool
  injected : Bool
  inFlight : InFlight

/-- The answer a guest finds after an exit, in the run mapping and in its memory. -/
def answerOf (layout : RunLayout) (run : KvmRun) (memory : GuestMemory) (buffer : ℕ) :
    (query : GuestQuery) → query.Reply
  | .port (.inb _) => (run.bytes layout.dataOffset).toNat
  | .port (.inl _) => readUint32 run.bytes layout.dataOffset
  | .port _ => (0 : ℕ)
  | .file _ =>
    let result := readInt32 run.bytes layout.dataOffset
    (⟨result, memory.slice buffer result.toNat⟩ : FileReply)

namespace Guest

/-- A guest at its first instruction. -/
def initial : Guest where
  globals := .initial
  main := .booting GuestCode.testFileIo
  handler := none
  interruptFlag := false
  injected := false
  inFlight := .none

/-- What a guest asks next. -/
def query? (g : Guest) : Option GuestQuery :=
  match g.handler, g.main with
  | some code, _ => code.query?
  | none, .booting code => code.query?
  | none, .waiting => none
  | none, .finishing code => code.query?

/-- A guest goes on with an answer. -/
def resume (g : Guest) (answer : (query : GuestQuery) → query.Reply) : Guest :=
  match g.handler, g.main with
  | some code, _ => { g with handler := some (code.resume answer), inFlight := .none }
  | none, .booting code => { g with main := .booting (code.resume answer), inFlight := .none }
  | none, .waiting => { g with inFlight := .none }
  | none, .finishing code =>
    { g with main := .finishing (code.resume answer), inFlight := .none }

/-- The end `main` has come to. -/
def ending (g : Guest) : Option GuestEnd :=
  match g.handler, g.main with
  | none, .finishing (.pure ending) => some ending
  | _, _ => none

/-- What a guest does without an exit: the return from the handler, the delivery of an
interrupt, `sti`, and the end of the loop around `pause`. -/
def proceed (g : Guest) : Option Guest :=
  match g.handler with
  | some (.pure globals) => some { g with globals, handler := none, interruptFlag := true }
  | some (.ask _ _) => none
  | none =>
    if g.injected then
      if g.interruptFlag then
        some { g with
          handler := some (GuestCode.irq0Handler g.globals)
          interruptFlag := false
          injected := false }
      else none
    else
      match g.main with
      | .booting (.pure _) => some { g with main := .waiting, interruptFlag := true }
      | .waiting =>
        if g.globals.transferFinished then
          some { g with main := .finishing (GuestCode.finishMain g.globals.transferSucceeded) }
        else none
      | _ => none

/-- A guest moves by itself: an instruction is completed, or `proceed`. -/
def move (layout : RunLayout) (t : GuestThread) (g : Guest) : Option Guest :=
  match g.inFlight with
  | .none => g.proceed
  | .port => some (g.resume (answerOf layout t.run t.memory 0))
  | .request buffer => some { g with inFlight := .submitted buffer }
  | .submitted _ => none
  | .result buffer => some (g.resume (answerOf layout t.run t.memory buffer))

end Guest

/-- A call of `file.c` with its request at `request` and its path or buffer at `buffer`. -/
def FileCall.At (call : FileCall) (memory : GuestMemory) (request buffer : ℕ) : Prop :=
  request < 2 ^ 32 ∧ getGuestMemory memory request fileRequestSize = some request ∧
    FileRequest.decode memory.bytes request = call.request buffer ∧ call.InMemory memory buffer

instance (call : FileCall) (memory : GuestMemory) (request buffer : ℕ) :
    Decidable (call.At memory request buffer) :=
  inferInstanceAs (Decidable (_ ∧ _))

/-- How `KVM_RUN` returns at an exit of a guest: the reason and the run mapping, the guest memory,
and the guest. -/
structure GuestExit where
  exitReason : ℕ
  run : KvmRun
  memory : ℕ → UInt8
  guest : Guest

/-- The exit a guest comes to, after storing `memory`, with the places of a file call. The
handlers look at the run mapping after an I/O exit only. -/
def Guest.exit (layout : RunLayout) (t : GuestThread) (g : Guest) (memory : ℕ → UInt8)
    (request buffer : ℕ) : Option GuestExit :=
  if g.injected then none
  else
    match g.inFlight with
    | .none =>
      match g.query? with
      | some (.port command) =>
        some ⟨kvmExitIo, command.exit layout, memory, { g with inFlight := .port }⟩
      | some (.file call) =>
        if call.At { t.memory with bytes := memory } request buffer then
          some ⟨kvmExitIo, (PortCommand.outl fileIoPort request).exit layout, memory,
            { g with inFlight := .request buffer }⟩
        else none
      | none =>
        match g.ending with
        | some .hlt => some ⟨kvmExitHlt, t.run, memory, g⟩
        -- no gate handles the exception, and the processor shuts down
        | some .ud2 => some ⟨kvmExitShutdown, t.run, memory, g⟩
        | none => none
    | .submitted buffer =>
      some ⟨kvmExitIo, (PortCommand.inl fileIoPort).exit layout, t.memory.bytes,
        { g with inFlight := .result buffer }⟩
    | _ => none

/-- A guest can take an interrupt. -/
def Guest.interruptible (g : Guest) : Bool :=
  g.interruptFlag && !g.injected && g.inFlight == .none

/-! ### The machine -/

variable {n : ℕ}

/-- The program with its guests. -/
structure BootedProgram (n : ℕ) where
  program : WholeProgram n
  guests : Fin (n + 1) → Guest

/-- What can happen next: the program moves, but not by a return of `KVM_RUN`; a guest moves by
itself; it exits; its interrupt window opens; `KVM_RUN` fails or is interrupted. -/
inductive BootedAction (n : ℕ) where
  | program (a : ProgramAction n)
  | guest (i : Fin (n + 1))
  | exit (i : Fin (n + 1)) (memory : ℕ → UInt8) (request buffer : ℕ)
  | window (i : Fin (n + 1)) (memory : ℕ → UInt8)
  | failed (i : Fin (n + 1)) (errorNumber : ℕ)

/-- What a step did. A guest that moves by itself may take an interrupt. -/
inductive BootedEvent (n : ℕ) where
  | program (x : ProgramEvent n)
  | interrupted (i : Fin (n + 1))
  | moved (i : Fin (n + 1))

/-- The event of a guest that moves from `g` to `g'`. -/
def BootedEvent.ofMove (i : Fin (n + 1)) (g g' : Guest) : BootedEvent n :=
  if g.handler.isNone && g'.handler.isSome then .interrupted i else .moved i

/-- `main` has returned, and its threads are no more. -/
def MainStage.hasReturned : MainStage → Bool
  | .returned _ => true
  | _ => false

namespace BootedProgram

/-- The thread of VM `i` is in `KVM_RUN`. -/
def inKvmRun (s : BootedProgram n) (i : Fin (n + 1)) : Bool :=
  !s.program.main.hasReturned && s.program.inLoop i &&
    (s.program.threads i).loop.result.isNone && (s.program.threads i).loop.tasks.isEmpty

/-- What a step of the program does to the guests: an injection leaves an interrupt. -/
def deliver (guests : Fin (n + 1) → Guest) : ProgramAction n → Fin (n + 1) → Guest
  | .injected i true => Function.update guests i { guests i with injected := true }
  | _ => guests

variable (sys : HostSystem) (sharedFiles : List (String × HostPath)) (config : Config)

/-- The program makes a step, and the guests go on as `guests`. -/
def advance (s : BootedProgram n) (a : ProgramAction n) (guests : Fin (n + 1) → Guest) :
    Option (BootedEvent n × BootedProgram n) :=
  (s.program.step sys sharedFiles config a).map fun p => (.program p.1, ⟨p.2, guests⟩)

/-- One step. -/
def step (layout : Fin (n + 1) → RunLayout) (s : BootedProgram n) :
    BootedAction n → Option (BootedEvent n × BootedProgram n)
  | .program (.kvmRun _ _ _) => none
  | .program a => s.advance sys sharedFiles config a (deliver s.guests a)
  | .guest i =>
    if s.inKvmRun i then
      ((s.guests i).move (layout i) (s.program.threads i)).map fun g =>
        (.ofMove i (s.guests i) g, { s with guests := Function.update s.guests i g })
    else none
  | .exit i memory request buffer =>
    if s.inKvmRun i then
      ((s.guests i).exit (layout i) (s.program.threads i) memory request buffer).bind fun e =>
        s.advance sys sharedFiles config (.kvmRun i (.exited e.exitReason e.run) e.memory)
          (Function.update s.guests i e.guest)
    else none
  | .window i memory =>
    let t := s.program.threads i
    if s.inKvmRun i ∧ t.loop.requestInterruptWindow ∧ (s.guests i).interruptible then
      s.advance sys sharedFiles config
        (.kvmRun i (.exited kvmExitIrqWindowOpen t.run) memory) s.guests
    else none
  | .failed i errorNumber =>
    if s.inKvmRun i then
      s.advance sys sharedFiles config
        (.kvmRun i (.failed errorNumber) (s.program.threads i).memory.bytes) s.guests
    else none

end BootedProgram

/-- The program with `n + 1` VMs and the guest of `guest/src` on each. -/
def bootedProgram (sys : HostSystem) (sharedFiles : List (String × HostPath)) (n : ℕ)
    (config : Config) (layout : Fin (n + 1) → RunLayout) (host : Host HostPath)
    (stdin : List UInt8) :
    Machine (BootedProgram n) (BootedAction n) (BootedEvent n) where
  init := ⟨.initial n config host stdin, fun _ => .initial⟩
  step := BootedProgram.step sys sharedFiles config layout

/-! ### Inversion of a step -/

/-- How `KVM_RUN` returns for a guest: the result, the guest memory, and the guest. -/
inductive Guest.Returns (layout : RunLayout) (t : GuestThread) (g : Guest) :
    KvmRunResult → (ℕ → UInt8) → Guest → Prop
  | port {command : PortCommand} (memory : ℕ → UInt8) : g.injected = false →
      g.inFlight = .none → g.query? = some (.port command) →
      Returns layout t g (.exited kvmExitIo (command.exit layout)) memory
        { g with inFlight := .port }
  | request {call : FileCall} {memory : ℕ → UInt8} {request buffer : ℕ} : g.injected = false →
      g.inFlight = .none → g.query? = some (.file call) →
      call.At { t.memory with bytes := memory } request buffer →
      Returns layout t g (.exited kvmExitIo ((PortCommand.outl fileIoPort request).exit layout))
        memory { g with inFlight := .request buffer }
  | result {buffer : ℕ} : g.injected = false → g.inFlight = .submitted buffer →
      Returns layout t g (.exited kvmExitIo ((PortCommand.inl fileIoPort).exit layout))
        t.memory.bytes { g with inFlight := .result buffer }
  | halt (memory : ℕ → UInt8) : g.injected = false → g.inFlight = .none →
      g.ending = some .hlt → Returns layout t g (.exited kvmExitHlt t.run) memory g
  | shutdown (memory : ℕ → UInt8) : g.injected = false → g.inFlight = .none →
      g.ending = some .ud2 → Returns layout t g (.exited kvmExitShutdown t.run) memory g
  | window (memory : ℕ → UInt8) : t.loop.requestInterruptWindow = true →
      g.interruptible = true → Returns layout t g (.exited kvmExitIrqWindowOpen t.run) memory g
  | failed (errorNumber : ℕ) : Returns layout t g (.failed errorNumber) t.memory.bytes g

/-- An exit of a guest is one of those. -/
theorem Guest.returns_of_exit {layout : RunLayout} {t : GuestThread} {g : Guest}
    {memory : ℕ → UInt8} {request buffer : ℕ} {e : GuestExit}
    (h : g.exit layout t memory request buffer = some e) :
    Returns layout t g (.exited e.exitReason e.run) e.memory e.guest := by
  unfold Guest.exit at h
  split_ifs at h with hinjected
  rw [Bool.not_eq_true] at hinjected
  cases hflight : g.inFlight with
  | none =>
      simp only [hflight] at h
      cases hquery : g.query? with
      | none =>
          simp only [hquery] at h
          rcases hending : g.ending with _ | _ | _ <;> simp only [hending, reduceCtorEq] at h
          · cases h
            exact .halt memory hinjected hflight hending
          · cases h
            exact .shutdown memory hinjected hflight hending
      | some query =>
          cases query with
          | port command =>
              simp only [hquery] at h
              cases h
              exact .port memory hinjected hflight hquery
          | file call =>
              simp only [hquery] at h
              split_ifs at h with hat
              cases h
              exact .request hinjected hflight hquery hat
  | submitted buffer =>
      simp only [hflight] at h
      cases h
      exact .result hinjected hflight
  | _ => simp only [hflight, reduceCtorEq] at h

namespace BootedProgram

variable {sys : HostSystem} {sharedFiles : List (String × HostPath)} {config : Config}
variable {layout : Fin (n + 1) → RunLayout} {s s' : BootedProgram n} {a : BootedAction n}
variable {x : BootedEvent n} {i : Fin (n + 1)}

/-- **What a step can do**: the program moves, but not by a return of `KVM_RUN`; a guest moves;
`KVM_RUN` returns. -/
inductive Advance (sys : HostSystem) (sharedFiles : List (String × HostPath)) (config : Config)
    (layout : Fin (n + 1) → RunLayout) (s : BootedProgram n) :
    BootedEvent n → BootedProgram n → Prop
  | program {a : ProgramAction n} {x : ProgramEvent n} {w : WholeProgram n} :
      (∀ i result memory, a ≠ .kvmRun i result memory) →
      s.program.step sys sharedFiles config a = some (x, w) →
      Advance sys sharedFiles config layout s (.program x) ⟨w, deliver s.guests a⟩
  | guest {i : Fin (n + 1)} {g : Guest} : s.inKvmRun i = true →
      (s.guests i).move (layout i) (s.program.threads i) = some g →
      Advance sys sharedFiles config layout s (.ofMove i (s.guests i) g)
        { s with guests := Function.update s.guests i g }
  | kvmRun {i : Fin (n + 1)} {result : KvmRunResult} {memory : ℕ → UInt8} {g : Guest}
      {x : ProgramEvent n} {w : WholeProgram n} : s.inKvmRun i = true →
      (s.guests i).Returns (layout i) (s.program.threads i) result memory g →
      s.program.step sys sharedFiles config (.kvmRun i result memory) = some (x, w) →
      Advance sys sharedFiles config layout s (.program x) ⟨w, Function.update s.guests i g⟩

theorem advance_eq_some {a : ProgramAction n} {guests : Fin (n + 1) → Guest}
    (h : s.advance sys sharedFiles config a guests = some (x, s')) :
    ∃ y w, s.program.step sys sharedFiles config a = some (y, w) ∧ x = .program y ∧
      s' = ⟨w, guests⟩ := by
  obtain ⟨⟨y, w⟩, hs, heq⟩ := Option.map_eq_some_iff.mp h
  cases heq
  exact ⟨y, w, hs, rfl, rfl⟩

/-- **A step is one of those.** -/
theorem step_cases (h : s.step sys sharedFiles config layout a = some (x, s')) :
    Advance sys sharedFiles config layout s x s' := by
  cases a with
  | program a =>
      have hnot : ∀ i result memory, a ≠ .kvmRun i result memory := by
        rintro i result memory rfl
        cases h
      replace h : s.advance sys sharedFiles config a (deliver s.guests a) = some (x, s') := by
        cases a with
        | kvmRun i result memory => exact absurd rfl (hnot i result memory)
        | _ => exact h
      obtain ⟨y, w, hs, rfl, rfl⟩ := advance_eq_some h
      exact .program hnot hs
  | guest i =>
      simp only [step, Option.ite_none_right_eq_some, Option.map_eq_some_iff] at h
      obtain ⟨hin, g, hmove, heq⟩ := h
      cases heq
      exact .guest hin hmove
  | exit i memory request buffer =>
      simp only [step, Option.ite_none_right_eq_some, Option.bind_eq_some_iff] at h
      obtain ⟨hin, e, hexit, hadvance⟩ := h
      obtain ⟨y, w, hs, rfl, rfl⟩ := advance_eq_some hadvance
      exact .kvmRun hin (Guest.returns_of_exit hexit) hs
  | window i memory =>
      simp only [step, Option.ite_none_right_eq_some] at h
      obtain ⟨⟨hin, hrequest, hopen⟩, hadvance⟩ := h
      obtain ⟨y, w, hs, rfl, rfl⟩ := advance_eq_some hadvance
      have hsame : Function.update s.guests i (s.guests i) = s.guests := Function.update_eq_self ..
      exact hsame ▸ Advance.kvmRun hin (.window memory hrequest hopen) hs
  | failed i errorNumber =>
      simp only [step, Option.ite_none_right_eq_some] at h
      obtain ⟨hin, hadvance⟩ := h
      obtain ⟨y, w, hs, rfl, rfl⟩ := advance_eq_some hadvance
      have hsame : Function.update s.guests i (s.guests i) = s.guests := Function.update_eq_self ..
      exact hsame ▸ Advance.kvmRun hin (.failed errorNumber) hs

/-- What `KVM_RUN` needs. -/
theorem inKvmRun_iff : s.inKvmRun i = true ↔ s.program.main.hasReturned = false ∧
    s.program.inLoop i = true ∧ (s.program.threads i).loop.result = none ∧
      (s.program.threads i).loop.tasks = [] := by
  simp only [inKvmRun, Bool.and_eq_true, Bool.not_eq_true', Option.isNone_iff_eq_none,
    List.isEmpty_iff, and_assoc]

end BootedProgram

/-! ### The program without its guests -/

/-- What a step did in the program. -/
def BootedEvent.programEvent : BootedEvent n → Option (ProgramEvent n)
  | .program x => some x
  | _ => none

@[simp] theorem BootedEvent.programEvent_ofMove (i : Fin (n + 1)) (g g' : Guest) :
    (BootedEvent.ofMove i g g').programEvent = none := by
  unfold ofMove
  split_ifs <;> rfl

section Simulation

variable (sys : HostSystem) (sharedFiles : List (String × HostPath)) (n : ℕ) (config : Config)
variable (layout : Fin (n + 1) → RunLayout) (host : Host HostPath) (stdin : List UInt8)
variable (ok : BootedProgram n → BootedAction n → Prop)

/-- With its guests the program does nothing it could not do without them. -/
theorem wholeProgram_simulation :
    (bootedProgram sys sharedFiles n config layout host stdin).Simulation
      (wholeProgram sys sharedFiles n config host stdin) ok (fun _ _ => True)
      BootedProgram.program BootedEvent.programEvent fun _ => true where
  init := rfl
  step _ _ _ _ _ _ _ h := by
    cases BootedProgram.step_cases h with
    | program hnot hs => exact .inr ⟨_, _, hs, rfl⟩
    | guest hin hmove => exact .inl ⟨BootedEvent.programEvent_ofMove .., rfl⟩
    | kvmRun hin hreturns hs => exact .inr ⟨_, _, hs, rfl⟩

/-- **Every run with the guests is a run of the program**, so what holds in every run of the
program holds here. -/
theorem wholeProgram_of_booted {tr : List (BootedEvent n)} {s : BootedProgram n}
    (hrun : (bootedProgram sys sharedFiles n config layout host stdin).Run ok tr s) :
    (wholeProgram sys sharedFiles n config host stdin).Run (fun _ _ => True)
      (tr.filterMap BootedEvent.programEvent) s.program :=
  (wholeProgram_simulation sys sharedFiles n config layout host stdin ok).run_of_visible
    (fun _ _ _ => trivial) hrun

end Simulation

end KvmHypervisor
