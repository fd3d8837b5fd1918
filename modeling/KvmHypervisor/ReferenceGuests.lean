import KvmHypervisor.Acceptance
import KvmHypervisor.Threads
import Mathlib.Algebra.BigOperators.Fin
import Mathlib.Algebra.Order.BigOperators.Group.Finset

/-!
# Guests in the Reference Order

The guests of `interrupts.c` as far as the shared buffer is concerned. A guest first reads
its mode. A writer then runs `write_shared_buffer` for one payload after the other: it
announces the length, sends the bytes, and reads the status. A reader runs
`read_shared_buffer` a number of times: it reads a count, that many bytes, and reports the
count. A guest with nothing left to do halts.

`Program` is what such a guest still has to do, and `referenceSystem` runs one on every VM of
the hypervisor. Its steps are those of `hypervisor`, chosen by the programs: a running VM
issues its next instruction, a parked one wakes up when its predicate holds, and an answer
moves the program on.

## Main results

* `Program.weight_resume`: every answer brings a guest nearer to its end.
* `Guests.moves_of_step`: a step of the reference system is one of the cases of `Moves`.
* `Guests.measure_moves`: every step brings the system nearer to its end.
-/

open Transitions

namespace KvmHypervisor

/-! ### Programs -/

/-- What a guest in the reference order still has to do. -/
inductive Program where
  /-- Read the mode; the payloads are for a writer, the number of rounds for a reader. -/
  | mode (payloads : List (List UInt8)) (rounds : ℕ)
  /-- `write_shared_buffer`, before `outl(SHARED_BUFFER_PORT, count)`. -/
  | announce (payloads : List (List UInt8))
  /-- `write_shared_buffer`, with some bytes of the buffer left to send. -/
  | send (left : List UInt8) (payloads : List (List UInt8))
  /-- `read_shared_buffer`, before `inl(SHARED_BUFFER_PORT)`. -/
  | ask (rounds : ℕ)
  /-- `read_shared_buffer`, with some of the `count` bytes left to read. -/
  | receive (left count rounds : ℕ)
deriving DecidableEq

namespace Program

/-- The instruction a guest executes next; `none` when it has nothing left to do. -/
def next : Program → Option PortCommand
  | mode _ _ => some (.inb sharedBufferPort)
  | announce [] => none
  | announce (payload :: _) => some (.outl sharedBufferPort payload.length)
  | send [] _ => some (.inl sharedBufferStatusPort)
  | send (value :: _) _ => some (.outb sharedBufferPort value)
  | ask 0 => none
  | ask (_ + 1) => some (.inl sharedBufferPort)
  | receive 0 count _ => some (.outl sharedBufferStatusPort count)
  | receive (_ + 1) _ _ => some (.inb sharedBufferPort)

/-- How a guest goes on after its instruction returned `response`. -/
def resume (response : ℕ) : Program → Program
  | mode payloads rounds =>
    if response = vmModeWriter.toNat then announce payloads else ask rounds
  | announce [] => announce []
  | announce (payload :: payloads) => send payload payloads
  | send [] payloads => announce payloads
  | send (_ :: left) payloads => send left payloads
  | ask 0 => ask 0
  | ask (rounds + 1) => receive response response rounds
  | receive 0 _ rounds => ask rounds
  | receive (left + 1) count rounds => receive left count rounds

/-- The instructions the payloads take: for each an announcement, its bytes, and a status
read. -/
def payloadWeight (payloads : List (List UInt8)) : ℕ :=
  (payloads.map fun payload => payload.length + 2).sum

/-- An upper bound of the number of instructions left, for readers that are never told more
than `bufferSize` bytes. -/
def weight : Program → ℕ
  | mode payloads rounds => 1 + payloadWeight payloads + (bufferSize + 2) * rounds
  | announce payloads => payloadWeight payloads
  | send left payloads => left.length + 1 + payloadWeight payloads
  | ask rounds => (bufferSize + 2) * rounds
  | receive left _ rounds => left + 1 + (bufferSize + 2) * rounds

/-- Every answer brings a guest nearer to its end. -/
theorem weight_resume {p : Program} {command : PortCommand} {response : ℕ}
    (hnext : p.next = some command)
    (hcount : command = .inl sharedBufferPort → response ≤ bufferSize) :
    (p.resume response).weight < p.weight := by
  cases p with
  | mode payloads rounds =>
      by_cases hmode : response = vmModeWriter.toNat
      · simp only [resume, if_pos hmode, weight]
        omega
      · simp only [resume, if_neg hmode, weight]
        omega
  | announce payloads =>
      cases payloads with
      | nil => cases hnext
      | cons payload payloads =>
          simp only [resume, weight, payloadWeight, List.map_cons, List.sum_cons]
          omega
  | send left payloads =>
      cases left with
      | nil =>
          simp only [resume, weight]
          omega
      | cons value left =>
          simp only [resume, weight, List.length_cons]
          omega
  | ask rounds =>
      cases rounds with
      | zero => cases hnext
      | succ rounds =>
          have hle := hcount (Option.some.inj hnext).symm
          simp only [resume, weight, Nat.mul_succ]
          omega
  | receive left count rounds =>
      cases left with
      | zero =>
          simp only [resume, weight]
          omega
      | succ left =>
          simp only [resume, weight]
          omega

end Program

/-! ### The reference system -/

variable {n : ℕ}

/-- The hypervisor with a program on every VM. -/
structure Guests (n : ℕ) where
  system : System n
  programs : Fin (n + 1) → Program

/-- What can happen next in the reference system. -/
inductive Move (n : ℕ) where
  | issue (i : Fin (n + 1))
  | wake (i : Fin (n + 1))
  | halt (i : Fin (n + 1))
  | finish (i : Fin (n + 1))
deriving DecidableEq

namespace Guests

/-- The guests after an event: the answer to a call goes to the program that made it. -/
def advance (s : Guests n) : Event n × System n → Event n × Guests n
  | (.call i c, system) =>
    (.call i c, ⟨system, Function.update s.programs i ((s.programs i).resume c.response)⟩)
  | (e, system) => (e, ⟨system, s.programs⟩)

/-- The action of the hypervisor a move stands for. A guest halts when it has nothing left
to do. -/
def action (layout : Fin (n + 1) → RunLayout) (s : Guests n) : Move n → Option (Action n)
  | .issue i => (s.programs i).next.map (.issue (layout i) i)
  | .wake i => some (.wake i)
  | .halt i =>
    match (s.programs i).next with
    | none => some (.halt i)
    | some _ => none
  | .finish i => some (.finish i)

/-- One step of the reference system. -/
def step (layout : Fin (n + 1) → RunLayout) (s : Guests n) (m : Move n) :
    Option (Event n × Guests n) :=
  (s.action layout m).bind fun a => (s.system.step a).map s.advance

end Guests

/-! ### Inversion of a step -/

/-- A thread parks only in the instruction its program stands at. -/
def Guests.Parked (layout : Fin (n + 1) → RunLayout) (s : Guests n) : Prop :=
  ∀ i run, (s.system.vms i).status = .waiting run →
    ∃ command, (s.programs i).next = some command ∧ run = command.exit (layout i)

/-- `Moves layout s e s'`: a step of the reference system from `s` with event `e`. -/
inductive Moves (layout : Fin (n + 1) → RunLayout) (s : Guests n) :
    Event n → Guests n → Prop
  | call {i : Fin (n + 1)} {command : PortCommand} {c : Call} {σ : SharedBufferState}
      {v : SharedBufferVmState} : (s.system.vms i).status.Active →
      (s.programs i).next = some command → c.command = command →
      Accepts s.system.shared (s.system.vms i).context c σ v →
      Moves layout s (.call i c)
        ⟨⟨σ, Function.update s.system.vms i ⟨v, .running⟩⟩,
          Function.update s.programs i ((s.programs i).resume c.response)⟩
  | reject {i : Fin (n + 1)} {command : PortCommand} {f : Frame} :
      (s.system.vms i).status.Active → (s.programs i).next = some command →
      s.system.handle i (command.exit (layout i)) = .done false f →
      Moves layout s (.reject i) ⟨s.system.setStatus i (.returned false), s.programs⟩
  | park {i : Fin (n + 1)} {command : PortCommand} : (s.system.vms i).status = .running →
      (s.programs i).next = some command →
      s.system.handle i (command.exit (layout i)) = .wait →
      Moves layout s (.park i)
        ⟨s.system.setStatus i (.waiting (command.exit (layout i))), s.programs⟩
  | halt {i : Fin (n + 1)} : (s.system.vms i).status = .running → (s.programs i).next = none →
      Moves layout s (.halt i (s.system.vms i).context.transferCompleted)
        ⟨s.system.setStatus i (.returned (s.system.vms i).context.transferCompleted),
          s.programs⟩
  | finish {i : Fin (n + 1)} : (s.system.vms i).status = .returned true →
      Moves layout s (.finish i true) ⟨s.system.setStatus i (.finished true), s.programs⟩
  | abort {i : Fin (n + 1)} : (s.system.vms i).status = .returned false →
      Moves layout s (.finish i false)
        ⟨{ s.system.setStatus i (.finished false) with
            shared := abortSharedBuffer s.system.shared }, s.programs⟩

namespace Guests

variable {layout : Fin (n + 1) → RunLayout} {s s' : Guests n} {m : Move n} {e : Event n}

/-- A step is a step of the hypervisor, after which the programs advance. -/
theorem step_eq_some (h : s.step layout m = some (e, s')) : ∃ a e₀ system,
    s.action layout m = some a ∧ s.system.step a = some (e₀, system) ∧
      s.advance (e₀, system) = (e, s') := by
  obtain ⟨a, ha, h⟩ := Option.bind_eq_some_iff.mp h
  obtain ⟨⟨e₀, system⟩, hs, h⟩ := Option.map_eq_some_iff.mp h
  exact ⟨a, e₀, system, ha, hs, h⟩

/-- The system part of a step. -/
theorem system_step (h : s.step layout m = some (e, s')) :
    ∃ a, s.action layout m = some a ∧ s.system.step a = some (e, s'.system) := by
  obtain ⟨a, e₀, system, ha, hs, hadv⟩ := step_eq_some h
  refine ⟨a, ha, ?_⟩
  cases e₀ <;> simp only [advance, Prod.mk.injEq] at hadv <;> obtain ⟨rfl, rfl⟩ := hadv <;>
    exact hs

/-- A handler call of the hypervisor, with the program it answers. -/
theorem step_of_call {a : Action n} {i : Fin (n + 1)} {c : Call} {system : System n}
    (ha : s.action layout m = some a) (hs : s.system.step a = some (.call i c, system)) :
    s.step layout m = some (.call i c,
      ⟨system, Function.update s.programs i ((s.programs i).resume c.response)⟩) := by
  simp only [step, ha, hs, Option.bind_some, Option.map_some, advance]

/-- A running guest whose next instruction can be handled now gets its answer. -/
theorem issue_accepted (layout : Fin (n + 1) → RunLayout) {i : Fin (n + 1)}
    {command : PortCommand}
    (hrunning : (s.system.vms i).status = .running)
    (hnext : (s.programs i).next = some command) (hfits : command.Fits)
    (hout : ∃ f, s.system.handle i (command.exit (layout i)) = .done true f) :
    ∃ c σ v, c.command = command ∧
      Accepts s.system.shared (s.system.vms i).context c σ v ∧
      s.step layout (.issue i) = some (.call i c,
        ⟨⟨σ, Function.update s.system.vms i ⟨v, .running⟩⟩,
          Function.update s.programs i ((s.programs i).resume c.response)⟩) := by
  obtain ⟨f, hf⟩ := hout
  obtain ⟨c, hlabel, hacc, hexecute⟩ := System.execute_accepted hf
  have ha : s.action layout (.issue i) = some (.issue (layout i) i command) := by
    simp only [action, hnext, Option.map_some]
  exact ⟨c, f.state, f.vm, command_of_handle hfits hf hlabel, hacc,
    step_of_call ha ((System.step_exit hrunning _).trans (congrArg some hexecute))⟩

/-- A running guest whose next instruction is rejected leaves its loop. -/
theorem issue_rejected (layout : Fin (n + 1) → RunLayout) {i : Fin (n + 1)}
    {command : PortCommand} {f : Frame}
    (hrunning : (s.system.vms i).status = .running)
    (hnext : (s.programs i).next = some command)
    (hout : s.system.handle i (command.exit (layout i)) = .done false f) :
    s.step layout (.issue i) =
      some (.reject i, ⟨s.system.setStatus i (.returned false), s.programs⟩) := by
  have hs := (System.step_exit hrunning _).trans (congrArg some (System.execute_rejected hout))
  simp only [step, action, hnext, Option.map_some, Option.bind_some, Action.issue, hs, advance]

/-- Only the end of a failed thread aborts the others. -/
theorem finish_of_abort {i : Fin (n + 1)} (h : s.step layout m = some (.finish i false, s')) :
    m = .finish i ∧ (s.system.vms i).status = .returned false := by
  obtain ⟨a, ha, hs⟩ := system_step h
  obtain ⟨j, run, -, hrun⟩ | ⟨j, -, -, he, -⟩ | ⟨j, -, -, he, -⟩ | ⟨j, -, -, he, -⟩ |
    ⟨j, rfl, hst, he, -⟩ | ⟨-, he, -⟩ := System.step_cases hs
  · obtain ⟨f, c, -, -, -, he, -⟩ | ⟨-, he, -⟩ | ⟨-, he, -⟩ := System.execute_cases hrun <;>
      cases he
  · cases he
  · cases he
  · cases he
  · cases he
    refine ⟨?_, hst⟩
    cases m with
    | issue k =>
        obtain ⟨command, -, hc⟩ := Option.map_eq_some_iff.mp ha
        cases hc
    | wake k => cases ha
    | halt k =>
        simp only [action] at ha
        split at ha <;> cases ha
    | finish k =>
        cases ha
        rfl
  · cases he

/-- A handler call of VM `i`, fresh or at a wake-up, by outcome. -/
theorem moves_of_execute {i : Fin (n + 1)} {command : PortCommand} {e₀ : Event n}
    {system : System n} (hactive : (s.system.vms i).status.Active)
    (hwake : (s.system.vms i).status ≠ .running →
      s.system.handle i (command.exit (layout i)) ≠ .wait)
    (hnext : (s.programs i).next = some command) (hfits : command.Fits)
    (h : s.system.execute i (command.exit (layout i)) = (e₀, system))
    (hadv : s.advance (e₀, system) = (e, s')) : Moves layout s e s' := by
  obtain ⟨f, c, hout, hc, hacc, rfl, rfl⟩ | ⟨⟨f, hout⟩, rfl, rfl⟩ | ⟨hout, rfl, rfl⟩ :=
    System.execute_cases h <;> cases hadv
  · exact .call hactive hnext (command_of_handle hfits hout hc) hacc
  · exact .reject hactive hnext hout
  · by_cases hrunning : (s.system.vms i).status = .running
    · exact .park hrunning hnext hout
    · exact absurd hout (hwake hrunning)

/-- **A step of the reference system is one of the cases of `Moves`.** -/
theorem moves_of_step (hparked : s.Parked layout)
    (hfits : ∀ i command, (s.programs i).next = some command → command.Fits)
    (h : s.step layout m = some (e, s')) : Moves layout s e s' := by
  obtain ⟨a, e₀, system, ha, hs, hadv⟩ := step_eq_some h
  cases m with
  | issue i =>
      obtain ⟨command, hnext, rfl⟩ := Option.map_eq_some_iff.mp ha
      cases hstatus : (s.system.vms i).status with
      | running =>
          simp only [Action.issue, System.step, hstatus] at hs
          exact moves_of_execute (.inl hstatus) (fun hne => absurd hstatus hne) hnext
            (hfits i command hnext) (Option.some.inj hs) hadv
      | _ => simp [Action.issue, System.step, hstatus] at hs
  | wake i =>
      cases ha
      cases hstatus : (s.system.vms i).status with
      | waiting run =>
          obtain ⟨command, hnext, rfl⟩ := hparked i run hstatus
          simp only [System.step, hstatus] at hs
          split at hs
          · cases hs
          · rename_i hout
            exact moves_of_execute (.inr ⟨_, hstatus⟩) (fun _ hwait => by simp [hout] at hwait)
              hnext (hfits i command hnext) (Option.some.inj hs) hadv
      | _ => simp [System.step, hstatus] at hs
  | halt i =>
      cases hnext : (s.programs i).next with
      | some command => simp [action, hnext] at ha
      | none =>
          simp only [action, hnext, Option.some.injEq] at ha
          subst ha
          cases hstatus : (s.system.vms i).status <;>
            simp only [System.step, hstatus, reduceCtorEq] at hs
          cases hs
          cases hadv
          exact .halt hstatus hnext
  | finish i =>
      cases ha
      cases hstatus : (s.system.vms i).status with
      | returned success =>
          cases success <;> simp only [System.step, hstatus] at hs <;> cases hs <;> cases hadv
          · exact .abort hstatus
          · exact .finish hstatus
      | _ => simp [System.step, hstatus] at hs

end Guests

/-! ### How far a system is from its end -/

/-- The stages left in the life of a thread. -/
def ThreadStatus.rank : ThreadStatus → ℕ
  | .running => 3
  | .waiting _ => 2
  | .returned _ => 1
  | .finished _ => 0

namespace Guests

/-- What VM `i` has left to do: each instruction may first park its thread. -/
def load (s : Guests n) (i : Fin (n + 1)) : ℕ :=
  4 * (s.programs i).weight + (s.system.vms i).status.rank

/-- What all VMs have left to do. -/
def measure (s : Guests n) : ℕ :=
  ∑ i, s.load i

/-- A step of one VM that brings it nearer to its end brings the system nearer to its. -/
theorem measure_lt {s s' : Guests n} {i : Fin (n + 1)}
    (hsame : ∀ j, j ≠ i → s'.load j = s.load j) (hlt : s'.load i < s.load i) :
    s'.measure < s.measure := by
  refine Finset.sum_lt_sum (fun j _ => ?_) ⟨i, Finset.mem_univ i, hlt⟩
  by_cases hj : j = i
  · subst hj
    exact Nat.le_of_lt hlt
  · exact Nat.le_of_eq (hsame j hj)

theorem load_setStatus_of_ne {s : Guests n} {i j : Fin (n + 1)} (st : ThreadStatus)
    (σ : SharedBufferState) (hj : j ≠ i) :
    load ⟨{ s.system.setStatus i st with shared := σ }, s.programs⟩ j = s.load j := by
  simp only [load, System.setStatus_of_ne _ _ hj]

/-- A move of a thread alone. -/
theorem measure_setStatus {s : Guests n} {i : Fin (n + 1)} {st : ThreadStatus}
    (σ : SharedBufferState) (hlt : st.rank < (s.system.vms i).status.rank) :
    measure ⟨{ s.system.setStatus i st with shared := σ }, s.programs⟩ < s.measure := by
  refine measure_lt (fun j hj => load_setStatus_of_ne st σ hj) ?_
  simp only [load, System.setStatus_status_self]
  omega

/-- **Every step brings the guests nearer to their ends**, as long as the buffer claims no
more than it holds. -/
theorem measure_moves {layout : Fin (n + 1) → RunLayout} {s s' : Guests n} {e : Event n}
    (hsize : s.system.shared.size ≤ bufferSize) (h : Moves layout s e s') :
    s'.measure < s.measure := by
  cases h with
  | @call i command c σ v hactive hnext hc hacc =>
      have hcount : command = .inl sharedBufferPort → c.response ≤ bufferSize := by
        rintro rfl
        cases hacc with
        | beginReaderRound => exact (Nat.mod_le _ _).trans hsize
        | _ => simp [Call.command, sharedBufferPort, sharedBufferStatusPort] at hc
      have hweight := Program.weight_resume hnext hcount
      have hrank : 2 ≤ (s.system.vms i).status.rank := by
        rcases hactive with hrunning | ⟨run, hwaiting⟩
        · simp [hrunning, ThreadStatus.rank]
        · simp [hwaiting, ThreadStatus.rank]
      refine measure_lt (fun j (hj : j ≠ i) => ?_) ?_
      · simp only [load, Function.update_of_ne hj]
      · simp only [load, Function.update_self, ThreadStatus.rank]
        omega
  | reject hactive =>
      refine measure_setStatus _ ?_
      rcases hactive with hrunning | ⟨run, hwaiting⟩
      · simp [hrunning, ThreadStatus.rank]
      · simp [hwaiting, ThreadStatus.rank]
  | park hrunning | halt hrunning =>
      refine measure_setStatus _ ?_
      simp [hrunning, ThreadStatus.rank]
  | finish hreturned | abort hreturned =>
      refine measure_setStatus _ ?_
      simp [hreturned, ThreadStatus.rank]

end Guests

/-! ### The machine -/

/-- The hypervisor running guests in the reference order: VM 0 gets the payloads, every VM
is ready for its number of rounds. -/
def referenceSystem (layout : Fin (n + 1) → RunLayout) (payloads : List (List UInt8))
    (rounds : Fin (n + 1) → ℕ) : Machine (Guests n) (Move n) (Event n) where
  init := ⟨System.initial n, fun i => .mode payloads (rounds i)⟩
  step := Guests.step layout

end KvmHypervisor
