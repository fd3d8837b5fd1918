import KvmHypervisor.DefaultGuests
import KvmHypervisor.ReferenceRuns

/-!
# Transfers of the Default Guests

At the ports the default guests are reference guests with one payload and one round each:
`DefaultProgram.shown` maps a program to one of `ReferenceGuests`, and file calls change
nothing there. So the invariant of the reference system carries over, and a reader stores the
first bytes of what the writer has read.

The payload is known only once the writer has read it. Until then the guests may be seen as
reference guests with any payload, so the invariant is stated for every payload and a writer
that is past its read `Holds` one of them.

## Main results

* `Transfers.step`: every step without a failure keeps the invariant.
* `transfers_of_run`: before the writer has read, it holds for every payload.
-/

open Transitions

namespace KvmHypervisor

variable {n : ℕ}

/-! ### Programs as reference programs -/

namespace DefaultProgram

/-- The reference program that a default guest shows at its ports, if it transfers `data`. -/
def shown (data : List UInt8) : DefaultProgram → Program
  | testOpen | testWrite _ | testSeek _ | testRead _ | testClose _ | mode => .mode [data] 1
  | openSource | readSource _ | closeSource _ _ _ | announce _ _ => .announce [data]
  | send _ buffer sent => .send (buffer.drop sent) []
  | ask | refuse => .ask 1
  | receive count buffer => .receive (count - buffer.length) count 0
  | openTarget _ | seekTarget _ _ | writeTarget _ _ | closeTarget _ _ _ | done false _ => .ask 0
  | done true _ => .announce []

/-- A writer that has read has `data` in its buffer. -/
def Holds (data : List UInt8) : DefaultProgram → Prop
  | closeSource _ _ buffer | announce _ buffer | send _ buffer _ => buffer = data
  | _ => True

/-- Before the end of the read in `write_shared_buffer`. -/
def early : DefaultProgram → Bool
  | testOpen | testWrite _ | testSeek _ | testRead _ | testClose _ | mode | openSource
  | readSource _ => true
  | _ => false

variable {data buffer : List UInt8} {p : DefaultProgram} {command : PortCommand}

/-- The next instruction is the one that shows. -/
theorem next_shown (hholds : p.Holds data) (hfailed : p.failed = false)
    (hnext : p.next = some command) : (p.shown data).next = some command := by
  cases p with
  | mode | ask => exact hnext
  | announce read buffer =>
      obtain rfl : buffer = data := hholds
      exact hnext
  | send read buffer sent =>
      rw [next] at hnext
      rw [shown]
      cases hget : buffer[sent]? with
      | none =>
          rw [hget] at hnext
          rw [List.drop_eq_nil_of_le (List.getElem?_eq_none_iff.mp hget)]
          exact hnext
      | some value =>
          rw [hget] at hnext
          obtain ⟨hlt, hvalue⟩ := List.getElem?_eq_some_iff.mp hget
          rw [List.drop_eq_getElem_cons hlt, hvalue]
          exact hnext
  | receive count buffer =>
      rw [next] at hnext
      rw [shown]
      split_ifs at hnext with hlt
      · obtain ⟨left, hleft⟩ := Nat.exists_eq_add_of_lt hlt
        rw [show count - buffer.length = left + 1 by omega]
        exact hnext
      · rw [Nat.sub_eq_zero_of_le (not_lt.mp hlt)]
        exact hnext
  | refuse => cases hfailed
  | _ => cases hnext

/-- An answer moves on the program that shows. -/
theorem shown_resume {response : ℕ} (hholds : p.Holds data) (hfailed : p.failed = false)
    (hnext : p.next = some command) (hcount : p = ask → response ≤ bufferSize) :
    (p.resume response).shown data = (p.shown data).resume response := by
  cases p with
  | mode =>
      rw [resume, shown, Program.resume]
      split_ifs <;> rfl
  | announce read buffer =>
      obtain rfl : buffer = data := hholds
      rfl
  | send read buffer sent =>
      rw [resume, shown]
      cases hget : buffer[sent]? with
      | none =>
          rw [List.drop_eq_nil_of_le (List.getElem?_eq_none_iff.mp hget)]
          rfl
      | some value =>
          obtain ⟨hlt, -⟩ := List.getElem?_eq_some_iff.mp hget
          rw [List.drop_eq_getElem_cons hlt]
          rfl
  | ask =>
      rw [resume, if_neg (not_lt.mpr (hcount rfl))]
      rfl
  | receive count buffer =>
      rw [resume, shown]
      split_ifs with hlt
      · obtain ⟨left, hleft⟩ := Nat.exists_eq_add_of_lt hlt
        rw [show count - buffer.length = left + 1 by omega, shown, Program.resume,
          List.length_append, List.length_singleton,
          show count - (buffer.length + 1) = left by omega]
      · rw [Nat.sub_eq_zero_of_le (not_lt.mp hlt)]
        rfl
  | refuse => cases hfailed
  | _ => cases hnext

/-- File calls do not show. -/
theorem shown_returned {call : FileCall} (hcall : p.fileCall = some call) (address : ℕ)
    (answer : Answer) : (p.returned address answer).shown data = p.shown data := by
  cases p with
  | testOpen | testWrite | testSeek | openSource | openTarget | seekTarget =>
      rw [returned]
      split_ifs <;> rfl
  | testRead | testClose | readSource | closeSource | writeTarget | closeTarget => rfl
  | _ => cases hcall

/-- At its ports a guest gets what it is to store with the end of its loop only. -/
theorem received_resume {response : ℕ} (h : (p.resume response).received = some buffer) :
    p.received = some buffer ∨ ∃ count, p = receive count buffer ∧ count ≤ buffer.length := by
  cases p with
  | receive count buffer' =>
      rw [resume] at h
      split_ifs at h with hlt
      · cases h
      · obtain rfl := Option.some.inj h
        exact .inr ⟨count, rfl, not_lt.mp hlt⟩
  | mode | ask =>
      rw [resume] at h
      split_ifs at h <;> cases h
  | send read buffer' sent =>
      rw [resume] at h
      split at h <;> cases h
  | _ => exact .inl h

/-- File calls leave it as it is. -/
theorem received_returned {call : FileCall} (hcall : p.fileCall = some call) {address : ℕ}
    {answer : Answer} (h : (p.returned address answer).received = some buffer) :
    p.received = some buffer := by
  cases p with
  | testOpen | testWrite | testSeek | openSource | openTarget | seekTarget =>
      rw [returned] at h
      split_ifs at h <;> first | exact h | cases h
  | testRead | testClose | readSource | closeSource | writeTarget | closeTarget => cases h
  | _ => cases hcall

/-- File calls do not take a guest into the loop. -/
theorem returned_ne_receive {call : FileCall} (hcall : p.fileCall = some call) {address : ℕ}
    {answer : Answer} {count : ℕ} : p.returned address answer ≠ .receive count buffer := by
  intro h
  cases p with
  | testOpen | testWrite | testSeek | openSource | openTarget | seekTarget =>
      rw [returned] at h
      split_ifs at h
  | testRead | testClose | readSource | closeSource | writeTarget | closeTarget => cases h
  | _ => cases hcall

/-- No answer takes a guest back before the read. -/
theorem early_of_resume {response : ℕ} (h : (p.resume response).early = true) :
    p.early = true := by
  cases p with
  | mode => rfl
  | ask | receive =>
      rw [resume] at h
      split_ifs at h <;> cases h
  | send read buffer' sent =>
      rw [resume] at h
      split at h <;> cases h
  | announce | refuse => cases h
  | _ => exact h

/-- No file call takes a guest back before the read. -/
theorem early_of_returned {address : ℕ} {answer : Answer}
    (h : (p.returned address answer).early = true) : p.early = true := by
  cases p with
  | openTarget | seekTarget =>
      rw [returned] at h
      split_ifs at h <;> cases h
  | closeSource | writeTarget | closeTarget => cases h
  | testOpen | testWrite | testSeek | testRead | testClose | openSource | readSource => rfl
  | _ => exact h

/-- Before the read a guest holds nothing. -/
theorem holds_of_early (data : List UInt8) (h : p.early = true) : p.Holds data := by
  cases p with
  | closeSource | announce | send => cases h
  | _ => trivial

end DefaultProgram

/-! ### The invariant -/

variable {World : Type} {T : Transducer World (FileInput (n + 1)) (Option Answer)}
variable {layout : Fin (n + 1) → RunLayout} {data : List UInt8}
variable {s s' : DefaultGuests n World} {m : DefaultMove n} {e : DefaultEvent n}

/-- The reference guests that show. -/
def DefaultGuests.shown (data : List UInt8) (s : DefaultGuests n World) : Guests n :=
  ⟨s.system, fun i => (s.programs i).shown data⟩

/-- A reader in its loop has in its buffer what it has obtained in the open round. -/
def Buffered (tr : List (Event n)) (programs : Fin (n + 1) → DefaultProgram) : Prop :=
  ∀ i count buffer, programs i = .receive count buffer → obtainedBytes i (history tr) = buffer

/-- **The invariant of the transfers** of `data`: the guests that show are in their phases,
and the buffers hold what they should. -/
structure Transfers (layout : Fin (n + 1) → RunLayout) (data : List UInt8)
    (s : DefaultGuests n World) : Prop where
  following : ∃ tr, Following layout [data] (fun _ => 1) tr (s.shown data) ∧
    Buffered tr s.programs
  holds : (s.programs 0).Holds data
  received : ∀ i buffer, (s.programs i).received = some buffer → buffer = data.take bufferSize
  parked : ∀ i run, (s.system.vms i).status = .waiting run → (s.programs i).next ≠ none

/-- At the start nothing has been transferred. -/
theorem Transfers.initial (layout : Fin (n + 1) → RunLayout) (data : List UInt8) (world : World) :
    Transfers layout data (defaultSystem T layout world).init where
  following := ⟨[], Following.initial layout [data] fun _ => 1, nofun⟩
  holds := trivial
  received := nofun
  parked := nofun

/-- A reader sends nothing. -/
theorem Transfers.holds_all (hT : Transfers layout data s) (i : Fin (n + 1)) :
    (s.programs i).Holds data := by
  by_cases hi : i = 0
  · subst hi
    exact hT.holds
  · obtain ⟨tr, hF, -⟩ := hT.following
    have hreader := hF.reader i hi
    simp only [DefaultGuests.shown] at hreader
    generalize s.programs i = p at hreader ⊢
    cases p with
    | closeSource | announce | send => cases hreader
    | _ => trivial

/-- A VM that handles an exit is at an instruction. -/
theorem Transfers.next_of_pending (hT : Transfers layout data s) {a : Action n}
    {i : Fin (n + 1)} {run : KvmRun} (ha : s.action layout m = some a)
    (hpending : s.system.pending a = some (i, run)) :
    ∃ command, (s.programs i).next = some command := by
  have hvm := System.vm_of_pending hpending
  cases m with
  | issue j =>
      obtain ⟨command, hnext, rfl⟩ := Option.map_eq_some_iff.mp ha
      obtain rfl := Option.some.inj hvm
      exact ⟨command, hnext⟩
  | wake j =>
      cases ha
      obtain rfl := Option.some.inj hvm
      simp only [System.pending] at hpending
      split at hpending
      · rename_i run' hstatus
        exact Option.ne_none_iff_exists'.mp (hT.parked _ run' hstatus)
      · cases hpending
  | halt j =>
      simp only [DefaultGuests.action] at ha
      split at ha <;> cases ha
      cases hpending
  | crash j | finish j =>
      cases ha
      cases hpending
  | file => cases ha

/-- A step of the hypervisor that does not fail is one of the guests that show. -/
theorem Transfers.shown_step (hT : Transfers layout data s) (hok : s.NoFailure) {a : Action n}
    {e₀ : Event n} {system : System n} (ha : s.action layout m = some a)
    (hs : s.system.step a = some (e₀, system))
    (hstatus : ∀ i, (system.vms i).status.unsuccessful = false) :
    ∃ m', (s.shown data).step layout m' = some ((s.shown data).advance (e₀, system)) := by
  have hstep : ∀ m', (s.shown data).action layout m' = some a →
      (s.shown data).step layout m' = some ((s.shown data).advance (e₀, system)) := by
    intro m' ha'
    have hs' : (s.shown data).system.step a = some (e₀, system) := hs
    rw [Guests.step, ha', Option.bind_some, hs', Option.map_some]
  cases m with
  | issue i =>
      obtain ⟨command, hnext, rfl⟩ := Option.map_eq_some_iff.mp ha
      refine ⟨.issue i, hstep _ ?_⟩
      have hnext' : ((s.shown data).programs i).next = some command :=
        DefaultProgram.next_shown (hT.holds_all i) (hok i).2 hnext
      rw [Guests.action, hnext', Option.map_some]
  | wake i =>
      cases ha
      exact ⟨.wake i, hstep _ rfl⟩
  | halt i =>
      simp only [DefaultGuests.action] at ha
      split at ha
      · rename_i writer hdone
        cases ha
        refine ⟨.halt i, hstep _ ?_⟩
        have hnext : ((s.shown data).programs i).next = none := by
          show ((s.programs i).shown data).next = none
          rw [hdone]
          cases writer <;> rfl
        rw [Guests.action, hnext]
      · cases ha
  | crash i =>
      cases ha
      simp only [System.step] at hs
      split at hs
      · cases hs
        have hfailed := hstatus i
        rw [System.setStatus_status_self] at hfailed
        cases hfailed
      · cases hs
  | finish i =>
      cases ha
      exact ⟨.finish i, hstep _ rfl⟩
  | file => cases ha

/-- A waiting thread is at an instruction, also after a step of the hypervisor. -/
theorem Transfers.parked_step (hT : Transfers layout data s) {a : Action n} {e₀ : Event n}
    {system : System n} (ha : s.action layout m = some a)
    (hs : s.system.step a = some (e₀, system)) (hadv : s.advance T (e₀, system) = (e, s'))
    {i : Fin (n + 1)} {run : KvmRun} (hwaiting : (system.vms i).status = .waiting run) :
    (s'.programs i).next ≠ none := by
  by_cases hvm : a.vm = some i
  · obtain ⟨j, run', hpending, hrun⟩ | ⟨j, rfl, -, rfl, rfl⟩ | ⟨j, rfl, -, rfl, rfl⟩ |
      ⟨j, rfl, -, rfl, rfl⟩ | ⟨j, rfl, -, rfl, rfl⟩ | ⟨rfl, -, -⟩ := System.step_cases hs
    · obtain rfl : j = i := Option.some.inj ((System.vm_of_pending hpending).symm.trans hvm)
      obtain ⟨f, c, -, -, -, -, rfl⟩ | ⟨-, -, rfl⟩ | ⟨-, rfl, rfl⟩ := System.execute_cases hrun
      · simp at hwaiting
      · simp at hwaiting
      · cases hadv
        obtain ⟨command, hnext⟩ := hT.next_of_pending ha hpending
        rw [hnext]
        exact Option.some_ne_none command
    · cases hvm
      simp at hwaiting
    · cases hvm
      simp at hwaiting
    · cases hvm
      simp at hwaiting
    · cases hvm
      simp at hwaiting
    · cases hvm
  · rw [System.vms_of_ne hs hvm] at hwaiting
    obtain heq | ⟨c, rfl, -⟩ := DefaultGuests.programs_advance hadv i
    · rw [heq]
      exact hT.parked i run hwaiting
    · exact absurd (System.vm_of_call hs) hvm

/-- A VM in the loop over the bytes is a reader that has received its mode. -/
theorem receiving {tr : List (Event n)}
    (hF : Following layout [data] (fun _ => 1) tr (s.shown data)) {i : Fin (n + 1)} {count : ℕ}
    {buffer : List UInt8} (hp : s.programs i = .receive count buffer) :
    i ≠ 0 ∧ (s.system.vms i).context.modeDelivered = true := by
  have hi : i ≠ 0 := by
    rintro rfl
    have hwriter := hF.writer
    simp only [DefaultGuests.shown, hp] at hwriter
    cases hwriter
  have hreader := hF.reader i hi
  simp only [DefaultGuests.shown, hp] at hreader
  refine ⟨hi, ?_⟩
  cases hreader
  assumption

/-- An answer shows as an answer of the reference guests, and the buffers stay right. -/
theorem Transfers.answered (hT : Transfers layout data s) (hok : s.NoFailure)
    {tr : List (Event n)} (hF : Following layout [data] (fun _ => 1) tr (s.shown data))
    (hbuffered : Buffered tr s.programs) {i : Fin (n + 1)} {command : PortCommand} {c : Call}
    {σ : SharedBufferState} {v : SharedBufferVmState}
    (hnext : (s.programs i).next = some command) (hc : c.command = command)
    (hacc : Accepts s.system.shared (s.system.vms i).context c σ v) :
    ((s.programs i).resume c.response).shown data =
        ((s.programs i).shown data).resume c.response ∧
      ∀ count buffer, (s.programs i).resume c.response = .receive count buffer →
        obtainedBytes i (history (.call i c :: tr)) = buffer := by
  constructor
  · refine DefaultProgram.shown_resume (hT.holds_all i) (hok i).2 hnext fun hask => ?_
    rw [hask] at hnext
    cases hnext
    cases hacc with
    | beginReaderRound => exact (Nat.mod_le _ _).trans hF.size_le
    | _ => simp [Call.command, sharedBufferPort, sharedBufferStatusPort] at hc
  · intro count buffer hreceive
    generalize hp : s.programs i = p at hnext hreceive
    cases p with
    | ask =>
        cases hnext
        rw [DefaultProgram.resume] at hreceive
        split_ifs at hreceive
        cases hreceive
        cases hacc with
        | beginReaderRound => simp [obtainedBytes]
        | _ => simp [Call.command, sharedBufferPort, sharedBufferStatusPort] at hc
    | receive count' buffer' =>
        obtain ⟨hi, hdelivered⟩ := receiving hF hp
        rw [DefaultProgram.resume] at hreceive
        split_ifs at hreceive with hlt
        cases hreceive
        rw [DefaultProgram.next, if_pos hlt] at hnext
        cases hnext
        cases hacc with
        | readSharedByte =>
            simp only [history_call, obtainedBytes, if_true, hbuffered i _ _ hp, Call.response,
              UInt8.ofNat_toNat]
        | deliverMode hd =>
            rw [hdelivered] at hd
            cases hd
        | _ => simp [Call.command] at hc
    | mode =>
        rw [DefaultProgram.resume] at hreceive
        split_ifs at hreceive
    | send read buffer' sent =>
        rw [DefaultProgram.resume] at hreceive
        split at hreceive <;> cases hreceive
    | _ => cases hreceive

/-- What a reader has when its loop is over is the first part of the payload. -/
theorem Transfers.received_answered {tr : List (Event n)}
    (hbuffered : Buffered tr s.programs) {i : Fin (n + 1)} {command : PortCommand} {c : Call}
    {σ : SharedBufferState} {v : SharedBufferVmState} (hi : i ≠ 0) {s'' : Guests n}
    (hF' : Following layout [data] (fun _ => 1) (.call i c :: tr) s'')
    (hnext : (s.programs i).next = some command) (hc : c.command = command)
    (hacc : Accepts s.system.shared (s.system.vms i).context c σ v) {count : ℕ}
    {buffer : List UInt8} (hp : s.programs i = .receive count buffer)
    (hcount : count ≤ buffer.length) : buffer = data.take bufferSize := by
  rw [hp, DefaultProgram.next, if_neg (not_lt.mpr hcount)] at hnext
  cases hnext
  have hrounds := hF'.received i hi
  cases hacc with
  | finishReaderRound =>
      rw [history_call, completedRounds, if_pos rfl, hbuffered i count buffer hp] at hrounds
      have hmem : (openRound i (history tr), buffer) ∈ expectedRounds [data] := by
        refine List.mem_of_mem_take (i := (s''.system.vms i).context.lastReadGeneration) ?_
        rw [← hrounds]
        exact List.mem_append_right _ List.mem_cons_self
      simp only [expectedRounds, List.zipIdx_cons, List.zipIdx_nil, List.map_cons, List.map_nil,
        List.mem_singleton, Prod.mk.injEq] at hmem
      exact hmem.2
  | _ => simp [Call.command, sharedBufferPort, sharedBufferStatusPort] at hc

/-- An answer keeps the invariant. -/
theorem Transfers.call (hT : Transfers layout data s) (hok : s.NoFailure)
    {tr : List (Event n)} (hF : Following layout [data] (fun _ => 1) tr (s.shown data))
    (hbuffered : Buffered tr s.programs) {i : Fin (n + 1)} {command : PortCommand} {c : Call}
    {σ : SharedBufferState} {v : SharedBufferVmState}
    (hF' : Following layout [data] (fun _ => 1) (.call i c :: tr)
      ⟨⟨σ, Function.update s.system.vms i ⟨v, .running⟩⟩,
        Function.update (s.shown data).programs i (((s.shown data).programs i).resume c.response)⟩)
    (hnext : (s.programs i).next = some command) (hc : c.command = command)
    (hacc : Accepts s.system.shared (s.system.vms i).context c σ v)
    (hsystem : s'.system = ⟨σ, Function.update s.system.vms i ⟨v, .running⟩⟩)
    (hprograms : s'.programs =
      Function.update s.programs i ((s.programs i).resume c.response))
    (hholds : (s'.programs 0).Holds data) : Transfers layout data s' := by
  obtain ⟨hshown, hreceive⟩ := hT.answered hok hF hbuffered hnext hc hacc
  constructor
  case following =>
    refine ⟨.call i c :: tr, ?_, fun j count buffer hj => ?_⟩
    · convert hF' using 1
      rw [DefaultGuests.shown, hsystem, hprograms]
      congr 1
      funext j
      by_cases hji : j = i
      · subst hji
        simp only [Function.update_self, hshown, DefaultGuests.shown]
      · simp only [Function.update_of_ne hji, DefaultGuests.shown]
    · by_cases hji : j = i
      · subst hji
        rw [hprograms, Function.update_self] at hj
        exact hreceive count buffer hj
      · rw [hprograms, Function.update_of_ne hji] at hj
        rw [history_call, obtainedBytes_of_ne (Ne.symm hji)]
        exact hbuffered j count buffer hj
  case holds => exact hholds
  case received =>
    intro j buffer hj
    by_cases hji : j = i
    · subst hji
      rw [hprograms, Function.update_self] at hj
      obtain hold | ⟨count, hp, hcount⟩ := DefaultProgram.received_resume hj
      · exact hT.received j buffer hold
      · exact received_answered hbuffered (receiving hF hp).1 hF' hnext hc hacc hp hcount
    · rw [hprograms, Function.update_of_ne hji] at hj
      exact hT.received j buffer hj
  case parked =>
    intro j run hwaiting
    by_cases hji : j = i
    · subst hji
      simp [hsystem] at hwaiting
    · rw [hprograms, Function.update_of_ne hji]
      simp only [hsystem, Function.update_of_ne hji] at hwaiting
      exact hT.parked j run hwaiting

/-- A step of the hypervisor keeps the invariant. -/
theorem Transfers.port (hT : Transfers layout data s) (hok : s.NoFailure)
    (hok' : s'.NoFailure) (hlength : data.length < 2 ^ 32) {a : Action n} {e₀ : Event n}
    {system : System n} (ha : s.action layout m = some a)
    (hs : s.system.step a = some (e₀, system)) (hadv : s.advance T (e₀, system) = (e, s'))
    (hholds : (s'.programs 0).Holds data) : Transfers layout data s' := by
  have hsystem : s'.system = system := DefaultGuests.system_advance hadv
  have hstatus : ∀ i, (system.vms i).status.unsuccessful = false := by
    intro i
    rw [← hsystem]
    exact (hok' i).1
  have hpayloads : ∀ payload ∈ [data], payload.length < 2 ^ 32 := by simpa using hlength
  obtain ⟨tr, hF, hbuffered⟩ := hT.following
  obtain ⟨m', hs'⟩ := hT.shown_step hok ha hs hstatus
  obtain ⟨s'', hadv', hsystem''⟩ : ∃ s'', (s.shown data).advance (e₀, system) = (e₀, s'') ∧
      s''.system = system := by
    cases e₀ <;> exact ⟨_, rfl, rfl⟩
  rw [hadv'] at hs'
  have hF' : Following layout [data] (fun _ => 1) (e₀ :: tr) s'' := by
    obtain hF' | ⟨i, rfl, -⟩ | ⟨-, hreturned, -⟩ := hF.step hpayloads hs'
    · exact hF'
    · obtain ⟨-, hreturned⟩ := Guests.finish_of_abort hs'
      have hfailed := (hok i).1
      rw [show (s.system.vms i).status = .returned false from hreturned] at hfailed
      cases hfailed
    · have hfailed := hstatus 0
      rw [← hsystem'', hreturned] at hfailed
      cases hfailed
  by_cases hq : e₀.Quiet
  · -- no program moves, neither here nor among the guests that show
    have hprograms : s'.programs = s.programs := by
      cases e₀ with
      | call i c => exact absurd rfl (hq i c)
      | _ =>
          cases hadv
          rfl
    have hprograms'' : s''.programs = (s.shown data).programs := by
      cases e₀ with
      | call i c => exact absurd rfl (hq i c)
      | _ =>
          cases hadv'
          rfl
    constructor
    case following =>
      refine ⟨e₀ :: tr, ?_, ?_⟩
      · convert hF' using 1
        rw [DefaultGuests.shown, hsystem, ← hsystem'', hprograms]
        exact congrArg _ hprograms''.symm
      · rw [hprograms]
        intro i count buffer hi
        rw [history_quiet hq]
        exact hbuffered i count buffer hi
    case holds => exact hholds
    case received =>
      rw [hprograms]
      exact hT.received
    case parked =>
      intro i run hwaiting
      rw [hsystem] at hwaiting
      exact hT.parked_step ha hs hadv hwaiting
  · obtain ⟨i, c, rfl⟩ : ∃ i c, e₀ = .call i c := by
      simpa only [Event.Quiet, not_forall, not_not] using hq
    obtain ⟨run, f, hpending, -⟩ := System.step_call hs
    obtain ⟨command, hnext⟩ := hT.next_of_pending ha hpending
    have hnext' := DefaultProgram.next_shown (hT.holds_all i) (hok i).2 hnext
    cases hF.moves hpayloads hs' with
    | call _ hnext'' hc hacc =>
        obtain rfl := Option.some.inj (hnext'.symm.trans hnext'')
        cases hadv
        exact hT.call hok hF hbuffered hF' hnext hc hacc hsystem''.symm rfl hholds

/-- A file call keeps the invariant: it does not show. -/
theorem Transfers.file (hT : Transfers layout data s) {i : Fin (n + 1)} {memory : GuestMemory}
    {address : ℕ} {call : FileCall} {answer : Answer} {world : World}
    (hserved : s.Served T i memory address call answer world)
    (hholds : ((s.afterFile i address answer world).programs 0).Holds data) :
    Transfers layout data (s.afterFile i address answer world) := by
  obtain ⟨tr, hF, hbuffered⟩ := hT.following
  have hcall := hserved.fileCall
  constructor
  case following =>
    refine ⟨tr, ?_, fun j count buffer hj => ?_⟩
    · convert hF using 1
      rw [DefaultGuests.shown, DefaultGuests.shown]
      congr 1
      funext j
      by_cases hji : j = i
      · subst hji
        rw [DefaultGuests.programs_afterFile_self, DefaultProgram.shown_returned hcall]
      · rw [DefaultGuests.programs_afterFile_of_ne hji]
    · by_cases hji : j = i
      · subst hji
        rw [DefaultGuests.programs_afterFile_self] at hj
        exact absurd hj (DefaultProgram.returned_ne_receive hcall)
      · rw [DefaultGuests.programs_afterFile_of_ne hji] at hj
        exact hbuffered j count buffer hj
  case holds => exact hholds
  case received =>
    intro j buffer hj
    by_cases hji : j = i
    · subst hji
      rw [DefaultGuests.programs_afterFile_self] at hj
      exact hT.received j buffer (DefaultProgram.received_returned hcall hj)
    · rw [DefaultGuests.programs_afterFile_of_ne hji] at hj
      exact hT.received j buffer hj
  case parked =>
    intro j run hwaiting
    have hji : j ≠ i := by
      rintro rfl
      rw [DefaultGuests.system_afterFile, hserved.running] at hwaiting
      cases hwaiting
    rw [DefaultGuests.programs_afterFile_of_ne hji]
    exact hT.parked j run hwaiting

/-- **One step** without a failure keeps the invariant, as long as a writer that is past its
read holds the payload. -/
theorem Transfers.step (hT : Transfers layout data s) (hok' : s'.NoFailure)
    (hlength : data.length < 2 ^ 32) (hs : s.step T layout m = some (e, s'))
    (hholds : (s'.programs 0).Holds data) : Transfers layout data s' := by
  obtain ⟨a, e₀, system, ha, hsystem, hadv⟩ |
    ⟨i, memory, address, call, answer, world, -, hserved, -, rfl⟩ :=
      DefaultGuests.step_cases hs
  · exact hT.port (hok'.of_step hs) hok' hlength ha hsystem hadv hholds
  · exact hT.file hserved hholds

/-! ### Before the read -/

/-- No step takes a guest back before its read. -/
theorem early_of_step (hs : s.step T layout m = some (e, s')) {i : Fin (n + 1)}
    (h : (s'.programs i).early = true) : (s.programs i).early = true := by
  obtain ⟨a, e₀, system, -, -, hadv⟩ |
    ⟨j, memory, address, call, answer, world, -, -, -, rfl⟩ := DefaultGuests.step_cases hs
  · obtain heq | ⟨c, -, heq⟩ := DefaultGuests.programs_advance hadv i
    · rwa [← heq]
    · rw [heq] at h
      exact DefaultProgram.early_of_resume h
  · by_cases hij : i = j
    · subst hij
      rw [DefaultGuests.programs_afterFile_self] at h
      exact DefaultProgram.early_of_returned h
    · rwa [DefaultGuests.programs_afterFile_of_ne hij] at h

/-- **Before the writer's read** the invariant holds for every payload. -/
theorem transfers_of_run {ok : DefaultGuests n World → DefaultMove n → Prop} {world : World}
    {tr : List (DefaultEvent n)} (hrun : (defaultSystem T layout world).Run ok tr s)
    (hok : s.NoFailure) (hearly : (s.programs 0).early = true)
    (hlength : data.length < 2 ^ 32) : Transfers layout data s := by
  refine hrun.invariant (I := fun _ s => s.NoFailure → (s.programs 0).early = true →
    Transfers layout data s) (fun _ _ => .initial layout data world) ?_ hok hearly
  intro tr t m e u hI _ hs hok hearly
  exact (hI (hok.of_step hs) (early_of_step hs hearly)).step hok hlength hs
    (DefaultProgram.holds_of_early data hearly)

end KvmHypervisor
