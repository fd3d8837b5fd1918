import KvmHypervisor.ReferenceRuns

/-!
# Transfers Between Reference Guests

What guests in the reference order get from each other. As long as there are fewer than
`2 ^ 64` payloads and nobody aborts, no command is rejected, every reader receives the
payloads in order, and the writer is told of each round after all readers have acknowledged
it (`transferCorrect_of_run`). If moreover every reader asks for as many rounds as there are
payloads, all guests finish (`matchedRounds_finish`).

The bound is sharp: the generation of payload number `2 ^ 64` is `0`, the value that marks
a writer without a published round, so the status read of that round is rejected even if
the writer is alone (`wrap_rejects`).
-/

open Transitions

namespace KvmHypervisor

variable {n : ℕ} {layout : Fin (n + 1) → RunLayout} {payloads : List (List UInt8)}
variable {rounds : Fin (n + 1) → ℕ} {tr : List (Event n)} {s : Guests n}

/-! ### Correctness of the transfers -/

/-- A thread that has returned from its loop with a failure. -/
def ThreadStatus.failed : ThreadStatus → Bool
  | .returned success => !success
  | _ => false

/-- The discipline of a run in which no thread gets to abort the others. -/
def NoAbort (s : Guests n) (m : Move n) : Prop :=
  ∀ i, m = .finish i → (s.system.vms i).status.failed = false

instance (s : Guests n) (m : Move n) : Decidable (NoAbort s m) :=
  inferInstanceAs (Decidable (∀ _, _))

/-- What has been transferred so far is as it should be. -/
structure TransferCorrect (payloads : List (List UInt8)) (tr : List (Event n)) : Prop where
  accepted : ∀ i, .reject i ∉ tr
  received : ∀ i, i ≠ 0 → completedRounds i (history tr) <+: expectedRounds payloads
  counts : writerCounts (history tr) <+: expectedCounts payloads
  ordered : AcknowledgedFirst (history tr)

/-- The counts the writer has read are the first of the expected ones. -/
theorem WriterAt.counts_prefix {h : History n} {σ : SharedBufferState}
    {v : SharedBufferVmState} {p : Program} (hW : WriterAt payloads h σ v p) :
    writerCounts h <+: expectedCounts payloads := by
  cases hW with
  | mode _ _ _ hcounts =>
      rw [hcounts]
      exact List.nil_prefix
  | announcing _ _ _ hcounts | filling _ _ _ _ _ _ hcounts | published _ _ _ _ _ _ hcounts =>
      rw [hcounts]
      exact List.take_prefix _ _

/-- Before the wrap of the generation no command is rejected. -/
theorem Following.not_rejected (hF : Following layout payloads rounds tr s)
    (hcount : payloads.length < 2 ^ 64) {i : Fin (n + 1)} {command : PortCommand}
    (hnext : (s.programs i).next = some command) (f : Frame) :
    s.system.handle i (command.exit (layout i)) ≠ .done false f := by
  intro hout
  by_cases hi : i = 0
  · subst hi
    have hbounded := hF.bounded
    have hwrap := WriterAt.not_rejected hF.inv.round hF.writer hF.stopped (layout 0) hnext hout
    omega
  · exact ReaderAt.not_rejected hF.inv.round (hF.reader i hi) hi hF.stopped (layout i) hnext hout

/-- The reference invariant along runs without an abort: nothing is rejected either. -/
theorem following_of_run (hpayloads : ∀ payload ∈ payloads, payload.length < 2 ^ 32)
    (hcount : payloads.length < 2 ^ 64)
    (hrun : (referenceSystem layout payloads rounds).Run NoAbort tr s) :
    Following layout payloads rounds tr s ∧ ∀ i, .reject i ∉ tr := by
  refine hrun.invariant (I := fun tr s => Following layout payloads rounds tr s ∧
      ∀ i, .reject i ∉ tr) ⟨Following.initial layout payloads rounds, fun _ => List.not_mem_nil⟩ ?_
  rintro tr t m e u ⟨hF, hreject⟩ hok hs
  have hbounded := hF.bounded
  obtain hF' | ⟨i, rfl, -⟩ | ⟨-, -, hwrap⟩ := hF.step hpayloads hs
  · refine ⟨hF', fun i => ?_⟩
    rw [List.mem_cons, not_or]
    refine ⟨?_, hreject i⟩
    rintro rfl
    cases hF.moves hpayloads hs with
    | reject _ hnext hout => exact hF.not_rejected hcount hnext _ hout
  · obtain ⟨rfl, hstatus⟩ := Guests.finish_of_abort hs
    have := hok i rfl
    simp [hstatus, ThreadStatus.failed] at this
  · omega

/-- **Transfers are correct** over any number of rounds below `2 ^ 64`, for payloads of any
lengths and in any interleaving without an abort. -/
theorem transferCorrect_of_run
    (hpayloads : ∀ payload ∈ payloads, payload.length < 2 ^ 32)
    (hcount : payloads.length < 2 ^ 64)
    (hrun : (referenceSystem layout payloads rounds).Run NoAbort tr s) :
    TransferCorrect payloads tr := by
  obtain ⟨hF, hreject⟩ := following_of_run hpayloads hcount hrun
  exact
    { accepted := hreject
      received := fun i hi => by
        rw [hF.received i hi]
        exact List.take_prefix _ _
      counts := hF.writer.counts_prefix
      ordered := hF.ordered }

/-- A transfer of one byte to one reader, in full. -/
def oneByteTransfer : List (Move 1) :=
  [.issue writerVm, .issue readerVm, .issue writerVm, .issue readerVm, .issue writerVm,
    .wake readerVm, .issue readerVm, .issue writerVm, .issue readerVm, .wake writerVm,
    .halt writerVm, .halt readerVm, .finish readerVm, .finish writerVm]

/-- In that transfer the reader receives the byte. -/
theorem transferCorrect_of_run_oneByteTransfer : ∃ (tr : List (Event 1)) (s : Guests 1),
    (referenceSystem (fun _ => .smallest) [[7]] fun _ => 1).Run NoAbort tr s ∧
      completedRounds 1 (history tr) = [(some (1, 1), [7])] ∧ TransferCorrect [[7]] tr := by
  have hexec : ((referenceSystem (fun _ => .smallest) [[7]] fun _ => 1).exec NoAbort
      (referenceSystem (fun _ => .smallest) [[7]] fun _ => 1).init oneByteTransfer).map
        (fun p => completedRounds 1 (history p.1)) = some [(some (1, 1), [7])] := by
    decide +kernel
  obtain ⟨tr, s, hrun, hrounds⟩ := Machine.exists_of_exec hexec
  exact ⟨tr, s, hrun, hrounds, transferCorrect_of_run (by simp) (by simp) hrun⟩

/-! ### Matched guests finish -/

/-- A VM whose program is done has completed a transfer, if it set out for any. -/
theorem Following.transferred_of_done (hF : Following layout payloads rounds tr s)
    (hpos : 0 < payloads.length) (hrounds : ∀ i, i ≠ 0 → 0 < rounds i) {i : Fin (n + 1)}
    (hdone : (s.programs i).next = none) :
    (s.system.vms i).context.transferCompleted = true := by
  by_cases hi : i = 0
  · subst hi
    refine hF.writerTransferred ?_
    obtain ⟨hpub, -, hcounts⟩ := hF.writer.done hF.bounded hdone
    rw [hcounts]
    refine List.ne_nil_of_length_pos ?_
    simp only [expectedCounts, List.length_map]
    exact hpos
  · refine hF.readerTransferred i hi ?_
    rw [(hF.reader i hi).done hdone]
    exact hrounds i hi

/-- Guests that set out for at least one round never abort. -/
theorem Following.step_of_pos (hF : Following layout payloads rounds tr s)
    (hpayloads : ∀ payload ∈ payloads, payload.length < 2 ^ 32)
    (hpos : 0 < payloads.length) (hcount : payloads.length < 2 ^ 64)
    (hrounds : ∀ i, i ≠ 0 → 0 < rounds i) {m : Move n} {e : Event n} {s' : Guests n}
    (hs : s.step layout m = some (e, s')) : Following layout payloads rounds (e :: tr) s' := by
  have hbounded := hF.bounded
  obtain hF' | ⟨i, rfl, -⟩ | ⟨-, -, hwrap⟩ := hF.step hpayloads hs
  · exact hF'
  · obtain ⟨rfl, hstatus⟩ := Guests.finish_of_abort hs
    have hfailed := hF.status i
    rw [hstatus] at hfailed
    obtain ⟨hdone, hsuccess⟩ := hfailed
    rw [hF.transferred_of_done hpos hrounds hdone] at hsuccess
    cases hsuccess
  · omega

/-- A command that is neither rejected nor parked can be handled now. -/
theorem Following.call_enabled (hF : Following layout payloads rounds tr s)
    {i : Fin (n + 1)} {command : PortCommand} (hnext : (s.programs i).next = some command)
    (hwait : s.system.handle i (command.exit (layout i)) ≠ .wait)
    (hreject : ∀ f, s.system.handle i (command.exit (layout i)) ≠ .done false f) :
    ∃ m c s', s.step layout m = some (.call i c, s') := by
  obtain ⟨f, hf⟩ : ∃ f, s.system.handle i (command.exit (layout i)) = .done true f := by
    cases hout : s.system.handle i (command.exit (layout i)) with
    | wait => exact absurd hout hwait
    | done result f =>
        cases result with
        | true => exact ⟨f, rfl⟩
        | false => exact absurd hout (hreject f)
  obtain ⟨c, -, -, hexecute⟩ := System.execute_accepted hf
  have hstatus := hF.status i
  cases hst : (s.system.vms i).status with
  | running =>
      have ha : s.action layout (.issue i) = some (.issue (layout i) i command) := by
        simp only [Guests.action, hnext, Option.map_some]
      exact ⟨.issue i, c, _, Guests.step_of_call ha
        ((System.step_exit hst _).trans (congrArg some hexecute))⟩
  | waiting run =>
      rw [hst] at hstatus
      obtain ⟨command', hnext', rfl⟩ := hstatus
      obtain rfl : command = command' := Option.some.inj (hnext.symm.trans hnext')
      exact ⟨.wake i, c, _, Guests.step_of_call rfl
        ((System.step_wake hst hf).trans (congrArg some hexecute))⟩
  | returned success | finished success =>
      rw [hst] at hstatus
      rw [hstatus.1] at hnext
      cases hnext

/-- Matched guests that are not all done can handle a command now. -/
theorem Following.enabled (hF : Following layout payloads rounds tr s)
    (hcount : payloads.length < 2 ^ 64) (hrounds : ∀ i, i ≠ 0 → rounds i = payloads.length)
    (hleft : ∃ i, (s.programs i).next ≠ none) :
    ∃ m i c s', s.step layout m = some (.call i c, s') := by
  obtain ⟨i, command, hnext, hwait⟩ := hF.progress hrounds hleft
  obtain ⟨m, c, s', hs⟩ := hF.call_enabled hnext hwait (hF.not_rejected hcount hnext)
  exact ⟨m, i, c, s', hs⟩

/-- A VM whose program is done can halt and finish. -/
theorem Following.finished_of_stuck (hF : Following layout payloads rounds tr s)
    (hstuck : (referenceSystem layout payloads rounds).Stuck (fun _ _ => True) s)
    {i : Fin (n + 1)} (hdone : (s.programs i).next = none) :
    (s.system.vms i).status = .finished (s.system.vms i).context.transferCompleted := by
  have hstatus := hF.status i
  cases hst : (s.system.vms i).status with
  | running =>
      have hhalt := hstuck (.halt i) trivial
      simp [referenceSystem, Guests.step, Guests.action, hdone, System.step, hst] at hhalt
  | waiting run =>
      rw [hst] at hstatus
      obtain ⟨command, hnext, -⟩ := hstatus
      rw [hdone] at hnext
      cases hnext
  | returned success =>
      have hfinish := hstuck (.finish i) trivial
      cases success <;>
        simp [referenceSystem, Guests.step, Guests.action, System.step, hst] at hfinish
  | finished success =>
      rw [hst] at hstatus
      rw [hstatus.2]

/-- How matched guests end: every VM has finished successfully, everything has been
transferred, and the shared buffer is idle at the last generation. -/
structure Completed (payloads : List (List UInt8)) (tr : List (Event n)) (s : Guests n) :
    Prop where
  finished : ∀ i, (s.system.vms i).status = .finished true
  transferred : ∀ i, (s.system.vms i).context.transferCompleted = true
  counts : writerCounts (history tr) = expectedCounts payloads
  received : ∀ i, i ≠ 0 → completedRounds i (history tr) = expectedRounds payloads
  generation : s.system.shared.generation = payloads.length
  idle : s.system.shared.roundInProgress = false
  stopped : s.system.shared.stopped = false

/-- Where nothing can move any more, matched guests have completed. -/
theorem Following.completed_of_stuck (hF : Following layout payloads rounds tr s)
    (hpos : 0 < payloads.length) (hcount : payloads.length < 2 ^ 64)
    (hrounds : ∀ i, i ≠ 0 → rounds i = payloads.length)
    (hstuck : (referenceSystem layout payloads rounds).Stuck (fun _ _ => True) s) :
    Completed payloads tr s := by
  have hdone : ∀ i, (s.programs i).next = none := by
    by_contra hleft
    obtain ⟨m, i, c, s', hs⟩ := hF.enabled hcount hrounds (by simpa using hleft)
    exact absurd (hstuck m trivial) (by
      rw [show (referenceSystem layout payloads rounds).step s m = _ from hs]
      exact nofun)
  have htransferred : ∀ i, (s.system.vms i).context.transferCompleted = true := fun i =>
    hF.transferred_of_done hpos (fun j hj => by rw [hrounds j hj]; exact hpos) (hdone i)
  obtain ⟨hpub, hidle, hcounts⟩ := hF.writer.done hF.bounded (hdone 0)
  exact
    { finished := fun i => by
        rw [hF.finished_of_stuck hstuck (hdone i), htransferred i]
      transferred := htransferred
      counts := hcounts
      received := fun i hi => by
        rw [hF.received i hi, (hF.reader i hi).done (hdone i), hrounds i hi]
        exact List.take_of_length_le (by simp [expectedRounds])
      generation := by
        have hmod := hF.inv.round.buffer.generation
        omega
      idle := hidle
      stopped := hF.stopped }

/-- **Matched rounds always finish.** If every reader asks for as many rounds as there are
payloads, at least one and fewer than `2 ^ 64`, then in every run some command can be handled
until all guests are done, the number of steps is bounded, and a run that cannot be extended
has completed all rounds. -/
theorem matchedRounds_finish (hpayloads : ∀ payload ∈ payloads, payload.length < 2 ^ 32)
    (hpos : 0 < payloads.length) (hcount : payloads.length < 2 ^ 64)
    (hrounds : ∀ i, i ≠ 0 → rounds i = payloads.length)
    (hrun : (referenceSystem layout payloads rounds).Run (fun _ _ => True) tr s) :
    ((∃ i, (s.programs i).next ≠ none) → ∃ m i c s', s.step layout m = some (.call i c, s')) ∧
      tr.length ≤ (referenceSystem layout payloads rounds).init.measure ∧
      ((referenceSystem layout payloads rounds).Stuck (fun _ _ => True) s →
        Completed payloads tr s) := by
  have hpos' : ∀ i, i ≠ 0 → 0 < rounds i := fun i hi => by
    rw [hrounds i hi]
    exact hpos
  have hF : Following layout payloads rounds tr s :=
    hrun.invariant (Following.initial layout payloads rounds)
      fun tr t m e u hF _ hs => hF.step_of_pos hpayloads hpos hcount hpos' hs
  refine ⟨fun hleft => hF.enabled hcount hrounds hleft, ?_, fun hstuck =>
    hF.completed_of_stuck hpos hcount hrounds hstuck⟩
  have hle := Machine.Path.length_add_le (μ := Guests.measure)
    (I := fun s => ∃ tr, Following layout payloads rounds tr s) ?_ hrun
    ⟨[], Following.initial layout payloads rounds⟩
  · omega
  · rintro t m e u ⟨tr, hF⟩ - hs
    exact ⟨⟨_, hF.step_of_pos hpayloads hpos hcount hpos' hs⟩,
      Guests.measure_moves hF.size_le (hF.moves hpayloads hs)⟩

/-- The guests of `oneByteTransfer` are matched. -/
theorem matchedRounds_finish_oneByteTransfer : ∃ (tr : List (Event 1)) (s : Guests 1),
    (referenceSystem (fun _ => .smallest) [[7]] fun _ => 1).Run (fun _ _ => True) tr s ∧
      (∃ i, (s.programs i).next ≠ none) ∧
      ∃ m i c s', s.step (fun _ => .smallest) m = some (.call i c, s') := by
  have hexec : ((referenceSystem (fun _ => .smallest) [[7]] fun _ => 1).exec (fun _ _ => True)
      (referenceSystem (fun _ => .smallest) [[7]] fun _ => 1).init (oneByteTransfer.take 6)).map
        (fun p => decide (∃ i, (p.2.programs i).next ≠ none)) = some true := by
    decide +kernel
  obtain ⟨tr, s, hrun, hleft⟩ := Machine.exists_of_exec hexec
  have hleft := of_decide_eq_true hleft
  exact ⟨tr, s, hrun, hleft,
    (matchedRounds_finish (by simp) (by simp) (by simp) (fun _ _ => rfl) hrun).1 hleft⟩

/-! ### The wrap of the generation -/

/-- A writer without readers, between two rounds. -/
structure Solo (k : ℕ) (rest : List (List UInt8)) (s : Guests 0) : Prop where
  program : s.programs 0 = .announce rest
  running : (s.system.vms 0).status = .running
  delivered : (s.system.vms 0).context.modeDelivered = true
  mode : (s.system.vms 0).context.mode = vmModeWriter
  stopped : s.system.shared.stopped = false
  idle : s.system.shared.roundInProgress = false
  generation : s.system.shared.generation = k
  readerCount : s.system.shared.readerCount = 0

section Wrap

variable (layout : Fin 1 → RunLayout) (payloads : List (List UInt8)) (rounds : Fin 1 → ℕ)
variable {s : Guests 0} {k : ℕ} {rest : List (List UInt8)}

/-- A lone writer announces an empty payload and thereby publishes it. -/
theorem Solo.announce (hS : Solo k ([] :: rest) s) :
    ∃ e s', s.step layout (.issue 0) = some (e, s') ∧
      s'.programs 0 = .send [] rest ∧
      s'.system.shared = (s.system.shared.startRound 0).publish ∧
      s'.system.vms 0 = ⟨{ (s.system.vms 0).context with
        writeGeneration := s.system.shared.nextGeneration }, .running⟩ := by
  have hnext : (s.programs 0).next = some (.outl sharedBufferPort 0) := by
    rw [hS.program]
    rfl
  obtain ⟨c, σ, v, hc, hacc, hs⟩ := Guests.issue_accepted layout hS.running hnext
    (show 0 < 2 ^ 32 by decide)
    (handle_outl_accepted (layout 0) hS.delivered hS.stopped hS.mode 0 hS.idle)
  refine ⟨_, _, hs, ?_⟩
  cases hacc with
  | beginWriterRound _ _ _ _ hpos =>
      simp only [Call.command, PortCommand.outl.injEq, true_and] at hc
      omega
  | beginEmptyRound =>
      simp [hS.program, Program.resume]
  | _ => simp [Call.command, sharedBufferPort, sharedBufferStatusPort] at hc

/-- The round ends with the writer's status read, as long as the generation does not wrap. -/
theorem Solo.round (hS : Solo k ([] :: rest) s) (hk : k + 1 < 2 ^ 64) : ∃ tr s',
    (referenceSystem layout payloads rounds).Path NoAbort s tr s' ∧ Solo (k + 1) rest s' := by
  obtain ⟨e, s₁, hs₁, hprogram, hshared, hvm⟩ := hS.announce layout
  have hgen : s.system.shared.nextGeneration = k + 1 := by
    rw [SharedBufferState.nextGeneration, hS.generation]
    omega
  have hnext : (s₁.programs 0).next = some (.inl sharedBufferStatusPort) := by
    rw [hprogram]
    rfl
  obtain ⟨c, σ, v, hc, hacc, hs₂⟩ := Guests.issue_accepted layout
    (by rw [hvm]) hnext trivial
    (handle_inl_status_accepted (layout 0) (by rw [hvm]; exact hS.delivered)
      (by rw [hshared]; exact hS.stopped) (by rw [hvm]; exact hS.mode)
      (by rw [hvm, hgen]; exact Nat.succ_ne_zero k) (by rw [hshared]; rfl)
      (by rw [hshared, hvm]; rfl) (by rw [hshared]; exact hS.readerCount.symm))
  refine ⟨_, _, (Machine.Path.single (fun i hi => by cases hi) hs₁).step
    (fun i hi => by cases hi) hs₂, ?_⟩
  cases hacc with
  | finishWriterRound =>
      exact
        { program := by simp [hprogram, Program.resume]
          running := by simp
          delivered := by simp [hvm, hS.delivered]
          mode := by simp [hvm, hS.mode]
          stopped := by simp [hshared, hS.stopped]
          idle := by simp
          generation := by simp [hshared, hgen]
          readerCount := by simp [hshared, hS.readerCount] }
  | _ => simp [Call.command, sharedBufferPort, sharedBufferStatusPort] at hc

/-- Round number `2 ^ 64` leaves the writer with a token of `0`: its status read is
rejected. -/
theorem Solo.wrap (hS : Solo k ([] :: rest) s) (hk : k + 1 = 2 ^ 64) : ∃ tr s',
    (referenceSystem layout payloads rounds).Path NoAbort s tr s' ∧ .reject 0 ∈ tr ∧
      (s'.system.vms 0).status = .returned false ∧ (s'.programs 0).next ≠ none := by
  obtain ⟨e, s₁, hs₁, hprogram, hshared, hvm⟩ := hS.announce layout
  have hgen : s.system.shared.nextGeneration = 0 := by
    rw [SharedBufferState.nextGeneration, hS.generation]
    omega
  have hnext : (s₁.programs 0).next = some (.inl sharedBufferStatusPort) := by
    rw [hprogram]
    rfl
  have hd : (s₁.system.vms 0).context.modeDelivered = true := by rw [hvm]; exact hS.delivered
  have hm : (s₁.system.vms 0).context.mode = vmModeWriter := by rw [hvm]; exact hS.mode
  obtain ⟨f, hout⟩ := handle_inl_status_rejected (layout 0) hd hm (by rw [hvm, hgen])
  have hs₂ := Guests.issue_rejected layout (by rw [hvm]) hnext hout
  refine ⟨_, _, (Machine.Path.single (fun i hi => by cases hi) hs₁).step
    (fun i hi => by cases hi) hs₂, List.mem_cons_self, System.setStatus_status_self _ _ _, ?_⟩
  simp [hnext]

/-- A lone writer with empty payloads gets to the wrap. Induction on the rounds left. -/
theorem Solo.reaches_wrap {j : ℕ} (hS : Solo k (List.replicate (j + 1) []) s)
    (hk : k + j + 1 = 2 ^ 64) : ∃ tr s',
    (referenceSystem layout payloads rounds).Path NoAbort s tr s' ∧ .reject 0 ∈ tr ∧
      (s'.system.vms 0).status = .returned false ∧ (s'.programs 0).next ≠ none := by
  induction j generalizing k s with
  | zero => exact hS.wrap layout payloads rounds (by omega)
  | succ j ih =>
      obtain ⟨tr, s₁, hpath, hS₁⟩ := hS.round layout payloads rounds (by omega)
      obtain ⟨tr', s₂, hpath', hreject, hend⟩ := ih hS₁ (by omega)
      exact ⟨tr' ++ tr, s₂, hpath.trans hpath', List.mem_append_left _ hreject, hend⟩

/-- The first command of a lone writer gets it to its first round. -/
theorem solo_of_mode : ∃ tr s,
    (referenceSystem layout payloads rounds).Run NoAbort tr s ∧ Solo 0 payloads s := by
  have hd : ((System.initial 0).vms 0).context.modeDelivered = false := rfl
  obtain ⟨c, σ, v, hc, hacc, hs⟩ := Guests.issue_accepted layout
    (s := (referenceSystem layout payloads rounds).init) (i := 0) rfl rfl trivial
    (handle_mode_accepted (layout 0) hd)
  have hok : NoAbort (referenceSystem layout payloads rounds).init (.issue 0) :=
    fun i hi => by cases hi
  have hs' : (referenceSystem layout payloads rounds).step
      (referenceSystem layout payloads rounds).init (.issue 0) = some _ := hs
  refine ⟨_, _, Machine.Path.single hok hs', ?_⟩
  cases hacc with
  | deliverMode =>
      exact
        { program := by simp [referenceSystem, System.initial, SharedBufferVmState.initial,
            Program.resume, Call.response]
          running := by simp
          delivered := by simp
          mode := by simp [referenceSystem, System.initial, SharedBufferVmState.initial]
          stopped := rfl
          idle := rfl
          generation := rfl
          readerCount := rfl }
  | readSharedByte hd' => cases hd'
  | _ => simp [Call.command] at hc

/-- **The wrap is reached**: a lone writer with `2 ^ 64` empty payloads has its last status
read rejected. -/
theorem wrap_rejects {j : ℕ} (hj : j + 1 = 2 ^ 64) : ∃ tr s,
    (referenceSystem layout (List.replicate (j + 1) []) rounds).Run NoAbort tr s ∧
      .reject 0 ∈ tr ∧ (s.system.vms 0).status = .returned false ∧
      (s.programs 0).next ≠ none := by
  obtain ⟨tr, s, hrun, hS⟩ := solo_of_mode layout (List.replicate (j + 1) []) rounds
  obtain ⟨tr', s', hpath, hreject, hend⟩ :=
    hS.reaches_wrap layout (List.replicate (j + 1) []) rounds (by omega)
  exact ⟨tr' ++ tr, s', hrun.trans hpath, List.mem_append_left _ hreject, hend⟩

end Wrap

/-- Without a bound on the number of payloads, commands can be rejected. -/
theorem transferCorrect_unbounded_false :
    ¬∀ (n : ℕ) (layout : Fin (n + 1) → RunLayout) (payloads : List (List UInt8))
      (rounds : Fin (n + 1) → ℕ) (tr : List (Event n)) (s : Guests n),
      (∀ payload ∈ payloads, payload.length < 2 ^ 32) →
      (referenceSystem layout payloads rounds).Run NoAbort tr s →
      TransferCorrect payloads tr := by
  intro hall
  obtain ⟨j, hj⟩ : ∃ j, j + 1 = 2 ^ 64 := ⟨_, Nat.sub_add_cancel Nat.one_le_two_pow⟩
  obtain ⟨tr, s, hrun, hreject, -⟩ := wrap_rejects (fun _ => .smallest) (fun _ => 0) hj
  refine (hall 0 _ _ _ tr s (fun payload hmem => ?_) hrun).accepted 0 hreject
  rw [List.eq_of_mem_replicate hmem]
  exact Nat.two_pow_pos 32

/-- Without a bound on the number of rounds, matched guests can fail. -/
theorem matchedRounds_unbounded_false :
    ¬∀ (n : ℕ) (layout : Fin (n + 1) → RunLayout) (payloads : List (List UInt8))
      (rounds : Fin (n + 1) → ℕ) (tr : List (Event n)) (s : Guests n),
      (∀ payload ∈ payloads, payload.length < 2 ^ 32) → 0 < payloads.length →
      (∀ i, i ≠ 0 → rounds i = payloads.length) →
      (referenceSystem layout payloads rounds).Run (fun _ _ => True) tr s →
      ((∃ i, (s.programs i).next ≠ none) →
          ∃ m i c s', s.step layout m = some (.call i c, s')) ∧
        tr.length ≤ (referenceSystem layout payloads rounds).init.measure ∧
        ((referenceSystem layout payloads rounds).Stuck (fun _ _ => True) s →
          Completed payloads tr s) := by
  intro hall
  obtain ⟨j, hj⟩ : ∃ j, j + 1 = 2 ^ 64 := ⟨_, Nat.sub_add_cancel Nat.one_le_two_pow⟩
  obtain ⟨tr, s, hrun, -, hstatus, hleft⟩ := wrap_rejects (fun _ => .smallest) (fun _ => 0) hj
  obtain ⟨hprogress, -⟩ := hall 0 _ _ _ tr s (fun payload hmem => by
    rw [List.eq_of_mem_replicate hmem]
    exact Nat.two_pow_pos 32) (by simp) (fun i hi => absurd (Fin.eq_zero i) hi)
    (hrun.mono fun _ _ _ => trivial)
  obtain ⟨m, i, c, s', hs⟩ := hprogress ⟨0, hleft⟩
  obtain ⟨a, -, hsystem⟩ := Guests.system_step hs
  obtain ⟨run, f, hpending, -⟩ := System.step_call hsystem
  obtain rfl := Fin.eq_zero i
  exact System.not_pending_of_returned hstatus hpending

end KvmHypervisor
