import KvmHypervisor.RoundInvariant

/-!
# Acknowledgments

When is the writer released, and what does an acknowledgment prove? `finishReaderRound`
compares the reader's `activeReadGeneration` with the current generation and its offset
with the current size, but does not ask whether the reader has begun a round at all. A
reader that never has is "active" in generation `0`, which is also the generation the
shared record shows until the first publication. Such a reader can acknowledge generation
`0`: before any round with a size of zero, and while the first round is being filled with
whatever size that round will have.

`AcksGenerationZero` singles out that step.

## Main results

* `RoundInvariant.step`: any other step preserves the round invariant of the system.
* `finishWriterRound_genuine`: if generation `0` is never acknowledged while a round is in
  progress, the writer is released only by genuine acknowledgments;
  `finishWriterRound_not_genuine` is a run in which it is released by nobody.
* `halt_reader_genuine`: if, moreover, a reader itself never acknowledges generation `0`, it
  halts successfully only after taking part in a transfer; `halt_reader_not_genuine` is a
  reader that halts successfully before anything was published.
-/

open Transitions

namespace KvmHypervisor

variable {n : ℕ}

/-! ### The step the checks let through -/

/-- The step by which a reader acknowledges generation `0`: the checks of
`finishReaderRound` pass although the reader has not begun a round. -/
def AcksGenerationZero (s : System n) (a : Action n) : Prop :=
  ∃ x, s.pending a = some x ∧
    ∃ y, selectHandler (s.vms x.1).context x.2 = some y ∧ y.1 = .finishReaderRound ∧
      (s.vms x.1).context.activeReadGeneration = 0 ∧ s.shared.generation = 0 ∧
      (s.vms x.1).context.readCompleted = false ∧
      (s.vms x.1).context.readOffset = s.shared.size ∧
      readUint32 x.2.bytes y.2 = s.shared.size ∧
      s.shared.stopped = false ∧ s.shared.completedReaders < s.shared.readerCount

instance (s : System n) (a : Action n) : Decidable (AcksGenerationZero s a) := by
  unfold AcksGenerationZero
  infer_instance

/-- An accepted acknowledgment, seen from its action. -/
theorem System.step_finishReaderRound {s s' : System n} {a : Action n} {i : Fin (n + 1)}
    {g r : ℕ} (h : s.step a = some (.call i (.finishReaderRound g r), s'))
    (hzero : (s.vms i).context.activeReadGeneration = 0) : AcksGenerationZero s a := by
  obtain ⟨run, f, hexec, -, hlabel, hacc, -⟩ := System.step_call h
  obtain ⟨data, hsel, hr⟩ := exitLabel_eq_some hlabel
  simp only [Call.handler, Handler.label, Call.finishReaderRound.injEq] at hsel hr
  generalize hσ : f.state = σ', hv : f.vm = v' at hacc
  cases hacc with
  | finishReaderRound _ _ hstop hcompleted hactive hoffset hcount =>
      exact ⟨(i, run), hexec, (_, data), hsel, rfl, hzero, by omega, hcompleted, hoffset, hr.2,
        hstop, hcount⟩

/-! ### The round invariant of a system -/

/-- The round invariant does not see `stopped`. -/
theorem RoundInv.abort {h : History n} {σ : SharedBufferState}
    {ctx : Fin (n + 1) → SharedBufferVmState} (hI : RoundInv h σ ctx) :
    RoundInv h (abortSharedBuffer σ) ctx where
  buffer :=
    { readerCount := hI.buffer.readerCount
      generation := hI.buffer.generation
      size := hI.buffer.size
      received := hI.buffer.received
      received_le := hI.buffer.received_le
      data := hI.buffer.data
      ready := hI.buffer.ready
      filling := hI.buffer.filling
      idle := hI.buffer.idle
      bounded := hI.buffer.bounded }
  writer := ⟨hI.writer.mode, hI.writer.writeGeneration⟩
  reader := fun i hi => (hI.reader i hi).congr rfl rfl
  acks := ⟨hI.acks.nodup, hI.acks.mem, hI.acks.counted⟩

/-- The round invariant of a system and the trace that led to it. -/
structure RoundInvariant (tr : List (Event n)) (s : System n) : Prop where
  round : RoundInv (history tr) s.shared (fun i => (s.vms i).context)
  reading : ∀ i, i ≠ 0 → ReadingInv i (history tr) s.shared (s.vms i).context

theorem roundInvariant_initial (n : ℕ) : RoundInvariant [] (System.initial n) :=
  ⟨RoundInv.initial n, fun i _ => ReadingInv.initial i _ _⟩

/-- **One step preserves the round invariant**, unless it is an acknowledgment of a reader
that has never begun a round while a round is in progress. -/
theorem RoundInvariant.step {tr : List (Event n)} {s s' : System n} {a : Action n}
    {e : Event n} (hI : RoundInvariant tr s) (hs : s.step a = some (e, s'))
    (hok : ∀ i g r, e = .call i (.finishReaderRound g r) →
      (s.vms i).context.activeReadGeneration = 0 → s.shared.roundInProgress = false) :
    RoundInvariant (e :: tr) s' := by
  obtain ⟨hq, hctx, hshared⟩ | ⟨i, c, v, rfl, hacc, hctx⟩ := System.step_records hs
  · constructor
    · rw [history_quiet hq, funext hctx]
      rcases hshared with h | h <;> rw [h]
      · exact hI.round
      · exact hI.round.abort
    · intro i hi
      rw [history_quiet hq, hctx]
      rcases hshared with h | h <;> rw [h]
      · exact hI.reading i hi
      · exact ⟨(hI.reading i hi).opened, (hI.reading i hi).obtained⟩
  · constructor
    · rw [history_call, hctx]
      exact hI.round.accepts hacc fun g r hc => hok i g r (by rw [hc])
    · intro j hj
      rw [history_call, show (s'.vms j).context = _ from congrFun hctx j]
      exact (hI.reading j hj).accepts hI.round hj hacc

/-- The same from the action's side. -/
theorem RoundInvariant.step_of_action {tr : List (Event n)} {s s' : System n} {a : Action n}
    {e : Event n} (hI : RoundInvariant tr s) (hs : s.step a = some (e, s'))
    (hok : AcksGenerationZero s a → s.shared.roundInProgress = false) :
    RoundInvariant (e :: tr) s' :=
  hI.step hs fun _ _ _ he hzero => hok (System.step_finishReaderRound (he ▸ hs) hzero)

/-- The discipline of a run in which generation `0` is never acknowledged while a round is
in progress. -/
def NoAckWhileFilling (s : System n) (a : Action n) : Prop :=
  ¬(AcksGenerationZero s a ∧ s.shared.roundInProgress = true)

instance (s : System n) (a : Action n) : Decidable (NoAckWhileFilling s a) :=
  inferInstanceAs (Decidable (¬_))

/-- The round invariant along such runs. -/
theorem roundInvariant_of_run {tr : List (Event n)} {s : System n}
    (hrun : (hypervisor n).Run NoAckWhileFilling tr s) : RoundInvariant tr s := by
  refine hrun.invariant (roundInvariant_initial n) fun tr t a e u hI hok hs =>
    hI.step_of_action hs ?_
  intro hack
  by_contra hround
  exact hok ⟨hack, by simpa using hround⟩

/-! ### The writer's release -/

/-- What the release of the writer for generation `g` should rest on: `g` is the generation
published last, the acknowledgments since that publication are exactly one per reader, all
for `g`, and these are the ones the counter has counted. -/
structure GenuineRelease (h : History n) (s : System n) (g : ℕ) : Prop where
  published : (publishedRound h).map Prod.fst = some g
  acknowledged : (acknowledgments h).Perm ((readers n).map (·, g))
  counted : s.shared.completedReaders = (acknowledgments h).length

/-- In a published round that is not the one after the wrap, the generation counts the
publications. -/
theorem BufferInv.generation_eq {h : History n} {σ : SharedBufferState} (hB : BufferInv h σ)
    (hgen : σ.generation ≠ 0) : σ.generation = publications h := by
  have hmod := hB.generation
  rcases hB.bounded with hlt | ⟨heq, -, -⟩
  · omega
  · rw [heq] at hmod
    omega

/-- **The writer is released only by genuine acknowledgments**, in every run in which no
reader acknowledges generation `0` while a round is in progress. -/
theorem finishWriterRound_genuine {tr : List (Event n)} {s s' : System n} {a : Action n}
    {i : Fin (n + 1)} {g count : ℕ} (hrun : (hypervisor n).Run NoAckWhileFilling tr s)
    (hs : (hypervisor n).step s a = some (.call i (.finishWriterRound g count), s')) :
    GenuineRelease (history tr) s g := by
  have hI := (roundInvariant_of_run hrun).round
  obtain ⟨run, f, -, -, -, hacc, -⟩ := System.step_call hs
  generalize f.state = σ', f.vm = v' at hacc
  cases hacc with
  | finishWriterRound _ hm _ hw hready hgen hall =>
      obtain ⟨-, -, hpublished⟩ := hI.buffer.ready hready
      have hperm := hI.acks_perm hready hall
      have hcount := hI.acks.counted
      rw [if_neg (by simp [hready])] at hcount
      rw [← hI.buffer.generation_eq (by omega), hgen] at hperm
      exact ⟨by rw [hpublished, hgen]; rfl, hperm, hcount⟩

/-- A round of one byte between the writer and one reader, up to the writer's last
command. -/
def oneByteRound : List (Action 1) :=
  let issue := Action.issue RunLayout.smallest
  [issue writerVm (.inb 0x510), issue readerVm (.inb 0x510), issue writerVm (.outl 0x510 1),
    issue writerVm (.outb 0x510 7), issue readerVm (.inl 0x510), issue readerVm (.inb 0x510),
    issue readerVm (.outl 0x520 1)]

/-- In that round the writer is released, and by a genuine acknowledgment. -/
theorem finishWriterRound_genuine_oneByteRound : ∃ (tr : List (Event 1)) (s s' : System 1)
    (a : Action 1), (hypervisor 1).Run NoAckWhileFilling tr s ∧
      (hypervisor 1).step s a = some (.call 0 (.finishWriterRound 1 1), s') ∧
      GenuineRelease (history tr) s 1 := by
  have hexec : (((hypervisor 1).exec NoAckWhileFilling (hypervisor 1).init oneByteRound).bind
      fun p => ((hypervisor 1).step p.2 (.issue .smallest 0 (.inl 0x520))).map
        fun q => q.1) = some (.call 0 (.finishWriterRound 1 1)) := by decide
  obtain ⟨tr, s, e, s', hrun, hs, rfl⟩ := Machine.exists_step_of_exec hexec
  exact ⟨tr, s, s', _, hrun, hs, finishWriterRound_genuine hrun hs⟩

/-- A reader that never begins a round reads the byte the writer is about to send, and
acknowledges it before it is sent. -/
def earlyAcknowledgment : List (Action 1) :=
  let issue := Action.issue RunLayout.smallest
  [issue writerVm (.inb 0x510), issue readerVm (.inb 0x510), issue writerVm (.outl 0x510 1),
    issue readerVm (.inb 0x510), issue readerVm (.outl 0x520 1), issue writerVm (.outb 0x510 7)]

/-- With arbitrary guests the writer can be released although nobody has acknowledged what
it published. -/
theorem finishWriterRound_not_genuine :
    ¬∀ (n : ℕ) (tr : List (Event n)) (s s' : System n) (a : Action n) (i : Fin (n + 1))
      (g count : ℕ), (hypervisor n).Run (fun _ _ => True) tr s →
      (hypervisor n).step s a = some (.call i (.finishWriterRound g count), s') →
      GenuineRelease (history tr) s g := by
  intro hall
  have hexec : (((hypervisor 1).exec (fun _ _ => True) (hypervisor 1).init
      earlyAcknowledgment).bind fun p =>
        ((hypervisor 1).step p.2 (.issue .smallest 0 (.inl 0x520))).map
          fun q => (acknowledgments (history p.1), q.1)) =
      some ([], .call 0 (.finishWriterRound 1 1)) := by decide
  obtain ⟨tr, s, e, s', hrun, hs, hobs⟩ := Machine.exists_step_of_exec hexec
  obtain ⟨hacks, rfl⟩ := Prod.mk.inj hobs
  have hperm := (hall 1 tr s s' _ 0 1 1 hrun hs).acknowledged
  rw [show acknowledgments (history tr) = [] from hacks] at hperm
  exact absurd hperm.length_eq (by simp [length_readers])

/-! ### The success of a reader -/

/-- VM `i` has taken part in a transfer: at some moment `before` it acknowledged a generation
`g ≥ 1` that had been published, whose size it had obtained and whose bytes it had read, all
that fit into the buffer, in order. -/
def TookPart (i : Fin (n + 1)) (h : History n) : Prop :=
  ∃ g payload before after,
    h = after ++ (i, .finishReaderRound g (payload.take bufferSize).length) :: before ∧
    1 ≤ g ∧ publishedRound before = some (g, payload) ∧
    openRound i before = some (g, (payload.take bufferSize).length) ∧
    obtainedBytes i before = payload.take bufferSize

/-- What has been done stays done. -/
theorem TookPart.cons {i : Fin (n + 1)} {h : History n} (ht : TookPart i h)
    (x : Fin (n + 1) × Call) : TookPart i (x :: h) := by
  obtain ⟨g, payload, before, after, rfl, hrest⟩ := ht
  exact ⟨g, payload, before, x :: after, rfl, hrest⟩

/-- An acknowledgment of a generation other than `0` proves that its reader took part. -/
theorem RoundInv.tookPart {h : History n} {σ : SharedBufferState}
    {ctx : Fin (n + 1) → SharedBufferVmState} {i : Fin (n + 1)} (hI : RoundInv h σ ctx)
    (hV : ReadingInv i h σ (ctx i)) (hi : i ≠ 0)
    (hactive : (ctx i).activeReadGeneration = σ.generation)
    (hcompleted : (ctx i).readCompleted = false) (hoffset : (ctx i).readOffset = σ.size)
    (hzero : (ctx i).activeReadGeneration ≠ 0) :
    TookPart i ((i, .finishReaderRound (ctx i).activeReadGeneration σ.size) :: h) := by
  have hopen : (ctx i).lastReadGeneration < (ctx i).activeReadGeneration := by
    rcases (hI.reader i hi).incomplete hcompleted with hlt | ⟨h0, -⟩
    · exact hlt
    · exact absurd h0 hzero
  have hready := (hI.running_of_open hi hopen hcompleted).1.2
  obtain ⟨hreceived, -, hpublished⟩ := hI.buffer.ready hready
  obtain ⟨hbytes, -⟩ := hV.obtained hopen hcompleted
  -- The size of a published buffer is the length of what fits of the payload.
  have hsize : σ.size = ((sentBytes h).take bufferSize).length := by
    rw [List.length_take, hI.buffer.size, ← hreceived, hI.buffer.received, Nat.min_comm]
  have htake : (sentBytes h).take σ.size = (sentBytes h).take bufferSize := by
    rw [hI.buffer.size, ← hreceived, hI.buffer.received, Nat.min_comm, ← List.take_take,
      List.take_length]
  refine ⟨(ctx i).activeReadGeneration, sentBytes h, h, [], ?_, by omega, ?_, ?_, ?_⟩
  · rw [← hsize]
    rfl
  · rw [hpublished, hactive]
  · rw [← hsize]
    exact hV.opened hopen hcompleted
  · rw [hbytes, hoffset, htake]

/-- The discipline of a run that cannot mislead VM `i`: generation `0` is not acknowledged
while a round is in progress, nor ever by VM `i`. -/
def NoUnreadAck (i : Fin (n + 1)) (s : System n) (a : Action n) : Prop :=
  ¬(AcksGenerationZero s a ∧ (s.shared.roundInProgress = true ∨ a.vm = some i))

instance (i : Fin (n + 1)) (s : System n) (a : Action n) : Decidable (NoUnreadAck i s a) :=
  inferInstanceAs (Decidable (¬_))

/-- Along such a run `transferCompleted` records a genuine transfer. -/
theorem tookPart_of_run {i : Fin (n + 1)} (hi : i ≠ 0) {tr : List (Event n)} {s : System n}
    (hrun : (hypervisor n).Run (NoUnreadAck i) tr s) :
    RoundInvariant tr s ∧
      ((s.vms i).context.transferCompleted = true → TookPart i (history tr)) := by
  refine hrun.invariant (I := fun tr s => RoundInvariant tr s ∧
      ((s.vms i).context.transferCompleted = true → TookPart i (history tr)))
    ⟨roundInvariant_initial n, fun h => Bool.noConfusion h⟩ ?_
  rintro tr t a e u ⟨hI, htook⟩ hok hs
  refine ⟨hI.step_of_action hs fun hack => ?_, ?_⟩
  · by_contra hround
    exact hok ⟨hack, .inl (by simpa using hround)⟩
  obtain ⟨hq, hctx, -⟩ | ⟨j, c, v, rfl, hacc, hctx⟩ := System.step_records hs
  · rw [history_quiet hq, hctx]
    exact htook
  · rw [history_call, show (u.vms i).context = _ from congrFun hctx i]
    by_cases hij : i = j
    · subst hij
      rw [Function.update_self]
      generalize u.shared = σ' at hacc
      cases hacc with
      | finishReaderRound _ _ _ hcompleted hactive hoffset _ =>
          intro _
          refine hI.round.tookPart (hI.reading i hi) hi hactive hcompleted hoffset fun h0 => ?_
          exact hok ⟨System.step_finishReaderRound hs h0, .inr (System.vm_of_call hs)⟩
      | finishWriterRound _ hm => exact absurd (hI.round.eq_zero_of_mode hm) hi
      | _ => exact fun h => (htook h).cons _
    · rw [Function.update_of_ne hij]
      exact fun h => (htook h).cons _

/-- **A reader halts successfully only after taking part in a transfer**, in every run in
which generation `0` is acknowledged neither while a round is in progress nor by that
reader. -/
theorem halt_reader_genuine {i : Fin (n + 1)} (hi : i ≠ 0) {tr : List (Event n)}
    {s s' : System n} {a : Action n} (hrun : (hypervisor n).Run (NoUnreadAck i) tr s)
    (hs : (hypervisor n).step s a = some (.halt i true, s')) : TookPart i (history tr) := by
  obtain ⟨-, htook⟩ := tookPart_of_run hi hrun
  exact htook (System.transferCompleted_of_halt hs)

/-- The reader of `oneByteRound` halts successfully, having taken part. -/
theorem halt_reader_genuine_oneByteRound : ∃ (tr : List (Event 1)) (s s' : System 1)
    (a : Action 1), (hypervisor 1).Run (NoUnreadAck 1) tr s ∧
      (hypervisor 1).step s a = some (.halt 1 true, s') ∧ TookPart 1 (history tr) := by
  have hexec : (((hypervisor 1).exec (NoUnreadAck 1) (hypervisor 1).init oneByteRound).bind
      fun p => ((hypervisor 1).step p.2 (.halt 1)).map fun q => q.1) =
        some (.halt 1 true) := by decide
  obtain ⟨tr, s, e, s', hrun, hs, rfl⟩ := Machine.exists_step_of_exec hexec
  exact ⟨tr, s, s', _, hrun, hs, halt_reader_genuine (by decide) hrun hs⟩

/-- Before the first round a reader can acknowledge generation `0` with a size of zero. -/
def emptyAcknowledgment : List (Action 1) :=
  [.issue .smallest readerVm (.inb 0x510), .issue .smallest readerVm (.outl 0x520 0)]

/-- With arbitrary guests a reader can halt successfully although it has taken part in
nothing. -/
theorem halt_reader_not_genuine :
    ¬∀ (n : ℕ) (tr : List (Event n)) (s s' : System n) (a : Action n) (i : Fin (n + 1)),
      i ≠ 0 → (hypervisor n).Run (fun _ _ => True) tr s →
      (hypervisor n).step s a = some (.halt i true, s') → TookPart i (history tr) := by
  intro hall
  have hexec : (((hypervisor 1).exec (fun _ _ => True) (hypervisor 1).init
      emptyAcknowledgment).bind fun p => ((hypervisor 1).step p.2 (.halt 1)).map
        fun q => (history p.1, q.1)) =
      some ([(1, .finishReaderRound 0 0), (1, .deliverMode 0)], .halt 1 true) := by decide
  obtain ⟨tr, s, e, s', hrun, hs, hobs⟩ := Machine.exists_step_of_exec hexec
  obtain ⟨hhistory, rfl⟩ := Prod.mk.inj hobs
  have htook := hall 1 tr s s' _ 1 (by decide) hrun hs
  rw [show history tr = _ from hhistory] at htook
  obtain ⟨g, payload, before, after, heq, -, hpublished, -⟩ := htook
  have hpos := publications_pos_of_publishedRound hpublished
  have hsum := congrArg publications heq
  rw [publications_append] at hsum
  simp only [publications, Call.published, Option.isSome_none] at hsum
  simp at hsum
  omega

end KvmHypervisor
