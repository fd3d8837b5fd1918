import KvmHypervisor.ReferencePhases

/-!
# Runs of the Reference System

`Following` collects the phases of all guests with the round invariant. In its states every
command a guest issues next is one its handler accepts or parks. The only exception is the
wrap of the generation: after publication number `2 ^ 64` the writer's token is `0` and its
status read is rejected.

## Main results

* `Following.step`: a step of the reference system keeps the guests in their phases, or it
  aborts, or it rejects the status read of a writer whose token is `0`.
* `Following.progress`: when every reader has as many rounds as there are payloads, then as
  long as some guest is not done, some guest's next command does not park.
* `Guests.measure_step`: every step brings the guests nearer to their ends.
-/

open Transitions

namespace KvmHypervisor

variable {n : ℕ}

/-! ### The invariant -/

/-- A program that is done, or where its thread stands if it is not. -/
def StatusAt (layout : RunLayout) (p : Program) (v : SharedBufferVmState) :
    ThreadStatus → Prop
  | .running => True
  | .waiting run => ∃ command, p.next = some command ∧ run = command.exit layout
  | .returned success | .finished success => p.next = none ∧ success = v.transferCompleted

/-- The writer has read each of its counts after every reader had acknowledged that
round. -/
def AcknowledgedFirst (h : History n) : Prop :=
  ∀ after i g count before, h = after ++ (i, .finishWriterRound g count) :: before →
    ∀ j, j ≠ ⟨0, n.succ_pos⟩ → (writerCounts before).length < (completedRounds j before).length

/-- **The reference invariant.** -/
structure Following (layout : Fin (n + 1) → RunLayout) (payloads : List (List UInt8))
    (rounds : Fin (n + 1) → ℕ) (tr : List (Event n)) (s : Guests n) : Prop where
  inv : RoundInvariant tr s.system
  stopped : s.system.shared.stopped = false
  bounded : publications (history tr) ≤ payloads.length
  writer : WriterAt payloads (history tr) s.system.shared (s.system.vms 0).context (s.programs 0)
  reader : ∀ i, i ≠ 0 →
    ReaderAt (rounds i) s.system.shared (s.system.vms i).context (s.programs i)
  ordered : AcknowledgedFirst (history tr)
  received : ∀ i, i ≠ 0 → completedRounds i (history tr) =
    (expectedRounds payloads).take (s.system.vms i).context.lastReadGeneration
  writerTransferred : writerCounts (history tr) ≠ [] →
    (s.system.vms 0).context.transferCompleted = true
  readerTransferred : ∀ i, i ≠ 0 → 0 < (s.system.vms i).context.lastReadGeneration →
    (s.system.vms i).context.transferCompleted = true
  status : ∀ i, StatusAt (layout i) (s.programs i) (s.system.vms i).context
    (s.system.vms i).status

/-! ### Programs that are done -/

/-- A writer that is done has been through all payloads. -/
theorem WriterAt.done {payloads : List (List UInt8)} {h : History n} {σ : SharedBufferState}
    {v : SharedBufferVmState} {p : Program} (hW : WriterAt payloads h σ v p)
    (hbounded : publications h ≤ payloads.length) (hdone : p.next = none) :
    publications h = payloads.length ∧ σ.roundInProgress = false ∧
      writerCounts h = expectedCounts payloads := by
  cases hW with
  | mode | published => cases hdone
  | @filling left _ _ _ _ hne =>
      cases left <;> cases hdone
  | @announcing rest _ hround hrest hcounts =>
      cases rest with
      | cons payload rest => cases hdone
      | nil =>
          have hlen : payloads.length ≤ publications h := List.drop_eq_nil_iff.mp hrest
          refine ⟨by omega, hround, ?_⟩
          rw [hcounts]
          exact List.take_of_length_le (by simpa [expectedCounts] using hlen)

/-- A reader that is done has been through all its rounds. -/
theorem ReaderAt.done {rounds : ℕ} {σ : SharedBufferState} {v : SharedBufferVmState}
    {p : Program} (hR : ReaderAt rounds σ v p) (hdone : p.next = none) :
    v.lastReadGeneration = rounds := by
  cases hR with
  | mode => cases hdone
  | @reading left => cases left <;> cases hdone
  | @asking left _ _ hleft =>
      cases left with
      | succ left => cases hdone
      | zero => exact hleft

/-! ### What the next commands find -/

section Handling

variable {payloads : List (List UInt8)} {h : History n} {σ : SharedBufferState}
variable {ctx : Fin (n + 1) → SharedBufferVmState} {p : Program} {command : PortCommand}
variable {i : Fin (n + 1)} {f : Frame}

/-- The operands of a writer fit their registers. -/
theorem WriterAt.fits {v : SharedBufferVmState} (hW : WriterAt payloads h σ v p)
    (hpayloads : ∀ payload ∈ payloads, payload.length < 2 ^ 32)
    (hnext : p.next = some command) : command.Fits := by
  cases hW with
  | mode | published =>
      cases hnext
      trivial
  | @filling left =>
      cases left <;> cases hnext <;> trivial
  | @announcing rest _ _ hrest _ =>
      cases rest with
      | nil => cases hnext
      | cons payload rest =>
          cases hnext
          have hmem : payload ∈ payloads.drop (publications h) := by
            rw [hrest]
            exact List.mem_cons_self
          exact hpayloads payload (List.mem_of_mem_drop hmem)

/-- The operands of a reader fit their registers. -/
theorem ReaderAt.fits {rounds : ℕ} {v : SharedBufferVmState} (hR : ReaderAt rounds σ v p)
    (hsize : σ.size ≤ bufferSize) (hnext : p.next = some command) : command.Fits := by
  cases hR with
  | mode =>
      cases hnext
      trivial
  | @asking left =>
      cases left <;> cases hnext
      trivial
  | @reading left count rest _ _ _ _ hcount =>
      cases left <;> cases hnext
      · show count < 2 ^ 32
        simp only [bufferSize] at hsize
        omega
      · trivial

/-- **No command of a writer is rejected**, but the status read after the wrap of the
generation. -/
theorem WriterAt.not_rejected (hI : RoundInv h σ ctx) (hW : WriterAt payloads h σ (ctx 0) p)
    (hstop : σ.stopped = false) (layout : RunLayout) (hnext : p.next = some command)
    (hout : handleSharedBufferIo σ (ctx 0) (command.exit layout) = .done false f) :
    publications h = 2 ^ 64 := by
  have hm := hI.writer.mode
  cases hW with
  | mode hd =>
      cases hnext
      obtain ⟨f', hf⟩ := handle_mode_accepted layout hd
      rw [hf] at hout
      cases hout
  | @announcing rest hd hround hrest _ =>
      cases rest <;> cases hnext
      obtain ⟨f', hf⟩ := handle_outl_accepted layout hd hstop hm _ hround
      rw [hf] at hout
      cases hout
  | @filling left _ hd hround hready hleft hexpected =>
      cases left with
      | nil => exact absurd rfl hleft
      | cons b left =>
          cases hnext
          have hreceived := hI.buffer.received
          rw [List.length_append, List.length_cons] at hexpected
          obtain ⟨f', hf⟩ :=
            handle_outb_accepted layout hd hstop hm b hround hready (by omega)
          rw [hf] at hout
          cases hout
  | published hd hround hready _ _ _ _ =>
      cases hnext
      have hw := hI.writer.writeGeneration
      rw [if_pos ⟨hround, hready⟩] at hw
      by_cases hzero : σ.generation = 0
      · have hmod := hI.buffer.generation
        have hpos := (hI.buffer.ready hready).2.1
        have hbounded := hI.buffer.bounded
        omega
      · by_cases hall : σ.completedReaders = σ.readerCount
        · obtain ⟨f', hf⟩ := handle_inl_status_accepted layout hd hstop hm (by omega) hready
            hw.symm hall
          rw [hf] at hout
          cases hout
        · rw [handle_inl_status_wait layout hd hstop hm (by omega) hall] at hout
          cases hout

/-- A reader with a round open may go on. -/
theorem ReaderAt.receive_accepted {rounds left count rest : ℕ} (hI : RoundInv h σ ctx)
    (hR : ReaderAt rounds σ (ctx i) (.receive left count rest)) (hi : i ≠ 0)
    (hstop : σ.stopped = false) (layout : RunLayout)
    (hnext : (Program.receive left count rest).next = some command) :
    ∃ f, handleSharedBufferIo σ (ctx i) (command.exit layout) = .done true f := by
  have hm := (hI.reader i hi).mode
  cases hR with
  | reading hd hlast hc hactive hcount hoffset _ =>
      obtain ⟨⟨-, hready⟩, -⟩ := hI.running_of_open hi (by omega) hc
      cases left <;> cases hnext
      · subst hcount
        have hlt := hI.completedReaders_lt hready hi (fun hdone => by
          rw [hc] at hdone
          cases hdone.2)
        have hsize := hI.buffer.size
        simp only [bufferSize] at hsize
        exact handle_outl_status_accepted layout hd hstop hm (by omega) hc hactive hoffset hlt
      · exact handle_inb_accepted layout hd hstop hm hactive (by omega)

/-- **No command of a reader is rejected.** -/
theorem ReaderAt.not_rejected {rounds : ℕ} (hI : RoundInv h σ ctx)
    (hR : ReaderAt rounds σ (ctx i) p) (hi : i ≠ 0) (hstop : σ.stopped = false) (layout : RunLayout)
    (hnext : p.next = some command) :
    handleSharedBufferIo σ (ctx i) (command.exit layout) ≠ .done false f := by
  intro hout
  have hm := (hI.reader i hi).mode
  cases id hR with
  | mode hd =>
      cases hnext
      obtain ⟨f', hf⟩ := handle_mode_accepted layout hd
      rw [hf] at hout
      cases hout
  | @asking left hd hclosed _ =>
      cases left <;> cases hnext
      by_cases hnew : σ.dataReady = true ∧ (ctx i).lastReadGeneration < σ.generation
      · obtain ⟨f', hf⟩ := handle_inl_accepted layout hd hstop hm hclosed hnew.1 hnew.2
        rw [hf] at hout
        cases hout
      · rw [handle_inl_wait layout hd hstop hm hclosed hnew] at hout
        cases hout
  | reading =>
      obtain ⟨f', hf⟩ := hR.receive_accepted hI hi hstop layout hnext
      rw [hf] at hout
      cases hout

/-- A reader that has not completed the published round does not park, if it has a round
left for it. -/
theorem ReaderAt.not_wait_of_missing {rounds : ℕ} (hI : RoundInv h σ ctx)
    (hR : ReaderAt rounds σ (ctx i) p) (hi : i ≠ 0) (hstop : σ.stopped = false) (layout : RunLayout)
    (hready : σ.dataReady = true) (hgen : σ.generation ≠ 0)
    (hrounds : publications h ≤ rounds)
    (hmissing : ¬((ctx i).activeReadGeneration = publications h ∧
      (ctx i).readCompleted = true)) :
    ∃ command, p.next = some command ∧
      handleSharedBufferIo σ (ctx i) (command.exit layout) ≠ .wait := by
  have hreader := hI.reader i hi
  have hP := hI.buffer.generation_eq hgen
  have hm := hreader.mode
  cases id hR with
  | mode hd =>
      obtain ⟨f, hf⟩ := handle_mode_accepted layout hd
      exact ⟨_, rfl, by rw [hf]; exact nofun⟩
  | @asking left hd hclosed hleft =>
      have hlt := hreader.last_lt (by omega) hclosed hmissing
      obtain ⟨left, rfl⟩ : ∃ l, left = l + 1 := Nat.exists_eq_succ_of_ne_zero (by omega)
      obtain ⟨f, hf⟩ := handle_inl_accepted layout hd hstop hm hclosed hready (by omega)
      exact ⟨_, rfl, by rw [hf]; exact nofun⟩
  | @reading left =>
      cases left <;>
      · obtain ⟨f, hf⟩ := hR.receive_accepted hI hi hstop layout rfl
        exact ⟨_, rfl, by rw [hf]; exact nofun⟩

/-- A reader does not park between rounds if it has read as many as there were. -/
theorem ReaderAt.not_wait_of_idle {rounds : ℕ} (hI : RoundInv h σ ctx)
    (hR : ReaderAt rounds σ (ctx i) p) (hi : i ≠ 0) (layout : RunLayout)
    (hidle : σ.roundInProgress = false) (hrounds : rounds ≤ publications h)
    (hnext : p.next = some command) :
    handleSharedBufferIo σ (ctx i) (command.exit layout) ≠ .wait := by
  have hreader := hI.reader i hi
  cases hR with
  | mode hd =>
      cases hnext
      obtain ⟨f, hf⟩ := handle_mode_accepted layout hd
      rw [hf]
      exact nofun
  | @asking left hd hclosed hleft =>
      have hlast := hreader.last_eq hclosed
      obtain ⟨hactive, -⟩ := hreader.settled (by simp [hidle])
      obtain rfl : left = 0 := by omega
      cases hnext
  | reading hd hlast hc =>
      obtain ⟨⟨hround, -⟩, -⟩ := hI.running_of_open hi (by omega) hc
      rw [hidle] at hround
      cases hround

end Handling

/-! ### Steps -/

/-- A further status read comes after all acknowledgments if it finds them in place. -/
theorem AcknowledgedFirst.cons {h : History n} {x : Fin (n + 1) × Call}
    (hA : AcknowledgedFirst h)
    (hnew : ∀ i g count, x = (i, .finishWriterRound g count) →
      ∀ j, j ≠ 0 → (writerCounts h).length < (completedRounds j h).length) :
    AcknowledgedFirst (x :: h) := by
  intro after i g count before heq
  cases after with
  | nil =>
      obtain ⟨rfl, rfl⟩ := List.cons.inj heq
      exact hnew i g count rfl
  | cons y after =>
      obtain ⟨-, rfl⟩ := List.cons.inj heq
      exact hA after i g count before rfl

section Steps

variable {layout : Fin (n + 1) → RunLayout} {payloads : List (List UInt8)}
variable {rounds : Fin (n + 1) → ℕ} {tr : List (Event n)} {s s' : Guests n} {m : Move n}
variable {e : Event n} {i : Fin (n + 1)} {status : ThreadStatus}

theorem Following.initial (layout : Fin (n + 1) → RunLayout) (payloads : List (List UInt8))
    (rounds : Fin (n + 1) → ℕ) :
    Following layout payloads rounds [] (referenceSystem layout payloads rounds).init where
  inv := roundInvariant_initial n
  stopped := rfl
  bounded := Nat.zero_le _
  writer := .mode rfl rfl rfl rfl
  reader := fun _ _ => .mode rfl rfl rfl
  ordered := fun after _ _ _ _ heq => by cases after <;> cases heq
  received := fun _ _ => rfl
  writerTransferred := fun hne => absurd rfl hne
  readerTransferred := fun _ _ hlt => absurd hlt (Nat.lt_irrefl 0)
  status := fun _ => trivial

/-- The buffer never claims more than it holds. -/
theorem Following.size_le (hF : Following layout payloads rounds tr s) :
    s.system.shared.size ≤ bufferSize := by
  rw [hF.inv.round.buffer.size]
  exact Nat.min_le_right _ _

theorem Following.fits (hF : Following layout payloads rounds tr s)
    (hpayloads : ∀ payload ∈ payloads, payload.length < 2 ^ 32) (i : Fin (n + 1))
    (command : PortCommand) (hnext : (s.programs i).next = some command) : command.Fits := by
  by_cases hi : i = 0
  · subst hi
    exact hF.writer.fits hpayloads hnext
  · exact (hF.reader i hi).fits hF.size_le hnext

theorem Following.parked (hF : Following layout payloads rounds tr s) : s.Parked layout := by
  intro i run hstatus
  have := hF.status i
  rwa [hstatus] at this

/-- The move behind a step. -/
theorem Following.moves (hF : Following layout payloads rounds tr s)
    (hpayloads : ∀ payload ∈ payloads, payload.length < 2 ^ 32)
    (hs : s.step layout m = some (e, s')) : Moves layout s e s' :=
  Guests.moves_of_step hF.parked (hF.fits hpayloads) hs

/-- A reader of the reference system acknowledges only a generation it has begun. -/
theorem ReaderAt.active_pos {r : ℕ} {σ σ' : SharedBufferState} {v v' : SharedBufferVmState}
    {p : Program} {c : Call} {generation count : ℕ} (hR : ReaderAt r σ v p)
    (hc : c = .finishReaderRound generation count) (hnext : p.next = some c.command)
    (hacc : Accepts σ v c σ' v') : 0 < v.activeReadGeneration := by
  subst hc
  cases hR with
  | mode => simp [Program.next, Call.command] at hnext
  | @asking left =>
      cases left <;> simp [Program.next, Call.command] at hnext
  | reading _ hlast =>
      cases hacc
      omega

theorem Following.inv_step (hF : Following layout payloads rounds tr s)
    (hmoves : Moves layout s e s') (hs : s.step layout m = some (e, s')) :
    RoundInvariant (e :: tr) s'.system := by
  obtain ⟨a, -, hsystem⟩ := Guests.system_step hs
  refine hF.inv.step hsystem fun i g r he hzero => ?_
  cases hmoves with
  | @call i' command c σ v _ hnext hc hacc =>
      obtain ⟨rfl, rfl⟩ := Event.call.inj he
      have hm : (s.system.vms i').context.mode = vmModeReader := by
        cases hacc
        assumption
      have hi : i' ≠ 0 := hF.inv.round.ne_zero_of_mode hm
      rw [← hc] at hnext
      have hpos := (hF.reader i' hi).active_pos rfl hnext hacc
      omega
  | _ => cases he

/-- While a published round is in progress, the writer's history ends in its payload. -/
theorem WriterAt.payload_of_ready {h : History n} {σ : SharedBufferState}
    {v : SharedBufferVmState} {p : Program} (hW : WriterAt payloads h σ v p)
    (hround : σ.roundInProgress = true) (hready : σ.dataReady = true) :
    ∃ k, publications h = k + 1 ∧ payloads[k]? = some (sentBytes h) := by
  cases hW with
  | mode _ hidle | announcing _ hidle =>
      rw [hround] at hidle
      cases hidle
  | filling _ _ hfill =>
      rw [hready] at hfill
      cases hfill
  | published _ _ _ hpub hget => exact ⟨_, hpub, hget⟩

/-- The rounds a reader has completed stay the first of the expected rounds. -/
theorem ReaderAt.received {r : ℕ} {h : History n} {σ σ' : SharedBufferState}
    {ctx : Fin (n + 1) → SharedBufferVmState} {v' : SharedBufferVmState} {p p₀ : Program}
    {c : Call} (hI : RoundInv h σ ctx) (hR : ReaderAt r σ (ctx i) p)
    (hV : ReadingInv i h σ (ctx i)) (hW : WriterAt payloads h σ (ctx 0) p₀) (hi : i ≠ 0)
    (hnext : p.next = some c.command) (hacc : Accepts σ (ctx i) c σ' v')
    (hreceived : completedRounds i h =
      (expectedRounds payloads).take (ctx i).lastReadGeneration) :
    completedRounds i ((i, c) :: h) = (expectedRounds payloads).take v'.lastReadGeneration := by
  cases hacc with
  | finishReaderRound =>
      cases hR with
      | mode => simp [Program.next, Call.command] at hnext
      | @asking left => cases left <;> simp [Program.next, Call.command] at hnext
      | @reading left _ _ hd hlast hc hactive hcount hoffset hrounds =>
          cases left with
          | succ left => simp [Program.next, Call.command] at hnext
          | zero =>
              obtain ⟨⟨hround, hready⟩, -⟩ := hI.running_of_open hi (by omega) hc
              obtain ⟨k, hpub, hget⟩ := hW.payload_of_ready hround hready
              have hnew := hI.completedRound hV hi
                (.reading hd hlast hc hactive hcount hoffset hrounds) hpub hget
              simp only [completedRounds, if_true, hreceived, hlast, List.take_add_one, hnew]
              rfl
  | deliverMode | beginReaderRound | readSharedByte => exact hreceived
  | beginWriterRound _ hm | beginEmptyRound _ hm | writeSharedByte _ hm | writeLastByte _ hm
  | finishWriterRound _ hm => exact absurd (hI.eq_zero_of_mode hm) hi

/-- When the writer's status read succeeds, every reader has completed one round more than
the writer. -/
theorem Following.acknowledged {σ : SharedBufferState} {v : SharedBufferVmState} {g count : ℕ}
    (hF : Following layout payloads rounds tr s)
    (hacc : Accepts s.system.shared (s.system.vms 0).context (.finishWriterRound g count) σ v)
    {j : Fin (n + 1)} (hj : j ≠ 0) : (writerCounts (history tr)).length <
      (completedRounds j (history tr)).length := by
  have hround := hF.inv.round
  cases hacc with
  | finishWriterRound hd hm _ hw hready hgen hall =>
      have hinprogress : s.system.shared.roundInProgress = true := by
        have hw' := hround.writer.writeGeneration
        by_contra hidle
        rw [if_neg (by simp [hidle])] at hw'
        exact hw hw'
      obtain ⟨hactive, hcompleted⟩ := hround.all_completed hready hall hj
      have hlast := (hround.reader j hj).completed hcompleted
      have hbounded := hF.bounded
      have hreceived := hF.received j hj
      have hW := hF.writer
      generalize s.programs 0 = p at hW
      cases hW with
      | mode _ hidle | announcing _ hidle =>
          rw [hinprogress] at hidle
          cases hidle
      | filling _ _ hfill =>
          rw [hready] at hfill
          cases hfill
      | published _ _ _ hpub _ _ hcounts =>
          rw [hreceived, hcounts]
          simp only [List.length_take, expectedCounts, expectedRounds, List.length_map,
            List.length_zipIdx]
          omega

/-- An accepted call of the writer. -/
theorem Following.writerCall {c : Call} {σ : SharedBufferState} {v : SharedBufferVmState}
    (hF : Following layout payloads rounds tr s)
    (hinv : RoundInvariant (.call 0 c :: tr)
      ⟨σ, Function.update s.system.vms 0 ⟨v, .running⟩⟩)
    (hnext : (s.programs 0).next = some c.command)
    (hacc : Accepts s.system.shared (s.system.vms 0).context c σ v) :
    Following layout payloads rounds (.call 0 c :: tr)
      ⟨⟨σ, Function.update s.system.vms 0 ⟨v, .running⟩⟩,
        Function.update s.programs 0 ((s.programs 0).resume c.response)⟩ := by
  obtain ⟨hW, hbounded, htransferred⟩ :=
    WriterAt.accepts hF.inv.round hF.writer hF.bounded hnext hacc
  constructor
  case inv => exact hinv
  case stopped => exact hacc.stopped_eq.trans hF.stopped
  case bounded => exact hbounded
  case writer => simpa using hW
  case reader =>
    intro j hj
    simp only [Function.update_of_ne hj]
    exact ReaderAt.frame hF.inv.round (hF.reader j hj) hj hacc
  case ordered =>
    refine hF.ordered.cons fun i g count hx j hj => ?_
    obtain ⟨-, rfl⟩ := Prod.mk.inj hx
    exact hF.acknowledged hacc hj
  case received =>
    intro j hj
    rw [history_call, completedRounds_of_ne (Ne.symm hj)]
    simpa only [Function.update_of_ne hj] using hF.received j hj
  case writerTransferred => simpa using htransferred hF.writerTransferred
  case readerTransferred =>
    intro j hj
    simpa only [Function.update_of_ne hj] using hF.readerTransferred j hj
  case status =>
    intro j
    by_cases hj : j = 0
    · subst hj
      simp [StatusAt]
    · simpa only [Function.update_of_ne hj] using hF.status j

/-- An accepted call of a reader. -/
theorem Following.readerCall {c : Call} {σ : SharedBufferState} {v : SharedBufferVmState}
    (hF : Following layout payloads rounds tr s) (hi : i ≠ 0)
    (hinv : RoundInvariant (.call i c :: tr)
      ⟨σ, Function.update s.system.vms i ⟨v, .running⟩⟩)
    (hnext : (s.programs i).next = some c.command)
    (hacc : Accepts s.system.shared (s.system.vms i).context c σ v) :
    Following layout payloads rounds (.call i c :: tr)
      ⟨⟨σ, Function.update s.system.vms i ⟨v, .running⟩⟩,
        Function.update s.programs i ((s.programs i).resume c.response)⟩ := by
  have hround := hF.inv.round
  obtain ⟨hW, hpub, hcounts⟩ :=
    WriterAt.frame hround hF.writer hi hacc
  constructor
  case inv => exact hinv
  case stopped => exact hacc.stopped_eq.trans hF.stopped
  case bounded =>
    rw [history_call, hpub]
    exact hF.bounded
  case writer => simpa only [Function.update_of_ne (Ne.symm hi), history_call] using hW
  case reader =>
    intro j hj
    by_cases hji : j = i
    · subst hji
      simp only [Function.update_self]
      exact ReaderAt.accepts hround (hF.reader j hj) hj hnext hacc
    · simp only [Function.update_of_ne hji]
      exact ReaderAt.frame hround (hF.reader j hj) hj hacc
  case ordered =>
    refine hF.ordered.cons fun j g count hx => ?_
    obtain ⟨rfl, rfl⟩ := Prod.mk.inj hx
    have hm : (s.system.vms i).context.mode = vmModeWriter := by
      cases hacc
      assumption
    exact absurd (hround.eq_zero_of_mode hm) hi
  case received =>
    intro j hj
    by_cases hji : j = i
    · subst hji
      simp only [Function.update_self, history_call]
      exact ReaderAt.received hround (hF.reader j hj) (hF.inv.reading j hj) hF.writer hj hnext
        hacc (hF.received j hj)
    · rw [history_call, completedRounds_of_ne (Ne.symm hji)]
      simpa only [Function.update_of_ne hji] using hF.received j hj
  case writerTransferred =>
    rw [history_call, hcounts]
    simpa only [Function.update_of_ne (Ne.symm hi)] using hF.writerTransferred
  case readerTransferred =>
    intro j hj
    by_cases hji : j = i
    · subst hji
      simp only [Function.update_self]
      have hold := hF.readerTransferred j hj
      cases hacc with
      | finishReaderRound => exact fun _ => rfl
      | finishWriterRound => exact fun _ => rfl
      | _ => exact hold
    · simpa only [Function.update_of_ne hji] using hF.readerTransferred j hj
  case status =>
    intro j
    by_cases hji : j = i
    · subst hji
      simp [StatusAt]
    · simpa only [Function.update_of_ne hji] using hF.status j

/-- The status of a VM after a change of its thread alone. -/
theorem Following.setStatus (hF : Following layout payloads rounds tr s)
    (hinv : RoundInvariant (e :: tr) (s.system.setStatus i status)) (hq : e.Quiet)
    (hstatus : StatusAt (layout i) (s.programs i) (s.system.vms i).context status) :
    Following layout payloads rounds (e :: tr) ⟨s.system.setStatus i status, s.programs⟩ where
  inv := hinv
  stopped := hF.stopped
  bounded := by rw [history_quiet hq]; exact hF.bounded
  writer := by
    rw [history_quiet hq]
    simpa using hF.writer
  reader := fun j hj => by simpa using hF.reader j hj
  ordered := by rw [history_quiet hq]; exact hF.ordered
  received := fun j hj => by
    rw [history_quiet hq]
    simpa using hF.received j hj
  writerTransferred := by
    rw [history_quiet hq]
    simpa using hF.writerTransferred
  readerTransferred := fun j hj => by simpa using hF.readerTransferred j hj
  status := fun j => by
    by_cases hj : j = i
    · subst hj
      simpa using hstatus
    · simpa [System.setStatus_of_ne _ _ hj] using hF.status j

/-- **A step of the reference system keeps the guests in their phases**, unless a failed VM
aborts the others, or the writer's status read is rejected after the wrap of the
generation. -/
theorem Following.step (hF : Following layout payloads rounds tr s)
    (hpayloads : ∀ payload ∈ payloads, payload.length < 2 ^ 32)
    (hs : s.step layout m = some (e, s')) :
    Following layout payloads rounds (e :: tr) s' ∨
      (∃ i, e = .finish i false ∧ s'.system.shared.stopped = true) ∨
      (e = .reject 0 ∧ (s'.system.vms 0).status = .returned false ∧
        publications (history tr) = 2 ^ 64) := by
  have hmoves := hF.moves hpayloads hs
  have hinv := hF.inv_step hmoves hs
  cases hmoves with
  | @call i command c σ v _ hnext hc hacc =>
      rw [← hc] at hnext
      by_cases hi : i = 0
      · subst hi
        exact .inl (hF.writerCall hinv hnext hacc)
      · exact .inl (hF.readerCall hi hinv hnext hacc)
  | @reject i command f _ hnext hout =>
      by_cases hi : i = 0
      · subst hi
        refine .inr (.inr ⟨rfl, System.setStatus_status_self _ _ _, ?_⟩)
        exact WriterAt.not_rejected hF.inv.round hF.writer hF.stopped (layout 0) hnext hout
      · exact absurd hout (ReaderAt.not_rejected hF.inv.round (hF.reader i hi) hi
          hF.stopped (layout i) hnext)
  | park _ hnext _ =>
      exact .inl (hF.setStatus hinv (fun _ _ => nofun) ⟨_, hnext, rfl⟩)
  | halt _ hnext =>
      exact .inl (hF.setStatus hinv (fun _ _ => nofun) ⟨hnext, rfl⟩)
  | @finish i hstatus =>
      have hold := hF.status i
      rw [hstatus] at hold
      exact .inl (hF.setStatus hinv (fun _ _ => nofun) hold)
  | abort => exact .inr (.inl ⟨_, rfl, rfl⟩)

/-- **Matched guests make progress**: when every reader has as many rounds as there are
payloads, then as long as some guest is not done, there is one whose next command does not
park. -/
theorem Following.progress (hF : Following layout payloads rounds tr s)
    (hrounds : ∀ i, i ≠ 0 → rounds i = payloads.length)
    (hleft : ∃ i, (s.programs i).next ≠ none) :
    ∃ i command, (s.programs i).next = some command ∧
      s.system.handle i (command.exit (layout i)) ≠ .wait := by
  have hI := hF.inv.round
  have hm := hI.writer.mode
  have hstop := hF.stopped
  have hbounded := hF.bounded
  have hW := hF.writer
  generalize hp : s.programs 0 = p at hW
  cases hW with
  | mode hd =>
      obtain ⟨f, hf⟩ := handle_mode_accepted (layout 0) hd
      exact ⟨0, _, by rw [hp]; rfl, by rw [System.handle, hf]; simp⟩
  | @announcing rest hd hround hrest =>
      cases rest with
      | cons payload rest =>
          obtain ⟨f, hf⟩ := handle_outl_accepted (layout 0) hd hstop hm _ hround
          exact ⟨0, _, by rw [hp]; rfl, by rw [System.handle, hf]; simp⟩
      | nil =>
          obtain ⟨i, hi⟩ := hleft
          have hne : i ≠ 0 := by
            rintro rfl
            rw [hp] at hi
            exact hi rfl
          obtain ⟨command, hnext⟩ := Option.ne_none_iff_exists'.mp hi
          have hlen : payloads.length ≤ publications (history tr) := List.drop_eq_nil_iff.mp hrest
          have hle : rounds i ≤ publications (history tr) := by
            rw [hrounds i hne]
            exact hlen
          exact ⟨i, command, hnext,
            ReaderAt.not_wait_of_idle hI (hF.reader i hne) hne (layout i) hround hle hnext⟩
  | @filling left _ hd hround hready hne hexpected =>
      cases left with
      | nil => exact absurd rfl hne
      | cons b left =>
          have hreceived := hI.buffer.received
          rw [List.length_append, List.length_cons] at hexpected
          obtain ⟨f, hf⟩ :=
            handle_outb_accepted (layout 0) hd hstop hm b hround hready (by omega)
          exact ⟨0, _, by rw [hp]; rfl, by rw [System.handle, hf]; simp⟩
  | published hd hround hready =>
      have hw := hI.writer.writeGeneration
      rw [if_pos ⟨hround, hready⟩] at hw
      by_cases hzero : s.system.shared.generation = 0
      · obtain ⟨f, hf⟩ := handle_inl_status_rejected (layout 0) hd hm (hw.trans hzero)
        exact ⟨0, _, by rw [hp]; rfl, by rw [System.handle, hf]; simp⟩
      · by_cases hall : s.system.shared.completedReaders = s.system.shared.readerCount
        · obtain ⟨f, hf⟩ := handle_inl_status_accepted (layout 0) hd hstop hm
            (by rw [hw]; exact hzero) hready hw.symm hall
          exact ⟨0, _, by rw [hp]; rfl, by rw [System.handle, hf]; simp⟩
        · obtain ⟨i, hi, hmissing⟩ := hI.exists_missing hready hall
          obtain ⟨command, hnext, hwait⟩ :=
            ReaderAt.not_wait_of_missing hI (hF.reader i hi) hi hstop (layout i) hready hzero
              (by rw [hrounds i hi]; exact hbounded) hmissing
          exact ⟨i, command, hnext, hwait⟩

end Steps

end KvmHypervisor
