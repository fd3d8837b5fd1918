import KvmHypervisor.Acknowledgments

/-!
# Reads of the Buffer

What does a reader see? `readSharedByte` compares the reader's `activeReadGeneration` with
the current generation and its offset with the current size. While the writer fills the
buffer the current generation is still the previous one, but the size and the bytes are
already those of the next round. A reader that has completed the previous round, or that
has never begun one, passes the comparison there and sees bytes nobody has published.

`ReadsWhileFilling` singles out that step. As long as it is not taken, a reader outside a
round has nothing left to read (`SpentInv`), and a read that succeeds delivers a published
byte of the round its reader has open. The step itself never does
(`readSharedByte_published_iff`).
-/

open Transitions

namespace KvmHypervisor

variable {n : ℕ}

/-- The step by which a reader sees the buffer while the writer is filling it: the checks
of `readSharedByte` pass in a round that is not published yet. -/
def ReadsWhileFilling (s : System n) (a : Action n) : Prop :=
  ∃ x, s.pending a = some x ∧
    ∃ y, selectHandler (s.vms x.1).context x.2 = some y ∧ y.1 = .readSharedByte ∧
      (s.vms x.1).context.activeReadGeneration = s.shared.generation ∧
      (s.vms x.1).context.readOffset < s.shared.size ∧
      s.shared.roundInProgress = true ∧ s.shared.dataReady = false ∧ s.shared.stopped = false

instance (s : System n) (a : Action n) : Decidable (ReadsWhileFilling s a) := by
  unfold ReadsWhileFilling
  infer_instance

/-- The discipline of a run without such a step. -/
def NoReadWhileFilling (s : System n) (a : Action n) : Prop :=
  ¬ReadsWhileFilling s a

instance (s : System n) (a : Action n) : Decidable (NoReadWhileFilling s a) :=
  inferInstanceAs (Decidable (¬_))

/-- A published buffer is not being filled. -/
theorem NoReadWhileFilling.of_ready {s : System n} (a : Action n)
    (h : s.shared.dataReady = true) : NoReadWhileFilling s a := by
  rintro ⟨-, -, -, -, -, -, -, -, hready, -⟩
  rw [h] at hready
  cases hready

/-- An accepted read, seen from its action. -/
theorem System.step_readSharedByte {s s' : System n} {a : Action n} {i : Fin (n + 1)}
    {b : UInt8} (h : s.step a = some (.call i (.readSharedByte b), s'))
    (hround : s.shared.roundInProgress = true) (hready : s.shared.dataReady = false) :
    ReadsWhileFilling s a := by
  obtain ⟨run, f, hpending, -, hlabel, hacc, -⟩ := System.step_call h
  obtain ⟨data, hsel, -⟩ := exitLabel_eq_some hlabel
  generalize f.state = σ', f.vm = v' at hacc
  cases hacc with
  | readSharedByte _ _ hstop hactive hoffset =>
      exact ⟨(i, run), hpending, (_, data), hsel, rfl, hactive, hoffset, hround, hready, hstop⟩

/-! ### A reader outside a round has nothing left to read -/

/-- A reader that has never begun a round stands at offset `0`, and one that has completed
the generation in the buffer stands at its end. -/
structure SpentInv (h : History n) (σ : SharedBufferState) (v : SharedBufferVmState) :
    Prop where
  unopened : v.activeReadGeneration = 0 → v.readOffset = 0
  completed : v.readCompleted = true → v.activeReadGeneration = publications h →
    ¬(σ.roundInProgress = true ∧ σ.dataReady = false) → v.readOffset = σ.size

theorem spentInv_initial (n : ℕ) (i : Fin (n + 1)) :
    SpentInv (history ([] : List (Event n))) (System.initial n).shared
      ((System.initial n).vms i).context :=
  ⟨fun _ => rfl, fun hc => Bool.noConfusion hc⟩

section Reader

variable {h : History n} {σ σ' : SharedBufferState} {ctx : Fin (n + 1) → SharedBufferVmState}
variable {i j : Fin (n + 1)}

/-- Under the invariants, checks of `readSharedByte` that pass outside the filling phase
belong to a reader with an open round. -/
theorem SpentInv.open_of_read (hS : SpentInv h σ (ctx i)) (hI : RoundInv h σ ctx) (hi : i ≠ 0)
    (hactive : (ctx i).activeReadGeneration = σ.generation)
    (hoffset : (ctx i).readOffset < σ.size)
    (hfill : ¬(σ.roundInProgress = true ∧ σ.dataReady = false)) :
    (ctx i).lastReadGeneration < (ctx i).activeReadGeneration ∧
      (ctx i).readCompleted = false := by
  have hR := hI.reader i hi
  have hB := hI.buffer
  -- Something is in the buffer, so something has been published.
  have hready : σ.dataReady = true := by
    cases hd : σ.dataReady with
    | true => rfl
    | false =>
        cases hr : σ.roundInProgress with
        | true => exact absurd ⟨hr, hd⟩ hfill
        | false =>
            have hsize := hB.size
            have := (hB.idle hr hd).2
            omega
  have hpos := (hB.ready hready).2.1
  have hP : (ctx i).activeReadGeneration = publications h := by
    rcases hR.current with hP | ⟨hP, -⟩
    · exact hP
    · have := hR.active_lt
      have hgen := hB.generation
      have hbounded := hB.bounded
      omega
  cases hc : (ctx i).readCompleted with
  | true =>
      have := hS.completed hc hP hfill
      omega
  | false =>
      rcases hR.incomplete hc with hlt | ⟨h0, -⟩
      · exact ⟨hlt, rfl⟩
      · omega

/-- A reader whose own record does not move stays spent while the publications and the size
stay, or move to a generation it cannot have completed. -/
theorem SpentInv.congr {v : SharedBufferVmState} {x : Fin (n + 1) × Call}
    (hS : SpentInv h σ v)
    (hsame : publications (x :: h) = publications h →
      ¬(σ'.roundInProgress = true ∧ σ'.dataReady = false) →
      ¬(σ.roundInProgress = true ∧ σ.dataReady = false) ∧ σ'.size = σ.size)
    (hle : v.activeReadGeneration ≤ publications h) : SpentInv (x :: h) σ' v where
  unopened := hS.unopened
  completed := by
    intro hc hactive hfill
    have hpub : publications (x :: h) = publications h := by
      simp only [publications] at hactive ⊢
      omega
    obtain ⟨hfill', hsize⟩ := hsame hpub hfill
    rw [hsize]
    exact hS.completed hc (by omega) hfill'

/-- **Every accepted call keeps readers spent**, except a read while the writer is filling
the buffer. -/
theorem SpentInv.accepts {c : Call} {v' : SharedBufferVmState} (hS : SpentInv h σ (ctx j))
    (hI : RoundInv h σ ctx) (hj : j ≠ 0) (hacc : Accepts σ (ctx i) c σ' v')
    (hok : ∀ b, c = .readSharedByte b → ¬(σ.roundInProgress = true ∧ σ.dataReady = false)) :
    SpentInv ((i, c) :: h) σ' (Function.update ctx i v' j) := by
  have hle := (hI.reader j hj).active_le
  by_cases hji : j = i
  · subst hji
    rw [Function.update_self]
    cases hacc with
    | deliverMode _ => exact ⟨hS.unopened, hS.completed⟩
    | beginWriterRound _ hm | beginEmptyRound _ hm | writeSharedByte _ hm | writeLastByte _ hm
    | finishWriterRound _ hm => exact absurd (hI.eq_zero_of_mode hm) hj
    | beginReaderRound => exact ⟨fun _ => rfl, fun hc => Bool.noConfusion hc⟩
    | readSharedByte _ _ _ hactive hoffset =>
        obtain ⟨hlt, hc⟩ := hS.open_of_read hI hj hactive hoffset (hok _ rfl)
        refine ⟨fun h0 => ?_, fun hc' => ?_⟩
        · dsimp only at h0
          omega
        · dsimp only at hc'
          rw [hc] at hc'
          cases hc'
    | finishReaderRound _ _ _ _ _ hoffset => exact ⟨hS.unopened, fun _ _ _ => hoffset⟩
  · rw [Function.update_of_ne hji]
    refine hS.congr ?_ hle
    cases hacc with
    | deliverMode _ | beginReaderRound | readSharedByte | finishReaderRound =>
        exact fun _ hfill => ⟨hfill, rfl⟩
    | beginWriterRound => exact fun _ hfill => absurd ⟨rfl, rfl⟩ hfill
    | beginEmptyRound | writeLastByte =>
        intro hpub
        simp [publications, Call.published] at hpub
    | writeSharedByte _ _ _ hround hready => exact fun _ hfill => absurd ⟨hround, hready⟩ hfill
    | finishWriterRound _ _ _ _ hready => exact fun _ _ => ⟨by simp [hready], rfl⟩

end Reader

/-! ### Runs without reads while filling -/

/-- While the buffer is being filled it has room for a byte, so a reader at offset `0`
cannot be at its end: runs without reads while filling have no acknowledgment of generation
`0` there either. -/
theorem RoundInvariant.noAckWhileFilling {tr : List (Event n)} {s : System n} {a : Action n}
    (hI : RoundInvariant tr s)
    (hS : ∀ i, i ≠ 0 → SpentInv (history tr) s.shared (s.vms i).context) :
    NoAckWhileFilling s a := by
  rintro ⟨⟨⟨i, run⟩, hpending, ⟨handler, data⟩, hsel, rfl, hactive, hgen, -, hoffset, -⟩,
    hround⟩
  dsimp only at hsel hactive hoffset
  have hmode : (s.vms i).context.mode = vmModeReader := (selectHandler_permitted hsel).2
  have hi : i ≠ 0 := hI.round.ne_zero_of_mode hmode
  have hB := hI.round.buffer
  have hsize := hB.size
  rw [← hoffset, (hS i hi).unopened hactive] at hsize
  cases hready : s.shared.dataReady with
  | false =>
      have := hB.filling hround hready
      simp only [bufferSize] at hsize
      omega
  | true =>
      have hpos := (hB.ready hready).2.1
      have hmod := hB.generation
      have hbounded := hB.bounded
      have hcurrent := (hI.round.reader i hi).current
      simp only [hactive] at hcurrent
      omega

/-- The invariants along runs without reads while filling. -/
theorem spentInv_of_run {tr : List (Event n)} {s : System n}
    (hrun : (hypervisor n).Run NoReadWhileFilling tr s) :
    RoundInvariant tr s ∧
      ∀ i, i ≠ 0 → SpentInv (history tr) s.shared (s.vms i).context := by
  refine hrun.invariant (I := fun tr s => RoundInvariant tr s ∧
      ∀ i, i ≠ 0 → SpentInv (history tr) s.shared (s.vms i).context)
    ⟨roundInvariant_initial n, fun i _ => spentInv_initial n i⟩ ?_
  rintro tr t a e u ⟨hI, hS⟩ hok hs
  refine ⟨hI.step_of_action hs fun hack => ?_, fun j hj => ?_⟩
  · by_contra hround
    exact hI.noAckWhileFilling hS ⟨hack, by simpa using hround⟩
  · obtain ⟨hq, hctx, hshared⟩ | ⟨i, c, v, rfl, hacc, hctx⟩ := System.step_records hs
    · rw [history_quiet hq, hctx]
      rcases hshared with h | h <;> rw [h]
      · exact hS j hj
      · exact ⟨(hS j hj).unopened, (hS j hj).completed⟩
    · rw [history_call, show (u.vms j).context = _ from congrFun hctx j]
      refine (hS j hj).accepts hI.round hj hacc ?_
      rintro b rfl ⟨hround, hready⟩
      exact hok (System.step_readSharedByte hs hround hready)

/-! ### What a successful read delivers -/

/-- What a read of `b` by VM `i` should rest on: the buffer is published, VM `i` has a round
of the current generation open and has read as many bytes in it as its offset says, and `b`
is the byte at that offset of what the writer sent in the round that published the
generation. -/
structure PublishedRead (h : History n) (s : System n) (i : Fin (n + 1)) (b : UInt8) :
    Prop where
  ready : s.shared.dataReady = true
  opened : ∃ size, openRound i h = some (s.shared.generation, size)
  offset : (obtainedBytes i h).length = (s.vms i).context.readOffset
  byte : ∃ payload, publishedRound h = some (s.shared.generation, payload) ∧
    payload[(s.vms i).context.readOffset]? = some b

/-- **A successful read delivers a published byte exactly if the writer is not filling the
buffer**, in every run in which no earlier read came while the buffer was being filled. -/
theorem readSharedByte_published_iff {tr : List (Event n)} {s s' : System n} {a : Action n}
    {i : Fin (n + 1)} {b : UInt8} (hrun : (hypervisor n).Run NoReadWhileFilling tr s)
    (hs : (hypervisor n).step s a = some (.call i (.readSharedByte b), s')) :
    PublishedRead (history tr) s i b ↔ NoReadWhileFilling s a := by
  obtain ⟨hI, hS⟩ := spentInv_of_run hrun
  constructor
  · exact fun hread => .of_ready a hread.ready
  · intro hok
    have hfill : ¬(s.shared.roundInProgress = true ∧ s.shared.dataReady = false) :=
      fun hfill => hok (System.step_readSharedByte hs hfill.1 hfill.2)
    obtain ⟨run, f, -, -, -, hacc, -⟩ := System.step_call hs
    generalize f.state = σ', f.vm = v' at hacc
    cases hacc with
    | readSharedByte _ hm _ hactive hoffset =>
        have hi : i ≠ 0 := hI.round.ne_zero_of_mode hm
        obtain ⟨hlt, hc⟩ := (hS i hi).open_of_read hI.round hi hactive hoffset hfill
        have hready := (hI.round.running_of_open hi hlt hc).1.2
        obtain ⟨hbytes, -⟩ := (hI.reading i hi).obtained hlt hc
        have hbyte := hI.round.buffer.data_of_lt_size hready hoffset
        refine ⟨hready, ⟨s.shared.size, ?_⟩, ?_, ⟨_, (hI.round.buffer.ready hready).2.2, hbyte⟩⟩
        · rw [← hactive]
          exact (hI.reading i hi).opened hlt hc
        · obtain ⟨hlen, -⟩ := List.getElem?_eq_some_iff.mp hbyte
          rw [hbytes, List.length_take]
          exact Nat.min_eq_left (Nat.le_of_lt hlen)

/-- In `oneByteRound` the reader reads a published byte. -/
theorem readSharedByte_published_iff_oneByteRound : ∃ (tr : List (Event 1))
    (s s' : System 1) (a : Action 1), (hypervisor 1).Run NoReadWhileFilling tr s ∧
      (hypervisor 1).step s a = some (.call 1 (.readSharedByte 7), s') ∧
      NoReadWhileFilling s a ∧ PublishedRead (history tr) s 1 7 := by
  have hexec : (((hypervisor 1).exec NoReadWhileFilling (hypervisor 1).init
      (oneByteRound.take 5)).bind fun p =>
        ((hypervisor 1).step p.2 (.issue .smallest 1 (.inb 0x510))).map
          fun q => (p.2.shared.dataReady, q.1)) =
      some (true, .call 1 (.readSharedByte 7)) := by decide +kernel
  obtain ⟨tr, s, e, s', hrun, hs, hobs⟩ := Machine.exists_step_of_exec hexec
  obtain ⟨hready, rfl⟩ := Prod.mk.inj hobs
  have hok := NoReadWhileFilling.of_ready (.issue .smallest 1 (.inb 0x510)) hready
  exact ⟨tr, s, s', _, hrun, hs, hok, (readSharedByte_published_iff hrun hs).mpr hok⟩

/-- With arbitrary guests a reader can see the buffer before anything is published. -/
theorem readSharedByte_not_published :
    ¬∀ (n : ℕ) (tr : List (Event n)) (s s' : System n) (a : Action n) (i : Fin (n + 1))
      (b : UInt8), (hypervisor n).Run (fun _ _ => True) tr s →
      (hypervisor n).step s a = some (.call i (.readSharedByte b), s') →
      PublishedRead (history tr) s i b := by
  intro hall
  have hexec : (((hypervisor 1).exec (fun _ _ => True) (hypervisor 1).init
      (earlyAcknowledgment.take 3)).bind fun p =>
        ((hypervisor 1).step p.2 (.issue .smallest 1 (.inb 0x510))).map
          fun q => (p.2.shared.dataReady, q.1)) =
      some (false, .call 1 (.readSharedByte 0)) := by decide
  obtain ⟨tr, s, e, s', hrun, hs, hobs⟩ := Machine.exists_step_of_exec hexec
  obtain ⟨hready, rfl⟩ := Prod.mk.inj hobs
  have hread := (hall 1 tr s s' _ 1 0 hrun hs).ready
  rw [show s.shared.dataReady = false from hready] at hread
  cases hread

end KvmHypervisor
