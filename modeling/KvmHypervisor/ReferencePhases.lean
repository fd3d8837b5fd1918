import KvmHypervisor.Acknowledgments
import KvmHypervisor.ReferenceGuests

/-!
# The Phases of a Reference Guest

Where a guest of the reference system stands relative to the shared record. `WriterAt` and
`ReaderAt` list the phases of a program with what the records hold in each. A writer's
program determines the phase of the shared record, and a reader's program how far it has
come in its own round.

## Main results

* `WriterAt.accepts` and `ReaderAt.accepts`: an accepted call moves its guest to the next
  phase.
* `WriterAt.frame` and `ReaderAt.frame`: the calls of other VMs leave it where it is.
* `RoundInv.completedRound`: what a reader acknowledges is the next of the expected rounds.
-/

open Transitions

namespace KvmHypervisor

variable {n : ℕ}

/-! ### What the guests should see -/

/-- The number of bytes of a payload that fit into the buffer. -/
def deliveredSize (payload : List UInt8) : ℕ :=
  min payload.length bufferSize

/-- The rounds a reader should go through: round `k` announces generation `k` and the size of
payload `k`, and delivers its first bytes. -/
def expectedRounds (payloads : List (List UInt8)) : List (Option (ℕ × ℕ) × List UInt8) :=
  (payloads.zipIdx 1).map fun x => (some (x.2, deliveredSize x.1), x.1.take bufferSize)

/-- The counts the writer should read. -/
def expectedCounts (payloads : List (List UInt8)) : List ℕ :=
  payloads.map deliveredSize

theorem getElem?_expectedRounds {payloads : List (List UInt8)} {k : ℕ} {payload : List UInt8}
    (h : payloads[k]? = some payload) : (expectedRounds payloads)[k]? =
      some (some (k + 1, deliveredSize payload), payload.take bufferSize) := by
  simp [expectedRounds, h, Nat.add_comm]

theorem getElem?_expectedCounts {payloads : List (List UInt8)} {k : ℕ} {payload : List UInt8}
    (h : payloads[k]? = some payload) :
    (expectedCounts payloads)[k]? = some (deliveredSize payload) := by
  simp [expectedCounts, h]

/-! ### Phases -/

/-- The phases of the writer's program. -/
inductive WriterAt (payloads : List (List UInt8)) (h : History n) (σ : SharedBufferState)
    (v : SharedBufferVmState) : Program → Prop
  | mode {rounds : ℕ} : v.modeDelivered = false → σ.roundInProgress = false →
      publications h = 0 → writerCounts h = [] → WriterAt payloads h σ v (.mode payloads rounds)
  | announcing {rest : List (List UInt8)} : v.modeDelivered = true →
      σ.roundInProgress = false → payloads.drop (publications h) = rest →
      writerCounts h = (expectedCounts payloads).take (publications h) →
      WriterAt payloads h σ v (.announce rest)
  | filling {left : List UInt8} {rest : List (List UInt8)} : v.modeDelivered = true →
      σ.roundInProgress = true → σ.dataReady = false → left ≠ [] →
      σ.expectedBytes = (sentBytes h ++ left).length →
      payloads.drop (publications h) = (sentBytes h ++ left) :: rest →
      writerCounts h = (expectedCounts payloads).take (publications h) →
      WriterAt payloads h σ v (.send left rest)
  | published {k : ℕ} {rest : List (List UInt8)} : v.modeDelivered = true →
      σ.roundInProgress = true → σ.dataReady = true → publications h = k + 1 →
      payloads[k]? = some (sentBytes h) → payloads.drop (k + 1) = rest →
      writerCounts h = (expectedCounts payloads).take k →
      WriterAt payloads h σ v (.send [] rest)

/-- The phases of a reader's program; `rounds` is the number of rounds it set out with. -/
inductive ReaderAt (rounds : ℕ) (σ : SharedBufferState) (v : SharedBufferVmState) :
    Program → Prop
  | mode {payloads : List (List UInt8)} : v.modeDelivered = false →
      v.lastReadGeneration = 0 → v.activeReadGeneration = 0 →
      ReaderAt rounds σ v (.mode payloads rounds)
  | asking {left : ℕ} : v.modeDelivered = true →
      ¬(v.lastReadGeneration < v.activeReadGeneration ∧ v.readCompleted = false) →
      v.lastReadGeneration + left = rounds → ReaderAt rounds σ v (.ask left)
  | reading {left count rest : ℕ} : v.modeDelivered = true →
      v.activeReadGeneration = v.lastReadGeneration + 1 → v.readCompleted = false →
      v.activeReadGeneration = σ.generation → count = σ.size → v.readOffset + left = σ.size →
      v.activeReadGeneration + rest = rounds → ReaderAt rounds σ v (.receive left count rest)

/-! ### The writer's own calls -/

section Calls

variable {payloads : List (List UInt8)} {h : History n} {σ σ' : SharedBufferState}
variable {ctx : Fin (n + 1) → SharedBufferVmState} {v' : SharedBufferVmState}
variable {p : Program} {c : Call} {i j : Fin (n + 1)}

/-- Announcing a payload starts its round, and ends it if the payload is empty. -/
theorem WriterAt.announce {payload : List UInt8} {rest : List (List UInt8)}
    (hrest : payloads.drop (publications h) = payload :: rest)
    (hcounts : writerCounts h = (expectedCounts payloads).take (publications h))
    (hc : c.command = .outl sharedBufferPort payload.length)
    (hacc : Accepts σ (ctx 0) c σ' v') :
    WriterAt payloads ((0, c) :: h) σ' v' (.send payload rest) ∧
      publications ((0, c) :: h) ≤ payloads.length := by
  have hget : payloads[publications h]? = some payload := by
    rw [← Nat.add_zero (publications h), ← List.getElem?_drop, hrest]
    rfl
  obtain ⟨hlt, -⟩ := List.getElem?_eq_some_iff.mp hget
  cases hacc with
  | beginWriterRound hd _ _ _ hpos =>
      simp only [Call.command, PortCommand.outl.injEq, true_and] at hc
      subst hc
      refine ⟨.filling hd rfl rfl (List.ne_nil_of_length_pos hpos) ?_ hrest hcounts,
        Nat.le_of_lt hlt⟩
      simp [sentBytes]
  | beginEmptyRound hd =>
      simp only [Call.command, PortCommand.outl.injEq, true_and] at hc
      obtain rfl := List.eq_nil_of_length_eq_zero hc.symm
      refine ⟨.published hd rfl rfl rfl hget ?_ hcounts, hlt⟩
      rw [← List.drop_drop, hrest]
      rfl
  | _ => simp [Call.command, sharedBufferPort, sharedBufferStatusPort] at hc

/-- Sending a byte moves on in the payload, and publishes it with the last byte. -/
theorem WriterAt.sendByte {b : UInt8} {left : List UInt8} {rest : List (List UInt8)}
    (hI : RoundInv h σ ctx) (hexpected : σ.expectedBytes = (sentBytes h ++ b :: left).length)
    (hrest : payloads.drop (publications h) = (sentBytes h ++ b :: left) :: rest)
    (hcounts : writerCounts h = (expectedCounts payloads).take (publications h))
    (hc : c.command = .outb sharedBufferPort b) (hacc : Accepts σ (ctx 0) c σ' v') :
    WriterAt payloads ((0, c) :: h) σ' v' (.send left rest) ∧
      publications ((0, c) :: h) ≤ payloads.length := by
  have hget : payloads[publications h]? = some (sentBytes h ++ b :: left) := by
    rw [← Nat.add_zero (publications h), ← List.getElem?_drop, hrest]
    rfl
  obtain ⟨hlt, -⟩ := List.getElem?_eq_some_iff.mp hget
  have hreceived := hI.buffer.received
  rw [List.length_append, List.length_cons] at hexpected
  cases hacc with
  | writeSharedByte hd _ _ hround hready hmore =>
      simp only [Call.command, PortCommand.outb.injEq, true_and] at hc
      subst hc
      refine ⟨.filling hd hround hready (List.ne_nil_of_length_pos (by omega)) ?_ ?_ hcounts,
        Nat.le_of_lt hlt⟩
      · simp only [sentBytes, SharedBufferState.receive_expectedBytes, List.length_append,
          List.length_singleton]
        omega
      · simpa [sentBytes, publications, Call.published] using hrest
  | writeLastByte hd _ _ hround _ hlast =>
      simp only [Call.command, PortCommand.outb.injEq, true_and] at hc
      subst hc
      obtain rfl := List.eq_nil_of_length_eq_zero (show left.length = 0 by omega)
      refine ⟨.published hd hround rfl rfl hget ?_ hcounts, hlt⟩
      rw [← List.drop_drop, hrest]
      rfl
  | _ => simp [Call.command] at hc

/-- The size of a published buffer. -/
theorem BufferInv.size_eq (hB : BufferInv h σ) (hready : σ.dataReady = true) :
    σ.size = deliveredSize (sentBytes h) := by
  rw [hB.size, ← (hB.ready hready).1, hB.received, deliveredSize]

/-- Reading the status ends the round. -/
theorem WriterAt.readStatus {k : ℕ} {rest : List (List UInt8)} (hI : RoundInv h σ ctx)
    (hpub : publications h = k + 1) (hget : payloads[k]? = some (sentBytes h))
    (hrest : payloads.drop (k + 1) = rest)
    (hcounts : writerCounts h = (expectedCounts payloads).take k)
    (hc : c.command = .inl sharedBufferStatusPort) (hacc : Accepts σ (ctx 0) c σ' v') :
    WriterAt payloads ((0, c) :: h) σ' v' (.announce rest) ∧ v'.transferCompleted = true := by
  cases hacc with
  | finishWriterRound hd _ _ _ hready =>
      refine ⟨.announcing hd rfl ?_ ?_, rfl⟩
      · simpa [publications, Call.published, hpub] using hrest
      · have hpub' : publications
            ((0, .finishWriterRound (ctx 0).writeGeneration (σ.size % 2 ^ 32)) :: h) = k + 1 :=
          hpub
        rw [hpub', writerCounts, hcounts, hI.buffer.size_mod, hI.buffer.size_eq hready,
          List.take_add_one, getElem?_expectedCounts hget]
        rfl
  | _ => simp [Call.command, sharedBufferPort, sharedBufferStatusPort] at hc

/-- **The writer's calls move it through its phases.** -/
theorem WriterAt.accepts (hI : RoundInv h σ ctx) (hW : WriterAt payloads h σ (ctx 0) p)
    (hbounded : publications h ≤ payloads.length) (hnext : p.next = some c.command)
    (hacc : Accepts σ (ctx 0) c σ' v') :
    WriterAt payloads ((0, c) :: h) σ' v' (p.resume c.response) ∧
      publications ((0, c) :: h) ≤ payloads.length ∧
      ((writerCounts h ≠ [] → (ctx 0).transferCompleted = true) →
        writerCounts ((0, c) :: h) ≠ [] → v'.transferCompleted = true) := by
  have hmode := hI.writer.mode
  cases hW with
  | mode hd hround hpub hcounts =>
      simp only [Program.next, Option.some.injEq] at hnext
      cases hacc with
      | deliverMode =>
          rw [Program.resume, Call.response, if_pos (by rw [hmode])]
          exact ⟨.announcing rfl hround (by simp [publications, Call.published, hpub])
            (by simp [publications, Call.published, hpub, writerCounts, hcounts]), hbounded, id⟩
      | readSharedByte hd' => simp [hd] at hd'
      | _ => simp [Call.command] at hnext
  | @announcing rest hd _ hrest hcounts =>
      cases rest with
      | nil => cases hnext
      | cons payload rest =>
          simp only [Program.next, Option.some.injEq] at hnext
          obtain ⟨hW', hbounded'⟩ := WriterAt.announce hrest hcounts hnext.symm hacc
          refine ⟨hW', hbounded', fun htc hne => ?_⟩
          cases hacc with
          | beginWriterRound | beginEmptyRound => exact htc hne
          | _ => simp [Call.command, sharedBufferPort, sharedBufferStatusPort] at hnext
  | @filling left rest _ _ _ hleft hexpected hrest hcounts =>
      cases left with
      | nil => exact absurd rfl hleft
      | cons b left =>
          simp only [Program.next, Option.some.injEq] at hnext
          obtain ⟨hW', hbounded'⟩ :=
            WriterAt.sendByte hI hexpected hrest hcounts hnext.symm hacc
          refine ⟨hW', hbounded', fun htc hne => ?_⟩
          cases hacc with
          | writeSharedByte | writeLastByte => exact htc hne
          | _ => simp [Call.command] at hnext
  | published _ _ _ hpub hget hrest hcounts =>
      simp only [Program.next, Option.some.injEq] at hnext
      obtain ⟨hW', htc⟩ := WriterAt.readStatus hI hpub hget hrest hcounts hnext.symm hacc
      refine ⟨hW', ?_, fun _ _ => htc⟩
      cases hacc with
      | finishWriterRound => exact hbounded
      | _ => simp [Call.command, sharedBufferPort, sharedBufferStatusPort] at hnext

/-- The readers' calls leave the writer in its phase. -/
theorem WriterAt.frame {v : SharedBufferVmState} (hI : RoundInv h σ ctx)
    (hW : WriterAt payloads h σ (ctx 0) p) (hi : i ≠ 0) (hacc : Accepts σ (ctx i) c σ' v) :
    WriterAt payloads ((i, c) :: h) σ' (ctx 0) p ∧
      publications ((i, c) :: h) = publications h ∧
      writerCounts ((i, c) :: h) = writerCounts h := by
  cases hacc with
  | deliverMode | beginReaderRound | readSharedByte | finishReaderRound =>
      refine ⟨?_, rfl, rfl⟩
      cases hW with
      | mode hd hround hpub hcounts => exact .mode hd hround hpub hcounts
      | announcing hd hround hrest hcounts => exact .announcing hd hround hrest hcounts
      | filling hd hround hready hleft hexpected hrest hcounts =>
          exact .filling hd hround hready hleft hexpected hrest hcounts
      | published hd hround hready hpub hget hrest hcounts =>
          exact .published hd hround hready hpub hget hrest hcounts
  | beginWriterRound _ hm | beginEmptyRound _ hm | writeSharedByte _ hm | writeLastByte _ hm
  | finishWriterRound _ hm => exact absurd (hI.eq_zero_of_mode hm) hi

/-! ### The readers' calls -/

/-- The generation that is new to a reader with nothing open is the one after the last it
has read. -/
theorem RoundInv.generation_of_new (hI : RoundInv h σ ctx) (hi : i ≠ 0)
    (hclosed : ¬((ctx i).lastReadGeneration < (ctx i).activeReadGeneration ∧
      (ctx i).readCompleted = false)) (hnew : (ctx i).lastReadGeneration < σ.generation) :
    σ.generation = (ctx i).lastReadGeneration + 1 := by
  have hR := hI.reader i hi
  have hlast := hR.last_eq hclosed
  have hP := hI.buffer.generation_eq (by omega)
  rcases hR.current with hcurrent | ⟨hcurrent, -⟩ <;> omega

/-- A published round that some reader has open stays as it is. -/
theorem RoundInv.open_frame {v : SharedBufferVmState} (hI : RoundInv h σ ctx) (hi : i ≠ 0)
    (hlt : (ctx i).lastReadGeneration < (ctx i).activeReadGeneration)
    (hc : (ctx i).readCompleted = false) (hacc : Accepts σ (ctx j) c σ' v) :
    σ'.generation = σ.generation ∧ σ'.size = σ.size := by
  obtain ⟨⟨hround, hready⟩, -⟩ := hI.running_of_open hi hlt hc
  cases hacc with
  | deliverMode | beginReaderRound | readSharedByte | finishReaderRound => exact ⟨rfl, rfl⟩
  | beginWriterRound _ _ _ hidle | beginEmptyRound _ _ _ hidle =>
      rw [hround] at hidle
      cases hidle
  | writeSharedByte _ _ _ _ hfill | writeLastByte _ _ _ _ hfill =>
      rw [hready] at hfill
      cases hfill
  | finishWriterRound => exact ⟨rfl, rfl⟩

/-- The calls of other VMs leave a reader in its phase. -/
theorem ReaderAt.frame {rounds : ℕ} {v : SharedBufferVmState} (hI : RoundInv h σ ctx)
    (hR : ReaderAt rounds σ (ctx i) p) (hi : i ≠ 0)
    (hacc : Accepts σ (ctx j) c σ' v) : ReaderAt rounds σ' (ctx i) p := by
  cases hR with
  | mode hd hlast hactive => exact .mode hd hlast hactive
  | asking hd hclosed hrounds => exact .asking hd hclosed hrounds
  | reading hd hlast hc hactive hcount hoffset hrounds =>
      obtain ⟨hgen, hsize⟩ := hI.open_frame hi (by omega) hc hacc
      exact .reading hd hlast hc (by rw [hgen, hactive]) (by rw [hsize, hcount])
        (by rw [hsize, hoffset]) hrounds

/-- **A reader's own calls move it through its phases.** -/
theorem ReaderAt.accepts {rounds : ℕ} (hI : RoundInv h σ ctx)
    (hR : ReaderAt rounds σ (ctx i) p) (hi : i ≠ 0) (hnext : p.next = some c.command)
    (hacc : Accepts σ (ctx i) c σ' v') : ReaderAt rounds σ' v' (p.resume c.response) := by
  have hmode := (hI.reader i hi).mode
  cases hR with
  | mode hd hlast hactive =>
      simp only [Program.next, Option.some.injEq] at hnext
      cases hacc with
      | deliverMode =>
          rw [Program.resume, Call.response, if_neg (by rw [hmode]; decide)]
          refine .asking rfl ?_ (by simp [hlast])
          dsimp only
          omega
      | readSharedByte hd' => simp [hd] at hd'
      | _ => simp [Call.command] at hnext
  | @asking left hd hclosed hrounds =>
      cases left with
      | zero => cases hnext
      | succ left =>
          simp only [Program.next, Option.some.injEq] at hnext
          cases hacc with
          | beginReaderRound _ _ _ _ _ hnew =>
              have hgen := hI.generation_of_new hi hclosed hnew
              rw [Program.resume, Call.response, hI.buffer.size_mod]
              exact .reading hd hgen rfl rfl rfl (Nat.zero_add _) (by dsimp only; omega)
          | _ => simp [Call.command, sharedBufferPort, sharedBufferStatusPort] at hnext
  | @reading left count rest hd hlast hc hactive hcount hoffset hrounds =>
      cases left with
      | zero =>
          simp only [Program.next, Option.some.injEq] at hnext
          cases hacc with
          | finishReaderRound => exact .asking hd (by simp) hrounds
          | _ => simp [Call.command, sharedBufferPort, sharedBufferStatusPort] at hnext
      | succ left =>
          simp only [Program.next, Option.some.injEq] at hnext
          cases hacc with
          | readSharedByte =>
              exact .reading hd hlast hc hactive hcount (by dsimp only; omega) hrounds
          | deliverMode hd' => simp [hd] at hd'
          | _ => simp [Call.command] at hnext

/-- What a reader acknowledges is the next of the expected rounds. -/
theorem RoundInv.completedRound {rounds k : ℕ} {count rest : ℕ} (hI : RoundInv h σ ctx)
    (hV : ReadingInv i h σ (ctx i)) (hi : i ≠ 0)
    (hR : ReaderAt rounds σ (ctx i) (.receive 0 count rest))
    (hpub : publications h = k + 1) (hget : payloads[k]? = some (sentBytes h)) :
    (expectedRounds payloads)[(ctx i).lastReadGeneration]? =
      some (openRound i h, obtainedBytes i h) := by
  cases hR with
  | reading hd hlast hc hactive hcount hoffset hrounds =>
      have hopen : (ctx i).lastReadGeneration < (ctx i).activeReadGeneration := by omega
      obtain ⟨⟨-, hready⟩, hP⟩ := hI.running_of_open hi hopen hc
      have hsize := hI.buffer.size_eq hready
      have hk : (ctx i).lastReadGeneration = k := by omega
      rw [hV.opened hopen hc, (hV.obtained hopen hc).1, hk, getElem?_expectedRounds hget,
        hP, hpub, hsize, show (ctx i).readOffset = σ.size from hoffset, hsize, deliveredSize,
        Nat.min_comm, ← List.take_take, List.take_length]

end Calls

end KvmHypervisor
