import KvmHypervisor.History

/-!
# The Round Invariant

What ties the shared record, the records of all VMs, and the history together, as long as
no reader acknowledges generation `0` while the first round is being filled. That one
acknowledgment is the only accepted call the invariant does not survive: it is given
before anything was published and is counted for generation `1`.

The invariant has four parts. `BufferInv` relates the shared record to what the writer has
sent and published. `WriterInv` pins the writer's token. `ReaderInv` says where a reader
can stand relative to the number `P` of publications: at `P`, or one behind while a
published round is in progress, and outside such a round it is at `P` and has nothing
open. `AckInv` identifies the counter `completedReaders` with the acknowledgments given
since the last publication.

`generation` is `P` modulo `2 ^ 64`. Publication number `2 ^ 64` yields generation `0`,
which the writer can never finish, so `P` stays at `2 ^ 64` from there on.

## Main results

* `RoundInv.initial`: the initial state satisfies the invariant.
* `RoundInv.accepts`: every accepted call but the one above preserves it.
* `ReadingInv.accepts`: under the invariant, a reader with an open round has been told the
  size of the published buffer and has read a prefix of what the writer sent.
-/

namespace KvmHypervisor

variable {n : ℕ}

/-! ### The four parts -/

/-- The shared record against the writer's history. -/
structure BufferInv (h : History n) (σ : SharedBufferState) : Prop where
  readerCount : σ.readerCount = n
  generation : σ.generation = publications h % 2 ^ 64
  size : σ.size = min σ.expectedBytes bufferSize
  received : σ.receivedBytes = (sentBytes h).length
  received_le : σ.receivedBytes ≤ σ.expectedBytes
  data : ∀ k, k < σ.receivedBytes → k < bufferSize → σ.data[k]? = (sentBytes h)[k]?
  ready : σ.dataReady = true → σ.receivedBytes = σ.expectedBytes ∧ 0 < publications h ∧
    publishedRound h = some (σ.generation, sentBytes h)
  filling : σ.roundInProgress = true → σ.dataReady = false →
    σ.receivedBytes < σ.expectedBytes
  idle : σ.roundInProgress = false → σ.dataReady = false →
    publications h = 0 ∧ σ.expectedBytes = 0
  bounded : publications h < 2 ^ 64 ∨
    (publications h = 2 ^ 64 ∧ σ.dataReady = true ∧ σ.roundInProgress = true)

/-- The writer holds the current generation exactly while its published round runs. -/
structure WriterInv (σ : SharedBufferState) (v : SharedBufferVmState) : Prop where
  mode : v.mode = vmModeWriter
  writeGeneration : v.writeGeneration =
    if σ.roundInProgress = true ∧ σ.dataReady = true then σ.generation else 0

/-- Where a reader can stand when `P` generations have been published. -/
structure ReaderInv (P : ℕ) (σ : SharedBufferState) (v : SharedBufferVmState) : Prop where
  mode : v.mode = vmModeReader
  active_lt : v.activeReadGeneration < 2 ^ 64
  completed : v.readCompleted = true → v.lastReadGeneration = v.activeReadGeneration
  incomplete : v.readCompleted = false → v.lastReadGeneration < v.activeReadGeneration ∨
    (v.activeReadGeneration = 0 ∧ v.lastReadGeneration = 0)
  current : v.activeReadGeneration = P ∨
    (v.activeReadGeneration + 1 = P ∧ (v.readCompleted = true ∨ v.activeReadGeneration = 0))
  settled : ¬(σ.roundInProgress = true ∧ σ.dataReady = true) →
    v.activeReadGeneration = P ∧ (v.readCompleted = true ∨ P = 0)

/-- The counter against the acknowledgments given since the last publication. -/
structure AckInv (h : History n) (σ : SharedBufferState)
    (ctx : Fin (n + 1) → SharedBufferVmState) : Prop where
  nodup : (acknowledgments h).Nodup
  mem : ∀ i g, (i, g) ∈ acknowledgments h ↔ i ≠ 0 ∧ g = publications h ∧
    (ctx i).activeReadGeneration = publications h ∧ (ctx i).readCompleted = true
  counted : σ.completedReaders =
    if σ.roundInProgress = true ∧ σ.dataReady = false then 0 else (acknowledgments h).length

/-- **The round invariant.** -/
structure RoundInv (h : History n) (σ : SharedBufferState)
    (ctx : Fin (n + 1) → SharedBufferVmState) : Prop where
  buffer : BufferInv h σ
  writer : WriterInv σ (ctx 0)
  reader : ∀ i, i ≠ 0 → ReaderInv (publications h) σ (ctx i)
  acks : AckInv h σ ctx

/-- The initial records satisfy the invariant. -/
theorem RoundInv.initial (n : ℕ) :
    RoundInv ([] : History n) (.initial n)
      (fun i => .initial (if i = 0 then vmModeWriter else vmModeReader)) where
  buffer := by
    constructor <;> simp [SharedBufferState.initial, publications, sentBytes, bufferSize]
  writer := by constructor <;> simp [SharedBufferVmState.initial, SharedBufferState.initial]
  reader := by
    intro i hi
    constructor <;> simp [SharedBufferVmState.initial, SharedBufferState.initial, publications, hi]
  acks := by
    constructor <;>
      simp [acknowledgments, SharedBufferState.initial, SharedBufferVmState.initial]

/-! ### Consequences -/

section Consequences

variable {h : History n} {σ : SharedBufferState} {ctx : Fin (n + 1) → SharedBufferVmState}

/-- Only VM 0 carries the writer's mode. -/
theorem RoundInv.eq_zero_of_mode (hI : RoundInv h σ ctx) {i : Fin (n + 1)}
    (hm : (ctx i).mode = vmModeWriter) : i = 0 := by
  by_contra hi
  have hr := (hI.reader i hi).mode
  rw [hm] at hr
  exact absurd hr (by decide)

/-- Every VM but VM 0 carries the reader's mode. -/
theorem RoundInv.ne_zero_of_mode (hI : RoundInv h σ ctx) {i : Fin (n + 1)}
    (hm : (ctx i).mode = vmModeReader) : i ≠ 0 := by
  rintro rfl
  have hw := hI.writer.mode
  rw [hm] at hw
  exact absurd hw (by decide)

/-- Every acknowledgment since the last publication comes from a reader and is for the last
generation. -/
theorem RoundInv.acks_mem (hI : RoundInv h σ ctx) :
    ∀ a ∈ acknowledgments h, a.1 ≠ 0 ∧ a.2 = publications h := by
  rintro ⟨i, g⟩ ha
  obtain ⟨hi, hg, -⟩ := (hI.acks.mem i g).mp ha
  exact ⟨hi, hg⟩

/-- When the counter has reached `readerCount` in a published round, the acknowledgments
since the publication are one per reader, all for the published generation. -/
theorem RoundInv.acks_perm (hI : RoundInv h σ ctx) (hready : σ.dataReady = true)
    (hall : σ.completedReaders = σ.readerCount) :
    (acknowledgments h).Perm ((readers n).map (·, publications h)) := by
  refine perm_readers_of_length hI.acks.nodup hI.acks_mem ?_
  have hcount := hI.acks.counted
  rw [if_neg (by simp [hready])] at hcount
  rw [← hcount, hall, hI.buffer.readerCount]

/-- In that case every reader has completed the published round. -/
theorem RoundInv.all_completed (hI : RoundInv h σ ctx) (hready : σ.dataReady = true)
    (hall : σ.completedReaders = σ.readerCount) {i : Fin (n + 1)} (hi : i ≠ 0) :
    (ctx i).activeReadGeneration = publications h ∧ (ctx i).readCompleted = true := by
  have hmem : (i, publications h) ∈ (readers n).map (·, publications h) :=
    List.mem_map.mpr ⟨i, mem_readers.mpr hi, rfl⟩
  have hack := (hI.acks_perm hready hall).mem_iff.mpr hmem
  exact ((hI.acks.mem i _).mp hack).2.2

/-- As long as some reader has not completed the published round, an acknowledgment is
missing. -/
theorem RoundInv.completedReaders_lt (hI : RoundInv h σ ctx) (hready : σ.dataReady = true)
    {i : Fin (n + 1)} (hi : i ≠ 0)
    (hmissing : ¬((ctx i).activeReadGeneration = publications h ∧
      (ctx i).readCompleted = true)) : σ.completedReaders < σ.readerCount := by
  have hle := (subperm_readers hI.acks.nodup hI.acks_mem).length_le
  have hcount := hI.acks.counted
  rw [if_neg (by simp [hready])] at hcount
  rw [List.length_map, length_readers, ← hcount, ← hI.buffer.readerCount] at hle
  refine Nat.lt_of_le_of_ne hle fun hall => ?_
  exact hmissing (hI.all_completed hready hall hi)

/-- As long as an acknowledgment is missing, some reader has not completed the published
round. -/
theorem RoundInv.exists_missing (hI : RoundInv h σ ctx) (hready : σ.dataReady = true)
    (hne : σ.completedReaders ≠ σ.readerCount) :
    ∃ i, i ≠ 0 ∧ ¬((ctx i).activeReadGeneration = publications h ∧
      (ctx i).readCompleted = true) := by
  by_contra hnone
  have hall : ∀ i, i ≠ 0 → (ctx i).activeReadGeneration = publications h ∧
      (ctx i).readCompleted = true := by simpa using hnone
  have hnodup : ((readers n).map (·, publications h)).Nodup :=
    (nodup_readers n).map fun _ _ heq => (Prod.mk.inj heq).1
  have hsub : (readers n).map (·, publications h) ⊆ acknowledgments h := by
    intro a ha
    obtain ⟨i, hi, rfl⟩ := List.mem_map.mp ha
    exact (hI.acks.mem i _).mpr ⟨mem_readers.mp hi, rfl, hall i (mem_readers.mp hi)⟩
  have hge := (List.subperm_of_subset hnodup hsub).length_le
  have hle := (subperm_readers hI.acks.nodup hI.acks_mem).length_le
  have hcount := hI.acks.counted
  rw [if_neg (by simp [hready])] at hcount
  rw [List.length_map, length_readers] at hge hle
  have hreaders := hI.buffer.readerCount
  omega

end Consequences

/-! ### Preservation of the parts -/

section Parts

variable {h : History n} {σ σ' : SharedBufferState} {v : SharedBufferVmState} {P : ℕ}

/-- A reader with nothing open keeps its part whatever happens to the shared record. -/
theorem ReaderInv.of_settled (hR : ReaderInv P σ v)
    (hs : ¬(σ.roundInProgress = true ∧ σ.dataReady = true)) : ReaderInv P σ' v where
  mode := hR.mode
  active_lt := hR.active_lt
  completed := hR.completed
  incomplete := hR.incomplete
  current := hR.current
  settled := fun _ => hR.settled hs

/-- A publication leaves every reader one generation behind. -/
theorem ReaderInv.publish (hR : ReaderInv P σ v)
    (hs : ¬(σ.roundInProgress = true ∧ σ.dataReady = true))
    (hs' : σ'.roundInProgress = true ∧ σ'.dataReady = true) : ReaderInv (P + 1) σ' v where
  mode := hR.mode
  active_lt := hR.active_lt
  completed := hR.completed
  incomplete := hR.incomplete
  current := by
    obtain ⟨hactive, hcase⟩ := hR.settled hs
    refine .inr ⟨by omega, ?_⟩
    rcases hcase with hc | hP
    · exact .inl hc
    · exact .inr (by omega)
  settled := fun hn => absurd hs' hn

/-- The reader's part depends on the shared record only through the two phase flags. -/
theorem ReaderInv.congr (hR : ReaderInv P σ v)
    (hp : σ'.roundInProgress = σ.roundInProgress) (hd : σ'.dataReady = σ.dataReady) :
    ReaderInv P σ' v where
  mode := hR.mode
  active_lt := hR.active_lt
  completed := hR.completed
  incomplete := hR.incomplete
  current := hR.current
  settled := by
    rw [hp, hd]
    exact hR.settled

/-- Calls of readers change the shared record in `completedReaders` at most, and add
nothing to the writer's history. -/
theorem BufferInv.congr (hB : BufferInv h σ) (h' : History n) (hsent : sentBytes h' = sentBytes h)
    (hpub : publications h' = publications h) (hround : publishedRound h' = publishedRound h)
    (k : ℕ) : BufferInv h' { σ with completedReaders := k } where
  readerCount := hB.readerCount
  generation := by rw [hpub]; exact hB.generation
  size := hB.size
  received := by rw [hsent]; exact hB.received
  received_le := hB.received_le
  data := by rw [hsent]; exact hB.data
  ready := by rw [hsent, hpub, hround]; exact hB.ready
  filling := hB.filling
  idle := by rw [hpub]; exact hB.idle
  bounded := by rw [hpub]; exact hB.bounded

/-- Starting a round of `m` bytes. -/
theorem BufferInv.startRound (hB : BufferInv h σ) (hidle : σ.roundInProgress = false) {m : ℕ}
    (hm : 0 < m) : BufferInv ((0, .beginWriterRound m none) :: h) (σ.startRound m) where
  readerCount := hB.readerCount
  generation := hB.generation
  size := rfl
  received := rfl
  received_le := Nat.zero_le m
  data := fun k hk => absurd hk (Nat.not_lt_zero k)
  ready := fun hready => Bool.noConfusion hready
  filling := fun _ _ => hm
  idle := fun hround => Bool.noConfusion hround
  bounded := by
    rcases hB.bounded with hlt | ⟨-, -, hround⟩
    · exact .inl hlt
    · exact absurd hround (by simp [hidle])

/-- The generation after the next publication. -/
theorem BufferInv.nextGeneration (hB : BufferInv h σ) :
    σ.nextGeneration = (publications h + 1) % 2 ^ 64 := by
  rw [SharedBufferState.nextGeneration, hB.generation]
  omega

/-- A round of zero bytes is published at once. -/
theorem BufferInv.startEmptyRound (hB : BufferInv h σ) (hidle : σ.roundInProgress = false) :
    BufferInv ((0, .beginWriterRound 0 (some σ.nextGeneration)) :: h)
      (σ.startRound 0).publish where
  readerCount := hB.readerCount
  generation := hB.nextGeneration
  size := rfl
  received := rfl
  received_le := Nat.le_refl 0
  data := fun k hk => absurd hk (Nat.not_lt_zero k)
  ready := fun _ => ⟨rfl, Nat.succ_pos _, rfl⟩
  filling := fun _ hready => Bool.noConfusion hready
  idle := fun hround => Bool.noConfusion hround
  bounded := by
    rcases hB.bounded with hlt | ⟨-, -, hround⟩
    · rcases Nat.lt_or_eq_of_le (Nat.succ_le_of_lt hlt) with hlt' | heq
      · exact .inl hlt'
      · exact .inr ⟨heq, rfl, rfl⟩
    · exact absurd hround (by simp [hidle])

/-- The bytes in the buffer after one more byte has been consumed. -/
theorem BufferInv.data_receive (hB : BufferInv h σ) (b : UInt8) {k : ℕ}
    (hk : k < σ.receivedBytes + 1) (hk' : k < bufferSize) :
    (σ.receive b).data[k]? = (sentBytes h ++ [b])[k]? := by
  have hlen := hB.received
  rcases Nat.lt_or_eq_of_le (Nat.le_of_lt_succ hk) with hlt | rfl
  · rw [List.getElem?_append_left (by omega), ← hB.data k hlt hk']
    simp only [SharedBufferState.receive_data]
    split
    · rw [Vector.getElem?_setIfInBounds_ne (by omega)]
    · rfl
  · simp only [SharedBufferState.receive_data, if_pos hk']
    rw [Vector.getElem?_setIfInBounds_self_of_lt hk', hlen, List.getElem?_concat_length]

/-- Consuming a byte that is not the last one. -/
theorem BufferInv.receive (hB : BufferInv h σ) (hround : σ.roundInProgress = true)
    (hready : σ.dataReady = false) (b : UInt8) (hlt : σ.receivedBytes + 1 < σ.expectedBytes) :
    BufferInv ((0, .writeSharedByte b none) :: h) (σ.receive b) where
  readerCount := hB.readerCount
  generation := hB.generation
  size := hB.size
  received := by simp [sentBytes, hB.received]
  received_le := Nat.le_of_lt hlt
  data := fun k hk hk' => hB.data_receive b hk hk'
  ready := fun hr => absurd hr (by simp [hready])
  filling := fun _ _ => hlt
  idle := fun hp => absurd hp (by simp [hround])
  bounded := by
    rcases hB.bounded with hP | ⟨-, hr, -⟩
    · exact .inl hP
    · exact absurd hr (by simp [hready])

/-- Consuming the last byte publishes the round. -/
theorem BufferInv.receiveLast (hB : BufferInv h σ) (hround : σ.roundInProgress = true)
    (hready : σ.dataReady = false) (b : UInt8) (hlast : σ.receivedBytes + 1 = σ.expectedBytes) :
    BufferInv ((0, .writeSharedByte b (some σ.nextGeneration)) :: h)
      (σ.receive b).publish where
  readerCount := hB.readerCount
  generation := hB.nextGeneration
  size := hB.size
  received := by simp [sentBytes, hB.received]
  received_le := Nat.le_of_eq hlast
  data := fun k hk hk' => hB.data_receive b hk hk'
  ready := fun _ => ⟨hlast, Nat.succ_pos _, rfl⟩
  filling := fun _ hr => Bool.noConfusion hr
  idle := fun hp => absurd hp (by simp [hround])
  bounded := by
    rcases hB.bounded with hP | ⟨-, hr, -⟩
    · rcases Nat.lt_or_eq_of_le (Nat.succ_le_of_lt hP) with hlt | heq
      · exact .inl hlt
      · exact .inr ⟨heq, rfl, hround⟩
    · exact absurd hr (by simp [hready])

/-- The end of a round leaves the published bytes in place. -/
theorem BufferInv.finishRound (hB : BufferInv h σ) (hready : σ.dataReady = true)
    (hgen : σ.generation ≠ 0) (g c : ℕ) :
    BufferInv ((0, .finishWriterRound g c) :: h) { σ with roundInProgress := false } where
  readerCount := hB.readerCount
  generation := hB.generation
  size := hB.size
  received := hB.received
  received_le := hB.received_le
  data := hB.data
  ready := hB.ready
  filling := fun hp => Bool.noConfusion hp
  idle := fun _ hr => absurd hr (by simp [hready])
  bounded := by
    rcases hB.bounded with hP | ⟨hP, -, -⟩
    · exact .inl hP
    · exact absurd hB.generation (by rw [hP]; simpa using hgen)

/-- Calls that give no acknowledgment and move no reader's `activeReadGeneration` or
`readCompleted` keep the counter's meaning. -/
theorem AckInv.congr {h' : History n} {ctx ctx' : Fin (n + 1) → SharedBufferVmState}
    (hA : AckInv h σ ctx) (hacks : acknowledgments h' = acknowledgments h)
    (hpub : publications h' = publications h)
    (hctx : ∀ j, j ≠ 0 → (ctx' j).activeReadGeneration = (ctx j).activeReadGeneration ∧
      (ctx' j).readCompleted = (ctx j).readCompleted)
    (hcount : σ'.completedReaders =
      if σ'.roundInProgress = true ∧ σ'.dataReady = false then 0
      else (acknowledgments h).length) : AckInv h' σ' ctx' where
  nodup := by rw [hacks]; exact hA.nodup
  mem := by
    intro j g
    rw [hacks, hpub, hA.mem j g]
    refine and_congr_right fun hj => ?_
    rw [(hctx j hj).1, (hctx j hj).2]
  counted := by rw [hacks]; exact hcount

/-- A publication starts the count afresh: no reader can be at the new generation yet. -/
theorem AckInv.publish {h' : History n} {ctx ctx' : Fin (n + 1) → SharedBufferVmState}
    (hreaders : ∀ j, j ≠ 0 → (ctx j).activeReadGeneration ≤ publications h)
    (hacks : acknowledgments h' = []) (hpub : publications h' = publications h + 1)
    (hctx : ∀ j, j ≠ 0 → ctx' j = ctx j) (hcount : σ'.completedReaders = 0) :
    AckInv h' σ' ctx' where
  nodup := by rw [hacks]; exact List.nodup_nil
  mem := by
    intro j g
    rw [hacks, hpub]
    refine iff_of_false List.not_mem_nil ?_
    rintro ⟨hj, -, hactive, -⟩
    have := hreaders j hj
    rw [hctx j hj] at hactive
    omega
  counted := by rw [hacks, hcount]; simp

end Parts

/-! ### Preservation -/

section Preservation

variable {h : History n} {σ : SharedBufferState} {ctx : Fin (n + 1) → SharedBufferVmState}

theorem ReaderInv.active_le {P : ℕ} {v : SharedBufferVmState} (hR : ReaderInv P σ v) :
    v.activeReadGeneration ≤ P := by
  rcases hR.current with hP | ⟨hP, -⟩ <;> omega

/-- Writing back a reader's record with only `modeDelivered`, `readOffset`, or
`transferCompleted` moved. -/
theorem ReaderInv.congr_vm {P : ℕ} {v v' : SharedBufferVmState} (hR : ReaderInv P σ v)
    (hmode : v'.mode = v.mode) (hactive : v'.activeReadGeneration = v.activeReadGeneration)
    (hlast : v'.lastReadGeneration = v.lastReadGeneration)
    (hcompleted : v'.readCompleted = v.readCompleted) : ReaderInv P σ v' where
  mode := by rw [hmode]; exact hR.mode
  active_lt := by rw [hactive]; exact hR.active_lt
  completed := by rw [hcompleted, hlast, hactive]; exact hR.completed
  incomplete := by rw [hcompleted, hlast, hactive]; exact hR.incomplete
  current := by rw [hcompleted, hactive]; exact hR.current
  settled := by rw [hcompleted, hactive]; exact hR.settled

/-- A reader with nothing open has read every generation it has begun. -/
theorem ReaderInv.last_eq {P : ℕ} {v : SharedBufferVmState} (hR : ReaderInv P σ v)
    (hclosed : ¬(v.lastReadGeneration < v.activeReadGeneration ∧ v.readCompleted = false)) :
    v.lastReadGeneration = v.activeReadGeneration := by
  cases hc : v.readCompleted with
  | true => exact hR.completed hc
  | false =>
      rcases hR.incomplete hc with hlt | ⟨hactive, hlast⟩
      · exact absurd ⟨hlt, hc⟩ hclosed
      · rw [hactive, hlast]

/-- A reader with nothing open that has not completed the last generation has not read it. -/
theorem ReaderInv.last_lt {P : ℕ} {v : SharedBufferVmState} (hR : ReaderInv P σ v) (hP : 0 < P)
    (hclosed : ¬(v.lastReadGeneration < v.activeReadGeneration ∧ v.readCompleted = false))
    (hmissing : ¬(v.activeReadGeneration = P ∧ v.readCompleted = true)) :
    v.lastReadGeneration < P := by
  have hlast := hR.last_eq hclosed
  rcases hR.current with hactive | ⟨hactive, -⟩
  · cases hc : v.readCompleted with
    | true => exact absurd ⟨hactive, hc⟩ hmissing
    | false => rcases hR.incomplete hc with hopen | ⟨hzero, -⟩ <;> omega
  · omega

/-- A call that leaves the shared record alone and moves no field of its VM the invariant
mentions. -/
theorem RoundInv.of_private {i : Fin (n + 1)} {c : Call} {v' : SharedBufferVmState}
    (hI : RoundInv h σ ctx) (hsent : sentBytes ((i, c) :: h) = sentBytes h)
    (hpub : publications ((i, c) :: h) = publications h)
    (hround : publishedRound ((i, c) :: h) = publishedRound h)
    (hacks : acknowledgments ((i, c) :: h) = acknowledgments h)
    (hmode : v'.mode = (ctx i).mode) (hwrite : v'.writeGeneration = (ctx i).writeGeneration)
    (hactive : v'.activeReadGeneration = (ctx i).activeReadGeneration)
    (hlast : v'.lastReadGeneration = (ctx i).lastReadGeneration)
    (hcompleted : v'.readCompleted = (ctx i).readCompleted) :
    RoundInv ((i, c) :: h) σ (Function.update ctx i v') where
  buffer := hI.buffer.congr _ hsent hpub hround _
  writer := by
    by_cases hi : i = 0
    · subst hi
      rw [Function.update_self]
      exact ⟨hmode.trans hI.writer.mode, hwrite.trans hI.writer.writeGeneration⟩
    · rw [Function.update_of_ne (Ne.symm hi)]
      exact hI.writer
  reader := by
    intro j hj
    rw [hpub]
    by_cases hji : j = i
    · subst hji
      rw [Function.update_self]
      exact (hI.reader j hj).congr_vm hmode hactive hlast hcompleted
    · rw [Function.update_of_ne hji]
      exact hI.reader j hj
  acks := by
    refine hI.acks.congr hacks hpub (fun j _ => ?_) hI.acks.counted
    by_cases hji : j = i
    · subst hji
      rw [Function.update_self]
      exact ⟨hactive, hcompleted⟩
    · rw [Function.update_of_ne hji]
      exact ⟨rfl, rfl⟩

/-- A writer's call that publishes nothing. -/
theorem RoundInv.of_writer {c : Call} {σ' : SharedBufferState} {v' : SharedBufferVmState}
    (hI : RoundInv h σ ctx) (hB : BufferInv ((0, c) :: h) σ') (hW : WriterInv σ' v')
    (hR : ∀ j, j ≠ 0 → ReaderInv (publications h) σ' (ctx j))
    (hpub : publications ((0, c) :: h) = publications h)
    (hacks : acknowledgments ((0, c) :: h) = acknowledgments h)
    (hcount : σ'.completedReaders =
      if σ'.roundInProgress = true ∧ σ'.dataReady = false then 0
      else (acknowledgments h).length) :
    RoundInv ((0, c) :: h) σ' (Function.update ctx 0 v') where
  buffer := hB
  writer := by rw [Function.update_self]; exact hW
  reader := by
    intro j hj
    rw [hpub, Function.update_of_ne hj]
    exact hR j hj
  acks := by
    refine hI.acks.congr hacks hpub (fun j hj => ?_) hcount
    rw [Function.update_of_ne hj]
    exact ⟨rfl, rfl⟩

/-- A writer's call that publishes. -/
theorem RoundInv.of_publish {c : Call} {σ' : SharedBufferState} {v' : SharedBufferVmState}
    (hI : RoundInv h σ ctx) (hB : BufferInv ((0, c) :: h) σ') (hW : WriterInv σ' v')
    (hs : ¬(σ.roundInProgress = true ∧ σ.dataReady = true))
    (hs' : σ'.roundInProgress = true ∧ σ'.dataReady = true)
    (hpub : publications ((0, c) :: h) = publications h + 1)
    (hacks : acknowledgments ((0, c) :: h) = []) (hcount : σ'.completedReaders = 0) :
    RoundInv ((0, c) :: h) σ' (Function.update ctx 0 v') where
  buffer := hB
  writer := by rw [Function.update_self]; exact hW
  reader := by
    intro j hj
    rw [hpub, Function.update_of_ne hj]
    exact (hI.reader j hj).publish hs hs'
  acks := AckInv.publish (fun j hj => (hI.reader j hj).active_le) hacks hpub
    (fun j hj => Function.update_of_ne hj _ _) hcount

/-- A reader opens the published round. It was one generation behind, and nothing it had
acknowledged is still in the count. -/
theorem RoundInv.beginReaderRound {i : Fin (n + 1)} (hI : RoundInv h σ ctx) (hi : i ≠ 0)
    (hclosed : ¬((ctx i).lastReadGeneration < (ctx i).activeReadGeneration ∧
      (ctx i).readCompleted = false))
    (hnew : (ctx i).lastReadGeneration < σ.generation) (count : ℕ) :
    RoundInv ((i, .beginReaderRound σ.generation count) :: h) σ
      (Function.update ctx i { ctx i with
        readOffset := 0, activeReadGeneration := σ.generation, readCompleted := false }) := by
  have hR := hI.reader i hi
  have hgen := hI.buffer.generation
  have hP : σ.generation = publications h := by
    rcases hI.buffer.bounded with hlt | ⟨heq, -, -⟩
    · omega
    · rw [heq] at hgen
      omega
  -- The reader cannot be at `P`: it would have completed `P`, and `P` is not new to it.
  have hbehind : (ctx i).activeReadGeneration ≠ publications h := by
    intro hactive
    cases hc : (ctx i).readCompleted with
    | true =>
        have := hR.completed hc
        omega
    | false =>
        rcases hR.incomplete hc with hlt | ⟨h0, -⟩
        · exact hclosed ⟨hlt, hc⟩
        · omega
  have hrunning : σ.roundInProgress = true ∧ σ.dataReady = true := by
    by_contra hs
    exact hbehind (hR.settled hs).1
  refine
    { buffer := hI.buffer.congr ((i, .beginReaderRound σ.generation count) :: h) rfl rfl rfl _
      writer := by rw [Function.update_of_ne (Ne.symm hi)]; exact hI.writer
      reader := ?_
      acks := ?_ }
  · intro j hj
    show ReaderInv (publications h) σ _
    by_cases hji : j = i
    · subst hji
      rw [Function.update_self]
      exact
        { mode := hR.mode
          active_lt := by dsimp only; omega
          completed := fun hc => Bool.noConfusion hc
          incomplete := fun _ => .inl hnew
          current := .inl hP
          settled := fun hs => absurd hrunning hs }
    · rw [Function.update_of_ne hji]
      exact hI.reader j hj
  · refine ⟨hI.acks.nodup, fun j g => ?_, hI.acks.counted⟩
    have hpub : publications ((i, .beginReaderRound σ.generation count) :: h) =
        publications h := rfl
    have hacks : acknowledgments ((i, .beginReaderRound σ.generation count) :: h) =
        acknowledgments h := rfl
    rw [hpub, hacks, hI.acks.mem j g]
    by_cases hji : j = i
    · subst hji
      rw [Function.update_self]
      refine iff_of_false ?_ ?_
      · rintro ⟨-, -, hactive, -⟩
        exact hbehind hactive
      · rintro ⟨-, -, -, hc⟩
        cases hc
    · rw [Function.update_of_ne hji]

/-- A reader acknowledges. Outside generation `0` the acknowledgment falls into a published
round the reader has open, and joins the count of that round. -/
theorem RoundInv.finishReaderRound {i : Fin (n + 1)} (hI : RoundInv h σ ctx) (hi : i ≠ 0)
    (hcompleted : (ctx i).readCompleted = false)
    (hactive : (ctx i).activeReadGeneration = σ.generation)
    (hok : (ctx i).activeReadGeneration = 0 → σ.roundInProgress = false) (count : ℕ) :
    RoundInv ((i, .finishReaderRound (ctx i).activeReadGeneration count) :: h)
      { σ with completedReaders := σ.completedReaders + 1 }
      (Function.update ctx i { ctx i with
        readCompleted := true
        lastReadGeneration := (ctx i).activeReadGeneration
        transferCompleted := true }) := by
  have hR := hI.reader i hi
  have hgen := hI.buffer.generation
  -- The reader is at `P`: one behind would make its generation differ from the current one.
  have hP : (ctx i).activeReadGeneration = publications h := by
    rcases hR.current with hP | ⟨hP, -⟩
    · exact hP
    · have := hR.active_lt
      have hbounded := hI.buffer.bounded
      omega
  have hnotin : (i, publications h) ∉ acknowledgments h := by
    rw [hI.acks.mem]
    rintro ⟨-, -, -, hc⟩
    rw [hcompleted] at hc
    cases hc
  -- It is not the acknowledgment of an unpublished buffer.
  have hcounting : ¬(σ.roundInProgress = true ∧ σ.dataReady = false) := by
    rintro ⟨hround, hready⟩
    obtain ⟨-, hc | h0⟩ := hR.settled (by simp [hready])
    · rw [hcompleted] at hc
      cases hc
    · have := hok (by omega)
      rw [hround] at this
      cases this
  refine
    { buffer := hI.buffer.congr ((i, .finishReaderRound _ count) :: h) rfl rfl rfl _
      writer := ?_
      reader := ?_
      acks := ?_ }
  · rw [Function.update_of_ne (Ne.symm hi)]
    exact ⟨hI.writer.mode, hI.writer.writeGeneration⟩
  · intro j hj
    show ReaderInv (publications h) _ _
    by_cases hji : j = i
    · subst hji
      rw [Function.update_self]
      exact
        { mode := hR.mode
          active_lt := hR.active_lt
          completed := fun _ => rfl
          incomplete := fun hc => Bool.noConfusion hc
          current := .inl hP
          settled := fun _ => ⟨hP, .inl rfl⟩ }
    · rw [Function.update_of_ne hji]
      exact (hI.reader j hj).congr rfl rfl
  · refine ⟨?_, fun j g => ?_, ?_⟩
    · show ((i, (ctx i).activeReadGeneration) :: acknowledgments h).Nodup
      rw [hP]
      exact List.nodup_cons.mpr ⟨hnotin, hI.acks.nodup⟩
    · have hpub : publications ((i, .finishReaderRound (ctx i).activeReadGeneration count) :: h) =
          publications h := rfl
      rw [hpub, acknowledgments, List.mem_cons, hI.acks.mem j g, Prod.mk.injEq]
      by_cases hji : j = i
      · subst hji
        rw [Function.update_self]
        constructor
        · rintro (⟨-, rfl⟩ | ⟨-, -, -, hc⟩)
          · exact ⟨hi, hP, hP, rfl⟩
          · rw [hcompleted] at hc
            cases hc
        · rintro ⟨-, rfl, -, -⟩
          exact .inl ⟨rfl, hP.symm⟩
      · rw [Function.update_of_ne hji]
        simp [hji]
    · have hcount := hI.acks.counted
      rw [if_neg hcounting] at hcount
      show σ.completedReaders + 1 = if _ then _ else _
      rw [if_neg hcounting, hcount]
      rfl

/-- **Every accepted call preserves the round invariant**, unless it acknowledges
generation `0` while a round is in progress. -/
theorem RoundInv.accepts {i : Fin (n + 1)} {c : Call} {σ' : SharedBufferState}
    {v' : SharedBufferVmState} (hI : RoundInv h σ ctx) (hacc : Accepts σ (ctx i) c σ' v')
    (hok : ∀ g r, c = .finishReaderRound g r → (ctx i).activeReadGeneration = 0 →
      σ.roundInProgress = false) :
    RoundInv ((i, c) :: h) σ' (Function.update ctx i v') := by
  cases hacc with
  | deliverMode hm => exact hI.of_private rfl rfl rfl rfl rfl rfl rfl rfl rfl
  | beginWriterRound _ hm _ hidle hn =>
      obtain rfl := hI.eq_zero_of_mode hm
      have hs : ¬(σ.roundInProgress = true ∧ σ.dataReady = true) := by simp [hidle]
      refine hI.of_writer (hI.buffer.startRound hidle hn) ⟨hI.writer.mode, ?_⟩
        (fun j hj => (hI.reader j hj).of_settled hs) rfl rfl ?_
      · simp
      · simp
  | beginEmptyRound _ hm _ hidle =>
      obtain rfl := hI.eq_zero_of_mode hm
      have hs : ¬(σ.roundInProgress = true ∧ σ.dataReady = true) := by simp [hidle]
      refine hI.of_publish (hI.buffer.startEmptyRound hidle) ⟨hI.writer.mode, ?_⟩ hs
        ⟨rfl, rfl⟩ rfl rfl rfl
      simp
  | writeSharedByte _ hm _ hround hready hlt =>
      obtain rfl := hI.eq_zero_of_mode hm
      have hs : ¬(σ.roundInProgress = true ∧ σ.dataReady = true) := by simp [hready]
      refine hI.of_writer (hI.buffer.receive hround hready _ hlt) ⟨hI.writer.mode, ?_⟩
        (fun j hj => (hI.reader j hj).of_settled hs) rfl rfl ?_
      · rw [hI.writer.writeGeneration]
        rfl
      · exact hI.acks.counted
  | writeLastByte _ hm _ hround hready hlast =>
      obtain rfl := hI.eq_zero_of_mode hm
      have hs : ¬(σ.roundInProgress = true ∧ σ.dataReady = true) := by simp [hready]
      refine hI.of_publish (hI.buffer.receiveLast hround hready _ hlast) ⟨hI.writer.mode, ?_⟩ hs
        ⟨hround, rfl⟩ rfl rfl ?_
      · simp [hround]
      · have hcount := hI.acks.counted
        rwa [if_pos ⟨hround, hready⟩] at hcount
  | finishWriterRound _ hm _ hw hready hgen hall =>
      obtain rfl := hI.eq_zero_of_mode hm
      refine hI.of_writer (hI.buffer.finishRound hready (by omega) _ _) ⟨hI.writer.mode, ?_⟩
        (fun j hj => ?_) rfl rfl ?_
      · simp
      · obtain ⟨hactive, hcompleted⟩ := hI.all_completed hready hall hj
        have hR := hI.reader j hj
        exact
          { mode := hR.mode
            active_lt := hR.active_lt
            completed := hR.completed
            incomplete := hR.incomplete
            current := hR.current
            settled := fun _ => ⟨hactive, .inl hcompleted⟩ }
      · have hcount := hI.acks.counted
        rw [if_neg (by simp [hready])] at hcount
        simpa using hcount
  | beginReaderRound _ hm _ hclosed _ hnew =>
      exact hI.beginReaderRound (hI.ne_zero_of_mode hm) hclosed hnew _
  | readSharedByte _ hm => exact hI.of_private rfl rfl rfl rfl rfl rfl rfl rfl rfl
  | finishReaderRound _ hm _ hcompleted hactive _ _ =>
      exact hI.finishReaderRound (hI.ne_zero_of_mode hm) hcompleted hactive (hok _ _ rfl) _

/-! ### What a reader holds of the round it has open -/

/-- A reader with an open round has been told the size of the buffer and has read a prefix
of what the writer sent. -/
structure ReadingInv (i : Fin (n + 1)) (h : History n) (σ : SharedBufferState)
    (v : SharedBufferVmState) : Prop where
  opened : v.lastReadGeneration < v.activeReadGeneration → v.readCompleted = false →
    openRound i h = some (v.activeReadGeneration, σ.size)
  obtained : v.lastReadGeneration < v.activeReadGeneration → v.readCompleted = false →
    obtainedBytes i h = (sentBytes h).take v.readOffset ∧ v.readOffset ≤ σ.size

theorem ReadingInv.initial (i : Fin (n + 1)) (σ : SharedBufferState) (mode : UInt8) :
    ReadingInv i ([] : History n) σ (.initial mode) where
  opened := fun hlt => absurd hlt (Nat.lt_irrefl 0)
  obtained := fun hlt => absurd hlt (Nat.lt_irrefl 0)

/-- A round that some reader has open is published and in progress. -/
theorem RoundInv.running_of_open (hI : RoundInv h σ ctx) {i : Fin (n + 1)} (hi : i ≠ 0)
    (hlt : (ctx i).lastReadGeneration < (ctx i).activeReadGeneration)
    (hc : (ctx i).readCompleted = false) :
    (σ.roundInProgress = true ∧ σ.dataReady = true) ∧
      (ctx i).activeReadGeneration = publications h := by
  have hR := hI.reader i hi
  constructor
  · by_contra hs
    obtain ⟨hactive, hcase⟩ := hR.settled hs
    rcases hcase with hc' | hP
    · rw [hc] at hc'
      cases hc'
    · omega
  · rcases hR.current with hP | ⟨-, hc' | h0⟩
    · exact hP
    · rw [hc] at hc'
      cases hc'
    · omega

/-- The buffer has room for at most `bufferSize` bytes, so its size survives the cast to
32 bits. -/
theorem BufferInv.size_mod (hB : BufferInv h σ) : σ.size % 2 ^ 32 = σ.size := by
  rw [hB.size]
  apply Nat.mod_eq_of_lt
  simp only [bufferSize]
  omega

/-- Below its size, a published buffer holds what the writer sent. -/
theorem BufferInv.data_of_lt_size (hB : BufferInv h σ) (hready : σ.dataReady = true) {k : ℕ}
    (hk : k < σ.size) : (sentBytes h)[k]? = some (σ.data[k]?.getD 0) := by
  have hsize := hB.size
  have hreceived := (hB.ready hready).1
  have hlen := hB.received
  rw [← hB.data k (by omega) (by omega)]
  rw [Vector.getElem?_eq_getElem (by omega), Option.getD_some]

/-- **Every accepted call keeps what readers hold of their open rounds.** The writer cannot
touch the buffer while some reader has it open. -/
theorem ReadingInv.accepts {i j : Fin (n + 1)} {c : Call} {σ' : SharedBufferState}
    {v' : SharedBufferVmState} (hI : RoundInv h σ ctx) (hj : j ≠ 0)
    (hV : ReadingInv j h σ (ctx j)) (hacc : Accepts σ (ctx i) c σ' v') :
    ReadingInv j ((i, c) :: h) σ' (Function.update ctx i v' j) := by
  -- A call of the writer finds no open round.
  have hwriter : i = 0 → (¬((ctx j).lastReadGeneration < (ctx j).activeReadGeneration ∧
      (ctx j).readCompleted = false)) →
      ReadingInv j ((i, c) :: h) σ' (Function.update ctx i v' j) := by
    rintro rfl hclosed
    rw [Function.update_of_ne hj]
    exact ⟨fun hlt hc => absurd ⟨hlt, hc⟩ hclosed, fun hlt hc => absurd ⟨hlt, hc⟩ hclosed⟩
  by_cases hji : j = i
  · subst hji
    rw [Function.update_self]
    cases hacc with
    | deliverMode _ => exact ⟨hV.opened, hV.obtained⟩
    | beginWriterRound _ hm | beginEmptyRound _ hm | writeSharedByte _ hm | writeLastByte _ hm
    | finishWriterRound _ hm => exact absurd (hI.eq_zero_of_mode hm) hj
    | beginReaderRound =>
        refine ⟨fun _ _ => ?_, fun _ _ => ?_⟩
        · rw [hI.buffer.size_mod]
          simp [openRound]
        · simp [obtainedBytes]
    | readSharedByte _ _ _ _ hoff =>
        refine ⟨hV.opened, fun hlt hc => ?_⟩
        obtain ⟨hbytes, -⟩ := hV.obtained hlt hc
        obtain ⟨⟨-, hready⟩, -⟩ := hI.running_of_open hj hlt hc
        refine ⟨?_, hoff⟩
        have hnext := hI.buffer.data_of_lt_size hready hoff
        simp only [obtainedBytes, sentBytes, if_true]
        rw [hbytes, List.take_add_one, hnext]
        rfl
    | finishReaderRound =>
        exact ⟨fun _ hc => Bool.noConfusion hc, fun _ hc => Bool.noConfusion hc⟩
  · have hij : i ≠ j := Ne.symm hji
    cases hacc with
    | deliverMode _ =>
        rw [Function.update_of_ne hji]
        exact ⟨hV.opened, hV.obtained⟩
    | beginWriterRound _ hm _ hidle | beginEmptyRound _ hm _ hidle =>
        refine hwriter (hI.eq_zero_of_mode hm) fun hopen => ?_
        have hround := (hI.running_of_open hj hopen.1 hopen.2).1.1
        rw [hidle] at hround
        cases hround
    | writeSharedByte _ hm _ _ hfill | writeLastByte _ hm _ _ hfill =>
        refine hwriter (hI.eq_zero_of_mode hm) fun hopen => ?_
        have hready := (hI.running_of_open hj hopen.1 hopen.2).1.2
        rw [hfill] at hready
        cases hready
    | finishWriterRound _ hm _ _ hready _ hall =>
        refine hwriter (hI.eq_zero_of_mode hm) fun hopen => ?_
        have hc := (hI.all_completed hready hall hj).2
        rw [hopen.2] at hc
        cases hc
    | beginReaderRound | readSharedByte | finishReaderRound =>
        rw [Function.update_of_ne hji]
        refine ⟨fun hlt hc => ?_, fun hlt hc => ?_⟩
        · simpa [openRound, hij] using hV.opened hlt hc
        · simpa [obtainedBytes, sentBytes, hij] using hV.obtained hlt hc

end Preservation

end KvmHypervisor
