import KvmHypervisor.Acknowledgments

/-!
# The Representation of a Round

What the fields of `SharedBufferState` and `SharedBufferVmState` mean, for arbitrary
guests. The round invariant is lost when a reader acknowledges generation `0` while a
round is being filled, but only the parts about readers and about the counter are: what
the record says about the payload, and the writer's token, survive every accepted call.
`FieldInv` keeps those two parts, the bound of the counter, and the order of a reader's
two generations.

## Main results

* `FieldInv.accepts`: every accepted call of every VM preserves `FieldInv`.
* `represents_of_run`: as long as fewer than `2 ^ 64` rounds have been published, every
  reachable state represents its history (`Represents`).
-/

open Transitions

namespace KvmHypervisor

variable {n : ℕ}

/-- The generations a reader remembers, when `P` have been published. -/
structure ReaderOrder (P : ℕ) (v : SharedBufferVmState) : Prop where
  mode : v.mode = vmModeReader
  last_le : v.lastReadGeneration ≤ v.activeReadGeneration
  active_le : v.activeReadGeneration ≤ P
  completed : v.readCompleted = true → v.lastReadGeneration = v.activeReadGeneration

/-- The part of the round invariant that no guest can break. -/
structure FieldInv (h : History n) (σ : SharedBufferState)
    (ctx : Fin (n + 1) → SharedBufferVmState) : Prop where
  buffer : BufferInv h σ
  writer : WriterInv σ (ctx 0)
  counted : σ.completedReaders ≤ σ.readerCount
  reader : ∀ i, i ≠ 0 → ReaderOrder (publications h) (ctx i)

/-- The initial records satisfy the invariant. -/
theorem FieldInv.initial (n : ℕ) :
    FieldInv ([] : History n) (.initial n)
      (fun i => .initial (if i = 0 then vmModeWriter else vmModeReader)) where
  buffer := (RoundInv.initial n).buffer
  writer := (RoundInv.initial n).writer
  counted := Nat.zero_le n
  reader := by
    intro i hi
    constructor <;> simp [SharedBufferVmState.initial, hi]

/-- The invariant does not see `stopped`. -/
theorem FieldInv.abort {h : History n} {σ : SharedBufferState}
    {ctx : Fin (n + 1) → SharedBufferVmState} (hI : FieldInv h σ ctx) :
    FieldInv h (abortSharedBuffer σ) ctx where
  buffer :=
    { readerCount := hI.buffer.readerCount
      generation := hI.buffer.generation
      size := hI.buffer.size
      received := hI.buffer.received
      received_le := hI.buffer.received_le
      data := hI.buffer.data
      ready := hI.buffer.ready
      filling := hI.buffer.filling
      idle := hI.buffer.idle
      bounded := hI.buffer.bounded }
  writer := ⟨hI.writer.mode, hI.writer.writeGeneration⟩
  counted := hI.counted
  reader := hI.reader

section Preservation

variable {h : History n} {σ σ' : SharedBufferState} {ctx : Fin (n + 1) → SharedBufferVmState}
variable {i : Fin (n + 1)}

/-- A later publication keeps the order. -/
theorem ReaderOrder.mono {P P' : ℕ} {v : SharedBufferVmState} (hR : ReaderOrder P v)
    (hle : P ≤ P') : ReaderOrder P' v :=
  ⟨hR.mode, hR.last_le, hR.active_le.trans hle, hR.completed⟩

/-- Only VM 0 carries the writer's mode. -/
theorem FieldInv.eq_zero_of_mode (hI : FieldInv h σ ctx) (hm : (ctx i).mode = vmModeWriter) :
    i = 0 := by
  by_contra hi
  have hr := (hI.reader i hi).mode
  rw [hm] at hr
  exact absurd hr (by decide)

/-- Every VM but VM 0 carries the reader's mode. -/
theorem FieldInv.ne_zero_of_mode (hI : FieldInv h σ ctx) (hm : (ctx i).mode = vmModeReader) :
    i ≠ 0 := by
  rintro rfl
  have hw := hI.writer.mode
  rw [hm] at hw
  exact absurd hw (by decide)

/-- A call of the writer moves no reader's record, and publications only grow. -/
theorem FieldInv.of_writer {c : Call} {v' : SharedBufferVmState} (hI : FieldInv h σ ctx)
    (hB : BufferInv ((0, c) :: h) σ') (hW : WriterInv σ' v')
    (hcounted : σ'.completedReaders ≤ σ'.readerCount) :
    FieldInv ((0, c) :: h) σ' (Function.update ctx 0 v') where
  buffer := hB
  writer := by
    rw [Function.update_self]
    exact hW
  counted := hcounted
  reader := by
    intro j hj
    rw [Function.update_of_ne hj]
    exact (hI.reader j hj).mono (by simp only [publications]; omega)

/-- A call of a reader adds nothing to the writer's history, and moves `completedReaders` at
most. -/
theorem FieldInv.of_reader {c : Call} {v' : SharedBufferVmState} (hI : FieldInv h σ ctx)
    (hi : i ≠ 0) (hsent : sentBytes ((i, c) :: h) = sentBytes h)
    (hpub : publications ((i, c) :: h) = publications h)
    (hround : publishedRound ((i, c) :: h) = publishedRound h) {k : ℕ}
    (hcounted : k ≤ σ.readerCount) (hR : ReaderOrder (publications h) v') :
    FieldInv ((i, c) :: h) { σ with completedReaders := k } (Function.update ctx i v') where
  buffer := hI.buffer.congr _ hsent hpub hround k
  writer := by
    rw [Function.update_of_ne (Ne.symm hi)]
    exact ⟨hI.writer.mode, hI.writer.writeGeneration⟩
  counted := hcounted
  reader := by
    intro j hj
    rw [hpub]
    by_cases hji : j = i
    · subst hji
      rw [Function.update_self]
      exact hR
    · rw [Function.update_of_ne hji]
      exact hI.reader j hj

/-- **Every accepted call preserves the invariant**, whoever makes it and whenever. -/
theorem FieldInv.accepts {c : Call} {v' : SharedBufferVmState} (hI : FieldInv h σ ctx)
    (hacc : Accepts σ (ctx i) c σ' v') :
    FieldInv ((i, c) :: h) σ' (Function.update ctx i v') := by
  cases hacc with
  | deliverMode _ =>
      by_cases hi : i = 0
      · subst hi
        exact hI.of_writer (hI.buffer.congr (_ :: h) rfl rfl rfl σ.completedReaders)
          ⟨hI.writer.mode, hI.writer.writeGeneration⟩ hI.counted
      · have hR := hI.reader i hi
        exact hI.of_reader hi rfl rfl rfl hI.counted
          ⟨hR.mode, hR.last_le, hR.active_le, hR.completed⟩
  | beginWriterRound _ hm _ hidle hn =>
      obtain rfl := hI.eq_zero_of_mode hm
      exact hI.of_writer (hI.buffer.startRound hidle hn) ⟨hI.writer.mode, by simp⟩
        (Nat.zero_le _)
  | beginEmptyRound _ hm _ hidle =>
      obtain rfl := hI.eq_zero_of_mode hm
      exact hI.of_writer (hI.buffer.startEmptyRound hidle) ⟨hI.writer.mode, by simp⟩
        (Nat.zero_le _)
  | writeSharedByte _ hm _ hround hready hlt =>
      obtain rfl := hI.eq_zero_of_mode hm
      exact hI.of_writer (hI.buffer.receive hround hready _ hlt)
        ⟨hI.writer.mode, hI.writer.writeGeneration⟩ hI.counted
  | writeLastByte _ hm _ hround hready hlast =>
      obtain rfl := hI.eq_zero_of_mode hm
      exact hI.of_writer (hI.buffer.receiveLast hround hready _ hlast)
        ⟨hI.writer.mode, by simp [hround]⟩ hI.counted
  | finishWriterRound _ hm _ hw hready hgen _ =>
      obtain rfl := hI.eq_zero_of_mode hm
      exact hI.of_writer (hI.buffer.finishRound hready (by omega) _ _)
        ⟨hI.writer.mode, by simp⟩ hI.counted
  | beginReaderRound _ hm _ _ _ hnew =>
      have hi := hI.ne_zero_of_mode hm
      have hgen := hI.buffer.generation
      have hle : σ.generation ≤ publications h := by omega
      exact hI.of_reader hi rfl rfl rfl hI.counted
        ⟨hm, Nat.le_of_lt hnew, hle, fun hc => Bool.noConfusion hc⟩
  | readSharedByte _ hm =>
      have hi := hI.ne_zero_of_mode hm
      have hR := hI.reader i hi
      exact hI.of_reader hi rfl rfl rfl hI.counted
        ⟨hR.mode, hR.last_le, hR.active_le, hR.completed⟩
  | finishReaderRound _ hm _ _ _ _ hlt =>
      have hi := hI.ne_zero_of_mode hm
      have hR := hI.reader i hi
      exact hI.of_reader hi rfl rfl rfl hlt ⟨hm, Nat.le_refl _, hR.active_le, fun _ => rfl⟩

end Preservation

/-- **Every run of every guest keeps the invariant.** -/
theorem fieldInv_of_run {ok : System n → Action n → Prop} {tr : List (Event n)} {s : System n}
    (hrun : (hypervisor n).Run ok tr s) :
    FieldInv (history tr) s.shared (fun i => (s.vms i).context) := by
  refine hrun.invariant (I := fun tr s =>
    FieldInv (history tr) s.shared (fun i => (s.vms i).context)) ?_ ?_
  · exact FieldInv.initial n
  · intro tr t a e u hI _ hs
    obtain ⟨hq, hctx, hshared⟩ | ⟨i, c, v, rfl, hacc, hctx⟩ := System.step_records hs
    · rw [history_quiet hq, funext hctx]
      rcases hshared with h | h <;> rw [h]
      · exact hI
      · exact hI.abort
    · rw [history_call, hctx]
      exact hI.accepts hacc

/-! ### Access to the array -/

/-- The index at which a call made now accesses `data`, if its checks let it: the handlers
that do are `writeSharedByte` and `readSharedByte`. -/
def dataIndex (σ : SharedBufferState) (v : SharedBufferVmState) (handler : Handler) :
    Option ℕ :=
  match handler with
  | .writeSharedByte =>
    if σ.stopped ∨ ¬σ.roundInProgress ∨ σ.dataReady ∨ σ.receivedBytes ≥ σ.expectedBytes then none
    else if σ.receivedBytes < bufferSize then some σ.receivedBytes
    else none
  | .readSharedByte =>
    if σ.stopped ∨ v.activeReadGeneration ≠ σ.generation ∨ v.readOffset ≥ σ.size then none
    else some v.readOffset
  | _ => none

/-- **A call that ends stores at this index**, and only `writeSharedByte` stores. -/
theorem data_of_call {handler : Handler} {io : KvmIo} {f f' : Frame} {data : ℕ} {ok : Bool}
    (h : handler.call io f data = .done ok f') :
    f'.state.data =
      if handler = .writeSharedByte then
        (dataIndex f.state f.vm handler).elim f.state.data fun k =>
          f.state.data.setIfInBounds k (f.bytes data)
      else f.state.data := by
  cases handler with
  | writeSharedByte =>
      simp only [Handler.call, writeSharedByte, finishWriterData] at h
      simp only [dataIndex]
      split_ifs at h ⊢ <;> cases h <;> rfl
  | _ =>
      simp only [Handler.call, deliverMode, beginWriterRound, finishWriterRound, beginReaderRound,
        readSharedByte, finishReaderRound, finishWriterData] at h
      split_ifs at h <;> cases h <;> rfl

/-- **A byte read is the one at this index.** -/
theorem bytes_of_readSharedByte {f f' : Frame} {data : ℕ}
    (h : readSharedByte f data = .done true f') :
    ∃ k, dataIndex f.state f.vm .readSharedByte = some k ∧
      f'.bytes = writeUint8 f.bytes data (f.state.data[k]?.getD 0) := by
  unfold readSharedByte at h
  split_ifs at h with hguard
  · cases h
  · cases h
    exact ⟨f.vm.readOffset, if_neg hguard, rfl⟩

/-- No access is out of bounds once the size is. -/
theorem dataIndex_lt {σ : SharedBufferState} {v : SharedBufferVmState} {handler : Handler}
    {k : ℕ} (hsize : σ.size ≤ bufferSize) (h : dataIndex σ v handler = some k) :
    k < bufferSize := by
  cases handler with
  | writeSharedByte =>
      simp only [dataIndex] at h
      split_ifs at h
      cases h
      assumption
  | readSharedByte =>
      simp only [dataIndex] at h
      split_ifs at h with hguard
      cases h
      omega
  | _ => cases h

/-- What an accepted `writeSharedByte` does to the array: it stores its byte at the index it
accesses, and past the end it stores nothing. -/
theorem writeSharedByte_data {σ σ' : SharedBufferState} {v v' : SharedBufferVmState}
    {b : UInt8} {published : Option ℕ} (hacc : Accepts σ v (.writeSharedByte b published) σ' v') :
    σ'.receivedBytes = σ.receivedBytes + 1 ∧
      (bufferSize ≤ σ.receivedBytes → σ'.data = σ.data) := by
  have hdata : bufferSize ≤ σ.receivedBytes → (σ.receive b).data = σ.data := fun hle => by
    rw [SharedBufferState.receive_data, if_neg (Nat.not_lt.mpr hle)]
  cases hacc with
  | writeSharedByte => exact ⟨rfl, hdata⟩
  | writeLastByte => exact ⟨rfl, hdata⟩

/-! ### The representation invariant -/

/-- **What the records of a reachable state mean**, in terms of the history that led to
it. -/
structure Represents (h : History n) (s : System n) : Prop where
  size : s.shared.size = min s.shared.expectedBytes bufferSize
  received_le : s.shared.receivedBytes ≤ s.shared.expectedBytes
  completed_le : s.shared.completedReaders ≤ s.shared.readerCount
  received : s.shared.receivedBytes = (sentBytes h).length
  data : ∀ k, k < min s.shared.receivedBytes bufferSize →
    s.shared.data[k]? = (sentBytes h)[k]?
  notStored : ∀ i run f b published, s.handle i run = .done true f →
    exitLabel s.shared (s.vms i).context run f = some (.writeSharedByte b published) →
    bufferSize ≤ s.shared.receivedBytes →
    f.state.receivedBytes = s.shared.receivedBytes + 1 ∧ f.state.data = s.shared.data
  ready : s.shared.dataReady = true →
    s.shared.receivedBytes = s.shared.expectedBytes ∧ 1 ≤ s.shared.generation
  filling : s.shared.roundInProgress = true → s.shared.dataReady = false →
    s.shared.receivedBytes < s.shared.expectedBytes
  idle : s.shared.roundInProgress = false →
    s.shared.dataReady = true ∨ s.shared.generation = 0
  token : (s.vms 0).context.writeGeneration ≠ 0 ↔
    s.shared.roundInProgress = true ∧ s.shared.dataReady = true
  token_eq : (s.vms 0).context.writeGeneration ≠ 0 →
    (s.vms 0).context.writeGeneration = s.shared.generation
  generation : s.shared.generation = publications h
  reader : ∀ i, i ≠ 0 →
    (s.vms i).context.lastReadGeneration ≤ (s.vms i).context.activeReadGeneration ∧
    (s.vms i).context.activeReadGeneration ≤ s.shared.generation ∧
    ((s.vms i).context.readCompleted = true →
      (s.vms i).context.lastReadGeneration = (s.vms i).context.activeReadGeneration)
  inBounds : ∀ i handler k, dataIndex s.shared (s.vms i).context handler = some k →
    k < bufferSize

/-- **Every reachable state represents its history**, for any guests, as long as fewer than
`2 ^ 64` rounds have been published. -/
theorem represents_of_run {tr : List (Event n)} {s : System n}
    (hrun : (hypervisor n).Run (fun _ _ => True) tr s)
    (hrounds : publications (history tr) < 2 ^ 64) : Represents (history tr) s := by
  have hI := fieldInv_of_run hrun
  have hB := hI.buffer
  have hgen : s.shared.generation = publications (history tr) := by
    rw [hB.generation, Nat.mod_eq_of_lt hrounds]
  have hready : s.shared.dataReady = true → 1 ≤ s.shared.generation := fun hd => by
    rw [hgen]
    exact (hB.ready hd).2.1
  have htoken := hI.writer.writeGeneration
  constructor
  case size => exact hB.size
  case received_le => exact hB.received_le
  case completed_le => exact hI.counted
  case received => exact hB.received
  case data =>
    intro k hk
    exact hB.data k (by omega) (by omega)
  case notStored =>
    intro i run f b published hout hlabel hpast
    obtain ⟨c, hc, hacc⟩ := handle_accepted hout
    rw [hlabel] at hc
    cases hc
    obtain ⟨hreceived, hdata⟩ := writeSharedByte_data hacc
    exact ⟨hreceived, hdata hpast⟩
  case ready => exact fun hd => ⟨(hB.ready hd).1, hready hd⟩
  case filling => exact hB.filling
  case idle =>
    intro hround
    cases hd : s.shared.dataReady with
    | true => exact .inl rfl
    | false => exact .inr (by rw [hgen, (hB.idle hround hd).1])
  case token =>
    rw [htoken]
    split
    · next hrun => exact iff_of_true (by have := hready hrun.2; omega) hrun
    · next hrun => exact iff_of_false (fun h => h rfl) hrun
  case token_eq =>
    rw [htoken]
    split
    · exact fun _ => rfl
    · exact fun h => absurd rfl h
  case generation => exact hgen
  case reader =>
    intro i hi
    have hR := hI.reader i hi
    exact ⟨hR.last_le, by rw [hgen]; exact hR.active_le, hR.completed⟩
  case inBounds =>
    intro i handler k hk
    refine dataIndex_lt ?_ hk
    rw [hB.size]
    exact Nat.min_le_right _ _

/-- The state in which the writer's status read is due represents a published round of one
byte. -/
theorem represents_of_run_oneByteRound : ∃ (tr : List (Event 1)) (s : System 1),
    (hypervisor 1).Run (fun _ _ => True) tr s ∧ publications (history tr) = 1 ∧
      Represents (history tr) s := by
  have hexec : ((hypervisor 1).exec (fun _ _ => True) (hypervisor 1).init oneByteRound).map
      (fun p => publications (history p.1)) = some 1 := by decide
  obtain ⟨tr, s, hrun, hcount⟩ := Machine.exists_of_exec hexec
  exact ⟨tr, s, hrun, hcount, represents_of_run hrun (by rw [hcount]; decide)⟩

end KvmHypervisor
