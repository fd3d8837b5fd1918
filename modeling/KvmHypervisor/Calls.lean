import KvmHypervisor.SharedBuffer
import Mathlib.Tactic.Simps.Basic
import Mathlib.Tactic.SplitIfs

/-!
# What a Handler Call Can Do

The inversion layer over the handlers. Every accepted call carries a label, `Call`, that
names the handler and the values that passed between guest and host, read off the actual
data bytes; a call that published a generation says so. `Accepts σ v c σ' v'` lists once
what each accepted call found and what it left behind. Every later invariant is a case
analysis of `Accepts` and unfolds no handler.

## Main results

* `selectHandler_cases`: what the dispatcher has checked when it calls a handler.
* `handle_accepted`: an accepted exit is one of the cases of `Accepts`.
* `handle_rejected`: a rejected exit changes neither record nor the data bytes.
* `handle_wait`: an exit that parks is for one of the three waiting handlers, with the
  predicate of its wait false.
-/

namespace KvmHypervisor

/-! ### Labels -/

/-- An accepted handler call, with the values it exchanged. The `published` field of the
two calls that can run `finishWriterData` is the generation it published, if it did. -/
inductive Call where
  | deliverMode (mode : UInt8)
  | beginWriterRound (requestedBytes : ℕ) (published : Option ℕ)
  | writeSharedByte (value : UInt8) (published : Option ℕ)
  | finishWriterRound (generation count : ℕ)
  | beginReaderRound (generation count : ℕ)
  | readSharedByte (value : UInt8)
  | finishReaderRound (generation reportedBytes : ℕ)
deriving DecidableEq

/-- The generation a call published, if any. -/
def Call.published : Call → Option ℕ
  | .beginWriterRound _ published => published
  | .writeSharedByte _ published => published
  | _ => none

/-- The value an IN instruction returns to the guest; `0` for OUT. -/
def Call.response : Call → ℕ
  | .deliverMode mode => mode.toNat
  | .finishWriterRound _ count => count
  | .beginReaderRound _ count => count
  | .readSharedByte value => value.toNat
  | _ => 0

/-- The handler a label stands for. -/
def Call.handler : Call → Handler
  | .deliverMode _ => .deliverMode
  | .beginWriterRound _ _ => .beginWriterRound
  | .writeSharedByte _ _ => .writeSharedByte
  | .finishWriterRound _ _ => .finishWriterRound
  | .beginReaderRound _ _ => .beginReaderRound
  | .readSharedByte _ => .readSharedByte
  | .finishReaderRound _ _ => .finishReaderRound

/-- `generation` moves only in `finishWriterData`, so a moved generation is a published
one. -/
def publishedBetween (before after : SharedBufferState) : Option ℕ :=
  if after.generation = before.generation then none else some after.generation

/-- The label of a call of `handler` that turned `before` into `after`. -/
def Handler.label (handler : Handler) (data : ℕ) (before after : Frame) : Call :=
  match handler with
  | .deliverMode => .deliverMode (after.bytes data)
  | .beginWriterRound =>
    .beginWriterRound (readUint32 before.bytes data) (publishedBetween before.state after.state)
  | .writeSharedByte =>
    .writeSharedByte (before.bytes data) (publishedBetween before.state after.state)
  | .finishWriterRound => .finishWriterRound before.vm.writeGeneration (readUint32 after.bytes data)
  | .beginReaderRound =>
    .beginReaderRound after.vm.activeReadGeneration (readUint32 after.bytes data)
  | .readSharedByte => .readSharedByte (after.bytes data)
  | .finishReaderRound =>
    .finishReaderRound before.vm.activeReadGeneration (readUint32 before.bytes data)

@[simp] theorem Handler.handler_label (handler : Handler) (data : ℕ) (before after : Frame) :
    (handler.label data before after).handler = handler := by
  cases handler <;> rfl

/-! ### The cases of an accepted call -/

/-- The generation after the current one, with the wrap of `uint64_t`. -/
def SharedBufferState.nextGeneration (σ : SharedBufferState) : ℕ :=
  (σ.generation + 1) % 2 ^ 64

/-- The record after `beginWriterRound` has started a round of `n` bytes. -/
@[simps]
def SharedBufferState.startRound (σ : SharedBufferState) (n : ℕ) : SharedBufferState :=
  { σ with
    expectedBytes := n
    receivedBytes := 0
    size := min n bufferSize
    completedReaders := 0
    dataReady := false
    roundInProgress := true }

/-- The record after `writeSharedByte` has consumed one byte. -/
@[simps]
def SharedBufferState.receive (σ : SharedBufferState) (value : UInt8) : SharedBufferState :=
  { σ with
    data :=
      if σ.receivedBytes < bufferSize then σ.data.setIfInBounds σ.receivedBytes value
      else σ.data
    receivedBytes := σ.receivedBytes + 1 }

/-- The record after `finishWriterData`. -/
@[simps]
def SharedBufferState.publish (σ : SharedBufferState) : SharedBufferState :=
  { σ with dataReady := true, generation := σ.nextGeneration }

@[simp] theorem SharedBufferState.nextGeneration_startRound (σ : SharedBufferState) (n : ℕ) :
    (σ.startRound n).nextGeneration = σ.nextGeneration := rfl

@[simp] theorem SharedBufferState.nextGeneration_receive (σ : SharedBufferState) (b : UInt8) :
    (σ.receive b).nextGeneration = σ.nextGeneration := rfl

/-- `Accepts σ v c σ' v'`: a call labelled `c`, made by a VM whose record is `v` while the
shared record is `σ`, is accepted and leaves `σ'` and `v'`. -/
inductive Accepts (σ : SharedBufferState) (v : SharedBufferVmState) :
    Call → SharedBufferState → SharedBufferVmState → Prop
  | deliverMode : v.modeDelivered = false →
      Accepts σ v (.deliverMode v.mode) σ { v with modeDelivered := true }
  | beginWriterRound {n : ℕ} : v.modeDelivered = true → v.mode = vmModeWriter →
      σ.stopped = false → σ.roundInProgress = false → 0 < n →
      Accepts σ v (.beginWriterRound n none) (σ.startRound n) { v with writeGeneration := 0 }
  | beginEmptyRound : v.modeDelivered = true → v.mode = vmModeWriter →
      σ.stopped = false → σ.roundInProgress = false →
      Accepts σ v (.beginWriterRound 0 (some σ.nextGeneration)) (σ.startRound 0).publish
        { v with writeGeneration := σ.nextGeneration }
  | writeSharedByte {b : UInt8} : v.modeDelivered = true → v.mode = vmModeWriter →
      σ.stopped = false → σ.roundInProgress = true → σ.dataReady = false →
      σ.receivedBytes + 1 < σ.expectedBytes →
      Accepts σ v (.writeSharedByte b none) (σ.receive b) v
  | writeLastByte {b : UInt8} : v.modeDelivered = true → v.mode = vmModeWriter →
      σ.stopped = false → σ.roundInProgress = true → σ.dataReady = false →
      σ.receivedBytes + 1 = σ.expectedBytes →
      Accepts σ v (.writeSharedByte b (some σ.nextGeneration)) (σ.receive b).publish
        { v with writeGeneration := σ.nextGeneration }
  | finishWriterRound : v.modeDelivered = true → v.mode = vmModeWriter →
      σ.stopped = false → v.writeGeneration ≠ 0 → σ.dataReady = true →
      σ.generation = v.writeGeneration → σ.completedReaders = σ.readerCount →
      Accepts σ v (.finishWriterRound v.writeGeneration (σ.size % 2 ^ 32))
        { σ with roundInProgress := false }
        { v with writeGeneration := 0, transferCompleted := true }
  | beginReaderRound : v.modeDelivered = true → v.mode = vmModeReader →
      σ.stopped = false →
      ¬(v.lastReadGeneration < v.activeReadGeneration ∧ v.readCompleted = false) →
      σ.dataReady = true → v.lastReadGeneration < σ.generation →
      Accepts σ v (.beginReaderRound σ.generation (σ.size % 2 ^ 32)) σ
        { v with readOffset := 0, activeReadGeneration := σ.generation, readCompleted := false }
  | readSharedByte : v.modeDelivered = true → v.mode = vmModeReader →
      σ.stopped = false → v.activeReadGeneration = σ.generation → v.readOffset < σ.size →
      Accepts σ v (.readSharedByte (σ.data[v.readOffset]?.getD 0)) σ
        { v with readOffset := v.readOffset + 1 }
  | finishReaderRound : v.modeDelivered = true → v.mode = vmModeReader →
      σ.stopped = false → v.readCompleted = false → v.activeReadGeneration = σ.generation →
      v.readOffset = σ.size → σ.completedReaders < σ.readerCount →
      Accepts σ v (.finishReaderRound v.activeReadGeneration σ.size)
        { σ with completedReaders := σ.completedReaders + 1 }
        { v with
          readCompleted := true
          lastReadGeneration := v.activeReadGeneration
          transferCompleted := true }

/-- No handler sets or clears `stopped`. -/
theorem Accepts.stopped_eq {σ σ' : SharedBufferState} {v v' : SharedBufferVmState} {c : Call}
    (h : Accepts σ v c σ' v') : σ'.stopped = σ.stopped := by
  cases h <;> rfl

/-- No handler changes a mode. -/
theorem Accepts.mode_eq {σ σ' : SharedBufferState} {v v' : SharedBufferVmState} {c : Call}
    (h : Accepts σ v c σ' v') : v'.mode = v.mode := by
  cases h <;> rfl

/-- The calls of a reader leave the phase of the shared record alone. -/
theorem Accepts.phase_of_reader {σ σ' : SharedBufferState} {v v' : SharedBufferVmState}
    {c : Call} (h : Accepts σ v c σ' v') (hm : v.mode = vmModeReader) :
    σ'.roundInProgress = σ.roundInProgress ∧ σ'.dataReady = σ.dataReady := by
  cases h with
  | deliverMode | beginReaderRound | readSharedByte | finishReaderRound => exact ⟨rfl, rfl⟩
  | beginWriterRound _ hm' | beginEmptyRound _ hm' | writeSharedByte _ hm' | writeLastByte _ hm'
  | finishWriterRound _ hm' =>
      rw [hm] at hm'
      exact absurd hm' (by decide)

/-- Every accepted call leaves its VM with its mode delivered. -/
theorem Accepts.delivered {σ σ' : SharedBufferState} {v v' : SharedBufferVmState} {c : Call}
    (h : Accepts σ v c σ' v') : v'.modeDelivered = true := by
  cases h <;> first | rfl | assumption

/-! ### Inversion of the dispatcher -/

/-- What the dispatcher has checked of the calling VM before it calls a handler. -/
def Handler.Permitted (handler : Handler) (v : SharedBufferVmState) : Prop :=
  match handler with
  | .deliverMode => v.modeDelivered = false
  | .beginWriterRound | .writeSharedByte | .finishWriterRound =>
    v.modeDelivered = true ∧ v.mode = vmModeWriter
  | .beginReaderRound | .readSharedByte | .finishReaderRound =>
    v.modeDelivered = true ∧ v.mode = vmModeReader

/-- The exits a handler accepts. -/
def Handler.Serves (handler : Handler) (io : KvmIo) : Prop :=
  match handler with
  | .deliverMode | .readSharedByte =>
    io.port = sharedBufferPort ∧ io.direction = kvmExitIoIn ∧ io.size = 1
  | .beginWriterRound => io.port = sharedBufferPort ∧ io.direction = kvmExitIoOut ∧ io.size = 4
  | .writeSharedByte => io.port = sharedBufferPort ∧ io.direction = kvmExitIoOut ∧ io.size = 1
  | .finishWriterRound =>
    io.port = sharedBufferStatusPort ∧ io.direction = kvmExitIoIn ∧ io.size = 4
  | .beginReaderRound => io.port = sharedBufferPort ∧ io.direction = kvmExitIoIn ∧ io.size = 4
  | .finishReaderRound =>
    io.port = sharedBufferStatusPort ∧ io.direction = kvmExitIoOut ∧ io.size = 4

/-- **What the dispatcher has checked** when it calls a handler. It leaves the exit to
`deliverMode`, which checks it itself. -/
theorem selectHandler_cases {v : SharedBufferVmState} {run : KvmRun} {handler : Handler}
    {data : ℕ} (h : selectHandler v run = some (handler, data)) :
    getIoData run = some data ∧ handler.Permitted v ∧
      (handler = .deliverMode ∨ handler.Serves run.io) := by
  rw [selectHandler] at h
  cases hdata : getIoData run with
  | none => simp [hdata] at h
  | some data' =>
      rw [hdata] at h
      dsimp only at h
      split_ifs at h with hport hdelivered hwriter hbegin hsend hreader hnext hread hfinish hack
        <;> cases h
      · exact ⟨rfl, ⟨hdelivered, hwriter.2⟩, .inr ⟨hwriter.1, hbegin⟩⟩
      · exact ⟨rfl, ⟨hdelivered, hwriter.2⟩, .inr ⟨hwriter.1, hsend⟩⟩
      · exact ⟨rfl, ⟨hdelivered, hreader.2⟩, .inr ⟨hreader.1, hnext⟩⟩
      · exact ⟨rfl, ⟨hdelivered, hreader.2⟩, .inr ⟨hreader.1, hread⟩⟩
      · exact ⟨rfl, ⟨hdelivered, hfinish.2.1⟩, .inr ⟨hfinish.1, hfinish.2.2⟩⟩
      · exact ⟨rfl, ⟨hdelivered, hack.2.1⟩, .inr ⟨hack.1, hack.2.2⟩⟩
      · exact ⟨rfl, eq_false_of_ne_true hdelivered, .inl rfl⟩

theorem selectHandler_permitted {v : SharedBufferVmState} {run : KvmRun} {handler : Handler}
    {data : ℕ} (h : selectHandler v run = some (handler, data)) : handler.Permitted v :=
  (selectHandler_cases h).2.1

/-! ### Inversion of the handlers -/

section Inversion

variable {f f' : Frame} {io : KvmIo} {data : ℕ}

theorem publishedBetween_publish (σ τ : SharedBufferState)
    (h : τ.generation = σ.nextGeneration) : publishedBetween σ τ = some σ.nextGeneration := by
  have hne : τ.generation ≠ σ.generation := by
    rw [h, SharedBufferState.nextGeneration]
    omega
  rw [publishedBetween, if_neg hne, h]

/-- A handler that returns `false` leaves its frame as it found it. -/
theorem call_rejected {handler : Handler} (h : handler.call io f data = .done false f') :
    f' = f := by
  cases handler <;>
    simp only [Handler.call, deliverMode, beginWriterRound, writeSharedByte, finishWriterRound,
      beginReaderRound, readSharedByte, finishReaderRound] at h <;>
    split_ifs at h <;> cases h <;> rfl

/-- The reply of `writeUint8` is what the guest reads at the data pointer. -/
theorem writeUint8_self (bytes : ℕ → UInt8) (p : ℕ) (b : UInt8) : writeUint8 bytes p b p = b :=
  if_pos rfl

/-- `writeUint32` followed by `readUint32` reduces modulo `2 ^ 32`. -/
theorem readUint32_writeUint32_mod (bytes : ℕ → UInt8) (p n : ℕ) :
    readUint32 (writeUint32 bytes p n) p = n % 2 ^ 32 := by
  simp only [readUint32, writeUint32]
  simp
  omega

theorem deliverMode_accepted (hv : f.vm.modeDelivered = false)
    (h : deliverMode io f data = .done true f') :
    Accepts f.state f.vm (Handler.deliverMode.label data f f') f'.state f'.vm := by
  unfold deliverMode at h
  split_ifs at h
  · cases h
  · cases h
    simp only [Handler.label, writeUint8_self]
    exact .deliverMode hv

theorem beginWriterRound_accepted (hv : f.vm.modeDelivered = true ∧ f.vm.mode = vmModeWriter)
    (h : beginWriterRound f data = .done true f') :
    Accepts f.state f.vm (Handler.beginWriterRound.label data f f') f'.state f'.vm := by
  unfold beginWriterRound at h
  dsimp only at h
  split_ifs at h with hwait hstop hzero
  · cases h
  · cases h
    have hstop : f.state.stopped = false := by simpa using hstop
    have hidle : f.state.roundInProgress = false := by simpa [hstop] using hwait
    simp only [Handler.label, finishWriterData, hzero]
    rw [publishedBetween_publish _ _ rfl]
    exact .beginEmptyRound hv.1 hv.2 hstop hidle
  · cases h
    have hstop : f.state.stopped = false := by simpa using hstop
    have hidle : f.state.roundInProgress = false := by simpa [hstop] using hwait
    simp only [Handler.label, publishedBetween, ↓reduceIte]
    exact .beginWriterRound hv.1 hv.2 hstop hidle (Nat.pos_of_ne_zero hzero)

theorem writeSharedByte_accepted (hv : f.vm.modeDelivered = true ∧ f.vm.mode = vmModeWriter)
    (h : writeSharedByte f (f.bytes data) = .done true f') :
    Accepts f.state f.vm (Handler.writeSharedByte.label data f f') f'.state f'.vm := by
  unfold writeSharedByte at h
  dsimp only at h
  by_cases hguard : f.state.stopped ∨ ¬f.state.roundInProgress ∨ f.state.dataReady ∨
      f.state.receivedBytes ≥ f.state.expectedBytes
  · rw [if_pos hguard] at h
    cases h
  · rw [if_neg hguard] at h
    simp only [not_or, Bool.not_eq_true, Bool.not_eq_false, ge_iff_le, Nat.not_le] at hguard
    obtain ⟨hstop, hround, hready, hlt⟩ := hguard
    by_cases hlast : f.state.receivedBytes + 1 = f.state.expectedBytes
    · rw [if_pos hlast] at h
      cases h
      simp only [Handler.label, finishWriterData]
      rw [publishedBetween_publish _ _ rfl]
      exact .writeLastByte hv.1 hv.2 hstop hround hready hlast
    · rw [if_neg hlast] at h
      cases h
      simp only [Handler.label, publishedBetween, ↓reduceIte]
      exact .writeSharedByte hv.1 hv.2 hstop hround hready (by omega)

theorem finishWriterRound_accepted (hv : f.vm.modeDelivered = true ∧ f.vm.mode = vmModeWriter)
    (h : finishWriterRound f data = .done true f') :
    Accepts f.state f.vm (Handler.finishWriterRound.label data f f') f'.state f'.vm := by
  unfold finishWriterRound at h
  dsimp only at h
  split_ifs at h with hzero hwait hstop
  · cases h
  · cases h
  · cases h
    have hstop : f.state.stopped = false := by simpa using hstop
    obtain ⟨hready, hgen, hall⟩ : f.state.dataReady = true ∧
        f.state.generation = f.vm.writeGeneration ∧
        f.state.completedReaders = f.state.readerCount := by simpa [hstop] using hwait
    simp only [Handler.label, readUint32_writeUint32_mod]
    exact .finishWriterRound hv.1 hv.2 hstop hzero hready hgen hall

theorem beginReaderRound_accepted (hv : f.vm.modeDelivered = true ∧ f.vm.mode = vmModeReader)
    (h : beginReaderRound f data = .done true f') :
    Accepts f.state f.vm (Handler.beginReaderRound.label data f f') f'.state f'.vm := by
  unfold beginReaderRound at h
  split_ifs at h with hopen hwait hstop
  · cases h
  · cases h
  · cases h
    have hstop : f.state.stopped = false := by simpa using hstop
    obtain ⟨hready, hgen⟩ : f.state.dataReady = true ∧
        f.vm.lastReadGeneration < f.state.generation := by simpa [hstop] using hwait
    simp only [Handler.label, readUint32_writeUint32_mod]
    exact .beginReaderRound hv.1 hv.2 hstop (by simpa using hopen) hready hgen

theorem readSharedByte_accepted (hv : f.vm.modeDelivered = true ∧ f.vm.mode = vmModeReader)
    (h : readSharedByte f data = .done true f') :
    Accepts f.state f.vm (Handler.readSharedByte.label data f f') f'.state f'.vm := by
  unfold readSharedByte at h
  split_ifs at h with hguard
  · cases h
  · cases h
    simp only [not_or, Bool.not_eq_true, ne_eq, Decidable.not_not, ge_iff_le, Nat.not_le] at hguard
    obtain ⟨hstop, hactive, hlt⟩ := hguard
    simp only [Handler.label, writeUint8_self]
    exact .readSharedByte hv.1 hv.2 hstop hactive hlt

theorem finishReaderRound_accepted (hv : f.vm.modeDelivered = true ∧ f.vm.mode = vmModeReader)
    (h : finishReaderRound f data = .done true f') :
    Accepts f.state f.vm (Handler.finishReaderRound.label data f f') f'.state f'.vm := by
  unfold finishReaderRound at h
  dsimp only at h
  split_ifs at h with hguard
  · cases h
  · cases h
    simp only [not_or, Bool.not_eq_true, ne_eq, Decidable.not_not, ge_iff_le, Nat.not_le] at hguard
    obtain ⟨hstop, hcompleted, hactive, hoffset, hreported, hcount⟩ := hguard
    simp only [Handler.label, hreported]
    exact .finishReaderRound hv.1 hv.2 hstop hcompleted hactive hoffset hcount

/-- **An accepted handler call is one of the cases of `Accepts`.** -/
theorem call_accepted {handler : Handler} (hv : handler.Permitted f.vm)
    (h : handler.call io f data = .done true f') :
    Accepts f.state f.vm (handler.label data f f') f'.state f'.vm := by
  cases handler with
  | deliverMode => exact deliverMode_accepted hv h
  | beginWriterRound => exact beginWriterRound_accepted hv h
  | writeSharedByte => exact writeSharedByte_accepted hv h
  | finishWriterRound => exact finishWriterRound_accepted hv h
  | beginReaderRound => exact beginReaderRound_accepted hv h
  | readSharedByte => exact readSharedByte_accepted hv h
  | finishReaderRound => exact finishReaderRound_accepted hv h

end Inversion

/-! ### The whole dispatcher -/

/-- The label of an accepted exit. -/
def exitLabel (state : SharedBufferState) (v : SharedBufferVmState) (run : KvmRun)
    (after : Frame) : Option Call :=
  (selectHandler v run).map fun (handler, data) =>
    handler.label data { state, vm := v, bytes := run.bytes, notified := false } after

section Dispatcher

variable {σ : SharedBufferState} {v : SharedBufferVmState} {run : KvmRun} {f : Frame}

/-- A label tells which handler was selected, and holds what passed through its data. -/
theorem exitLabel_eq_some {c : Call} (h : exitLabel σ v run f = some c) :
    ∃ data, selectHandler v run = some (c.handler, data) ∧
      c.handler.label data ⟨σ, v, run.bytes, false⟩ f = c := by
  rw [exitLabel, Option.map_eq_some_iff] at h
  obtain ⟨⟨handler, data⟩, hsel, rfl⟩ := h
  simp only [Handler.handler_label]
  exact ⟨data, hsel, rfl⟩

/-- The dispatcher rejects an exit as it is, or calls the handler it has selected. -/
theorem handleSharedBufferIo_cases (σ : SharedBufferState) (v : SharedBufferVmState)
    (run : KvmRun) :
    (selectHandler v run = none ∧
        handleSharedBufferIo σ v run = .done false ⟨σ, v, run.bytes, false⟩) ∨
      ∃ handler data, selectHandler v run = some (handler, data) ∧
        handleSharedBufferIo σ v run = handler.call run.io ⟨σ, v, run.bytes, false⟩ data := by
  rw [handleSharedBufferIo]
  cases hsel : selectHandler v run with
  | none => exact .inl ⟨rfl, rfl⟩
  | some pair => exact .inr ⟨pair.1, pair.2, rfl, rfl⟩

/-- **An accepted exit is one of the cases of `Accepts`**, under its label. -/
theorem handle_accepted (h : handleSharedBufferIo σ v run = .done true f) :
    ∃ c, exitLabel σ v run f = some c ∧ Accepts σ v c f.state f.vm := by
  obtain ⟨-, hcall⟩ | ⟨handler, data, hsel, hcall⟩ := handleSharedBufferIo_cases σ v run
  · rw [hcall] at h
    cases h
  · rw [hcall] at h
    refine ⟨_, by rw [exitLabel, hsel]; rfl, ?_⟩
    exact call_accepted (selectHandler_permitted hsel) h

/-- **A rejected exit changes nothing**: neither record, nor the data bytes. -/
theorem handle_rejected (h : handleSharedBufferIo σ v run = .done false f) :
    f.state = σ ∧ f.vm = v ∧ f.bytes = run.bytes ∧ f.notified = false := by
  obtain ⟨-, hcall⟩ | ⟨handler, data, -, hcall⟩ := handleSharedBufferIo_cases σ v run
  · rw [hcall] at h
    cases h
    exact ⟨rfl, rfl, rfl, rfl⟩
  · rw [hcall] at h
    obtain rfl := call_rejected h
    exact ⟨rfl, rfl, rfl, rfl⟩

/-- What a handler that parks has found: it is one of the three that wait, and the predicate
of its wait is false. -/
def Handler.WaitsIn (handler : Handler) (σ : SharedBufferState) (v : SharedBufferVmState) :
    Prop :=
  match handler with
  | .beginWriterRound => σ.roundInProgress = true
  | .finishWriterRound => v.writeGeneration ≠ 0 ∧
    ¬(σ.dataReady = true ∧ σ.generation = v.writeGeneration ∧
      σ.completedReaders = σ.readerCount)
  | .beginReaderRound =>
    ¬(v.lastReadGeneration < v.activeReadGeneration ∧ v.readCompleted = false) ∧
    ¬(σ.dataReady = true ∧ v.lastReadGeneration < σ.generation)
  | _ => False

theorem call_wait {handler : Handler} {io : KvmIo} {data : ℕ}
    (h : handler.call io f data = .wait) :
    f.state.stopped = false ∧ handler.WaitsIn f.state f.vm := by
  cases handler with
  | beginWriterRound =>
      simp only [Handler.call, beginWriterRound] at h
      split_ifs at h with hwait
      simpa [Handler.WaitsIn] using hwait
  | finishWriterRound =>
      simp only [Handler.call, finishWriterRound] at h
      split_ifs at h with hzero hwait
      exact ⟨by simpa using fun hs => hwait (.inl hs), hzero, fun hp => hwait (.inr hp)⟩
  | beginReaderRound =>
      simp only [Handler.call, beginReaderRound] at h
      split_ifs at h with hopen hwait
      exact ⟨by simpa using fun hs => hwait (.inl hs), by simpa using hopen,
        fun hp => hwait (.inr hp)⟩
  | _ =>
      simp only [Handler.call, deliverMode, writeSharedByte, readSharedByte,
        finishReaderRound] at h
      split_ifs at h

/-- **An exit that parks** is for one of the three waiting handlers, with the predicate of
its wait false. -/
theorem handle_wait (h : handleSharedBufferIo σ v run = .wait) :
    ∃ handler data, selectHandler v run = some (handler, data) ∧ σ.stopped = false ∧
      handler.WaitsIn σ v := by
  obtain ⟨-, hcall⟩ | ⟨handler, data, hsel, hcall⟩ := handleSharedBufferIo_cases σ v run
  · rw [hcall] at h
    cases h
  · rw [hcall] at h
    obtain ⟨hstop, hwaits⟩ := call_wait h
    exact ⟨handler, data, hsel, hstop, hwaits⟩

end Dispatcher

end KvmHypervisor
