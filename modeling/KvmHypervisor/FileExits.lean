import Mathlib.Data.List.GetD
import KvmHypervisor.Calls
import KvmHypervisor.ExitLoop
import KvmHypervisor.RequestCases

/-!
# Exits of the File Port

`handleFileIo`. A guest asks for a file operation with two exits on port `0x278`. An OUT
carries the address of a request in guest memory; the host decodes the 24 bytes there, serves
the request, and keeps its result. An IN fetches the result that was kept last.

## Main results

* `handleFileIo_out`, `handleFileIo_in`: the handler on the exits it accepts.
* `submitRequest_memory`: guest memory changes only where a read has stored its data.
* `submitRequest_int32`: a result is a 32-bit integer, so that a guest gets it unchanged.
-/

namespace KvmHypervisor

open PosixFiles

/-! ### Requests in guest memory -/

/-- `sizeof(file_request)`. -/
def fileRequestSize : ℕ := 24

/-- Four bytes, least significant first, as a signed integer. -/
def readInt32 (bytes : ℕ → UInt8) (data : ℕ) : ℤ :=
  (BitVec.ofNat 32 (readUint32 bytes data)).toInt

/-- The bits of a signed integer. -/
def toUint32 (value : ℤ) : ℕ :=
  (BitVec.ofInt 32 value).toNat

/-- The `file_request` at an address. -/
def FileRequest.decode (bytes : ℕ → UInt8) (start : ℕ) : FileRequest where
  operation := readUint32 bytes start
  descriptor := readInt32 bytes (start + 4)
  buffer := readUint32 bytes (start + 8)
  count := readInt32 bytes (start + 12)
  offset := readInt32 bytes (start + 16)
  flags := BitVec.ofNat 32 (readUint32 bytes (start + 20))

/-- The values of `std::int32_t`. -/
def IsInt32 (value : ℤ) : Prop :=
  -2 ^ 31 ≤ value ∧ value < 2 ^ 31

theorem isInt32_readInt32 (bytes : ℕ → UInt8) (data : ℕ) : IsInt32 (readInt32 bytes data) :=
  ⟨BitVec.le_toInt _, BitVec.toInt_lt⟩

theorem readUint32_lt (bytes : ℕ → UInt8) (data : ℕ) : readUint32 bytes data < 2 ^ 32 := by
  have h₀ := (bytes data).toNat_lt
  have h₁ := (bytes (data + 1)).toNat_lt
  have h₂ := (bytes (data + 2)).toNat_lt
  have h₃ := (bytes (data + 3)).toNat_lt
  rw [readUint32]
  omega

/-- A 32-bit integer survives the run mapping. -/
theorem readInt32_writeUint32 (bytes : ℕ → UInt8) (data : ℕ) {value : ℤ} (h : IsInt32 value) :
    readInt32 (writeUint32 bytes data (toUint32 value)) data = value := by
  rw [readInt32, toUint32, readUint32_writeUint32 _ _ (BitVec.isLt _), BitVec.ofNat_toNat,
    BitVec.setWidth_eq, BitVec.toInt_ofInt]
  exact Int.bmod_eq_of_le (by have := h.1; omega) (by have := h.2; omega)

/-! ### The handler -/

/-- Keep a result for the guest. -/
def FileState.push (s : FileState) (result : ℤ) : FileState :=
  { s with pendingResults := s.pendingResults ++ [result] }

/-- The result an IN fetches: the one kept last. -/
def FileState.fetch (s : FileState) : ℤ :=
  s.pendingResults.getLast?.getD (-1)

/-- The state after a result was fetched. -/
def FileState.pop (s : FileState) : FileState :=
  { s with pendingResults := s.pendingResults.dropLast }

@[simp] theorem pendingResults_push (s : FileState) (result : ℤ) :
    (s.push result).pendingResults = s.pendingResults ++ [result] := rfl
@[simp] theorem nextDescriptor_push (s : FileState) (result : ℤ) :
    (s.push result).nextDescriptor = s.nextDescriptor := rfl
@[simp] theorem openFiles_push (s : FileState) (result : ℤ) :
    (s.push result).openFiles = s.openFiles := rfl
@[simp] theorem pendingResults_pop (s : FileState) :
    s.pop.pendingResults = s.pendingResults.dropLast := rfl
@[simp] theorem nextDescriptor_pop (s : FileState) : s.pop.nextDescriptor = s.nextDescriptor := rfl
@[simp] theorem openFiles_pop (s : FileState) : s.pop.openFiles = s.openFiles := rfl

/-- What one exit leaves behind: the bytes of the run mapping, the guest memory, the file state
of the VM and the host. -/
structure FileIoFrame where
  bytes : ℕ → UInt8
  memory : GuestMemory
  state : FileState
  host : Host HostPath

/-- The checks at the top of `handleFileIo`: the offset of the data in the run mapping. -/
def getFileIoData (run : KvmRun) : Option ℕ :=
  if run.io.port ≠ fileIoPort ∨ run.io.size ≠ 4 ∨ run.io.count ≠ 1 then none
  else if run.io.dataOffset > run.runMmapSize ∨ 4 > run.runMmapSize - run.io.dataOffset then none
  else some run.io.dataOffset

/-- The data are where the exit says. -/
theorem getFileIoData_eq_some {run : KvmRun} {data : ℕ} (h : getFileIoData run = some data) :
    data = run.io.dataOffset := by
  rw [getFileIoData] at h
  split_ifs at h
  exact (Option.some.inj h).symm

section Handler

variable (sys : HostSystem) (context : GuestContext)

/-- The OUT branch up to the result: serve the request at an address, if it lies in guest
memory. -/
def submitRequest (memory : GuestMemory) (requestAddress : ℕ) (s : FileState)
    (h : Host HostPath) : Reply :=
  match getGuestMemory memory requestAddress fileRequestSize with
  | none => Reply.failed memory s h
  | some start =>
    processFileRequest sys context memory (.decode memory.bytes start) s h

/-- `handleFileIo`: `none` when it returns `false`, and then nothing has changed. -/
def handleFileIo (run : KvmRun) (memory : GuestMemory) (s : FileState) (h : Host HostPath) :
    Option FileIoFrame :=
  match getFileIoData run with
  | none => none
  | some data =>
    if run.io.direction = kvmExitIoOut then
      let reply := submitRequest sys context memory (readUint32 run.bytes data) s h
      some ⟨run.bytes, reply.memory, reply.state.push reply.result, reply.host⟩
    else if run.io.direction = kvmExitIoIn then
      some ⟨writeUint32 run.bytes data (toUint32 s.fetch), memory, s.pop, h⟩
    else none

end Handler

section Handled

variable {sys : HostSystem} {context : GuestContext} {run : KvmRun} {memory : GuestMemory}
variable {s : FileState} {h : Host HostPath} {frame : FileIoFrame} {data : ℕ}

/-- An OUT serves a request. -/
theorem handleFileIo_out (hdata : getFileIoData run = some data)
    (hdirection : run.io.direction = kvmExitIoOut) {reply : Reply}
    (hreply : submitRequest sys context memory (readUint32 run.bytes data) s h = reply) :
    handleFileIo sys context run memory s h =
      some ⟨run.bytes, reply.memory, reply.state.push reply.result, reply.host⟩ := by
  subst hreply
  rw [handleFileIo, hdata]
  exact if_pos hdirection

/-- An IN fetches a result. -/
theorem handleFileIo_in (hdata : getFileIoData run = some data)
    (hdirection : run.io.direction = kvmExitIoIn) :
    handleFileIo sys context run memory s h =
      some ⟨writeUint32 run.bytes data (toUint32 s.fetch), memory, s.pop, h⟩ := by
  rw [handleFileIo, hdata]
  dsimp only
  rw [if_neg (by rw [hdirection]; decide), if_pos hdirection]

/-- **What the handler accepts**: an OUT or an IN. -/
theorem handleFileIo_cases (hframe : handleFileIo sys context run memory s h = some frame) :
    ∃ data, getFileIoData run = some data ∧
      ((run.io.direction = kvmExitIoOut ∧ ∃ reply,
          submitRequest sys context memory (readUint32 run.bytes data) s h = reply ∧
          frame = ⟨run.bytes, reply.memory, reply.state.push reply.result, reply.host⟩) ∨
        (run.io.direction = kvmExitIoIn ∧
          frame = ⟨writeUint32 run.bytes data (toUint32 s.fetch), memory, s.pop, h⟩)) := by
  rw [handleFileIo] at hframe
  cases hdata : getFileIoData run with
  | none =>
      rw [hdata] at hframe
      cases hframe
  | some data =>
      rw [hdata] at hframe
      dsimp only at hframe
      refine ⟨data, rfl, ?_⟩
      split_ifs at hframe with hout hin
      · exact .inl ⟨hout, _, rfl, (Option.some.inj hframe).symm⟩
      · exact .inr ⟨hin, (Option.some.inj hframe).symm⟩

end Handled

/-! ### What a request does to guest memory -/

section Memory

variable (sys : HostSystem) (context : GuestContext) (memory : GuestMemory)
variable (request : FileRequest) (s : FileState) (h : Host HostPath)

/-- A reply stores what a read returns, and nothing else. -/
def StoresResult (reply : Reply) : Prop :=
  reply.memory = memory ∨
    ∃ data : List UInt8, FileOperation.ofCode request.operation = some .read ∧
      reply.result = data.length ∧ (data.length : ℤ) ≤ request.count ∧
      request.buffer + data.length ≤ memory.size ∧
      reply.memory = memory.store request.buffer data

/-- Reading stores its data in the buffer of the request. -/
theorem readFile_storesResult (hop : FileOperation.ofCode request.operation = some .read) :
    StoresResult memory request (readFile sys memory request s h) := by
  rw [readFile]
  cases s.openFiles.lookup request.descriptor with
  | none => exact .inl rfl
  | some file =>
      dsimp only
      split_ifs with hrefused hzero
      · exact .inl rfl
      · exact .inl rfl
      · cases hbuffer : getGuestMemory memory request.buffer request.count.toNat with
        | none => exact .inl rfl
        | some buffer =>
            obtain ⟨rfl, hfits⟩ := getGuestMemory_eq_some.mp hbuffer
            dsimp only
            rcases hread : h.read sys.kernel file.hostDescriptor request.count.toNat with
              ⟨_ | data, h'⟩
            · exact .inl rfl
            · have hlength := h.length_read_le sys.kernel hread
              have hcount : 0 ≤ request.count := by
                simp only [Bool.or_eq_true, decide_eq_true_eq] at hrefused
                omega
              exact .inr ⟨data, hop, rfl, by omega, by omega, rfl⟩

/-- Writing leaves guest memory alone. -/
theorem memory_writeFile : (writeFile sys context memory request s h).memory = memory := by
  rcases writeFile_cases sys context memory request s h with
    ⟨-, hr⟩ | ⟨file, s', h', -, ⟨-, hr⟩ | ⟨-, ⟨-, hr⟩ | ⟨file', -, hr⟩⟩⟩
  · rw [hr]
    rfl
  · rw [hr]
    rfl
  · rw [hr]
    rfl
  · rw [hr]
    rcases writePrepared_cases sys memory request s' h' file' with
      ⟨result, h'', hr', -⟩ | ⟨d, data, -, -, hr'⟩
    · rw [hr']
    · rw [hr']

/-- **Guest memory.** Only a read changes guest memory. -/
theorem processFileRequest_storesResult :
    StoresResult memory request (processFileRequest sys context memory request s h) := by
  rw [processFileRequest]
  rcases hop : FileOperation.ofCode request.operation with _ | op
  · exact .inl rfl
  cases op with
  | openFile =>
      rcases openFile_cases sys context memory request s h with
        ⟨h', hr, -⟩ | ⟨name, resolved, fd, h₁, h', -, -, -, -, -, -, hr⟩
      · exact .inl (by simp only [hr, Reply.failed])
      · exact .inl (by simp only [hr])
  | close =>
      rcases closeFile_cases memory s h request.descriptor with ⟨-, hr⟩ | ⟨file, -, hr⟩
      · exact .inl (by simp only [hr, Reply.failed])
      · exact .inl (by simp only [hr])
  | read => exact readFile_storesResult sys memory request s h hop
  | write => exact .inl (memory_writeFile sys context memory request s h)
  | lseek =>
      rcases seekFile_cases sys memory request s h with
        ⟨h', hr, -⟩ | ⟨file, d, whence, offset, position, -, -, -, -, hr⟩
      · exact .inl (by simp only [hr, Reply.failed])
      · exact .inl (by simp only [hr])

/-- **Guest memory after an OUT**: only a read changes it, in the buffer of its request. -/
theorem submitRequest_memory (requestAddress : ℕ) :
    (submitRequest sys context memory requestAddress s h).memory.size = memory.size ∧
      ∀ k, (submitRequest sys context memory requestAddress s h).memory.bytes k ≠ memory.bytes k →
        ∃ request : FileRequest, request = .decode memory.bytes requestAddress ∧
          FileOperation.ofCode request.operation = some .read ∧ request.buffer ≤ k ∧
          (k : ℤ) <
            request.buffer + (submitRequest sys context memory requestAddress s h).result := by
  rw [submitRequest]
  cases hstart : getGuestMemory memory requestAddress fileRequestSize with
  | none => exact ⟨rfl, fun k hk => absurd rfl hk⟩
  | some start =>
      obtain ⟨rfl, -⟩ := getGuestMemory_eq_some.mp hstart
      dsimp only
      obtain hsame | ⟨data, hop, hresult, -, -, hmemory⟩ := processFileRequest_storesResult sys
        context memory (.decode memory.bytes start) s h
      · exact ⟨by rw [hsame], fun k hk => absurd (by rw [hsame]) hk⟩
      · refine ⟨by rw [hmemory]; rfl, fun k hk => ⟨_, rfl, hop, ?_⟩⟩
        rw [hmemory, GuestMemory.store] at hk
        dsimp only at hk
        rw [hresult]
        split_ifs at hk with hle
        · refine ⟨hle, ?_⟩
          by_contra hlt
          rw [List.getD_eq_default _ _ (by omega)] at hk
          exact hk rfl
        · exact absurd rfl hk

end Memory

/-! ### Results are 32-bit integers -/

section Results

variable {sys : HostSystem} {context : GuestContext} {memory : GuestMemory}
variable {request : FileRequest} {s : FileState} {h : Host HostPath}

theorem isInt32_neg_one : IsInt32 (-1) := by
  constructor <;> decide

theorem isInt32_zero : IsInt32 0 := by
  constructor <;> decide

/-- A byte count that a count allows. -/
theorem isInt32_of_le {count : ℤ} {moved : ℕ} (hcount : IsInt32 count)
    (hle : moved ≤ count.toNat) : IsInt32 moved := by
  have := hcount.2
  constructor <;> omega

/-- The result of a write. -/
theorem isInt32_writePrepared (hcount : IsInt32 request.count) (file : OpenFile) :
    IsInt32 (writePrepared sys memory request file s h).result := by
  rw [writePrepared]
  split_ifs with hzero
  · exact isInt32_zero
  · cases getGuestMemory memory request.buffer request.count.toNat with
    | none => exact isInt32_neg_one
    | some buffer =>
        dsimp only
        rcases hwrite : h.write sys.kernel file.hostDescriptor
          (memory.slice buffer request.count.toNat) with ⟨_ | count, h'⟩
        · exact isInt32_neg_one
        · have hlength := h.write_le_length sys.kernel hwrite
          rw [GuestMemory.slice, List.length_map, List.length_range] at hlength
          exact isInt32_of_le hcount hlength

/-- The result of a read. -/
theorem isInt32_readFile (hcount : IsInt32 request.count) :
    IsInt32 (readFile sys memory request s h).result := by
  rw [readFile]
  cases s.openFiles.lookup request.descriptor with
  | none => exact isInt32_neg_one
  | some file =>
      dsimp only
      split_ifs with hrefused hzero
      · exact isInt32_neg_one
      · exact isInt32_zero
      · cases getGuestMemory memory request.buffer request.count.toNat with
        | none => exact isInt32_neg_one
        | some buffer =>
            dsimp only
            rcases hread : h.read sys.kernel file.hostDescriptor request.count.toNat with
              ⟨_ | data, h'⟩
            · exact isInt32_neg_one
            · exact isInt32_of_le hcount (h.length_read_le sys.kernel hread)

/-- **Results.** The result of a request is a 32-bit integer. -/
theorem isInt32_processFileRequest (hcount : IsInt32 request.count)
    (hnext : IsInt32 s.nextDescriptor) :
    IsInt32 (processFileRequest sys context memory request s h).result := by
  rw [processFileRequest]
  rcases FileOperation.ofCode request.operation with _ | op
  · exact isInt32_neg_one
  cases op with
  | openFile =>
      rcases openFile_cases sys context memory request s h with
        ⟨h', hr, -⟩ | ⟨name, resolved, fd, h₁, h', -, -, -, -, -, -, hr⟩
      · simp only [hr]
        exact isInt32_neg_one
      · simp only [hr]
        exact hnext
  | close =>
      rcases closeFile_cases memory s h request.descriptor with ⟨-, hr⟩ | ⟨file, -, hr⟩
      · simp only [hr]
        exact isInt32_neg_one
      · simp only [hr]
        split_ifs
        · exact isInt32_zero
        · exact isInt32_neg_one
  | read => exact isInt32_readFile hcount
  | write =>
      rcases writeFile_cases sys context memory request s h with
        ⟨-, hr⟩ | ⟨file, s', h', -, ⟨-, hr⟩ | ⟨-, ⟨-, hr⟩ | ⟨file', -, hr⟩⟩⟩
      · simp only [hr]
        exact isInt32_neg_one
      · simp only [hr]
        exact isInt32_neg_one
      · simp only [hr]
        exact isInt32_neg_one
      · simp only [hr]
        exact isInt32_writePrepared hcount file'
  | lseek =>
      rcases seekFile_cases sys memory request s h with
        ⟨h', hr, -⟩ | ⟨file, d, whence, offset, position, -, -, -, -, hr⟩
      · simp only [hr]
        exact isInt32_neg_one
      · simp only [hr]
        split_ifs with hmax
        · exact isInt32_neg_one
        · have hle : (position : ℤ) ≤ 2 ^ 31 - 1 := not_lt.mp hmax
          constructor <;> omega

/-- The next descriptor stays a 32-bit integer. -/
theorem isInt32_nextDescriptor (hnext : IsInt32 s.nextDescriptor) :
    IsInt32 (processFileRequest sys context memory request s h).state.nextDescriptor := by
  rcases processFileRequest_descriptors sys context memory request s h with
    ⟨-, -, file, hstate⟩ | ⟨hkeep, -⟩
  · rw [hstate]
    have hlow := Int.le_bmod (x := s.nextDescriptor + 1) (m := 2 ^ 32) (by decide)
    have hhigh := Int.bmod_lt (x := s.nextDescriptor + 1) (m := 2 ^ 32) (by decide)
    constructor
    · exact hlow
    · exact hhigh
  · rwa [hkeep]

variable (sys context memory h) in
/-- The result of an OUT, and what it leaves as next descriptor. -/
theorem submitRequest_int32 (hnext : IsInt32 s.nextDescriptor) (requestAddress : ℕ) :
    IsInt32 (submitRequest sys context memory requestAddress s h).result ∧
      IsInt32 (submitRequest sys context memory requestAddress s h).state.nextDescriptor := by
  rw [submitRequest]
  cases getGuestMemory memory requestAddress fileRequestSize with
  | none => exact ⟨isInt32_neg_one, hnext⟩
  | some start =>
      exact ⟨isInt32_processFileRequest (isInt32_readInt32 _ _) hnext, isInt32_nextDescriptor hnext⟩

end Results

end KvmHypervisor
