import KvmHypervisor.BoundedMemory
import KvmHypervisor.FileExits

/-!
# Guest Memory in Machine Integers

`handleFileIo` once more, as the machine runs it: sizes and host addresses are 64-bit words
that wrap around, guest addresses are 32-bit words, a count is a sign-extended `int`, and
every byte of guest memory the host reads or writes is an access to the bounded memory of
`BoundedMemory`, which faults at `mem_size`. What does not touch guest memory is taken from
`FileIo`.

`Checked.handleFileIo_eq` says that this handler never faults and is the one of `FileExits`,
which computes with natural numbers. So no range check wraps around, and no access is out of
bounds.
-/

namespace KvmHypervisor

open PosixFiles

/-- `mem` and `mem_size` of a `struct vm`. -/
structure VmMemory where
  memSize : BitVec 64
  mem : ℕ → UInt8

/-- The guest memory. -/
def VmMemory.guest (vm : VmMemory) : GuestMemory :=
  ⟨vm.memSize.toNat, vm.mem⟩

@[simp] theorem size_guest (vm : VmMemory) : vm.guest.size = vm.memSize.toNat := rfl
@[simp] theorem bytes_guest (vm : VmMemory) : vm.guest.bytes = vm.mem := rfl

namespace Checked

open BoundedMemory

variable (vm : VmMemory)

/-! ### The functions -/

/-- `getGuestMemory`, with the host pointer as its distance from `mem`. -/
def getGuestMemory (address : BitVec 32) (size : BitVec 64) : Option (BitVec 64) :=
  let guestAddress := address.setWidth 64
  if guestAddress > vm.memSize ∨ size > vm.memSize - guestAddress then none
  else some guestAddress

/-- The loop of `readGuestFileName` from `length` on: where the name ends, if it does. The
first argument exceeds the number of rounds that the condition of the loop allows. -/
def findTerminator (memory available : BitVec 64) : ℕ → BitVec 64 → Option (Option (BitVec 64))
  | 0, _ => some none
  | rounds + 1, length =>
    if length ≤ BitVec.ofNat 64 fileNameMax ∧ length < available then
      match load vm.memSize.toNat vm.mem (memory + length).toNat with
      | none => none
      | some byte =>
        if byte == 0 then some (some length)
        else findTerminator memory available rounds (length + 1)
    else some none

/-- `readGuestFileName`. -/
def readGuestFileName (address : BitVec 32) : Option (Option String) :=
  match getGuestMemory vm address 1 with
  | none => some none
  | some memory =>
    let available := vm.memSize - address.setWidth 64
    match findTerminator vm memory available (fileNameMax + 2) 0 with
    | none => none
    | some none => some none
    | some (some length) =>
      match loadRange vm.memSize.toNat vm.mem memory.toNat length.toNat with
      | none => none
      | some bytes =>
        let name := String.ofList (bytes.map Char.ofUInt8)
        some (if isValidGuestFileName name then some name else none)

variable (sys : HostSystem) (context : GuestContext) (request : FileRequest) (s : FileState)
variable (h : Host HostPath)

/-- `static_cast<std::size_t>(request.count)`. -/
def countOf (request : FileRequest) : BitVec 64 :=
  (BitVec.ofInt 32 request.count).signExtend 64

/-- `openFile`. -/
def openFile : Option Reply :=
  if !areValidOpenFlags request.flags then some (Reply.failed vm.guest s h)
  else
    match readGuestFileName vm (BitVec.ofNat 32 request.buffer) with
    | none => none
    | some none => some (Reply.failed vm.guest s h)
    | some (some name) =>
      match resolveFile sys context name h with
      | (resolved, h) => some (openInDirectory sys vm.guest request name resolved s h)

/-- `readFile`: the host call stores what it returns. -/
def readFile : Option Reply :=
  match s.openFiles.lookup request.descriptor with
  | none => some (Reply.failed vm.guest s h)
  | some file =>
    if !hasReadAccess file.flags || request.count < 0 then some (Reply.failed vm.guest s h)
    else if request.count = 0 then some ⟨0, vm.guest, s, h⟩
    else
      match getGuestMemory vm (BitVec.ofNat 32 request.buffer) (countOf request) with
      | none => some (Reply.failed vm.guest s h)
      | some buffer =>
        match h.read sys.kernel file.hostDescriptor (countOf request).toNat with
        | (none, h) => some (Reply.failed vm.guest s h)
        | (some data, h) =>
          match storeRange vm.memSize.toNat vm.mem buffer.toNat data with
          | none => none
          | some bytes => some ⟨data.length, { vm.guest with bytes := bytes }, s, h⟩

/-- The end of `writeFile`: the host call loads all it is given. -/
def writePrepared (file : OpenFile) (s : FileState) (h : Host HostPath) : Option Reply :=
  if request.count = 0 then some ⟨0, vm.guest, s, h⟩
  else
    match getGuestMemory vm (BitVec.ofNat 32 request.buffer) (countOf request) with
    | none => some (Reply.failed vm.guest s h)
    | some buffer =>
      match loadRange vm.memSize.toNat vm.mem buffer.toNat (countOf request).toNat with
      | none => none
      | some data =>
        match h.write sys.kernel file.hostDescriptor data with
        | (none, h) => some (Reply.failed vm.guest s h)
        | (some count, h) => some ⟨count, vm.guest, s, h⟩

/-- `writeFile`. -/
def writeFile : Option Reply :=
  match s.openFiles.lookup request.descriptor with
  | none => some (Reply.failed vm.guest s h)
  | some file =>
    if !hasWriteAccess file.flags || request.count < 0 then some (Reply.failed vm.guest s h)
    else
      match prepareFileForWrite sys context file s h with
      | (false, s, h) => some (Reply.failed vm.guest s h)
      | (true, s, h) =>
        match s.openFiles.lookup request.descriptor with
        | none => some (Reply.failed vm.guest s h)
        | some file => writePrepared vm sys request file s h

/-- `processFileRequest`; closing and seeking touch no guest memory. -/
def processFileRequest : Option Reply :=
  match FileOperation.ofCode request.operation with
  | some .openFile => openFile vm sys context request s h
  | some .close => some (closeFile vm.guest request.descriptor s h)
  | some .read => readFile vm sys request s h
  | some .write => writeFile vm sys context request s h
  | some .lseek => some (seekFile sys vm.guest request s h)
  | none => some (Reply.failed vm.guest s h)

/-- The OUT branch of `handleFileIo`, which copies the 24 bytes of the request first. -/
def submitRequest (requestAddress : BitVec 32) : Option Reply :=
  match getGuestMemory vm requestAddress (BitVec.ofNat 64 fileRequestSize) with
  | none => some (Reply.failed vm.guest s h)
  | some requestMemory =>
    match loadRange vm.memSize.toNat vm.mem requestMemory.toNat fileRequestSize with
    | none => none
    | some bytes => processFileRequest vm sys context (.decode (fun k => bytes.getD k 0) 0) s h

/-- `handleFileIo`, `none` for a fault. -/
def handleFileIo (run : KvmRun) : Option (Option FileIoFrame) :=
  match getFileIoData run with
  | none => some none
  | some data =>
    if run.io.direction = kvmExitIoOut then
      match submitRequest vm sys context s h (BitVec.ofNat 32 (readUint32 run.bytes data)) with
      | none => none
      | some reply =>
        some (some ⟨run.bytes, reply.memory, reply.state.push reply.result, reply.host⟩)
    else if run.io.direction = kvmExitIoIn then
      some (some ⟨writeUint32 run.bytes data (toUint32 s.fetch), vm.guest, s.pop, h⟩)
    else some none

/-! ### Range checks -/

section Ranges

variable {vm}

variable (vm) in
/-- **No wrap-around**: the check on machine integers is the check on natural numbers. -/
theorem getGuestMemory_eq (address : BitVec 32) (size : BitVec 64) :
    (getGuestMemory vm address size).map BitVec.toNat =
      KvmHypervisor.getGuestMemory vm.guest address.toNat size.toNat := by
  have haddress : (address.setWidth 64).toNat = address.toNat :=
    BitVec.toNat_setWidth_of_le (by decide)
  rw [getGuestMemory, KvmHypervisor.getGuestMemory, size_guest]
  by_cases hle : vm.memSize < address.setWidth 64
  · rw [if_pos (.inl hle), if_pos (.inl (by rwa [BitVec.lt_def, haddress] at hle))]
    rfl
  · have hle' : (address.setWidth 64).toNat ≤ vm.memSize.toNat := not_lt.mp hle
    have hsub : (vm.memSize - address.setWidth 64).toNat = vm.memSize.toNat - address.toNat := by
      rw [BitVec.toNat_sub_of_le hle', haddress]
    by_cases hfits : vm.memSize - address.setWidth 64 < size
    · rw [if_pos (.inr hfits), if_pos (.inr (by rwa [BitVec.lt_def, hsub] at hfits))]
      rfl
    · rw [if_neg (not_or.mpr ⟨hle, hfits⟩), if_neg, Option.map_some, haddress]
      rw [BitVec.lt_def, hsub] at hfits
      rw [haddress] at hle'
      omega

variable (vm) in
/-- A granted range as a case of both checks. -/
theorem getGuestMemory_cases (address : BitVec 32) (size : BitVec 64) :
    (getGuestMemory vm address size = none ∧
        KvmHypervisor.getGuestMemory vm.guest address.toNat size.toNat = none) ∨
      ∃ memory : BitVec 64, getGuestMemory vm address size = some memory ∧
        KvmHypervisor.getGuestMemory vm.guest address.toNat size.toNat = some memory.toNat ∧
        memory.toNat = address.toNat ∧ memory.toNat + size.toNat ≤ vm.memSize.toNat := by
  have heq := getGuestMemory_eq vm address size
  cases hmemory : getGuestMemory vm address size with
  | none =>
      rw [hmemory] at heq
      exact .inl ⟨rfl, heq.symm⟩
  | some memory =>
      rw [hmemory, Option.map_some] at heq
      obtain ⟨hstart, hfits⟩ := getGuestMemory_eq_some.mp heq.symm
      exact .inr ⟨memory, rfl, heq.symm, hstart, by rw [hstart]; exact hfits⟩

/-- A count that is not negative is the same as a `size_t`. -/
theorem toNat_countOf (hcount : IsInt32 request.count) (hpos : 0 ≤ request.count) :
    (countOf request).toNat = request.count.toNat := by
  have hmax := hcount.2
  have hint : ((BitVec.ofInt 32 request.count).signExtend 64).toInt = request.count := by
    rw [BitVec.toInt_signExtend_of_le (by decide), BitVec.toInt_ofInt]
    exact Int.bmod_eq_of_le (by omega) (by omega)
  have hlt := BitVec.isLt (countOf request)
  rw [BitVec.toInt_eq_toNat_cond] at hint
  rw [countOf] at hlt ⊢
  split_ifs at hint
  · omega
  · omega

/-- The terminator is looked for among the characters that a name may have and that are left
of guest memory. -/
theorem findTerminator_eq {memory available : BitVec 64}
    (hfits : memory.toNat + available.toNat ≤ vm.memSize.toNat) {rounds : ℕ} {length : BitVec 64}
    (hrounds : fileNameMax + 2 ≤ rounds + length.toNat) :
    findTerminator vm memory available rounds length =
      (scan vm.memSize.toNat vm.mem (· == 0) memory.toNat length.toNat
        (min (fileNameMax + 1) available.toNat - length.toNat)).map
          fun found => found.map (BitVec.ofNat 64) := by
  induction rounds generalizing length with
  | zero =>
      rw [Nat.sub_eq_zero_of_le (by simp only [fileNameMax] at hrounds ⊢; omega)]
      rfl
  | succ rounds ih =>
      have hmax : (BitVec.ofNat 64 fileNameMax).toNat = fileNameMax := rfl
      have hsize := BitVec.isLt vm.memSize
      rw [findTerminator]
      by_cases hround : length ≤ BitVec.ofNat 64 fileNameMax ∧ length < available
      · have hle : length.toNat ≤ fileNameMax := BitVec.le_def.mp hround.1
        have hlt : length.toNat < available.toNat := BitVec.lt_def.mp hround.2
        have hindex : (memory + length).toNat = memory.toNat + length.toNat := by
          rw [BitVec.toNat_add, Nat.mod_eq_of_lt (by omega)]
        have hnext : (length + 1).toNat = length.toNat + 1 := by
          rw [BitVec.toNat_add, show (1 : BitVec 64).toNat = 1 from rfl,
            Nat.mod_eq_of_lt (by omega)]
        obtain ⟨count, hcount⟩ : ∃ count, min (fileNameMax + 1) available.toNat - length.toNat =
            count + 1 := ⟨min (fileNameMax + 1) available.toNat - length.toNat - 1, by omega⟩
        rw [if_pos hround, hindex, hcount, scan]
        cases load vm.memSize.toNat vm.mem (memory.toNat + length.toNat) with
        | none => rfl
        | some byte =>
            dsimp only
            split_ifs
            · rw [Option.map_some, Option.map_some, BitVec.ofNat_toNat, BitVec.setWidth_eq]
            · rw [ih (by omega), hnext, show min (fileNameMax + 1) available.toNat -
                (length.toNat + 1) = count by omega]
      · rw [if_neg hround, Nat.sub_eq_zero_of_le]
        · rfl
        · rw [BitVec.le_def, BitVec.lt_def, hmax] at hround
          omega

/-- The whole loop. -/
theorem findTerminator_zero {memory available : BitVec 64}
    (hfits : memory.toNat + available.toNat ≤ vm.memSize.toNat) :
    findTerminator vm memory available (fileNameMax + 2) 0 =
      some (((List.range (min (fileNameMax + 1) available.toNat)).find? fun length =>
        vm.mem (memory.toNat + length) == 0).map (BitVec.ofNat 64)) := by
  have hzero : (0 : BitVec 64).toNat = 0 := rfl
  rw [findTerminator_eq hfits (Nat.le_refl _), hzero, Nat.sub_zero, scan_eq (.inr (by omega))]
  simp only [Nat.add_zero, Nat.zero_add, Option.map_some, Option.map_id']

/-- **Names**: the path scan never faults, and its bounds do not wrap around. -/
theorem readGuestFileName_eq (address : BitVec 32) :
    readGuestFileName vm address =
      some (KvmHypervisor.readGuestFileName vm.guest address.toNat) := by
  have hone : (1 : BitVec 64).toNat = 1 := rfl
  rw [readGuestFileName, KvmHypervisor.readGuestFileName]
  obtain ⟨hnone, hnone'⟩ | ⟨memory, hmemory, hmemory', hstart, hfits⟩ :=
    getGuestMemory_cases vm address 1
  · rw [hone] at hnone'
    rw [hnone, hnone']
  · rw [hone] at hmemory' hfits
    rw [hmemory, hmemory']
    have haddress : (address.setWidth 64).toNat = address.toNat :=
      BitVec.toNat_setWidth_of_le (by decide)
    have havailable : (vm.memSize - address.setWidth 64).toNat =
        vm.memSize.toNat - address.toNat := by
      rw [BitVec.toNat_sub_of_le (by rw [BitVec.le_def, haddress]; omega), haddress]
    have hrange : memory.toNat + (vm.memSize - address.setWidth 64).toNat ≤ vm.memSize.toNat := by
      omega
    dsimp only
    rw [findTerminator_zero hrange, havailable, size_guest, bytes_guest]
    cases hfind : (List.range (min (fileNameMax + 1) (vm.memSize.toNat - address.toNat))).find?
        fun k => vm.mem (memory.toNat + k) == 0 with
    | none => rfl
    | some length =>
        have hlength := List.mem_range.mp (List.mem_of_find?_eq_some hfind)
        have hlt : length < 2 ^ 64 := by
          simp only [fileNameMax] at hlength
          omega
        dsimp only [Option.map_some]
        rw [BitVec.toNat_ofNat, Nat.mod_eq_of_lt hlt, loadRange_eq (.inr (by omega))]
        rfl

end Ranges

/-! ### The handler never faults -/

section Handler

variable {vm sys context request s h}

variable (vm) in
/-- The range of a buffer, whose fields come from a request. -/
theorem getGuestMemory_buffer (hbuffer : request.buffer < 2 ^ 32) (hcount : IsInt32 request.count)
    (hpos : 0 ≤ request.count) :
    (getGuestMemory vm (BitVec.ofNat 32 request.buffer) (countOf request) = none ∧
        KvmHypervisor.getGuestMemory vm.guest request.buffer request.count.toNat = none) ∨
      ∃ memory : BitVec 64,
        getGuestMemory vm (BitVec.ofNat 32 request.buffer) (countOf request) = some memory ∧
        KvmHypervisor.getGuestMemory vm.guest request.buffer request.count.toNat =
          some memory.toNat ∧
        memory.toNat + request.count.toNat ≤ vm.memSize.toNat := by
  have haddress : (BitVec.ofNat 32 request.buffer).toNat = request.buffer := by
    rw [BitVec.toNat_ofNat, Nat.mod_eq_of_lt hbuffer]
  have hcases := getGuestMemory_cases vm (BitVec.ofNat 32 request.buffer) (countOf request)
  rw [haddress, toNat_countOf request hcount hpos] at hcases
  obtain hnone | ⟨memory, hmemory, hmemory', -, hfits⟩ := hcases
  · exact .inl hnone
  · exact .inr ⟨memory, hmemory, hmemory', hfits⟩

theorem openFile_eq (hbuffer : request.buffer < 2 ^ 32) :
    openFile vm sys context request s h =
      some (KvmHypervisor.openFile sys context vm.guest request s h) := by
  rw [openFile, KvmHypervisor.openFile]
  split_ifs
  · rfl
  · rw [readGuestFileName_eq, BitVec.toNat_ofNat, Nat.mod_eq_of_lt hbuffer]
    cases KvmHypervisor.readGuestFileName vm.guest request.buffer with
    | none => rfl
    | some name => rfl

theorem readFile_eq (hbuffer : request.buffer < 2 ^ 32) (hcount : IsInt32 request.count) :
    readFile vm sys request s h = some (KvmHypervisor.readFile sys vm.guest request s h) := by
  rw [readFile, KvmHypervisor.readFile]
  cases s.openFiles.lookup request.descriptor with
  | none => rfl
  | some file =>
      dsimp only
      split_ifs with hrefused hzero
      · rfl
      · rfl
      · have hpos : 0 ≤ request.count := by
          simp only [Bool.or_eq_true, decide_eq_true_eq] at hrefused
          omega
        obtain ⟨hnone, hnone'⟩ | ⟨memory, hmemory, hmemory', hfits⟩ :=
          getGuestMemory_buffer vm hbuffer hcount hpos
        · rw [hnone, hnone']
        · rw [hmemory, hmemory', toNat_countOf request hcount hpos]
          dsimp only
          rcases hread : h.read sys.kernel file.hostDescriptor request.count.toNat with
            ⟨_ | data, h'⟩
          · rfl
          · have hlength := h.length_read_le sys.kernel hread
            dsimp only
            rw [storeRange_eq (.inr (by omega))]
            rfl

theorem writePrepared_eq (hbuffer : request.buffer < 2 ^ 32) (hcount : IsInt32 request.count)
    (hpos : 0 ≤ request.count) (file : OpenFile) :
    writePrepared vm sys request file s h =
      some (KvmHypervisor.writePrepared sys vm.guest request file s h) := by
  rw [writePrepared, KvmHypervisor.writePrepared]
  split_ifs
  · rfl
  · obtain ⟨hnone, hnone'⟩ | ⟨memory, hmemory, hmemory', hfits⟩ :=
      getGuestMemory_buffer vm hbuffer hcount hpos
    · rw [hnone, hnone']
    · rw [hmemory, hmemory', toNat_countOf request hcount hpos]
      dsimp only
      rw [loadRange_eq (.inr hfits), GuestMemory.slice, bytes_guest]
      dsimp only
      rcases h.write sys.kernel file.hostDescriptor
        ((List.range request.count.toNat).map fun k => vm.mem (memory.toNat + k)) with
          ⟨_ | count, h'⟩
      · rfl
      · rfl

theorem writeFile_eq (hbuffer : request.buffer < 2 ^ 32) (hcount : IsInt32 request.count) :
    writeFile vm sys context request s h =
      some (KvmHypervisor.writeFile sys context vm.guest request s h) := by
  rw [writeFile, KvmHypervisor.writeFile]
  cases s.openFiles.lookup request.descriptor with
  | none => rfl
  | some file =>
      dsimp only
      split_ifs with hrefused
      · rfl
      · have hpos : 0 ≤ request.count := by
          simp only [Bool.or_eq_true, decide_eq_true_eq] at hrefused
          omega
        rcases prepareFileForWrite sys context file s h with ⟨_ | _, s', h'⟩
        · rfl
        · dsimp only
          cases s'.openFiles.lookup request.descriptor with
          | none => rfl
          | some file' => exact writePrepared_eq hbuffer hcount hpos file'

theorem processFileRequest_eq (hbuffer : request.buffer < 2 ^ 32)
    (hcount : IsInt32 request.count) :
    processFileRequest vm sys context request s h =
      some (KvmHypervisor.processFileRequest sys context vm.guest request s h) := by
  rw [processFileRequest, KvmHypervisor.processFileRequest]
  rcases FileOperation.ofCode request.operation with _ | op
  · rfl
  cases op with
  | openFile => exact openFile_eq hbuffer
  | read => exact readFile_eq hbuffer hcount
  | write => exact writeFile_eq hbuffer hcount
  | close | lseek => rfl

/-- A copy of the 24 bytes decodes alike. -/
theorem decode_copy (bytes : ℕ → UInt8) (start : ℕ) :
    FileRequest.decode
        (fun k => ((List.range fileRequestSize).map fun k => bytes (start + k)).getD k 0) 0 =
      FileRequest.decode bytes start := by
  simp [FileRequest.decode, readInt32, readUint32, fileRequestSize, Nat.add_assoc]

theorem submitRequest_eq (requestAddress : BitVec 32) :
    submitRequest vm sys context s h requestAddress =
      some (KvmHypervisor.submitRequest sys context vm.guest requestAddress.toNat s h) := by
  have hsize : (BitVec.ofNat 64 fileRequestSize).toNat = fileRequestSize := rfl
  rw [submitRequest, KvmHypervisor.submitRequest]
  have hcases := getGuestMemory_cases vm requestAddress (BitVec.ofNat 64 fileRequestSize)
  rw [hsize] at hcases
  obtain ⟨hnone, hnone'⟩ | ⟨memory, hmemory, hmemory', -, hfits⟩ := hcases
  · rw [hnone, hnone']
  · rw [hmemory, hmemory']
    dsimp only
    rw [loadRange_eq (.inr hfits)]
    dsimp only
    rw [decode_copy]
    exact processFileRequest_eq (readUint32_lt _ _) (isInt32_readInt32 _ _)

variable (vm sys context s h) in
/-- **No fault**: the machine's handler is the handler of `FileExits`. -/
theorem handleFileIo_eq (run : KvmRun) :
    handleFileIo vm sys context s h run =
      some (KvmHypervisor.handleFileIo sys context run vm.guest s h) := by
  rw [handleFileIo, KvmHypervisor.handleFileIo]
  cases getFileIoData run with
  | none => rfl
  | some data =>
      dsimp only
      rw [submitRequest_eq, BitVec.toNat_ofNat, Nat.mod_eq_of_lt (readUint32_lt _ _)]
      dsimp only
      split_ifs
      · rfl
      · rfl
      · rfl

end Handler

end Checked

/-! ### Main result -/

/-- **File requests stay in guest memory.** For every memory size and content, every exit with
whatever address and request, every descriptor table and every outcome of the host calls: the
handler in machine integers, on a memory that faults at `mem_size`, never faults and does what
the handler with natural numbers does. When it returns `true`, guest memory has changed at
most where a read has stored the bytes it returns. -/
theorem fileIo_confined (sys : HostSystem) (context : GuestContext) (vm : VmMemory)
    (run : KvmRun) (s : FileState) (h : Host HostPath) :
    Checked.handleFileIo vm sys context s h run =
        some (handleFileIo sys context run vm.guest s h) ∧
      ∀ frame, handleFileIo sys context run vm.guest s h = some frame →
        frame.memory.size = vm.memSize.toNat ∧
        ∀ k, frame.memory.bytes k ≠ vm.mem k →
          run.io.direction = kvmExitIoOut ∧ ∃ data request, getFileIoData run = some data ∧
            request = FileRequest.decode vm.mem (readUint32 run.bytes data) ∧
            FileOperation.ofCode request.operation = some .read ∧ request.buffer ≤ k ∧
            (k : ℤ) < request.buffer + frame.state.fetch := by
  refine ⟨Checked.handleFileIo_eq vm sys context s h run, fun frame hframe => ?_⟩
  obtain ⟨data, hdata, ⟨hout, reply, hreply, rfl⟩ | ⟨-, rfl⟩⟩ := handleFileIo_cases hframe
  · subst hreply
    obtain ⟨hsize, hbytes⟩ :=
      submitRequest_memory sys context vm.guest s h (readUint32 run.bytes data)
    refine ⟨hsize, fun k hk => ⟨hout, data, ?_⟩⟩
    obtain ⟨request, hrequest, hop, hlow, hhigh⟩ := hbytes k hk
    refine ⟨request, hdata, hrequest, hop, hlow, ?_⟩
    rwa [FileState.fetch, pendingResults_push, List.getLast?_concat, Option.getD_some]
  · exact ⟨rfl, fun k hk => absurd rfl hk⟩

end KvmHypervisor
