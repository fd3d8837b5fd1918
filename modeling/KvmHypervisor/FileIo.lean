import Mathlib.Data.Int.DivMod
import KvmHypervisor.PosixFiles

/-!
# File Requests

The file subsystem of the host: `file_io.cpp`, function by function, over the POSIX calls
of `PosixFiles`. A guest hands over a request record and a region of its memory; the host
keeps one descriptor table for each VM and resolves file names first in the VM's own
directory `vm_files/vm_<id>/`, then among the shared files of the command line. A shared
file is opened read-only and becomes private to the VM on its first write.

A host path is the list of its components below the root; the relative paths of the
source are resolved against the working directory.
-/

namespace KvmHypervisor

open PosixFiles

/-! ### Requests and state -/

/-- The longest file name a guest may use. -/
def fileNameMax : ℕ := 255

/-- The operations of a request, numbered from one in the protocol. -/
inductive FileOperation
  | openFile
  | close
  | read
  | write
  | lseek
deriving DecidableEq

/-- The operation a request code names. -/
def FileOperation.ofCode : ℕ → Option FileOperation
  | 1 => some .openFile
  | 2 => some .close
  | 3 => some .read
  | 4 => some .write
  | 5 => some .lseek
  | _ => none

/-- The open flags of the protocol. -/
def fileOpenRead : BitVec 32 := 1
def fileOpenWrite : BitVec 32 := 2
def fileOpenReadWrite : BitVec 32 := 4
def fileOpenCreate : BitVec 32 := 8

/-- The seek flags of the protocol. -/
def fileSeekSet : BitVec 32 := 1
def fileSeekEnd : BitVec 32 := 2

/-- One request of a guest, as its 24 bytes in guest memory decode. -/
structure FileRequest where
  operation : ℕ
  descriptor : ℤ
  buffer : ℕ
  count : ℤ
  offset : ℤ
  flags : BitVec 32
deriving DecidableEq

/-- Guest memory: its size and its bytes. -/
structure GuestMemory where
  size : ℕ
  bytes : ℕ → UInt8

/-- A host path: its components from the root. -/
abbrev HostPath := List String

/-- What the host keeps for one descriptor of a guest. -/
structure OpenFile where
  hostDescriptor : ℕ
  flags : BitVec 32
  name : String
  hostPath : HostPath
  shared : Bool
deriving DecidableEq

/-- The file state of one VM: its descriptor table, the results not yet fetched by the
guest, and the next descriptor, a 32-bit integer. -/
structure FileState where
  openFiles : Finmap (fun _ : ℤ => OpenFile)
  pendingResults : List ℤ
  nextDescriptor : ℤ

/-- The file state a VM starts with. -/
def FileState.initial : FileState :=
  { openFiles := ∅, pendingResults := [], nextDescriptor := 3 }

/-- What the file layer runs on: the kernel, the directory the hypervisor was started in,
and the order in which the standard library walks a descriptor table. -/
structure HostSystem where
  kernel : Kernel
  workingDirectory : HostPath
  iterate : ℕ → Finset ℤ → List ℤ
  iterate_nodup : ∀ n keys, (iterate n keys).Nodup
  mem_iterate : ∀ n keys d, d ∈ iterate n keys ↔ d ∈ keys

/-- The part of a VM's context the file layer reads: its number, and the shared files of
the command line under their guest names. -/
structure GuestContext where
  id : ℕ
  sharedFiles : List (String × HostPath)

/-- What a request leaves behind: its result, the guest memory, the file state of the VM
and the host. -/
structure Reply where
  result : ℤ
  memory : GuestMemory
  state : FileState
  host : Host HostPath

/-! ### Guest memory and names -/

/-- An ASCII letter. -/
def isLetter (character : Char) : Bool :=
  ('a' ≤ character && character ≤ 'z') || ('A' ≤ character && character ≤ 'Z')

/-- An ASCII digit. -/
def isDigit (character : Char) : Bool :=
  '0' ≤ character && character ≤ '9'

/-- Names a guest may use: letters, digits and dots, a letter first. -/
def isValidGuestFileName (name : String) : Bool :=
  match name.toList with
  | [] => false
  | front :: rest =>
    isLetter front &&
      (front :: rest).all fun character =>
        isLetter character || isDigit character || character == '.'

/-- The host pointer to `size` bytes of guest memory at `address`, as an index. -/
def getGuestMemory (memory : GuestMemory) (address size : ℕ) : Option ℕ :=
  if memory.size < address ∨ memory.size - address < size then none
  else some address

/-- A range that `getGuestMemory` grants lies inside guest memory. -/
theorem getGuestMemory_eq_some {memory : GuestMemory} {address size start : ℕ} :
    getGuestMemory memory address size = some start ↔
      start = address ∧ address + size ≤ memory.size := by
  rw [getGuestMemory]
  split_ifs with h
  · simp only [false_iff]
    omega
  · rw [Option.some.injEq]
    omega

/-- The bytes of guest memory from an index on. -/
def GuestMemory.slice (memory : GuestMemory) (start count : ℕ) : List UInt8 :=
  (List.range count).map fun k => memory.bytes (start + k)

/-- Guest memory after `data` is stored from an index on. -/
def GuestMemory.store (memory : GuestMemory) (start : ℕ) (data : List UInt8) : GuestMemory :=
  { memory with
    bytes := fun k => if start ≤ k then data.getD (k - start) (memory.bytes k) else memory.bytes k }

/-- The file name at an address: the characters up to the first zero byte, which must lie
within the name limit and within guest memory. -/
def readGuestFileName (memory : GuestMemory) (address : ℕ) : Option String :=
  match getGuestMemory memory address 1 with
  | none => none
  | some start =>
    let available := memory.size - address
    match (List.range (min (fileNameMax + 1) available)).find?
        fun length => memory.bytes (start + length) == 0 with
    | none => none
    | some length =>
      let name := String.ofList ((memory.slice start length).map Char.ofUInt8)
      if isValidGuestFileName name then some name else none

/-! ### Open flags -/

/-- The access mode among the open flags. -/
def accessMode (flags : BitVec 32) : BitVec 32 :=
  flags &&& (fileOpenRead ||| fileOpenWrite ||| fileOpenReadWrite)

/-- Whether a descriptor opened with these flags may be read. -/
def hasReadAccess (flags : BitVec 32) : Bool :=
  accessMode flags == fileOpenRead || accessMode flags == fileOpenReadWrite

/-- Whether a descriptor opened with these flags may be written. -/
def hasWriteAccess (flags : BitVec 32) : Bool :=
  accessMode flags == fileOpenWrite || accessMode flags == fileOpenReadWrite

/-- Exactly one access mode, and nothing but it and the creation flag. -/
def areValidOpenFlags (flags : BitVec 32) : Bool :=
  let accessMask := fileOpenRead ||| fileOpenWrite ||| fileOpenReadWrite
  let allowedMask := accessMask ||| fileOpenCreate
  if flags &&& ~~~allowedMask != 0 then false
  else
    accessMode flags == fileOpenRead || accessMode flags == fileOpenWrite ||
      accessMode flags == fileOpenReadWrite

/-- The host flags for the flags of a request: any mode but the two single ones opens for
both. -/
def toHostOpenFlags (flags : BitVec 32) : OpenMode :=
  let mode : OpenMode :=
    if accessMode flags == fileOpenRead then ⟨true, false, false⟩
    else if accessMode flags == fileOpenWrite then ⟨false, true, false⟩
    else ⟨true, true, false⟩
  { mode with create := flags &&& fileOpenCreate != 0 }

/-- `O_RDONLY`. -/
def readOnly : OpenMode := ⟨true, false, false⟩

/-! ### Resolving names -/

/-- `vm_files/vm_<id>/<name>` below the working directory. -/
def localPath (workingDirectory : HostPath) (id : ℕ) (name : String) : HostPath :=
  workingDirectory ++ ["vm_files", "vm_" ++ toString id, name]

/-- The decimal numeral of a number determines it. -/
theorem toString_nat_injective : Function.Injective (toString : ℕ → String) := by
  intro i j hij
  have hdigits : Nat.toDigits 10 i = Nat.toDigits 10 j := by
    rw [← Nat.toList_repr, ← Nat.toList_repr]
    exact congrArg String.toList hij
  rw [← Nat.ofDigitChars_toDigits (b := 10) (n := i) (by decide) (by decide), hdigits,
    Nat.ofDigitChars_toDigits (by decide) (by decide)]

/-- Different VMs and different names have different local paths. -/
theorem localPath_inj {workingDirectory : HostPath} {i j : ℕ} {name name' : String} :
    localPath workingDirectory i name = localPath workingDirectory j name' ↔
      i = j ∧ name = name' := by
  rw [localPath, localPath, List.append_cancel_left_eq]
  simp only [List.cons.injEq, true_and, and_true, String.append_right_inj,
    toString_nat_injective.eq_iff]

/-- A resolved name: where the file is, and whether it is a shared original. -/
structure ResolvedFile where
  path : HostPath
  shared : Bool
deriving DecidableEq

variable (sys : HostSystem) (context : GuestContext)

/-- The path of a name in the directory of the VM. -/
def HostSystem.localPathOf (name : String) : HostPath :=
  localPath sys.workingDirectory context.id name

/-- The VM's own file if it exists, else the shared file of the name, else the VM's own
path. An existence probe that fails counts as a missing file. -/
def resolveFile (name : String) (h : Host HostPath) : ResolvedFile × Host HostPath :=
  let path := sys.localPathOf context name
  match h.existsAt sys.kernel path with
  | (some true, h) => (⟨path, false⟩, h)
  | (_, h) =>
    match context.sharedFiles.lookup name with
    | some sharedFile => (⟨sharedFile, true⟩, h)
    | none => (⟨path, false⟩, h)

/-! ### The switch to a private copy -/

/-- Close the descriptors reopened so far. -/
def closeReopenedFiles (reopenedFiles : List (ℤ × ℕ)) (h : Host HostPath) : Host HostPath :=
  reopenedFiles.foldl (fun h reopened => (h.close reopened.2).2) h

/-- One round of the first loop of `reopenSharedFiles`: a second descriptor for a shared
entry, on the private copy and at the offset of the first. -/
def reopenFile (file : OpenFile) (path : HostPath) (h : Host HostPath) :
    Option ℕ × Host HostPath :=
  match h.lseek sys.kernel file.hostDescriptor 0 .cur with
  | (none, h) => (none, h)
  | (some offset, h) =>
    match h.openAt sys.kernel path (toHostOpenFlags file.flags) with
    | (none, h) => (none, h)
    | (some hostDescriptor, h) =>
      match h.lseek sys.kernel hostDescriptor offset .set with
      | (none, h) => (none, (h.close hostDescriptor).2)
      | (some _, h) => (some hostDescriptor, h)

/-- The first loop of `reopenSharedFiles`: every shared entry of the name is reopened, and
all that was reopened is closed again when one round fails. -/
def reopenEach (openFiles : Finmap (fun _ : ℤ => OpenFile)) (name : String) (path : HostPath) :
    List ℤ → List (ℤ × ℕ) → Host HostPath → Option (List (ℤ × ℕ)) × Host HostPath
  | [], reopenedFiles, h => (some reopenedFiles, h)
  | descriptor :: rest, reopenedFiles, h =>
    match openFiles.lookup descriptor with
    | none => reopenEach openFiles name path rest reopenedFiles h
    | some file =>
      if !file.shared || file.name != name then
        reopenEach openFiles name path rest reopenedFiles h
      else
        match reopenFile sys file path h with
        | (none, h) => (none, closeReopenedFiles reopenedFiles h)
        | (some hostDescriptor, h) =>
          reopenEach openFiles name path rest
            (reopenedFiles ++ [(descriptor, hostDescriptor)]) h

/-- The second loop of `reopenSharedFiles`: the entries move to their new descriptors. -/
def switchEach (path : HostPath) :
    List (ℤ × ℕ) → Finmap (fun _ : ℤ => OpenFile) → Host HostPath →
      Finmap (fun _ : ℤ => OpenFile) × Host HostPath
  | [], openFiles, h => (openFiles, h)
  | (descriptor, hostDescriptor) :: rest, openFiles, h =>
    match openFiles.lookup descriptor with
    | none => switchEach path rest openFiles h
    | some openFile =>
      switchEach path rest
        (openFiles.insert descriptor
          { openFile with hostDescriptor := hostDescriptor, hostPath := path, shared := false })
        (h.close openFile.hostDescriptor).2

/-- Move every shared entry of a name to the private copy, or none of them. -/
def reopenSharedFiles (name : String) (path : HostPath) (s : FileState) (h : Host HostPath) :
    Bool × FileState × Host HostPath :=
  match reopenEach sys s.openFiles name path (sys.iterate h.calls s.openFiles.keys) [] h with
  | (none, h) => (false, s, h)
  | (some reopenedFiles, h) =>
    let (openFiles, h) := switchEach path reopenedFiles s.openFiles h
    (!reopenedFiles.isEmpty, { s with openFiles := openFiles }, h)

/-- Before a write: an entry that is still shared gets its private copy first. Whatever
goes wrong after the directory exists, the local path is removed. -/
def prepareFileForWrite (file : OpenFile) (s : FileState) (h : Host HostPath) :
    Bool × FileState × Host HostPath :=
  if !file.shared then (true, s, h)
  else
    let path := sys.localPathOf context file.name
    match h.createDirectories sys.kernel with
    | (false, h) => (false, s, h)
    | (true, h) =>
      match h.copyFile sys.kernel file.hostPath path with
      | (false, h) => (false, s, h.remove path)
      | (true, h) =>
        match h.addOwnerWrite sys.kernel path with
        | (false, h) => (false, s, h.remove path)
        | (true, h) =>
          match reopenSharedFiles sys file.name path s h with
          | (false, s, h) => (false, s, h.remove path)
          | (true, s, h) => (true, s, h)

/-! ### The operations -/

/-- A request that ends with `-1` and leaves memory and state as they are. -/
def Reply.failed (memory : GuestMemory) (s : FileState) (h : Host HostPath) : Reply :=
  ⟨-1, memory, s, h⟩

/-- The next descriptor; `int` is a 32-bit two's-complement integer. -/
def FileState.increment (s : FileState) : ℤ :=
  (s.nextDescriptor + 1).bmod (2 ^ 32)

/-- The next descriptor is never the one after itself. -/
theorem FileState.increment_ne (s : FileState) : s.increment ≠ s.nextDescriptor := by
  intro heq
  have hmod := Int.bmod_emod (x := s.nextDescriptor + 1) (m := 2 ^ 32)
  rw [← FileState.increment, heq] at hmod
  omega

/-- Add an entry under the next descriptor, unless that descriptor is in use. -/
def FileState.emplace (s : FileState) (file : OpenFile) : FileState :=
  { s with
    nextDescriptor := s.increment
    openFiles :=
      if s.nextDescriptor ∈ s.openFiles then s.openFiles
      else s.openFiles.insert s.nextDescriptor file }

/-- The table after an entry was added. -/
theorem FileState.lookup_emplace (s : FileState) (file : OpenFile) (d : ℤ) :
    (s.emplace file).openFiles.lookup d =
      if d = s.nextDescriptor ∧ s.nextDescriptor ∉ s.openFiles then some file
      else s.openFiles.lookup d := by
  rw [FileState.emplace]
  by_cases hused : s.nextDescriptor ∈ s.openFiles
  · simp [hused]
  · simp [hused, lookup_insert_eq]

/-- The host `open` at the end of `openFile`. -/
def openResolved (memory : GuestMemory) (request : FileRequest) (name : String)
    (resolved : ResolvedFile) (s : FileState) (h : Host HostPath) : Reply :=
  let hostFlags := if resolved.shared then readOnly else toHostOpenFlags request.flags
  match h.openAt sys.kernel resolved.path hostFlags with
  | (none, h) => Reply.failed memory s h
  | (some hostDescriptor, h) =>
    ⟨s.nextDescriptor, memory,
      s.emplace ⟨hostDescriptor, request.flags, name, resolved.path, resolved.shared⟩, h⟩

/-- The second half of `openFile`: the VM's own directory is made first if the request may
create the file. -/
def openInDirectory (memory : GuestMemory) (request : FileRequest) (name : String)
    (resolved : ResolvedFile) (s : FileState) (h : Host HostPath) : Reply :=
  if !resolved.shared && request.flags &&& fileOpenCreate != 0 then
    match h.createDirectories sys.kernel with
    | (false, h) => Reply.failed memory s h
    | (true, h) => openResolved sys memory request name resolved s h
  else openResolved sys memory request name resolved s h

/-- Open a file by name: the VM's own, else a shared one, else a new one. -/
def openFile (memory : GuestMemory) (request : FileRequest) (s : FileState)
    (h : Host HostPath) : Reply :=
  if !areValidOpenFlags request.flags then Reply.failed memory s h
  else
    match readGuestFileName memory request.buffer with
    | none => Reply.failed memory s h
    | some name =>
      match resolveFile sys context name h with
      | (resolved, h) => openInDirectory sys memory request name resolved s h

/-- Close a descriptor. -/
def closeFile (memory : GuestMemory) (descriptor : ℤ) (s : FileState) (h : Host HostPath) :
    Reply :=
  match s.openFiles.lookup descriptor with
  | none => Reply.failed memory s h
  | some file =>
    match h.close file.hostDescriptor with
    | (closed, h) =>
      ⟨if closed then 0 else -1, memory,
        { s with openFiles := s.openFiles.erase descriptor }, h⟩

/-- Read into guest memory at the offset of the descriptor. -/
def readFile (memory : GuestMemory) (request : FileRequest) (s : FileState)
    (h : Host HostPath) : Reply :=
  match s.openFiles.lookup request.descriptor with
  | none => Reply.failed memory s h
  | some file =>
    if !hasReadAccess file.flags || request.count < 0 then Reply.failed memory s h
    else if request.count = 0 then ⟨0, memory, s, h⟩
    else
      match getGuestMemory memory request.buffer request.count.toNat with
      | none => Reply.failed memory s h
      | some buffer =>
        match h.read sys.kernel file.hostDescriptor request.count.toNat with
        | (none, h) => Reply.failed memory s h
        | (some data, h) => ⟨data.length, memory.store buffer data, s, h⟩

/-- The host `write` at the end of `writeFile`. -/
def writePrepared (memory : GuestMemory) (request : FileRequest) (file : OpenFile)
    (s : FileState) (h : Host HostPath) : Reply :=
  if request.count = 0 then ⟨0, memory, s, h⟩
  else
    match getGuestMemory memory request.buffer request.count.toNat with
    | none => Reply.failed memory s h
    | some buffer =>
      match h.write sys.kernel file.hostDescriptor
          (memory.slice buffer request.count.toNat) with
      | (none, h) => Reply.failed memory s h
      | (some count, h) => ⟨count, memory, s, h⟩

/-- Write from guest memory at the offset of the descriptor, after the switch to a private
copy if the entry is still shared. -/
def writeFile (memory : GuestMemory) (request : FileRequest) (s : FileState)
    (h : Host HostPath) : Reply :=
  match s.openFiles.lookup request.descriptor with
  | none => Reply.failed memory s h
  | some file =>
    if !hasWriteAccess file.flags || request.count < 0 then Reply.failed memory s h
    else
      match prepareFileForWrite sys context file s h with
      | (false, s, h) => Reply.failed memory s h
      | (true, s, h) =>
        -- the switch replaced the entry in place, so it is looked up again here
        match s.openFiles.lookup request.descriptor with
        | none => Reply.failed memory s h
        | some file => writePrepared sys memory request file s h

/-- The largest result of a seek. -/
def intMax : ℤ := 2 ^ 31 - 1

/-- Move the offset of a descriptor to an absolute position or to the end of the file. -/
def seekFile (memory : GuestMemory) (request : FileRequest) (s : FileState)
    (h : Host HostPath) : Reply :=
  match s.openFiles.lookup request.descriptor with
  | none => Reply.failed memory s h
  | some file =>
    let target : Option (Whence × ℤ) :=
      if request.flags == fileSeekSet then some (.set, request.offset)
      else if request.flags == fileSeekEnd then some (.fromEnd, 0)
      else none
    match target with
    | none => Reply.failed memory s h
    | some (hostWhence, offset) =>
      match h.lseek sys.kernel file.hostDescriptor offset hostWhence with
      | (none, h) => Reply.failed memory s h
      | (some position, h) =>
        if intMax < position then Reply.failed memory s h
        else ⟨position, memory, s, h⟩

/-- Serve one request of a guest. -/
def processFileRequest (memory : GuestMemory) (request : FileRequest) (s : FileState)
    (h : Host HostPath) : Reply :=
  match FileOperation.ofCode request.operation with
  | some .openFile => openFile sys context memory request s h
  | some .close => closeFile memory request.descriptor s h
  | some .read => readFile sys memory request s h
  | some .write => writeFile sys context memory request s h
  | some .lseek => seekFile sys memory request s h
  | none => Reply.failed memory s h

/-- At the end of a VM: close every descriptor of its table and empty the table. -/
def closeGuestFiles (s : FileState) (h : Host HostPath) : FileState × Host HostPath :=
  ({ s with openFiles := ∅ },
    (sys.iterate h.calls s.openFiles.keys).foldl (fun h descriptor =>
      match s.openFiles.lookup descriptor with
      | none => h
      | some file => (h.close file.hostDescriptor).2) h)

end KvmHypervisor
