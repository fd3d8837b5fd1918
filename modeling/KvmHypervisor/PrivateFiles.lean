import KvmHypervisor.FileRuns

/-!
# Private Files

What the file layer is for: a guest has a directory of its own in which every shared file
of the command line is a writable file like any other. The machine of this module serves
requests on such directories. It knows no originals, no shared entries, no descriptors of
the host and no host calls that could fail; a file is an identity with bytes and
permissions, and a descriptor is a file, the flags it was opened with, and an offset.

Directories may share files at the start, as they do under hard links. A file that a guest
creates is its own, so guests whose directories have nothing in common never see each other.

One thing shows of the originals. The hypervisor owns the file of a VM once the VM has begun to
write to it, and it may not be allowed to read as the owner what it may read as somebody else. A
VM with a descriptor for reading then cannot begin to write.

## Main results

* `servePrivate_alike`: a request neither reads nor changes a file outside a set of files
  that its VM stays within.
* `privateLayer_trace_filter`: a VM that shares no file with the others gets the answers it
  would get alone.
-/

namespace KvmHypervisor

open PosixFiles Transitions

/-- A file of the VMs: one that was there at the start, by its inode, or the own file of a
VM under a name. -/
inductive FileId (n : ℕ)
  | initial (ino : ℕ)
  | own (vm : Fin n) (name : String)
deriving DecidableEq

/-- A descriptor: the file, the flags it was opened with, and the offset. -/
structure PrivateEntry (n : ℕ) where
  file : FileId n
  flags : BitVec 32
  offset : ℕ

/-- What one VM has: a directory, its descriptors, and the next descriptor. -/
structure PrivateState (n : ℕ) where
  names : String → Option (FileId n)
  entries : ℤ → Option (PrivateEntry n)
  nextDescriptor : ℤ

/-- The files, and what each VM has. -/
structure PrivateWorld (n : ℕ) where
  files : FileId n → File
  states : Fin n → PrivateState n

/-- What a request leaves behind: the answer, the state of the VM and the files. -/
structure PrivateReply (n : ℕ) where
  answer : Answer
  state : PrivateState n
  files : FileId n → File

variable {n : ℕ}

namespace PrivateState

/-- Add a descriptor under the next number, unless that number is in use. -/
def emplace (s : PrivateState n) (entry : PrivateEntry n) : PrivateState n :=
  { s with
    nextDescriptor := (s.nextDescriptor + 1).bmod (2 ^ 32)
    entries :=
      if (s.entries s.nextDescriptor).isSome then s.entries
      else Function.update s.entries s.nextDescriptor (some entry) }

/-- Move a descriptor. -/
def seek (s : PrivateState n) (descriptor : ℤ) (entry : PrivateEntry n) (offset : ℕ) :
    PrivateState n :=
  { s with
    entries := Function.update s.entries descriptor (some { entry with offset := offset }) }

/-- Drop a descriptor. -/
def close (s : PrivateState n) (descriptor : ℤ) : PrivateState n :=
  { s with entries := Function.update s.entries descriptor none }

/-- A new file in the directory. -/
def create (s : PrivateState n) (name : String) (id : FileId n) : PrivateState n :=
  { s with names := Function.update s.names name (some id) }

end PrivateState

/-! ### Permissions -/

/-- A file once its VM has begun to write to it: an own file belongs to the hypervisor. -/
def settled : FileId n → File → File
  | .initial _, f => f
  | .own _ _, f => { f with readable := f.ownerReadable }

/-- The files once the VM has begun to write to one. -/
def settle (files : FileId n → File) (id : FileId n) : FileId n → File :=
  Function.update files id (settled id (files id))

/-- A VM may begin to write to a file: no descriptor of it loses the access it was opened with. -/
def PrivateState.MaySettle (s : PrivateState n) (files : FileId n → File) (id : FileId n) : Prop :=
  ∀ d entry, s.entries d = some entry → entry.file = id →
    (toHostOpenFlags entry.flags).readable = true → (files id).readable = true →
      (settled id (files id)).readable = true

@[simp] theorem bytes_settled (id : FileId n) (f : File) : (settled id f).bytes = f.bytes := by
  cases id <;> rfl

/-- Where the owner may read what the hypervisor may read, there is nothing to settle. -/
theorem settled_eq_self {id : FileId n} {f : File} (h : f.readable = f.ownerReadable) :
    settled id f = f := by
  obtain ⟨bytes, readable, writable, ownerReadable, ownerWritable⟩ := f
  obtain rfl : readable = ownerReadable := h
  cases id <;> rfl

theorem settle_eq_self {files : FileId n → File} {id : FileId n}
    (h : settled id (files id) = files id) : settle files id = files := by
  rw [settle, h, Function.update_eq_self]

theorem PrivateState.maySettle_of_settled {s : PrivateState n} {files : FileId n → File}
    {id : FileId n} (h : settled id (files id) = files id) : s.MaySettle files id := by
  intro d entry _ _ _ hreadable
  rw [h, hreadable]

/-! ### Requests -/

section Requests

variable (configured : String → Bool) (vm : Fin n) (memory : GuestMemory)
variable (request : FileRequest) (s : PrivateState n) (files : FileId n → File)

/-- A refused request. -/
def PrivateReply.failed : PrivateReply n :=
  ⟨⟨-1, memory⟩, s, files⟩

/-- Open a file of the directory, or create it. A configured name that is not in the directory
is one whose original nobody may read, and is not created. -/
def openPrivate : PrivateReply n :=
  if !areValidOpenFlags request.flags then .failed memory s files
  else
    match readGuestFileName memory request.buffer with
    | none => .failed memory s files
    | some name =>
      match s.names name with
      | some id =>
        if (files id).permits (toHostOpenFlags request.flags) then
          ⟨⟨s.nextDescriptor, memory⟩, s.emplace ⟨id, request.flags, 0⟩, files⟩
        else .failed memory s files
      | none =>
        if (toHostOpenFlags request.flags).create && !configured name then
          ⟨⟨s.nextDescriptor, memory⟩,
            (s.create name (.own vm name)).emplace ⟨.own vm name, request.flags, 0⟩,
            Function.update files (.own vm name) (.made [])⟩
        else .failed memory s files

/-- Close a descriptor. -/
def closePrivate : PrivateReply n :=
  match s.entries request.descriptor with
  | none => .failed memory s files
  | some _ => ⟨⟨0, memory⟩, s.close request.descriptor, files⟩

/-- Read at the offset of a descriptor. -/
def readPrivate : PrivateReply n :=
  match s.entries request.descriptor with
  | none => .failed memory s files
  | some entry =>
    if !hasReadAccess entry.flags || request.count < 0 then .failed memory s files
    else if request.count = 0 then ⟨⟨0, memory⟩, s, files⟩
    else
      match getGuestMemory memory request.buffer request.count.toNat with
      | none => .failed memory s files
      | some buffer =>
        let data := ((files entry.file).bytes.drop entry.offset).take request.count.toNat
        ⟨⟨data.length, memory.store buffer data⟩,
          s.seek request.descriptor entry (entry.offset + data.length), files⟩

/-- A write of `count` bytes from `buffer` at the offset of a descriptor. -/
def writeEntry (entry : PrivateEntry n) : PrivateReply n :=
  if request.count = 0 then ⟨⟨0, memory⟩, s, files⟩
  else
    match getGuestMemory memory request.buffer request.count.toNat with
    | none => .failed memory s files
    | some buffer =>
      ⟨⟨request.count, memory⟩,
        s.seek request.descriptor entry (entry.offset + request.count.toNat),
        Function.update files entry.file { files entry.file with
          bytes := overwrite (files entry.file).bytes entry.offset
            (memory.slice buffer request.count.toNat) }⟩

open scoped Classical in
/-- Write at the offset of a descriptor, to a file that belongs to the hypervisor then. -/
noncomputable def writePrivate : PrivateReply n :=
  match s.entries request.descriptor with
  | none => .failed memory s files
  | some entry =>
    if !hasWriteAccess entry.flags || request.count < 0 then .failed memory s files
    else if s.MaySettle files entry.file then
      writeEntry memory request s (settle files entry.file) entry
    else .failed memory s files

/-- Move a descriptor to a position or to the end of its file. A position that is too large
for a result is refused, but the descriptor has moved. -/
def seekPrivate : PrivateReply n :=
  match s.entries request.descriptor with
  | none => .failed memory s files
  | some entry =>
    let target : Option ℤ :=
      if request.flags == fileSeekSet then some request.offset
      else if request.flags == fileSeekEnd then some (files entry.file).bytes.length
      else none
    match target with
    | none => .failed memory s files
    | some position =>
      if position < 0 then .failed memory s files
      else
        ⟨⟨if intMax < position then -1 else position, memory⟩,
          s.seek request.descriptor entry position.toNat, files⟩

/-- Serve one request. -/
noncomputable def servePrivate : PrivateReply n :=
  match FileOperation.ofCode request.operation with
  | some .openFile => openPrivate configured vm memory request s files
  | some .close => closePrivate memory request s files
  | some .read => readPrivate memory request s files
  | some .write => writePrivate memory request s files
  | some .lseek => seekPrivate memory request s files
  | none => .failed memory s files

end Requests

/-- A VM is done. -/
def PrivateState.finish (s : PrivateState n) : PrivateState n :=
  { s with entries := fun _ => none }

/-- The VM has a new state, and files may have changed. -/
def PrivateWorld.update (a : PrivateWorld n) (vm : Fin n) (s : PrivateState n)
    (files : FileId n → File) : PrivateWorld n :=
  { files := files, states := Function.update a.states vm s }

/-- The directories after a step of one VM. -/
theorem PrivateWorld.names_update (a : PrivateWorld n) (vm : Fin n) (s : PrivateState n)
    (files : FileId n → File) :
    (fun vm' => ((a.update vm s files).states vm').names) =
      Function.update (fun vm' => (a.states vm').names) vm s.names := by
  funext vm'
  rw [PrivateWorld.update]
  by_cases hvm : vm' = vm
  · subst hvm
    simp only [Function.update_self]
  · simp only [Function.update_of_ne hvm]

/-- The file layer of private files: requests and ends of VMs. -/
noncomputable def privateLayer (configured : String → Bool) :
    Transducer (PrivateWorld n) (FileInput n) (Option Answer) where
  step a
    | .request call =>
      let reply := servePrivate configured call.vm call.memory call.request (a.states call.vm)
        a.files
      (some reply.answer, a.update call.vm reply.state reply.files)
    | .finish vm => (none, a.update vm (a.states vm).finish a.files)

/-- A request is one step. -/
theorem privateLayer_request (configured : String → Bool) (a : PrivateWorld n)
    (call : GuestCall n) :
    (privateLayer configured).step a (.request call) =
      let reply := servePrivate configured call.vm call.memory call.request (a.states call.vm)
        a.files
      (some reply.answer, a.update call.vm reply.state reply.files) :=
  rfl

/-- The end of a VM is one step. -/
theorem privateLayer_finish (configured : String → Bool) (a : PrivateWorld n) (vm : Fin n) :
    (privateLayer configured).step a (.finish vm) =
      (none, a.update vm (a.states vm).finish a.files) :=
  rfl

/-! ### What a VM can reach -/

section Reach

variable {R : FileId n → Prop}

/-- The directory and the descriptors of a VM stay within a set of files. -/
structure PrivateState.Within (R : FileId n → Prop) (s : PrivateState n) : Prop where
  names : ∀ name id, s.names name = some id → R id
  entries : ∀ d entry, s.entries d = some entry → R entry.file

namespace PrivateState.Within

variable {s : PrivateState n}

/-- A new descriptor on a file within reach. -/
theorem emplace (hs : s.Within R) {entry : PrivateEntry n} (hentry : R entry.file) :
    (s.emplace entry).Within R where
  names := hs.names
  entries d entry' hd := by
    rw [PrivateState.emplace] at hd
    dsimp only at hd
    split_ifs at hd
    · exact hs.entries d entry' hd
    · rw [Function.update_apply] at hd
      split_ifs at hd
      · obtain rfl := Option.some.inj hd
        exact hentry
      · exact hs.entries d entry' hd

/-- A descriptor moves. -/
theorem seek (hs : s.Within R) {d : ℤ} {entry : PrivateEntry n}
    (hentry : s.entries d = some entry) (offset : ℕ) : (s.seek d entry offset).Within R where
  names := hs.names
  entries d' entry' hd' := by
    rw [PrivateState.seek] at hd'
    dsimp only at hd'
    rw [Function.update_apply] at hd'
    split_ifs at hd'
    · obtain rfl := Option.some.inj hd'
      exact hs.entries d entry hentry
    · exact hs.entries d' entry' hd'

/-- A descriptor is dropped. -/
theorem close (hs : s.Within R) (d : ℤ) : (s.close d).Within R where
  names := hs.names
  entries d' entry hd' := by
    rw [PrivateState.close] at hd'
    dsimp only at hd'
    rw [Function.update_apply] at hd'
    split_ifs at hd'
    exact hs.entries d' entry hd'

/-- A file within reach is created. -/
theorem create (hs : s.Within R) (name : String) {id : FileId n} (hid : R id) :
    (s.create name id).Within R where
  names name' id' hname := by
    rw [PrivateState.create] at hname
    dsimp only at hname
    rw [Function.update_apply] at hname
    split_ifs at hname
    · obtain rfl := Option.some.inj hname
      exact hid
    · exact hs.names name' id' hname
  entries := hs.entries

/-- No descriptor is left at the end. -/
theorem finish (hs : s.Within R) : s.finish.Within R where
  names := hs.names
  entries _ _ hd := by cases hd

end PrivateState.Within

/-- Two replies to one request, on files that agree within `R`: the answers and states are
the same, the files still agree, and everything stays within `R`. -/
structure Alike (R : FileId n → Prop) (files : FileId n → File) (r r' : PrivateReply n) :
    Prop where
  answer : r.answer = r'.answer
  state : r.state = r'.state
  agree : ∀ id, R id → r.files id = r'.files id
  within : r.state.Within R
  frame : ∀ id, ¬ R id → r.files id = files id

variable {files files' : FileId n → File}

/-- No file changes. -/
theorem Alike.keep (hfiles : ∀ id, R id → files id = files' id) {s : PrivateState n}
    (hs : s.Within R) (answer : Answer) : Alike R files ⟨answer, s, files⟩ ⟨answer, s, files'⟩ :=
  ⟨rfl, rfl, hfiles, hs, fun _ _ => rfl⟩

/-- One file within `R` changes. -/
theorem Alike.set (hfiles : ∀ id, R id → files id = files' id) {s : PrivateState n}
    (hs : s.Within R) (answer : Answer) {id : FileId n} (hid : R id) (f : File) :
    Alike R files ⟨answer, s, Function.update files id f⟩
      ⟨answer, s, Function.update files' id f⟩ := by
  refine ⟨rfl, rfl, fun id' hid' => ?_, hs, fun id' hid' => ?_⟩
  · dsimp only
    rw [Function.update_apply, Function.update_apply, hfiles id' hid']
  · refine Function.update_of_ne ?_ f files
    rintro rfl
    exact hid' hid

variable {configured : String → Bool} {vm : Fin n} {memory : GuestMemory}
variable {request : FileRequest} {s : PrivateState n}

/-- Opening. -/
theorem openPrivate_alike (hown : ∀ name, R (.own vm name)) (hs : s.Within R)
    (hfiles : ∀ id, R id → files id = files' id) :
    Alike R files (openPrivate configured vm memory request s files)
      (openPrivate configured vm memory request s files') := by
  rw [openPrivate, openPrivate]
  split_ifs
  · exact .keep hfiles hs _
  · cases readGuestFileName memory request.buffer with
    | none => exact .keep hfiles hs _
    | some name =>
        dsimp only
        cases hname : s.names name with
        | some id =>
            have hid := hs.names name id hname
            dsimp only
            rw [hfiles id hid]
            split_ifs
            · exact .keep hfiles (hs.emplace hid) _
            · exact .keep hfiles hs _
        | none =>
            dsimp only
            split_ifs
            · exact .set hfiles ((hs.create name (hown name)).emplace (hown name)) _ (hown name) _
            · exact .keep hfiles hs _

/-- Closing. -/
theorem closePrivate_alike (hs : s.Within R) (hfiles : ∀ id, R id → files id = files' id) :
    Alike R files (closePrivate memory request s files) (closePrivate memory request s files') := by
  rw [closePrivate, closePrivate]
  cases s.entries request.descriptor with
  | none => exact .keep hfiles hs _
  | some entry => exact .keep hfiles (hs.close _) _

/-- Reading. -/
theorem readPrivate_alike (hs : s.Within R) (hfiles : ∀ id, R id → files id = files' id) :
    Alike R files (readPrivate memory request s files) (readPrivate memory request s files') := by
  rw [readPrivate, readPrivate]
  cases hentry : s.entries request.descriptor with
  | none => exact .keep hfiles hs _
  | some entry =>
      dsimp only
      split_ifs
      · exact .keep hfiles hs _
      · exact .keep hfiles hs _
      · cases getGuestMemory memory request.buffer request.count.toNat with
        | none => exact .keep hfiles hs _
        | some buffer =>
            dsimp only
            rw [hfiles _ (hs.entries _ _ hentry)]
            exact .keep hfiles (hs.seek hentry _) _

/-- A write to a file within `R`. -/
theorem writeEntry_alike (hs : s.Within R) (hfiles : ∀ id, R id → files id = files' id)
    {entry : PrivateEntry n} (hentry : s.entries request.descriptor = some entry) :
    Alike R files (writeEntry memory request s files entry)
      (writeEntry memory request s files' entry) := by
  rw [writeEntry, writeEntry]
  split_ifs
  · exact .keep hfiles hs _
  · cases getGuestMemory memory request.buffer request.count.toNat with
    | none => exact .keep hfiles hs _
    | some buffer =>
        have hid := hs.entries _ _ hentry
        dsimp only
        rw [hfiles _ hid]
        exact .set hfiles (hs.seek hentry _) _ hid _

/-- Writing. -/
theorem writePrivate_alike (hs : s.Within R) (hfiles : ∀ id, R id → files id = files' id) :
    Alike R files (writePrivate memory request s files) (writePrivate memory request s files') := by
  rw [writePrivate, writePrivate]
  cases hentry : s.entries request.descriptor with
  | none => exact .keep hfiles hs _
  | some entry =>
      have hid := hs.entries _ _ hentry
      dsimp only
      by_cases hrefused : (!hasWriteAccess entry.flags || decide (request.count < 0)) = true
      · rw [if_pos hrefused, if_pos hrefused]
        exact .keep hfiles hs _
      · rw [if_neg hrefused, if_neg hrefused, PrivateState.MaySettle, PrivateState.MaySettle,
          hfiles _ hid]
        split_ifs
        · have hset : Alike R files ⟨⟨0, memory⟩, s, settle files entry.file⟩
              ⟨⟨0, memory⟩, s, settle files' entry.file⟩ := by
            rw [settle, settle, hfiles _ hid]
            exact .set hfiles hs _ hid _
          obtain ⟨hanswer, hstate, hagree, hwithin, hframe⟩ :=
            writeEntry_alike hs hset.agree hentry
          exact ⟨hanswer, hstate, hagree, hwithin,
            fun id hid => (hframe id hid).trans (hset.frame id hid)⟩
        · exact .keep hfiles hs _

/-- Seeking. -/
theorem seekPrivate_alike (hs : s.Within R) (hfiles : ∀ id, R id → files id = files' id) :
    Alike R files (seekPrivate memory request s files) (seekPrivate memory request s files') := by
  rw [seekPrivate, seekPrivate]
  cases hentry : s.entries request.descriptor with
  | none => exact .keep hfiles hs _
  | some entry =>
      dsimp only
      rw [hfiles _ (hs.entries _ _ hentry)]
      cases if request.flags == fileSeekSet then some request.offset
          else if request.flags == fileSeekEnd then some ((files' entry.file).bytes.length : ℤ)
          else none with
      | none => exact .keep hfiles hs _
      | some position =>
          dsimp only
          split_ifs
          · exact .keep hfiles hs _
          · exact .keep hfiles (hs.seek hentry _) _
          · exact .keep hfiles (hs.seek hentry _) _

/-- **One request** of a VM neither reads nor changes a file outside a set that holds the
VM's own files and everything its directory and descriptors name. -/
theorem servePrivate_alike (hown : ∀ name, R (.own vm name)) (hs : s.Within R)
    (hfiles : ∀ id, R id → files id = files' id) :
    Alike R files (servePrivate configured vm memory request s files)
      (servePrivate configured vm memory request s files') := by
  rw [servePrivate, servePrivate]
  rcases FileOperation.ofCode request.operation with _ | op
  · exact .keep hfiles hs _
  cases op with
  | openFile => exact openPrivate_alike hown hs hfiles
  | close => exact closePrivate_alike hs hfiles
  | read => exact readPrivate_alike hs hfiles
  | write => exact writePrivate_alike hs hfiles
  | lseek => exact seekPrivate_alike hs hfiles

/-- Two worlds that look the same to a VM which stays within `R`, where the other VMs stay
outside it in the first. -/
structure LooksAlike (R : FileId n → Prop) (vm : Fin n) (a a' : PrivateWorld n) : Prop where
  state : a.states vm = a'.states vm
  files : ∀ id, R id → a.files id = a'.files id
  within : (a.states vm).Within R
  others : ∀ vm' ≠ vm, (a.states vm').Within fun id => ¬ R id

/-- An input of the VM itself. -/
theorem LooksAlike.step (hown : ∀ name, R (.own vm name)) {a a' : PrivateWorld n}
    (hlooks : LooksAlike R vm a a') {input : FileInput n} (hvm : input.vm = vm) :
    ((privateLayer configured).step a input).1 = ((privateLayer configured).step a' input).1 ∧
      LooksAlike R vm ((privateLayer configured).step a input).2
        ((privateLayer configured).step a' input).2 := by
  obtain ⟨hstate, hfiles, hwithin, hothers⟩ := hlooks
  cases input with
  | request call =>
      obtain rfl : call.vm = vm := hvm
      have halike : Alike R a.files
          (servePrivate configured call.vm call.memory call.request (a.states call.vm) a.files)
          (servePrivate configured call.vm call.memory call.request (a.states call.vm) a'.files) :=
        servePrivate_alike hown hwithin hfiles
      rw [hstate] at halike
      rw [privateLayer_request, privateLayer_request, hstate]
      refine ⟨congrArg some halike.answer, ⟨?_, halike.agree, ?_, fun vm' hne => ?_⟩⟩
      · simp only [PrivateWorld.update, Function.update_self, halike.state]
      · simpa only [PrivateWorld.update, Function.update_self] using halike.within
      · simpa only [PrivateWorld.update, Function.update_of_ne hne] using hothers vm' hne
  | finish vm' =>
      obtain rfl : vm' = vm := hvm
      rw [privateLayer_finish, privateLayer_finish]
      refine ⟨rfl, ⟨?_, hfiles, ?_, fun vm'' hne => ?_⟩⟩
      · simp only [PrivateWorld.update, Function.update_self, hstate]
      · simpa only [PrivateWorld.update, Function.update_self] using hwithin.finish
      · simpa only [PrivateWorld.update, Function.update_of_ne hne] using hothers vm'' hne

/-- An input of another VM, which only the first world sees. -/
theorem LooksAlike.skip (hforeign : ∀ vm' ≠ vm, ∀ name, ¬ R (.own vm' name))
    {a a' : PrivateWorld n} (hlooks : LooksAlike R vm a a') {input : FileInput n}
    (hvm : input.vm ≠ vm) :
    LooksAlike R vm ((privateLayer configured).step a input).2 a' := by
  obtain ⟨hstate, hfiles, hwithin, hothers⟩ := hlooks
  cases input with
  | request call =>
      have hne : call.vm ≠ vm := hvm
      have halike : Alike (fun id => ¬ R id) a.files
          (servePrivate configured call.vm call.memory call.request (a.states call.vm) a.files)
          (servePrivate configured call.vm call.memory call.request (a.states call.vm) a.files) :=
        servePrivate_alike (hforeign _ hne) (hothers _ hne) fun _ _ => rfl
      rw [privateLayer_request]
      refine ⟨?_, fun id hid => ?_, ?_, fun vm' hne' => ?_⟩
      · simp only [PrivateWorld.update, Function.update_of_ne hne.symm, hstate]
      · exact (halike.frame id (not_not_intro hid)).trans (hfiles id hid)
      · simpa only [PrivateWorld.update, Function.update_of_ne hne.symm] using hwithin
      · by_cases heq : vm' = call.vm
        · subst heq
          simpa only [PrivateWorld.update, Function.update_self] using halike.within
        · simpa only [PrivateWorld.update, Function.update_of_ne heq] using hothers vm' hne'
  | finish vm' =>
      have hne : vm' ≠ vm := hvm
      rw [privateLayer_finish]
      refine ⟨?_, hfiles, ?_, fun vm'' hne' => ?_⟩
      · simp only [PrivateWorld.update, Function.update_of_ne hne.symm, hstate]
      · simpa only [PrivateWorld.update, Function.update_of_ne hne.symm] using hwithin
      · by_cases heq : vm'' = vm'
        · subst heq
          simpa only [PrivateWorld.update, Function.update_self] using (hothers _ hne).finish
        · simpa only [PrivateWorld.update, Function.update_of_ne heq] using hothers vm'' hne'

/-- **Other VMs do not matter.** If a VM stays within `R` and the others outside of it, it
gets the answers it would get alone. -/
theorem privateLayer_trace_filter (hown : ∀ vm' name, R (.own vm' name) ↔ vm' = vm)
    {a : PrivateWorld n} (hwithin : (a.states vm).Within R)
    (hothers : ∀ vm' ≠ vm, (a.states vm').Within fun id => ¬ R id) (inputs : List (FileInput n)) :
    ((privateLayer configured).trace a inputs).filter (fun x => x.1.vm = vm) =
      (privateLayer configured).trace a (inputs.filter fun input => input.vm = vm) := by
  refine Transducer.trace_filter_of_simulation (R := LooksAlike R vm)
    (p := fun input => decide (input.vm = vm)) (fun a a' input hlooks hvm => ?_)
    (fun a a' input hlooks hvm => ?_) ⟨rfl, fun _ _ => rfl, hwithin, hothers⟩ inputs
  · exact hlooks.step (fun name => (hown vm name).mpr rfl) (of_decide_eq_true hvm)
  · exact hlooks.skip (fun vm' hne name hR => hne ((hown vm' name).mp hR))
      (of_decide_eq_false hvm)

end Reach

end KvmHypervisor
