import KvmHypervisor.BackedEntries

/-!
# Requests When No Host Call Fails

What each operation computes in a backed table when no host call fails without cause: the
result, the bytes it delivers, and the host it leaves behind, with no case left open. An
open succeeds exactly if the permissions or the creation flag allow it; a read, a seek and
a write fail only for what is wrong with the request itself.
-/

namespace KvmHypervisor

open PosixFiles

variable {sys : HostSystem} {context : GuestContext} {memory : GuestMemory}
variable {request : FileRequest} {s : FileState} {h : Host HostPath}
variable {file : OpenFile} {e : Description}

/-! ### Flags and access -/

/-- Flags that allow reading open for reading. -/
theorem readable_of_hasReadAccess {flags : BitVec 32} (h : hasReadAccess flags = true) :
    (toHostOpenFlags flags).readable = true := by
  rw [hasReadAccess, Bool.or_eq_true, beq_iff_eq, beq_iff_eq] at h
  rw [toHostOpenFlags]
  rcases h with h | h
  · simp [h]
  · simp [h, fileOpenRead, fileOpenWrite, fileOpenReadWrite]

/-- Flags that allow writing open for writing. -/
theorem writable_of_hasWriteAccess {flags : BitVec 32} (h : hasWriteAccess flags = true) :
    (toHostOpenFlags flags).writable = true := by
  rw [hasWriteAccess, Bool.or_eq_true, beq_iff_eq, beq_iff_eq] at h
  rw [toHostOpenFlags]
  rcases h with h | h
  · simp [h, fileOpenRead, fileOpenWrite]
  · simp [h, fileOpenRead, fileOpenWrite, fileOpenReadWrite]

/-- An entry that may be read stands on a description that may be read. -/
theorem Backing.readable_of_access (hb : Backing sys context file e h)
    (hread : hasReadAccess file.flags = true) : e.readable = true := by
  cases hshared : file.shared with
  | true => exact (hb.shared hshared).readable
  | false =>
      rw [(hb.own hshared).readable]
      exact readable_of_hasReadAccess hread

/-! ### Open -/

/-- What a name resolves to when the probe tells the truth. -/
theorem resolveFile_of_faultless (hκ : sys.kernel.Faultless) (name : String) :
    (resolveFile sys context name h).1 =
      match h.names (sys.localPathOf context name), context.sharedFiles.lookup name with
      | none, some path => ⟨path, true⟩
      | _, _ => ⟨sys.localPathOf context name, false⟩ := by
  rw [resolveFile, Host.existsAt_of_faultless hκ]
  cases h.names (sys.localPathOf context name) with
  | some m => rfl
  | none => cases context.sharedFiles.lookup name <;> rfl

/-- The host `open` at the end succeeds exactly if it is allowed. -/
theorem openResolved_of_faultless (hκ : sys.kernel.Faultless) (name : String)
    (resolved : ResolvedFile) :
    (h.canOpen resolved.path (openModeOf resolved request.flags) = false ∧
        ∃ h', h.Unchanged h' ∧
          openResolved sys memory request name resolved s h = Reply.failed memory s h') ∨
      h.canOpen resolved.path (openModeOf resolved request.flags) = true ∧
        ∃ fd h', h.descriptors.lookup fd = none ∧
          OpensAt resolved.path (openModeOf resolved request.flags) fd h h' ∧
          openResolved sys memory request name resolved s h =
            ⟨s.nextDescriptor, memory,
              s.emplace ⟨fd, request.flags, name, resolved.path, resolved.shared⟩, h'⟩ := by
  rw [openResolved, ← openModeOf, Host.canOpen]
  rcases hnames : h.names resolved.path with _ | m
  · rw [Host.openAt_of_faultless_of_missing hκ hnames]
    dsimp only
    split_ifs with hcreate
    · exact .inr ⟨hcreate, _, _, h.lookup_pick sys.kernel _, .inr ⟨hnames, hcreate, rfl⟩, rfl⟩
    · exact .inl ⟨by simpa using hcreate, _, .tick h, rfl⟩
  · rw [Host.openAt_of_faultless hκ hnames]
    dsimp only
    split_ifs with hpermits
    · exact .inr ⟨hpermits, _, _, h.lookup_pick sys.kernel _, .inl ⟨m, hnames, hpermits, rfl⟩,
        rfl⟩
    · exact .inl ⟨by simpa using hpermits, _, .tick h, rfl⟩

/-- Calls without effect do not change what may be opened. -/
theorem canOpen_of_unchanged {h' : Host HostPath} (hu : h.Unchanged h') (p : HostPath)
    (mode : OpenMode) : h'.canOpen p mode = h.canOpen p mode := by
  rw [Host.canOpen, Host.canOpen, hu.names, hu.files]

/-- **Open**, with valid flags and a valid name. -/
theorem openFile_of_faultless (context : GuestContext) (s : FileState) (h : Host HostPath)
    (hκ : sys.kernel.Faultless) (hflags : areValidOpenFlags request.flags = true) {name : String}
    (hname : readGuestFileName memory request.buffer = some name) :
    ∃ resolved, resolved = (resolveFile sys context name h).1 ∧
      Resolves sys context name h resolved ∧
      ((h.canOpen resolved.path (openModeOf resolved request.flags) = false ∧
          ∃ h', h.Unchanged h' ∧
            openFile sys context memory request s h = Reply.failed memory s h') ∨
        h.canOpen resolved.path (openModeOf resolved request.flags) = true ∧
          ∃ fd h₁ h', h.Unchanged h₁ ∧ h₁.descriptors.lookup fd = none ∧
            OpensAt resolved.path (openModeOf resolved request.flags) fd h₁ h' ∧
            openFile sys context memory request s h =
              ⟨s.nextDescriptor, memory,
                s.emplace ⟨fd, request.flags, name, resolved.path, resolved.shared⟩, h'⟩) := by
  obtain ⟨resolved, hresolve, hresolves⟩ := resolveFile_cases sys context h name
  refine ⟨resolved, by rw [hresolve], hresolves, ?_⟩
  obtain ⟨h₁, hu, heq⟩ : ∃ h₁, h.Unchanged h₁ ∧ openFile sys context memory request s h =
      openResolved sys memory request name resolved s h₁ := by
    simp only [openFile, hflags, hname, Bool.not_true, Bool.false_eq_true, if_false, hresolve,
      openInDirectory, Host.createDirectories_of_faultless hκ]
    split_ifs
    · exact ⟨_, (Host.Unchanged.tick h).trans (.tick _), rfl⟩
    · exact ⟨_, .tick h, rfl⟩
  rw [heq, ← canOpen_of_unchanged hu]
  rcases openResolved_of_faultless hκ name resolved with
    ⟨hno, h', hu', hr⟩ | ⟨hyes, fd, h', hfresh, ho, hr⟩
  · exact .inl ⟨hno, h', hu.trans hu', hr⟩
  · exact .inr ⟨hyes, fd, h₁, h', hu, hfresh, ho, hr⟩

/-- An open of a file in the VM's own directory that its permissions allow. -/
theorem openFile_own (context : GuestContext) (s : FileState) (hκ : sys.kernel.Faultless)
    (hflags : areValidOpenFlags request.flags = true) {name : String}
    (hname : readGuestFileName memory request.buffer = some name) {m : ℕ}
    (hlocal : h.names (sys.localPathOf context name) = some m)
    (hpermits : (h.files m).permits (toHostOpenFlags request.flags) = true) :
    ∃ fd h', openFile sys context memory request s h =
        ⟨s.nextDescriptor, memory,
          s.emplace ⟨fd, request.flags, name, sys.localPathOf context name, false⟩, h'⟩ ∧
      h'.descriptors.lookup fd = some ⟨m, 0, (toHostOpenFlags request.flags).readable,
        (toHostOpenFlags request.flags).writable⟩ ∧
      h'.files = h.files := by
  obtain ⟨resolved, hresolved, -, hcases⟩ := openFile_of_faultless context s h hκ hflags hname
  rw [resolveFile_of_faultless hκ, hlocal] at hresolved
  dsimp only at hresolved
  subst hresolved
  rcases hcases with ⟨hno, -⟩ | ⟨-, fd, h₁, h', hu, -, ho, hr⟩
  · simp [Host.canOpen, hlocal, openModeOf, hpermits] at hno
  · refine ⟨fd, h', hr, ?_⟩
    rcases ho with ⟨m', hm', -, rfl⟩ | ⟨hnone, -, -⟩
    · obtain rfl : m = m' := Option.some.inj (hlocal.symm.trans (hu.names ▸ hm'))
      exact ⟨(Host.lookup_grant (h := h₁.tick) hm' _ _ _).trans (if_pos rfl), hu.files⟩
    · rw [hu.names, hlocal] at hnone
      cases hnone

/-! ### Read and seek -/

/-- **Read**, through an entry that may be read on a description that may be read. -/
theorem readFile_of_faultless (hκ : sys.kernel.Faultless)
    (hfile : s.openFiles.lookup request.descriptor = some file)
    (he : h.descriptors.lookup file.hostDescriptor = some e) (hreadable : e.readable = true)
    (hread : hasReadAccess file.flags = true) {buffer : ℕ} (hcount : 0 < request.count)
    (hbuffer : getGuestMemory memory request.buffer request.count.toNat = some buffer) :
    readFile sys memory request s h =
      let data := ((h.files e.ino).bytes.drop e.offset).take request.count.toNat
      ⟨data.length, memory.store buffer data, s,
        h.tick.reposition file.hostDescriptor (e.offset + data.length)⟩ := by
  have hnonneg : ¬ request.count < 0 := by omega
  have hne : request.count ≠ 0 := by omega
  simp only [readFile, hfile, hread, hnonneg, hne, hbuffer, Bool.not_true, Bool.false_eq_true,
    decide_false, Bool.or_false, if_false,
    Host.read_of_faultless hκ he hreadable]

/-- A read that asks for nothing, or for what it may not have, delivers nothing. -/
theorem readFile_of_invalid (hfile : s.openFiles.lookup request.descriptor = some file)
    (hinvalid : hasReadAccess file.flags = false ∨ request.count ≤ 0 ∨
      getGuestMemory memory request.buffer request.count.toNat = none) :
    ∃ result ≤ 0, readFile sys memory request s h = ⟨result, memory, s, h⟩ := by
  simp only [readFile, hfile]
  split_ifs with hrefused hzero
  · exact ⟨-1, by decide, rfl⟩
  · exact ⟨0, le_rfl, rfl⟩
  · rw [Bool.not_eq_true, Bool.or_eq_false_iff, Bool.not_eq_false', decide_eq_false_iff_not]
      at hrefused
    rcases hinvalid with haccess | hcount | hbuffer
    · rw [haccess] at hrefused
      exact absurd hrefused.1 (by simp)
    · exact absurd hcount (by omega)
    · rw [hbuffer]
      exact ⟨-1, by decide, rfl⟩

/-- **Seek**, on an open descriptor. -/
theorem seekFile_of_faultless (hκ : sys.kernel.Faultless)
    (hfile : s.openFiles.lookup request.descriptor = some file)
    (he : h.descriptors.lookup file.hostDescriptor = some e) {whence : Whence} {offset : ℤ}
    (htarget : seekTarget request = some (whence, offset)) :
    seekFile sys memory request s h =
      if h.target offset whence e < 0 then Reply.failed memory s h.tick
      else ⟨if intMax < h.target offset whence e then -1 else h.target offset whence e, memory, s,
        h.tick.reposition file.hostDescriptor (h.target offset whence e).toNat⟩ := by
  simp only [seekFile, hfile]
  rw [← seekTarget, htarget]
  dsimp only
  rw [Host.lseek_of_faultless hκ he]
  by_cases hneg : h.target offset whence e < 0
  · rw [if_pos hneg, if_pos hneg]
  · rw [if_neg hneg, if_neg hneg]
    dsimp only
    rw [Int.toNat_of_nonneg (by omega)]
    split_ifs
    · rfl
    · rfl

/-! ### Write -/

/-- The host `write`, on a description that may be written. -/
theorem writePrepared_of_faultless (hκ : sys.kernel.Faultless)
    (he : h.descriptors.lookup file.hostDescriptor = some e) (hwrite : e.writable = true)
    {buffer : ℕ} (hcount : 0 < request.count)
    (hbuffer : getGuestMemory memory request.buffer request.count.toNat = some buffer) :
    writePrepared sys memory request file s h =
      ⟨request.count, memory, s,
        (h.tick.setFile e.ino { h.files e.ino with
          bytes := overwrite (h.files e.ino).bytes e.offset
            (memory.slice buffer request.count.toNat) }).reposition file.hostDescriptor
              (e.offset + request.count.toNat)⟩ := by
  have hne : request.count ≠ 0 := by omega
  have hlength : (memory.slice buffer request.count.toNat).length = request.count.toNat := by
    rw [GuestMemory.slice, List.length_map, List.length_range]
  simp only [writePrepared, hne, if_false, hbuffer, Host.write_of_faultless hκ he hwrite, hlength]
  rw [Int.toNat_of_nonneg (by omega)]

/-- A write through a private entry is the host write. -/
theorem writeFile_own (hw : Writes request s file) (hown : file.shared = false) :
    writeFile sys context memory request s h = writePrepared sys memory request file s h := by
  obtain ⟨hfile, haccess, hcount⟩ := hw
  have hguard : (!hasWriteAccess file.flags || decide (request.count < 0)) = false := by
    simp [haccess, hcount]
  simp only [writeFile, hfile, hguard, Bool.false_eq_true, if_false, prepareFileForWrite, hown,
    Bool.not_false, if_true]

/-- **Write**: the switch succeeds, and the host write follows on a private entry with the
same flags; or it is refused, and so is the request. -/
theorem writeFile_of_backed (memory : GuestMemory) (hκ : sys.kernel.Faultless)
    (hb : Backed sys context s h) (ho : Owned s h) (hw : Writes request s file) :
    (∃ h', Refused file s h s h' ∧
      writeFile sys context memory request s h = Reply.failed memory s h') ∨
    ∃ s' h' file' e', Prepared sys context file s h true s' h' ∧
      s'.openFiles.lookup request.descriptor = some file' ∧ file'.shared = false ∧
      h'.descriptors.lookup file'.hostDescriptor = some e' ∧ e'.writable = true ∧
      writeFile sys context memory request s h = writePrepared sys memory request file' s' h' := by
  obtain ⟨hfile, haccess, hcount⟩ := hw
  have hguard : (!hasWriteAccess file.flags || decide (request.count < 0)) = false := by
    simp [haccess, hcount]
  generalize hprepare : prepareFileForWrite sys context file s h = r
  obtain ⟨ok, s', h'⟩ := r
  have hp := prepared_of_prepareFileForWrite sys context hprepare
  obtain ⟨hrefused, hb', -⟩ := prepared_of_backed hκ hb ho hfile hp
  cases ok with
  | false =>
      obtain rfl := (hrefused rfl).state
      refine .inl ⟨h', hrefused rfl, ?_⟩
      simp only [writeFile, hfile, hguard, Bool.false_eq_true, if_false, hprepare]
  | true =>
      obtain ⟨file', hfile', hown, hflags⟩ : ∃ file', s'.openFiles.lookup request.descriptor =
          some file' ∧ file'.shared = false ∧ file'.flags = file.flags := by
        cases hp with
        | own hown => exact ⟨file, hfile, hown, rfl⟩
        | @copied _ _ _ _ fd hshared _ _ hm =>
            refine ⟨file.moved (fd request.descriptor) (sys.localPathOf context file.name), ?_,
              rfl, rfl⟩
            rw [hm.table, if_pos (isSharedEntry_iff.mpr ⟨file, hfile, hshared, rfl⟩), hfile]
            rfl
      obtain ⟨e', he', hback'⟩ := hb' _ _ hfile'
      refine .inr ⟨s', h', file', e', hp, hfile', hown, he', ?_, ?_⟩
      · rw [(hback'.own hown).writable, hflags]
        exact writable_of_hasWriteAccess haccess
      · simp only [writeFile, hfile, hguard, Bool.false_eq_true, if_false, hprepare, hfile']

end KvmHypervisor
