import KvmHypervisor.PrivateView
import KvmHypervisor.SharedConfiguration

/-!
# Lazy Copies

The file layer copies a shared file for a VM on the VM's first write to it. To the guests
this is the same as if every VM had its own copy of every shared file from the start: both
ways the file layer refines the machine of `PrivateFiles`. A switch to a private copy shows
nothing there, and neither does a copy that is made before the run, so one simulation covers
both.

The simulation is for hosts whose calls do not fail without cause.

## Main results

* `Views.serve`: one request shows as one request of the private machine.
* `trace_eq_private`: in every run the answers are those of the private machine.
* `lazy_eq_eager`: copies made on the first write and copies made in advance give the same
  answers, and a VM gets the answers it would get alone.
-/

namespace KvmHypervisor

open PosixFiles Transitions

variable {n : ℕ} {sys : HostSystem} {sharedFiles : List (String × HostPath)} {b : ℕ}

/-! ### One request -/

section Requests

variable (sys sharedFiles b)

/-- One VM with its table on the host, and what shows of them. -/
structure Views (vm : Fin n) (s : FileState) (h : Host HostPath)
    (names : Fin n → String → Option (FileId n)) (p : PrivateState n) (files : FileId n → File) :
    Prop where
  backed : Backed sys (contextOf sharedFiles vm) s h
  owned : Owned s h
  shows : Shows sys sharedFiles b h names files
  table : TableShows s h p
  names : p.names = names vm

/-- A reply shows as a reply of the private machine. -/
structure ReplyShows (vm : Fin n) (names : Fin n → String → Option (FileId n)) (reply : Reply)
    (shown : PrivateReply n) : Prop where
  answer : shown.answer = ⟨reply.result, reply.memory⟩
  shows : Shows sys sharedFiles b reply.host (Function.update names vm shown.state.names)
    shown.files
  table : TableShows reply.state reply.host shown.state

variable {sys sharedFiles b}
variable {vm : Fin n} {s s' : FileState} {h h' : Host HostPath}
variable {names : Fin n → String → Option (FileId n)} {p : PrivateState n}
variable {files : FileId n → File} {memory : GuestMemory} {request : FileRequest}
variable {d : ℤ} {file : OpenFile}

/-- A reply that leaves everything as it was. -/
theorem Views.keep (hv : Views sys sharedFiles b vm s h names p files) (hu : h.Unchanged h')
    (result : ℤ) (memory : GuestMemory) :
    ReplyShows sys sharedFiles b vm names ⟨result, memory, s, h'⟩ ⟨⟨result, memory⟩, p, files⟩ where
  answer := rfl
  shows := by
    dsimp only
    rw [hv.names, Function.update_eq_self]
    exact hv.shows.of_eq hu.names hu.files hu.nextIno
  table := hv.table.keep fun _ _ _ _ he => by rw [hu.descriptors, he]

/-- The bytes behind an entry are those of the file that shows. -/
theorem Views.entry (hv : Views sys sharedFiles b vm s h names p files)
    (hfile : s.openFiles.lookup d = some file) :
    ∃ entry e, p.entries d = some entry ∧ entry.flags = file.flags ∧
      h.descriptors.lookup file.hostDescriptor = some e ∧ e.offset = entry.offset ∧
      Backing sys (contextOf sharedFiles vm) file e h ∧
      (file.shared = false → entry.file = idOf b vm file.name e.ino) ∧
      (h.files e.ino).bytes = (files entry.file).bytes := by
  obtain ⟨entry, hentry, hstands, hflags, e, he, hoffset⟩ := hv.table.of_some hfile
  obtain ⟨e', he', hback⟩ := hv.backed d file hfile
  obtain rfl := Option.some.inj (he.symm.trans he')
  rw [hv.names] at hstands
  refine ⟨entry, e, hentry, hflags, he, hoffset, hback, ?_⟩
  cases hshared : file.shared with
  | true =>
      obtain ⟨horiginal, hnone, hnamed, hread, -, -⟩ := hback.shared hshared
      obtain ⟨hid, hpending⟩ := hv.shows.pending hnone horiginal hnamed hread
      have hfile' := Option.some.inj (hstands.symm.trans hid)
      exact ⟨nofun, by rw [hfile', hpending, File.bytes_addOwnerWrite]⟩
  | false =>
      obtain ⟨hid, hsame⟩ := hv.shows.named (hback.own hshared).named
      have hfile' := Option.some.inj (hstands.symm.trans hid)
      exact ⟨fun _ => hfile', by rw [hfile', hsame]⟩

/-- Closing. -/
theorem Views.close (hv : Views sys sharedFiles b vm s h names p files) :
    ReplyShows sys sharedFiles b vm names (closeFile memory request.descriptor s h)
      (closePrivate memory request p files) := by
  rw [closePrivate]
  rcases closeFile_cases memory s h request.descriptor with ⟨hnone, hr⟩ | ⟨file, hfile, hr⟩
  · rw [hr, hv.table.of_none hnone]
    exact hv.keep (.refl h) (-1) memory
  · obtain ⟨entry, e, hentry, -, he, -⟩ := hv.entry hfile
    rw [hr, hentry, he, Option.isSome_some, if_pos rfl]
    refine ⟨rfl, ?_, hv.table.close hv.owned hfile⟩
    rw [PrivateState.close]
    dsimp only
    rw [hv.names, Function.update_eq_self]
    exact hv.shows.of_eq rfl rfl rfl

/-- A description moves. -/
theorem Views.seek (hv : Views sys sharedFiles b vm s h names p files)
    (hfile : s.openFiles.lookup d = some file) {e : Description}
    (he : h.descriptors.lookup file.hostDescriptor = some e) {entry : PrivateEntry n}
    (hentry : p.entries d = some entry) (result : ℤ) (memory : GuestMemory) (offset : ℕ) :
    ReplyShows sys sharedFiles b vm names
      ⟨result, memory, s, h.tick.reposition file.hostDescriptor offset⟩
      ⟨⟨result, memory⟩, p.seek d entry offset, files⟩ where
  answer := rfl
  shows := by
    rw [PrivateState.seek]
    dsimp only
    rw [hv.names, Function.update_eq_self]
    exact hv.shows.of_eq rfl rfl rfl
  table := by
    have htick : h.tick.descriptors = h.descriptors := rfl
    exact hv.table.seek hv.owned hfile he hentry htick offset

/-- Reading. -/
theorem Views.read (hκ : sys.kernel.Faultless)
    (hv : Views sys sharedFiles b vm s h names p files) :
    ReplyShows sys sharedFiles b vm names (readFile sys memory request s h)
      (readPrivate memory request p files) := by
  rw [readPrivate]
  cases hfile : s.openFiles.lookup request.descriptor with
  | none =>
      rw [hv.table.of_none hfile, readFile, hfile]
      exact hv.keep (.refl h) (-1) memory
  | some file =>
      obtain ⟨entry, e, hentry, hflags, he, hoffset, hback, -, hbytes⟩ := hv.entry hfile
      rw [hentry]
      dsimp only
      rw [hflags]
      by_cases hrefused : (!hasReadAccess file.flags || decide (request.count < 0)) = true
      · rw [if_pos hrefused, readFile, hfile]
        dsimp only
        rw [if_pos hrefused]
        exact hv.keep (.refl h) (-1) memory
      · rw [if_neg hrefused]
        by_cases hzero : request.count = 0
        · rw [if_pos hzero, readFile, hfile]
          dsimp only
          rw [if_neg hrefused, if_pos hzero]
          exact hv.keep (.refl h) 0 memory
        · rw [if_neg hzero]
          cases hbuffer : getGuestMemory memory request.buffer request.count.toNat with
          | none =>
              rw [readFile, hfile]
              dsimp only
              rw [if_neg hrefused, if_neg hzero, hbuffer]
              exact hv.keep (.refl h) (-1) memory
          | some buffer =>
              simp only [Bool.not_eq_true, Bool.or_eq_false_iff, Bool.not_eq_false',
                decide_eq_false_iff_not] at hrefused
              have hcount : 0 < request.count := by omega
              rw [readFile_of_faultless hκ hfile he (hback.readable_of_access hrefused.1)
                hrefused.1 hcount hbuffer]
              dsimp only
              rw [hbytes, hoffset]
              exact hv.seek hfile he hentry _ _ _

/-- Seeking. -/
theorem Views.lseek (hκ : sys.kernel.Faultless)
    (hv : Views sys sharedFiles b vm s h names p files) :
    ReplyShows sys sharedFiles b vm names (seekFile sys memory request s h)
      (seekPrivate memory request p files) := by
  rw [seekPrivate]
  cases hfile : s.openFiles.lookup request.descriptor with
  | none =>
      rw [hv.table.of_none hfile, seekFile, hfile]
      exact hv.keep (.refl h) (-1) memory
  | some file =>
      obtain ⟨entry, e, hentry, -, he, -, -, -, hbytes⟩ := hv.entry hfile
      rw [hentry]
      dsimp only
      rw [← hbytes]
      -- the position asked for is that of the host call
      have htarget : (if request.flags == fileSeekSet then some request.offset
          else if request.flags == fileSeekEnd then some ((h.files e.ino).bytes.length : ℤ)
          else none) = (seekTarget request).map fun x => h.target x.2 x.1 e := by
        rw [seekTarget]
        split_ifs
        · rfl
        · simp [Host.target]
        · rfl
      rw [htarget]
      cases hseek : seekTarget request with
      | none =>
          rw [seekFile, hfile]
          dsimp only
          rw [← seekTarget, hseek]
          exact hv.keep (.refl h) (-1) memory
      | some target =>
          obtain ⟨whence, offset⟩ := target
          rw [seekFile_of_faultless hκ hfile he hseek, Option.map_some]
          dsimp only
          split_ifs
          · exact hv.keep (.tick h) (-1) memory
          · exact hv.seek hfile he hentry _ _ _
          · exact hv.seek hfile he hentry _ _ _

/-- An entry and the descriptor it shows as: a shared entry stands for the pending copy of its
name, and the file of any other one is settled. -/
theorem Views.stands (hv : Views sys sharedFiles b vm s h names p files)
    (hfile : s.openFiles.lookup d = some file) :
    ∃ entry, p.entries d = some entry ∧ entry.flags = file.flags ∧
      (file.shared = true → entry.file = .own vm file.name ∧ ∃ o, h.names file.hostPath = some o ∧
        files (.own vm file.name) = (h.files o).addOwnerWrite ∧ (h.files o).readable = true ∧
        h.names (sys.localPathAt vm file.name) = none) ∧
      (file.shared = false → settled entry.file (files entry.file) = files entry.file ∧
        ∃ m, h.names (sys.localPathAt vm file.name) = some m) := by
  obtain ⟨entry, hentry, hstands, hflags, -⟩ := hv.table.of_some hfile
  obtain ⟨e, -, hback⟩ := hv.backed d file hfile
  rw [hv.names] at hstands
  refine ⟨entry, hentry, hflags, fun hshared => ?_, fun hown => ?_⟩
  · obtain ⟨horiginal, hnone, hnamed, hread, -, -⟩ := hback.shared hshared
    obtain ⟨hid, hpending⟩ := hv.shows.pending hnone horiginal hnamed hread
    exact ⟨Option.some.inj (hstands.symm.trans hid), _, hnamed, hpending, hread, hnone⟩
  · have hnamed := (hback.own hown).named
    obtain ⟨hid, -⟩ := hv.shows.named hnamed
    rw [← Option.some.inj (hid.symm.trans hstands)]
    exact ⟨hv.shows.settled_named hnamed, _, hnamed⟩

/-- A VM may begin to write to a shared file exactly if the copy permits what the entries of the
name need. -/
theorem Views.maySettle_iff (hv : Views sys sharedFiles b vm s h names p files)
    (hfile : s.openFiles.lookup d = some file) (hshared : file.shared = true) {o : ℕ}
    (ho : h.names file.hostPath = some o) :
    p.MaySettle files (.own vm file.name) ↔ CopyPermits (h.files o) file.name s := by
  obtain ⟨entry, -, -, hshown, -⟩ := hv.stands hfile
  obtain ⟨-, o', ho', hpending, hread, hnone⟩ := hshown hshared
  obtain rfl := Option.some.inj (ho.symm.trans ho')
  have hsettled : (settled (.own vm file.name) (files (.own vm file.name))).readable =
      (h.files o).ownerReadable := by
    rw [hpending]
    rfl
  have hpermits : ∀ flags : BitVec 32,
      (h.files o).copied.addOwnerWrite.permits (toHostOpenFlags flags) = true ↔
        ((toHostOpenFlags flags).readable = true → (h.files o).ownerReadable = true) := by
    intro flags
    rw [File.permits, File.readable_addOwnerWrite, File.readable_copied,
      File.writable_addOwnerWrite, Bool.or_true, Bool.and_true, Bool.or_eq_true,
      Bool.not_eq_true', ← Bool.not_eq_true, ← imp_iff_not_or]
  constructor
  · intro hmay d' file' hd' hfile'
    obtain ⟨file₀, hfile₀, hshared', hname⟩ := isSharedEntry_iff.mp hd'
    obtain rfl := Option.some.inj (hfile'.symm.trans hfile₀)
    obtain ⟨entry', hentry', hflags', hpending', -⟩ := hv.stands hfile'
    have hentry := (hpending' hshared').1
    rw [hname] at hentry
    rw [hpermits, ← hflags', ← hsettled]
    exact fun hneed => hmay d' entry' hentry' hentry hneed (by rw [hpending]; exact hread)
  · intro hcopy d' entry' hentry' hown hneed _
    cases hfile' : s.openFiles.lookup d' with
    | none =>
        rw [hv.table.of_none hfile'] at hentry'
        cases hentry'
    | some file' =>
        obtain ⟨entry₀, hentry₀, hstands, -⟩ := hv.table.of_some hfile'
        obtain ⟨entry₁, hentry₁, hflags', -, hlocal⟩ := hv.stands hfile'
        obtain rfl := Option.some.inj (hentry'.symm.trans hentry₀)
        obtain rfl := Option.some.inj (hentry'.symm.trans hentry₁)
        -- the entry is of the same name, so it is shared, too
        rw [hv.names, hown] at hstands
        have hname : file'.name = file.name := by
          have hst := hv.shows.stands vm file'.name
          rw [hstands] at hst
          generalize hid : (FileId.own vm file.name : FileId n) = id at hst
          cases hst with
          | named hm _ => exact (idOf_eq_own hid.symm).2.2
          | pending _ _ _ _ _ => exact (FileId.own.inj hid).2.symm
        have hshared' : file'.shared = true := by
          by_contra hno
          obtain ⟨-, m, hm⟩ := hlocal (Bool.not_eq_true _ ▸ hno)
          rw [hname, hnone] at hm
          cases hm
        have hentry : isSharedEntry s.openFiles file.name d' :=
          isSharedEntry_iff.mpr ⟨file', hfile', hshared', hname⟩
        rw [hsettled]
        exact (hpermits _).mp (hcopy d' file' hentry hfile') (hflags' ▸ hneed)

/-- A write through a private entry. -/
theorem Views.writePrepared (hκ : sys.kernel.Faultless)
    (hv : Views sys sharedFiles b vm s h names p files)
    (hfile : s.openFiles.lookup request.descriptor = some file) (hown : file.shared = false)
    (haccess : hasWriteAccess file.flags = true) (hcount : 0 ≤ request.count)
    {entry : PrivateEntry n} (hentry : p.entries request.descriptor = some entry) :
    ReplyShows sys sharedFiles b vm names (writePrepared sys memory request file s h)
      (writeEntry memory request p files entry) := by
  obtain ⟨entry', e, hentry', hflags, he, hoffset, hback, hid, hbytes⟩ := hv.entry hfile
  obtain rfl := Option.some.inj (hentry.symm.trans hentry')
  rw [writeEntry]
  by_cases hzero : request.count = 0
  · rw [KvmHypervisor.writePrepared, if_pos hzero, if_pos hzero]
    exact hv.keep (.refl h) 0 memory
  · rw [if_neg hzero]
    cases hbuffer : getGuestMemory memory request.buffer request.count.toNat with
    | none =>
        rw [KvmHypervisor.writePrepared, if_neg hzero, hbuffer]
        exact hv.keep (.refl h) (-1) memory
    | some buffer =>
        obtain ⟨hnamed, -, hwritable⟩ := hback.own hown
        rw [writable_of_hasWriteAccess haccess] at hwritable
        have hpos : 0 < request.count := by omega
        rw [writePrepared_of_faultless hκ he hwritable hpos hbuffer]
        dsimp only
        rw [← hoffset]
        refine ⟨rfl, ?_, ?_⟩
        · obtain ⟨-, hsame⟩ := hv.shows.named hnamed
          rw [PrivateState.seek, hid hown, ← hsame]
          dsimp only
          rw [hv.names, Function.update_eq_self]
          exact (hv.shows.setFile hnamed (f := { h.files e.ino with
            bytes := overwrite (h.files e.ino).bytes e.offset
              (memory.slice buffer request.count.toNat) }) ⟨rfl, rfl⟩).of_eq rfl rfl rfl
        · have hset : (h.tick.setFile e.ino { h.files e.ino with
              bytes := overwrite (h.files e.ino).bytes e.offset
                (memory.slice buffer request.count.toNat) }).descriptors = h.descriptors := rfl
          exact hv.table.seek hv.owned hfile he hentry hset _

/-- A switch to a private copy shows as the settlement of the file. -/
theorem Views.prepare (hκ : sys.kernel.Faultless)
    (hv : Views sys sharedFiles b vm s h names p files) (hfile : s.openFiles.lookup d = some file)
    {entry : PrivateEntry n} (hentry : p.entries d = some entry)
    (hp : Prepared sys (contextOf sharedFiles vm) file s h true s' h') :
    p.MaySettle files entry.file ∧
      Views sys sharedFiles b vm s' h' names p (settle files entry.file) := by
  obtain ⟨-, hb, -⟩ := prepared_of_backed hκ hv.backed hv.owned hfile hp
  have ho := (Handover.prepare hv.owned hp).1.owned
  obtain ⟨entry', hentry', -, hpending, hsettled⟩ := hv.stands hfile
  obtain rfl := Option.some.inj (hentry.symm.trans hentry')
  cases hp with
  | own hown =>
      obtain ⟨hsettled, -⟩ := hsettled hown
      rw [settle_eq_self hsettled]
      exact ⟨p.maySettle_of_settled hsettled, hv⟩
  | @copied src h₁ _ _ _ hshared hsrc hc hm =>
      obtain ⟨e, -, hback⟩ := hv.backed d file hfile
      obtain ⟨horiginal, hnone, hnamed, hread, -, -⟩ := hback.shared hshared
      obtain rfl := Option.some.inj (hsrc.symm.trans hnamed)
      rw [(hpending hshared).1]
      have hpermits : CopyPermits (h.files e.ino) file.name s := by
        intro d' file' hd' hfile'
        have hcopy := hm.permits d' file' hd' hfile'
        rwa [hc.files, Function.update_self] at hcopy
      refine ⟨(hv.maySettle_iff hfile hshared hsrc).mpr hpermits, ?_⟩
      have hcopied : Shows sys sharedFiles b h₁ names (settle files (.own vm file.name)) :=
        (hv.shows.copy hnone horiginal hnamed hread).of_eq hc.names hc.files hc.nextIno
      have ho₁ : Owned s h₁ := by
        refine ⟨fun d file hfile => ?_, hv.owned.inj⟩
        rw [hc.descriptors]
        exact hv.owned.isOpen d file hfile
      have htable : TableShows s h₁ p :=
        hv.table.keep fun _ _ _ _ he => by rw [hc.descriptors, he]
      exact ⟨hb, ho, hcopied.of_eq hm.names hm.files hm.nextIno, htable.move ho₁ hm, hv.names⟩

/-- A switch that is refused shows nothing, and the VM may not begin to write. -/
theorem Views.refuse (hv : Views sys sharedFiles b vm s h names p files) (memory : GuestMemory)
    (hfile : s.openFiles.lookup d = some file) {entry : PrivateEntry n}
    (hentry : p.entries d = some entry) (hr : Refused file s h s h') :
    ¬ p.MaySettle files entry.file ∧ ReplyShows sys sharedFiles b vm names
      (Reply.failed memory s h') (.failed memory p files) := by
  obtain ⟨entry', hentry', -, hpending, -⟩ := hv.stands hfile
  obtain rfl := Option.some.inj (hentry.symm.trans hentry')
  obtain ⟨src, hsrc, hforbidden⟩ := hr.forbidden
  refine ⟨?_, rfl, ?_, ?_⟩
  · rw [(hpending hr.shared).1, hv.maySettle_iff hfile hr.shared hsrc]
    exact hforbidden
  · rw [PrivateReply.failed]
    dsimp only
    rw [hv.names, Function.update_eq_self]
    exact hv.shows.of_le hr.names hr.files hr.nextIno
  · exact hv.table.keep fun _ _ _ _ he => by rw [← he]; exact hr.descriptors _

/-- Writing. -/
theorem Views.write (hκ : sys.kernel.Faultless)
    (hv : Views sys sharedFiles b vm s h names p files) :
    ReplyShows sys sharedFiles b vm names
      (writeFile sys (contextOf sharedFiles vm) memory request s h)
      (writePrivate memory request p files) := by
  cases hfile : s.openFiles.lookup request.descriptor with
  | none =>
      rw [writePrivate, hv.table.of_none hfile, writeFile, hfile]
      exact hv.keep (.refl h) (-1) memory
  | some file =>
      obtain ⟨entry, e, hentry, hflags, -⟩ := hv.entry hfile
      rw [writePrivate, hentry]
      dsimp only
      rw [hflags]
      by_cases hw : Writes request s file
      · have hguard : ¬(!hasWriteAccess file.flags || decide (request.count < 0)) = true := by
          simp [hw.2.1, hw.2.2]
        rw [if_neg hguard]
        obtain ⟨h', hrefused, hwrite⟩ |
          ⟨s', h', file', e', hprepared, hfile', hown, -, -, hwrite⟩ :=
            writeFile_of_backed memory hκ hv.backed hv.owned hw
        · obtain ⟨hno, hshows⟩ := hv.refuse memory hfile hentry hrefused
          rw [hwrite, if_neg hno]
          exact hshows
        · obtain ⟨hmay, hv'⟩ := hv.prepare hκ hfile hentry hprepared
          -- the entry kept its flags, as the descriptor that shows did
          obtain ⟨entry', e'', hentry', hflags', -⟩ := hv'.entry hfile'
          obtain rfl := Option.some.inj (hentry.symm.trans hentry')
          have haccess : hasWriteAccess file'.flags = true := by
            rw [← hflags', hflags]
            exact hw.2.1
          rw [hwrite, if_pos hmay]
          exact hv'.writePrepared hκ hfile' hown haccess hw.2.2 hentry
      · have hrefused : (!hasWriteAccess file.flags || decide (request.count < 0)) = true := by
          by_contra hno
          simp only [Bool.not_eq_true, Bool.or_eq_false_iff, Bool.not_eq_false',
            decide_eq_false_iff_not, not_lt] at hno
          exact hw ⟨hfile, hno.1, hno.2⟩
        rw [writeFile, hfile]
        dsimp only
        rw [if_pos hrefused, if_pos hrefused]
        exact hv.keep (.refl h) (-1) memory

/-- A file that exists is opened. -/
theorem Views.opens (hv : Views sys sharedFiles b vm s h names p files) {h₁ : Host HostPath}
    (hu : h.Unchanged h₁) {path : HostPath} {mode : OpenMode} {fd : ℕ}
    (hfresh : h₁.descriptors.lookup fd = none) (ho : OpensAt path mode fd h₁ h') {m : ℕ}
    (hm : h.names path = some m) {name : String} {id : FileId n}
    (hid : names vm name = some id) (flags : BitVec 32) (shared : Bool) :
    ReplyShows sys sharedFiles b vm names
      ⟨s.nextDescriptor, memory, s.emplace ⟨fd, flags, name, path, shared⟩, h'⟩
      ⟨⟨p.nextDescriptor, memory⟩, p.emplace ⟨id, flags, 0⟩, files⟩ := by
  obtain ⟨m', -, hlookup⟩ := ho.lookup
  have hframe : h'.names = h.names ∧ h'.files = h.files ∧ h'.nextIno = h.nextIno := by
    rcases ho with ⟨_, -, -, rfl⟩ | ⟨hnone, -, -⟩
    · exact ⟨hu.names, hu.files, hu.nextIno⟩
    · rw [hu.names, hm] at hnone
      cases hnone
  refine ⟨congrArg (Answer.mk · memory) hv.table.next, ?_, ?_⟩
  · rw [PrivateState.emplace]
    dsimp only
    rw [hv.names, Function.update_eq_self]
    exact hv.shows.of_eq hframe.1 hframe.2.1 hframe.2.2
  · refine (hv.table.keep fun d file e _ he => ?_).emplace ⟨?_, rfl, ?_⟩
    · rw [← hu.descriptors] at he
      exact ho.kept hfresh he
    · rw [hv.names]
      exact hid
    · exact ⟨_, (hlookup fd).trans (if_pos rfl), rfl⟩

/-- A file is created in the VM's directory. -/
theorem Views.creates (hv : Views sys sharedFiles b vm s h names p files) {h₁ : Host HostPath}
    (hu : h.Unchanged h₁) {mode : OpenMode} {fd : ℕ} (hfresh : h₁.descriptors.lookup fd = none)
    {name : String} (ho : OpensAt (sys.localPathAt vm name) mode fd h₁ h')
    (hnone : h.names (sys.localPathAt vm name) = none) (hmissing : names vm name = none)
    (flags : BitVec 32) (shared : Bool) :
    ReplyShows sys sharedFiles b vm names
      ⟨s.nextDescriptor, memory,
        s.emplace ⟨fd, flags, name, sys.localPathAt vm name, shared⟩, h'⟩
      ⟨⟨p.nextDescriptor, memory⟩,
        (p.create name (.own vm name)).emplace ⟨.own vm name, flags, 0⟩,
        Function.update files (.own vm name) (.made [])⟩ := by
  obtain ⟨m', -, hlookup⟩ := ho.lookup
  have hlink : h' = (h₁.tick.link (sys.localPathAt vm name) (.made [])).grant fd
      (sys.localPathAt vm name) mode := by
    rcases ho with ⟨_, hm, -, -⟩ | ⟨-, -, rfl⟩
    · rw [hu.names, hnone] at hm
      cases hm
    · rfl
  have hshows : Shows sys sharedFiles b h₁.tick names files :=
    hv.shows.of_eq hu.names hu.files hu.nextIno
  have hnone' : h₁.tick.names (sys.localPathAt vm name) = none := by
    rw [Host.names_tick, hu.names, hnone]
  refine ⟨congrArg (Answer.mk · memory) hv.table.next, ?_, ?_⟩
  · rw [PrivateState.emplace, PrivateState.create]
    dsimp only
    rw [hv.names, hlink]
    exact (hshows.link hnone' rfl).of_eq rfl rfl rfl
  · have hmissing' : p.names name = none := by rw [hv.names, hmissing]
    have hcreated := hv.table.create hmissing' (.own vm name)
    refine (hcreated.keep fun d file e _ he => ?_).emplace ⟨?_, rfl, ?_⟩
    · rw [← hu.descriptors] at he
      exact ho.kept hfresh he
    · exact Function.update_self name _ p.names
    · exact ⟨_, (hlookup fd).trans (if_pos rfl), rfl⟩

/-- Opening a valid name. -/
theorem Views.openName (hκ : sys.kernel.Faultless)
    (hv : Views sys sharedFiles b vm s h names p files)
    (hflags : areValidOpenFlags request.flags = true) {name : String}
    (hname : readGuestFileName memory request.buffer = some name) :
    ReplyShows sys sharedFiles b vm names
      (openFile sys (contextOf sharedFiles vm) memory request s h)
      (match names vm name with
      | some id =>
        if (files id).permits (toHostOpenFlags request.flags) then
          ⟨⟨p.nextDescriptor, memory⟩, p.emplace ⟨id, request.flags, 0⟩, files⟩
        else .failed memory p files
      | none =>
        if (toHostOpenFlags request.flags).create && !(sharedFiles.lookup name).isSome then
          ⟨⟨p.nextDescriptor, memory⟩,
            (p.create name (.own vm name)).emplace ⟨.own vm name, request.flags, 0⟩,
            Function.update files (.own vm name) (.made [])⟩
        else .failed memory p files) := by
  obtain ⟨resolved, hresolved, -, hcases⟩ :=
    openFile_of_faultless (contextOf sharedFiles vm) s h hκ hflags hname
  rw [resolveFile_of_faultless hκ] at hresolved
  have hst := hv.shows.stands vm name
  generalize hid : names vm name = id at hst ⊢
  cases hst with
  | @named m hm hfile =>
      have hlocal : h.names (sys.localPathOf (contextOf sharedFiles vm) name) = some m := hm
      rw [hlocal] at hresolved
      obtain rfl := hresolved
      have hcan : h.canOpen (sys.localPathOf (contextOf sharedFiles vm) name)
          (toHostOpenFlags request.flags) =
            (h.files m).permits (toHostOpenFlags request.flags) := by
        rw [Host.canOpen, hlocal]
      rw [openModeOf_own] at hcases
      dsimp only at hcases ⊢
      rw [hcan, hfile] at hcases
      rcases hcases with ⟨hno, h', hu, hr⟩ | ⟨hyes, fd, h₁, h', hu, hfresh, ho, hr⟩
      · rw [hr, hno]
        exact hv.keep hu (-1) memory
      · rw [hr, hyes]
        exact hv.opens hu hfresh ho hlocal hid _ _
  | missing hnone hno =>
      have hlocal : h.names (sys.localPathOf (contextOf sharedFiles vm) name) = none := hnone
      rw [hlocal] at hresolved
      cases hl : sharedFiles.lookup name with
      | none =>
          have hl' : (contextOf sharedFiles vm).sharedFiles.lookup name = none := hl
          rw [hl'] at hresolved
          obtain rfl := hresolved
          have hcan : h.canOpen (sys.localPathOf (contextOf sharedFiles vm) name)
              (toHostOpenFlags request.flags) = (toHostOpenFlags request.flags).create := by
            rw [Host.canOpen, hlocal]
          rw [openModeOf_own] at hcases
          dsimp only at hcases
          rw [hcan] at hcases
          rcases hcases with ⟨hno, h', hu, hr⟩ | ⟨hyes, fd, h₁, h', hu, hfresh, ho, hr⟩
          · rw [hr, hno]
            exact hv.keep hu (-1) memory
          · rw [hr, hyes]
            exact hv.creates hu hfresh ho hnone hid _ _
      | some path =>
          have hl' : (contextOf sharedFiles vm).sharedFiles.lookup name = some path := hl
          rw [hl'] at hresolved
          obtain rfl := hresolved
          obtain ⟨o, ho, -⟩ := hv.shows.originals name path hl
          -- the original may not be read, so it is neither opened nor replaced
          have hcan : h.canOpen path readOnly = false := by
            rw [Host.canOpen, ho]
            simp [File.permits, readOnly, hno path o hl ho]
          rw [openModeOf_shared] at hcases
          dsimp only at hcases
          rw [hcan] at hcases
          rcases hcases with ⟨-, h', hu, hr⟩ | ⟨hyes, -⟩
          · rw [hr, Option.isSome_some, Bool.not_true, Bool.and_false]
            exact hv.keep hu (-1) memory
          · cases hyes
  | @pending path o hnone hl ho hread hfile =>
      have hlocal : h.names (sys.localPathOf (contextOf sharedFiles vm) name) = none := hnone
      have hl' : (contextOf sharedFiles vm).sharedFiles.lookup name = some path := hl
      rw [hlocal, hl'] at hresolved
      obtain rfl := hresolved
      have hcan : h.canOpen path readOnly = true := by
        rw [Host.canOpen, ho]
        simp [File.permits, readOnly, hread]
      have hpermits : (files (.own vm name)).permits (toHostOpenFlags request.flags) = true := by
        rw [hfile, File.permits]
        simp [hread]
      rw [openModeOf_shared] at hcases
      dsimp only at hcases ⊢
      rw [hcan] at hcases
      rcases hcases with ⟨hno, -⟩ | ⟨-, fd, h₁, h', hu, hfresh, hopens, hr⟩
      · cases hno
      · rw [hr, hpermits]
        exact hv.opens hu hfresh hopens ho hid _ _

/-- Opening. -/
theorem Views.open (hκ : sys.kernel.Faultless)
    (hv : Views sys sharedFiles b vm s h names p files) :
    ReplyShows sys sharedFiles b vm names
      (openFile sys (contextOf sharedFiles vm) memory request s h)
      (openPrivate (fun name => (sharedFiles.lookup name).isSome) vm memory request p files) := by
  rw [openPrivate]
  cases hflags : areValidOpenFlags request.flags with
  | false =>
      rw [openFile, hflags]
      exact hv.keep (.refl h) (-1) memory
  | true =>
      cases hname : readGuestFileName memory request.buffer with
      | none =>
          rw [openFile, hflags, hname]
          exact hv.keep (.refl h) (-1) memory
      | some name =>
          dsimp only
          rw [Bool.not_true, if_neg Bool.false_ne_true, hv.names]
          exact hv.openName hκ hflags hname

/-- **One request** of a VM shows as one request of the private machine. -/
theorem Views.serve (hκ : sys.kernel.Faultless)
    (hv : Views sys sharedFiles b vm s h names p files) :
    ReplyShows sys sharedFiles b vm names
      (processFileRequest sys (contextOf sharedFiles vm) memory request s h)
      (servePrivate (fun name => (sharedFiles.lookup name).isSome) vm memory request p files) := by
  rw [processFileRequest, servePrivate]
  rcases FileOperation.ofCode request.operation with _ | op
  · exact hv.keep (.refl h) (-1) memory
  cases op with
  | openFile => exact hv.open hκ
  | close => exact hv.close
  | read => exact hv.read hκ
  | write => exact hv.write hκ
  | lseek => exact hv.lseek hκ

end Requests

/-! ### Runs -/

section Runs

variable (sys sharedFiles b)

/-- The file layer refines the private machine. -/
structure Refines (w : FileWorld n) (a : PrivateWorld n) : Prop where
  sound : Sound sys sharedFiles w
  shows : Shows sys sharedFiles b w.host (fun vm => (a.states vm).names) a.files
  table : ∀ vm, TableShows (w.states vm) w.host (a.states vm)

variable {sys sharedFiles b}
variable {w : FileWorld n} {a : PrivateWorld n}

/-- One VM of a refinement. -/
theorem Refines.views (hr : Refines sys sharedFiles b w a) (vm : Fin n) :
    Views sys sharedFiles b vm (w.states vm) w.host (fun vm => (a.states vm).names) (a.states vm)
      a.files :=
  ⟨hr.sound.backed vm, hr.sound.apart.owned vm, hr.shows, hr.table vm, rfl⟩

/-- A step of one VM. -/
theorem Refines.update (hr : Refines sys sharedFiles b w a) {vm : Fin n} {s' : FileState}
    {h' : Host HostPath} {p : PrivateState n} {files : FileId n → File}
    (hsound : Sound sys sharedFiles (w.update vm s' h'))
    (hh : Handover (w.states vm) w.host s' h')
    (hshows : Shows sys sharedFiles b h'
      (Function.update (fun vm => (a.states vm).names) vm p.names) files)
    (htable : TableShows s' h' p) :
    Refines sys sharedFiles b (w.update vm s' h') (a.update vm p files) := by
  refine ⟨hsound, by rwa [PrivateWorld.names_update], fun vm' => ?_⟩
  by_cases hvm : vm' = vm
  · subst hvm
    simpa only [FileWorld.update, PrivateWorld.update, Function.update_self] using htable
  · simp only [FileWorld.update, PrivateWorld.update, Function.update_of_ne hvm]
    refine (hr.table vm').keep fun d file e hfile he => hh.others _ e (fun hheld => ?_) he
    exact hvm (hr.sound.apart.apart vm' vm _ ⟨d, file, hfile, rfl⟩ hheld)

/-- **One step**: the answers agree, and the refinement goes on. -/
theorem Refines.step (hκ : sys.kernel.Faultless) (hr : Refines sys sharedFiles b w a)
    (input : FileInput n) :
    ((fileLayer sys sharedFiles).step w input).1 =
        ((privateLayer fun name => (sharedFiles.lookup name).isSome).step a input).1 ∧
      Refines sys sharedFiles b ((fileLayer sys sharedFiles).step w input).2
        ((privateLayer fun name => (sharedFiles.lookup name).isSome).step a input).2 := by
  have hsound := (hr.sound.step hκ input).1
  cases input with
  | request call =>
      have hserve : ReplyShows sys sharedFiles b call.vm (fun vm => (a.states vm).names)
          (replyTo sys sharedFiles w call)
          (servePrivate (fun name => (sharedFiles.lookup name).isSome) call.vm call.memory
            call.request (a.states call.vm) a.files) := (hr.views call.vm).serve hκ
      have hh : Handover (w.states call.vm) w.host (replyTo sys sharedFiles w call).state
          (replyTo sys sharedFiles w call).host :=
        (processFileRequest_handover (hr.sound.apart.owned call.vm)).1
      rw [fileLayer_request] at hsound ⊢
      refine ⟨congrArg some hserve.answer.symm, ?_⟩
      exact hr.update hsound hh hserve.shows hserve.table
  | finish vm =>
      rw [fileLayer_finish] at hsound ⊢
      refine ⟨rfl,
        hr.update hsound (closeGuestFiles_handover sys (hr.sound.apart.owned vm)).1 ?_ ?_⟩
      · obtain ⟨hnames, hfiles, hnext⟩ := closeGuestFiles_frame sys (w.states vm) w.host
        rw [PrivateState.finish]
        dsimp only
        rw [Function.update_eq_self]
        exact hr.shows.of_eq hnames hfiles hnext
      · refine ⟨(hr.table vm).next, fun d => ?_⟩
        rw [closeGuestFiles, PrivateState.finish]
        dsimp only
        rw [Finmap.lookup_empty]
        exact .none

/-- **Runs.** The answers are those of the private machine. -/
theorem trace_eq_private (hκ : sys.kernel.Faultless) (hr : Refines sys sharedFiles b w a)
    (inputs : List (FileInput n)) :
    (fileLayer sys sharedFiles).trace w inputs =
      (privateLayer fun name => (sharedFiles.lookup name).isSome).trace a inputs :=
  Transducer.trace_eq_of_simulation (fun _ _ input hr => hr.step hκ input) hr inputs

end Runs

/-! ### The start -/

section Start

variable (sys sharedFiles)

/-- The private copy of a shared file: the original, made writable, if it may be read. -/
def privateCopy (h : Host HostPath) (name : String) : Option File :=
  match sharedFiles.lookup name with
  | none => none
  | some path =>
    match h.names path with
    | none => none
    | some o =>
      if (h.files o).readable then some (h.files o).addOwnerWrite else none

/-- The private machine at start-up: a directory holds the files of the VM and the private
copies of the shared files that it has no file for. -/
def PrivateWorld.start (n : ℕ) (h : Host HostPath) : PrivateWorld n where
  files
    | .initial m => h.files m
    | .own _ name => (privateCopy sharedFiles h name).getD (.made [])
  states vm :=
    { names := fun name =>
        match h.names (sys.localPathAt vm name) with
        | some m => some (.initial m)
        | none => (privateCopy sharedFiles h name).map fun _ => .own vm name
      entries := fun _ => none
      nextDescriptor := 3 }

/-- What a name stands for at start-up. -/
theorem PrivateWorld.names_start (vm : Fin n) (name : String) :
    ((PrivateWorld.start sys sharedFiles n h).states vm).names name =
      match h.names (sys.localPathAt vm name) with
      | some m => some (.initial m)
      | none => (privateCopy sharedFiles h name).map fun _ => .own vm name :=
  rfl

/-- The originals exist and lie outside the directories of the VMs: no name in one of them
stands for an original. -/
def OutsideVmFiles (n : ℕ) (h : Host HostPath) : Prop :=
  ∀ x ∈ sharedFiles, ∀ o, h.names x.2 = some o →
    ∀ (vm : Fin n) name, h.names (sys.localPathAt vm name) ≠ some o

/-- Copy a shared file into the directory of a VM, if nothing is in its place. The VM may read
and write its copy, whatever the permissions of the original. -/
def copyShared (vm : Fin n) (sharedFile : String × HostPath) (h : Host HostPath) :
    Host HostPath :=
  match h.names sharedFile.2, h.names (sys.localPathAt vm sharedFile.1) with
  | some o, none => h.link (sys.localPathAt vm sharedFile.1) (.made (h.files o).bytes)
  | _, _ => h

/-- The host on which every VM has its own copy of every shared file in advance. -/
def eagerHost (n : ℕ) (h : Host HostPath) : Host HostPath :=
  ((List.finRange n).product sharedFiles).foldl (fun h x => copyShared sys x.1 x.2 h) h

/-- The hypervisor may read every original, and it might as the owner, too: it may read the copies
it makes. -/
def Copyable (h : Host HostPath) : Prop :=
  ∀ x ∈ sharedFiles, ∀ o, h.names x.2 = some o →
    (h.files o).readable = true ∧ (h.files o).ownerReadable = true

variable {sys sharedFiles}
variable {h : Host HostPath} {names : Fin n → String → Option (FileId n)}
variable {files : FileId n → File}

/-- A private copy is that of a readable original. -/
theorem exists_of_privateCopy {name : String} {f : File}
    (hcopy : privateCopy sharedFiles h name = some f) :
    ∃ path o, sharedFiles.lookup name = some path ∧ h.names path = some o ∧
      (h.files o).readable = true ∧ (h.files o).addOwnerWrite = f := by
  rw [privateCopy] at hcopy
  cases hl : sharedFiles.lookup name with
  | none =>
      rw [hl] at hcopy
      cases hcopy
  | some path =>
      rw [hl] at hcopy
      dsimp only at hcopy
      cases ho : h.names path with
      | none =>
          rw [ho] at hcopy
          cases hcopy
      | some o =>
          rw [ho] at hcopy
          dsimp only at hcopy
          split_ifs at hcopy with hread
          exact ⟨path, o, rfl, ho, hread, Option.some.inj hcopy⟩

/-- What shows at start-up. -/
theorem Shows.start (hnamed : ∀ x ∈ sharedFiles, (h.names x.2).isSome)
    (hout : OutsideVmFiles sys sharedFiles n h) :
    Shows sys sharedFiles h.nextIno h
      (fun vm => ((PrivateWorld.start sys sharedFiles n h).states vm).names)
      (PrivateWorld.start sys sharedFiles n h).files where
  stands vm name := by
    rw [PrivateWorld.names_start]
    cases hlocal : h.names (sys.localPathAt vm name) with
    | some m =>
        have hid : idOf h.nextIno vm name m = .initial m := if_pos (h.named_lt _ m hlocal)
        dsimp only
        rw [← hid]
        refine .named hlocal ?_
        rw [hid]
        rfl
    | none =>
        dsimp only
        cases hcopy : privateCopy sharedFiles h name with
        | none =>
            refine .missing hlocal fun path o hl ho => ?_
            by_contra hread
            rw [Bool.not_eq_false] at hread
            simp [privateCopy, hl, ho, hread] at hcopy
        | some f =>
            have hfile : (PrivateWorld.start sys sharedFiles n h).files (.own vm name) =
                ((privateCopy sharedFiles h name).getD (.made [])) := rfl
            rw [hcopy, Option.getD_some] at hfile
            obtain ⟨path, o, hl, ho, hread, rfl⟩ := exists_of_privateCopy hcopy
            exact .pending hlocal hl ho hread hfile
  single vm vm' name name' m hb hm := absurd (h.named_lt _ m hm) (not_lt.mpr hb)
  originals name path hl := by
    have hmem := mem_of_lookup hl
    obtain ⟨o, ho⟩ := Option.isSome_iff_exists.mp (hnamed _ hmem)
    exact ⟨o, ho, hout _ hmem o ho⟩
  bound := le_rfl
  owned vm name m hb hm := absurd (h.named_lt _ m hm) (not_lt.mpr hb)

/-- A copy made in advance shows nothing, if the original could be copied later as well. -/
theorem Shows.copyShared (hs : Shows sys sharedFiles b h names files) (vm : Fin n)
    {sharedFile : String × HostPath} (hl : sharedFiles.lookup sharedFile.1 = some sharedFile.2)
    (hcopy : ∀ o, h.names sharedFile.2 = some o →
      (h.files o).readable = true ∧ (h.files o).ownerReadable = true) :
    Shows sys sharedFiles b (copyShared sys vm sharedFile h) names files := by
  rw [KvmHypervisor.copyShared]
  split
  · rename_i o ho hnone
    obtain ⟨hread, howner⟩ := hcopy o ho
    have hsame : (h.files o).copied.addOwnerWrite = .made (h.files o).bytes := by
      rw [File.copied, File.addOwnerWrite, howner]
      rfl
    have hsettled : settled (.own vm sharedFile.1) (files (.own vm sharedFile.1)) =
        files (.own vm sharedFile.1) := by
      rw [(hs.pending hnone hl ho hread).2]
      exact settled_eq_self (hread.trans howner.symm)
    have hcopied := hs.copy hnone hl ho hread
    rwa [settle_eq_self hsettled, hsame] at hcopied
  · exact hs

/-- Copies made in advance leave the originals alone. -/
theorem Copyable.copyShared (hcopy : Copyable sharedFiles h) (vm : Fin n)
    (sharedFile : String × HostPath) :
    Copyable sharedFiles (copyShared sys vm sharedFile h) := by
  rw [KvmHypervisor.copyShared]
  split
  · rename_i o ho hnone
    intro x hx o' ho'
    rw [Host.names_link, Function.update_apply] at ho'
    split_ifs at ho'
    · obtain rfl := Option.some.inj ho'
      rw [Host.files_link, Function.update_self]
      exact ⟨rfl, rfl⟩
    · rw [Host.files_link, Function.update_of_ne (h.nextIno_ne_of_named ho')]
      exact hcopy x hx o' ho'
  · exact hcopy

/-- No copy made in advance shows. Induction on the copies. -/
theorem Shows.eagerHost (hs : Shows sys sharedFiles b h names files)
    (hnodup : (sharedFiles.map Prod.fst).Nodup) (hcopy : Copyable sharedFiles h) :
    Shows sys sharedFiles b (eagerHost sys sharedFiles n h) names files := by
  have hall : ∀ l : List (Fin n × String × HostPath), (∀ x ∈ l, x.2 ∈ sharedFiles) →
      ∀ h, Shows sys sharedFiles b h names files → Copyable sharedFiles h →
        Shows sys sharedFiles b (l.foldl (fun h x => KvmHypervisor.copyShared sys x.1 x.2 h) h)
          names files := by
    intro l
    induction l with
    | nil => exact fun _ h hs _ => hs
    | cons x l ih =>
        intro hl h hs hcopy
        have hmem := hl x List.mem_cons_self
        have hx := lookup_of_mem hnodup hmem
        exact ih (fun y hy => hl y (List.mem_cons_of_mem x hy)) _
          (hs.copyShared x.1 hx (hcopy x.2 hmem)) (hcopy.copyShared x.1 x.2)
  exact hall _ (fun x hx => (List.pair_mem_product.mp hx).2) h hs hcopy

/-- A host on which the private directories show is a start of a refinement. -/
theorem Refines.start {a : PrivateWorld n} (hshows : Shows sys sharedFiles b h
      (fun vm => (a.states vm).names) a.files)
    (hentries : ∀ vm d, (a.states vm).entries d = none)
    (hnext : ∀ vm, (a.states vm).nextDescriptor = 3) :
    Refines sys sharedFiles b (FileWorld.start h) a := by
  refine ⟨.start h, hshows.of_eq rfl rfl rfl, fun vm => ⟨hnext vm, fun d => ?_⟩⟩
  rw [hentries, FileWorld.start, FileState.initial]
  dsimp only
  rw [Finmap.lookup_empty]
  exact .none

end Start

/-! ### The reference has no shared entries -/

section Eager

variable {h h' : Host HostPath}

variable (sys) in
/-- A copy made in advance replaces nothing. -/
theorem grows_copyShared (vm : Fin n) (sharedFile : String × HostPath) (h : Host HostPath) :
    h.Grows (copyShared sys vm sharedFile h) := by
  rw [copyShared]
  split
  · rename_i o _ hnone
    exact .link hnone _
  · exact .of_eq rfl rfl rfl

/-- After the copy the VM has a file of its name. -/
theorem isSome_copyShared (vm : Fin n) {sharedFile : String × HostPath} {o : ℕ}
    (ho : h.names sharedFile.2 = some o) :
    ((copyShared sys vm sharedFile h).names (sys.localPathAt vm sharedFile.1)).isSome := by
  rw [copyShared, ho]
  cases hlocal : h.names (sys.localPathAt vm sharedFile.1) with
  | some m =>
      dsimp only
      rw [hlocal]
      rfl
  | none =>
      dsimp only
      rw [Host.names_link, Function.update_self]
      rfl

variable (sys) in
/-- Every VM has a file for every original. Induction on the copies: each one is made on a host
that has grown, and stays. -/
theorem isSome_eagerHost {sharedFile : String × HostPath} (hmem : sharedFile ∈ sharedFiles)
    {o : ℕ} (ho : h.names sharedFile.2 = some o) (vm : Fin n) :
    ((eagerHost sys sharedFiles n h).names (sys.localPathAt vm sharedFile.1)).isSome := by
  have hall : ∀ (l : List (Fin n × String × HostPath)) h', h.Grows h' →
      (vm, sharedFile) ∈ l ∨ (h'.names (sys.localPathAt vm sharedFile.1)).isSome →
      ((l.foldl (fun h x => copyShared sys x.1 x.2 h) h').names
        (sys.localPathAt vm sharedFile.1)).isSome := by
    intro l
    induction l with
    | nil => exact fun h' hg hor => hor.resolve_left List.not_mem_nil
    | cons x l ih =>
        intro h' hg hor
        have hgrown := grows_copyShared sys x.1 x.2 h'
        refine ih _ (hg.trans hgrown) ?_
        rcases hor with hmem | hlocal
        · rcases List.mem_cons.mp hmem with rfl | hmem
          · exact .inr (isSome_copyShared vm (hg.names _ _ ho))
          · exact .inl hmem
        · obtain ⟨m, hm⟩ := Option.isSome_iff_exists.mp hlocal
          exact .inr (by rw [hgrown.names _ m hm]; rfl)
  exact hall ((List.finRange n).product sharedFiles) h (.of_eq rfl rfl rfl)
    (.inl (List.pair_mem_product.mpr ⟨List.mem_finRange vm, hmem⟩))

/-- **The reference.** With copies made in advance no entry is ever marked shared. -/
theorem unshared_of_eagerHost (hκ : sys.kernel.Faultless)
    (hnamed : ∀ x ∈ sharedFiles, (h.names x.2).isSome)
    {tr : List (FileInput n × Option Answer)} {w : FileWorld n}
    (hrun : ((fileLayer sys sharedFiles).machine
      (FileWorld.start (eagerHost sys sharedFiles n h))).Run (fun _ _ => True) tr w) {vm : Fin n}
    {d : ℤ} {file : OpenFile} (hfile : (w.states vm).openFiles.lookup d = some file) :
    file.shared = false := by
  by_contra hshared
  rw [Bool.not_eq_false] at hshared
  obtain ⟨hsound, hgrown⟩ := sound_of_run hκ hrun
  obtain ⟨e, -, hback⟩ := hsound.backed vm d file hfile
  obtain ⟨horiginal, habsent, -, -, -, -⟩ := hback.shared hshared
  have hmem : (file.name, file.hostPath) ∈ sharedFiles := mem_of_lookup horiginal
  obtain ⟨o, ho⟩ := Option.isSome_iff_exists.mp (hnamed _ hmem)
  -- the copy made in advance is still there
  obtain ⟨m, hm⟩ := Option.isSome_iff_exists.mp (isSome_eagerHost sys hmem ho vm)
  have hlocal : w.host.names (sys.localPathOf (contextOf sharedFiles vm) file.name) = some m :=
    hgrown.names _ m hm
  rw [habsent] at hlocal
  cases hlocal

end Eager

/-! ### Reach -/

section Reach

variable {h : Host HostPath}

/-- The files a VM can reach: those its directory holds at the start, and its own. -/
def Reaches (sys : HostSystem) (h : Host HostPath) (vm : Fin n) : FileId n → Prop
  | .initial m => ∃ name, h.names (sys.localPathAt vm name) = some m
  | .own vm' _ => vm' = vm

/-- A name stands at first for a file in the directory or for an own file. -/
theorem eq_of_start {vm : Fin n} {name : String} {id : FileId n}
    (hid : ((PrivateWorld.start sys sharedFiles n h).states vm).names name = some id) :
    (∃ m, h.names (sys.localPathAt vm name) = some m ∧ id = .initial m) ∨ id = .own vm name := by
  rw [PrivateWorld.names_start] at hid
  cases hlocal : h.names (sys.localPathAt vm name) with
  | some m =>
      rw [hlocal] at hid
      exact .inl ⟨m, rfl, (Option.some.inj hid).symm⟩
  | none =>
      rw [hlocal] at hid
      obtain ⟨f, -, rfl⟩ := Option.map_eq_some_iff.mp hid
      exact .inr rfl

/-- At the start a VM is within its reach. -/
theorem PrivateState.Within.start (vm : Fin n) :
    ((PrivateWorld.start sys sharedFiles n h).states vm).Within (Reaches sys h vm) where
  names name id hid := by
    rcases eq_of_start hid with ⟨m, hm, rfl⟩ | rfl
    · exact ⟨name, hm⟩
    · exact rfl
  entries _ _ hd := by cases hd

/-- At the start a VM is out of reach of a VM whose directory has no file in common with its
own. -/
theorem PrivateState.Within.start_other {vm vm' : Fin n} (hne : vm' ≠ vm)
    (hapart : ∀ name name' m, h.names (sys.localPathAt vm name) = some m →
      h.names (sys.localPathAt vm' name') ≠ some m) :
    ((PrivateWorld.start sys sharedFiles n h).states vm').Within
      fun id => ¬ Reaches sys h vm id where
  names name id hid := by
    rcases eq_of_start hid with ⟨m, hm, rfl⟩ | rfl
    · rintro ⟨name', hm'⟩
      exact hapart name' name m hm' hm
    · exact hne
  entries _ _ hd := by cases hd

end Reach

/-! ### Main results -/

/-- **Lazy copies are eager copies.** For every set of shared files that
`configureSharedFiles` accepts and that lie outside the directories of the VMs, whatever these
directories hold, when no host call fails without cause. If the hypervisor may read every
original and would be allowed to as its owner, every request of every VM has the same answer, the
guest memory included, as on a host on which every VM has its own copy of every shared file in
advance. A VM whose directory has no file in common with the others' gets the answers that it
would get alone. -/
theorem lazy_eq_eager (canonical : String → Option HostPath) (paths : List String)
    (sharedFiles : List (String × HostPath)) (h : Host HostPath)
    (hshared : configureSharedFiles canonical h [] paths = .ok sharedFiles) (n : ℕ)
    (sys sys' : HostSystem) (hdirectory : sys'.workingDirectory = sys.workingDirectory)
    (hκ : sys.kernel.Faultless) (hκ' : sys'.kernel.Faultless)
    (hout : OutsideVmFiles sys sharedFiles n h) (inputs : List (FileInput n)) :
    (Copyable sharedFiles h →
      (fileLayer sys sharedFiles).trace (FileWorld.start h) inputs =
        (fileLayer sys' sharedFiles).trace (FileWorld.start (eagerHost sys sharedFiles n h))
          inputs) ∧
      ∀ vm, (∀ vm' ≠ vm, ∀ name name' m, h.names (sys.localPathAt vm name) = some m →
          h.names (sys.localPathAt vm' name') ≠ some m) →
        ((fileLayer sys sharedFiles).trace (FileWorld.start h) inputs).filter
            (fun x => x.1.vm = vm) =
          (fileLayer sys sharedFiles).trace (FileWorld.start h)
            (inputs.filter fun input => input.vm = vm) := by
  have hc := configured_of_ok .nil hshared
  have hshows := Shows.start hc.named hout
  have hlazy : Refines sys sharedFiles h.nextIno (FileWorld.start h)
      (PrivateWorld.start sys sharedFiles n h) := .start hshows (fun _ _ => rfl) fun _ => rfl
  refine ⟨fun hcopy => ?_, fun vm hapart => ?_⟩
  · have heager : Refines sys' sharedFiles h.nextIno
        (FileWorld.start (eagerHost sys sharedFiles n h))
        (PrivateWorld.start sys sharedFiles n h) := by
      have hpath : sys'.localPathAt (n := n) = sys.localPathAt := by
        funext vm name
        rw [HostSystem.localPathAt, HostSystem.localPathAt, hdirectory]
      have hout' : OutsideVmFiles sys' sharedFiles n h := by rwa [OutsideVmFiles, hpath]
      have hstart :
          PrivateWorld.start sys' sharedFiles n h = PrivateWorld.start sys sharedFiles n h := by
        rw [PrivateWorld.start, PrivateWorld.start, hpath]
      have hhost : eagerHost sys' sharedFiles n h = eagerHost sys sharedFiles n h := by
        rw [eagerHost, eagerHost]
        simp only [copyShared, hpath]
      have hshows' := (Shows.start hc.named hout').eagerHost hc.nodup hcopy
      rw [hstart, hhost] at hshows'
      exact .start hshows' (fun _ _ => rfl) fun _ => rfl
    exact (trace_eq_private hκ hlazy inputs).trans (trace_eq_private hκ' heager inputs).symm
  · rw [trace_eq_private hκ hlazy, trace_eq_private hκ hlazy]
    exact privateLayer_trace_filter (fun vm' name => Iff.rfl) (.start vm)
      (fun vm' hne => .start_other hne (hapart vm' hne)) inputs

/-- A read request into memory from address one on. -/
def readRequest (descriptor count : ℤ) : FileRequest :=
  { operation := 3, descriptor := descriptor, buffer := 1, count := count, offset := 0,
    flags := 0 }

/-- The first of two VMs. -/
def firstVm : Fin 2 :=
  ⟨0, Nat.two_pos⟩

/-- The second of two VMs. -/
def secondVm : Fin 2 :=
  ⟨1, Nat.one_lt_two⟩

/-- Two VMs open `a`, VM 0 twice. VM 0 writes a byte through its first descriptor, then reads
it through its second; VM 1 reads. -/
def writeAndRead : List (FileInput 2) :=
  [.request ⟨firstVm, memoryA, openRequest fileOpenReadWrite⟩,
    .request ⟨firstVm, memoryA, openRequest fileOpenRead⟩,
    .request ⟨secondVm, memoryA, openRequest fileOpenRead⟩,
    .request ⟨firstVm, memoryA, writeRequest 3 1⟩,
    .request ⟨firstVm, memoryA, readRequest 4 1⟩, .request ⟨secondVm, memoryA, readRequest 3 1⟩]

/-- The result applies to two VMs and one original: VM 0 reads what it wrote, VM 1 the
original. -/
theorem lazy_eq_eager_writeAndRead :
    ((fileLayer (plainSystem fun _ => .completes) [("a", ["srv", "a"])]).trace
        (FileWorld.start sharedA) writeAndRead).map
          (fun x => x.2.map fun answer => (answer.result, answer.memory.bytes 1)) =
      [some (3, 0), some (4, 0), some (3, 0), some (1, 0), some (1, 97), some (1, 65)] ∧
    (fileLayer (plainSystem fun _ => .completes) [("a", ["srv", "a"])]).trace
        (FileWorld.start sharedA) writeAndRead =
      (fileLayer (plainSystem fun _ => .completes) [("a", ["srv", "a"])]).trace
        (FileWorld.start
          (eagerHost (plainSystem fun _ => .completes) [("a", ["srv", "a"])] 2 sharedA))
        writeAndRead ∧
    ((fileLayer (plainSystem fun _ => .completes) [("a", ["srv", "a"])]).trace
        (FileWorld.start sharedA) writeAndRead).filter (fun x => x.1.vm = 1) =
      (fileLayer (plainSystem fun _ => .completes) [("a", ["srv", "a"])]).trace
        (FileWorld.start sharedA) (writeAndRead.filter fun input => input.vm = 1) := by
  have hlocal : ∀ (vm : Fin 2) name,
      sharedA.names ((plainSystem fun _ => .completes).localPathAt vm name) = none := by
    intro vm name
    simp [sharedA, oneFileHost, HostSystem.localPathAt, localPath, plainSystem]
  have hout : OutsideVmFiles (plainSystem fun _ => .completes) [("a", ["srv", "a"])] 2 sharedA := by
    rintro x - o - vm name
    rw [hlocal]
    exact Option.some_ne_none o ∘ Eq.symm
  have hcopy : Copyable [("a", ["srv", "a"])] sharedA := by
    intro x hx o ho
    obtain rfl := List.mem_singleton.mp hx
    obtain rfl : 0 = o := Option.some.inj ho
    exact ⟨rfl, rfl⟩
  obtain ⟨heager, halone⟩ := lazy_eq_eager (fun _ => some ["srv", "a"]) ["/srv/a"]
    [("a", ["srv", "a"])] sharedA (configureSharedFiles_a rfl) 2
    (plainSystem fun _ => .completes) (plainSystem fun _ => .completes) rfl (fun _ => rfl)
    (fun _ => rfl) hout writeAndRead
  refine ⟨by decide +kernel, heager hcopy, halone 1 fun vm' _ name name' m hm => ?_⟩
  rw [hlocal] at hm
  cases hm

/-! ### Where lazy copies show -/

/-- A start with accepted shared files outside the directories of the VMs, which hold no file of
a shared name, and with host calls that do not fail without cause. -/
structure FreshStart (sys : HostSystem) (sharedFiles : List (String × HostPath)) (n : ℕ)
    (h : Host HostPath) : Prop where
  faultless : sys.kernel.Faultless
  configured : ∃ canonical paths, configureSharedFiles canonical h [] paths = .ok sharedFiles
  outside : OutsideVmFiles sys sharedFiles n h
  absent : ∀ x ∈ sharedFiles, ∀ vm : Fin n, h.names (sys.localPathAt vm x.1) = none

/-- A host with `f` as the original of the shared file `a`. -/
theorem freshStart_a (f : File) : FreshStart (plainSystem fun _ => .completes)
    [("a", ["srv", "a"])] 2 (oneFileHost ["srv", "a"] f) where
  faultless _ := rfl
  configured := ⟨_, _, configureSharedFiles_a rfl⟩
  outside x _ o _ vm name := by
    simp [oneFileHost, HostSystem.localPathAt, localPath, plainSystem]
  absent x _ vm := by
    simp [oneFileHost, HostSystem.localPathAt, localPath, plainSystem]

/-- A host on which the two VMs have a file `a` in common, under a hard link. -/
def linkedHost : Host HostPath :=
  { oneFileHost (localPath ["root"] 0 "a") (.made [65]) with
    names := fun p =>
      if p = localPath ["root"] 0 "a" then some 0
      else if p = localPath ["root"] 1 "a" then some 0
      else none
    named_lt := by
      intro p n hp
      split_ifs at hp
      all_goals
        obtain rfl := Option.some.inj hp
        exact Nat.zero_lt_one }

/-- VM 0 opens `a` and writes a byte. -/
def openAndWrite : List (FileInput 2) :=
  [.request ⟨firstVm, memoryA, openRequest fileOpenReadWrite⟩,
    .request ⟨firstVm, memoryA, writeRequest 3 1⟩]

/-- Then VM 1 opens `a` and reads a byte. -/
def readAfterwards : List (FileInput 2) :=
  [.request ⟨secondVm, memoryA, openRequest fileOpenRead⟩,
    .request ⟨secondVm, memoryA, readRequest 3 1⟩]

/-- **Lazy copies can show.** An original that the hypervisor may not read can be opened only as a
copy made in advance. One that it may read, but not if it were the owner, as the file of another
user with permissions for all others only, can be written only then: the private copy belongs to
the hypervisor, and cannot be opened for reading. And VMs whose directories have a file in common
see each other's writes. -/
theorem lazy_eq_eager_false :
    (¬ ∀ sys sharedFiles h, FreshStart sys sharedFiles 2 h → ∀ inputs : List (FileInput 2),
      (fileLayer sys sharedFiles).trace (FileWorld.start h) inputs =
        (fileLayer sys sharedFiles).trace (FileWorld.start (eagerHost sys sharedFiles 2 h))
          inputs) ∧
    (¬ ∀ sys sharedFiles h, FreshStart sys sharedFiles 2 h →
      (∀ x ∈ sharedFiles, ∀ o, h.names x.2 = some o → (h.files o).readable = true) →
        ∀ inputs : List (FileInput 2),
          (fileLayer sys sharedFiles).trace (FileWorld.start h) inputs =
            (fileLayer sys sharedFiles).trace (FileWorld.start (eagerHost sys sharedFiles 2 h))
              inputs) ∧
    ¬ ∀ sys sharedFiles h, FreshStart sys sharedFiles 2 h →
      ∀ (inputs : List (FileInput 2)) vm,
        ((fileLayer sys sharedFiles).trace (FileWorld.start h) inputs).filter
            (fun x => x.1.vm = vm) =
          (fileLayer sys sharedFiles).trace (FileWorld.start h)
            (inputs.filter fun input => input.vm = vm) := by
  refine ⟨fun hall => ?_, fun hall => ?_, fun hall => ?_⟩
  · have htrace := congrArg (List.map fun x => x.2.map Answer.result)
      (hall _ _ _ (freshStart_a ⟨[65], false, false, false, false⟩) openAndWrite)
    revert htrace
    decide +kernel
  · have htrace := congrArg (List.map fun x => x.2.map Answer.result)
      (hall _ _ _ (freshStart_a ⟨[65], true, false, false, false⟩) (fun x hx o ho => by
        obtain rfl := List.mem_singleton.mp hx
        obtain rfl : 0 = o := Option.some.inj ho
        rfl) openAndWrite)
    revert htrace
    decide +kernel
  · have hlinked : FreshStart (plainSystem fun _ => .completes) [] 2 linkedHost :=
      ⟨fun _ => rfl, ⟨fun _ => none, [], rfl⟩, fun x hx => absurd hx List.not_mem_nil,
        fun x hx => absurd hx List.not_mem_nil⟩
    have htrace := congrArg (List.map fun x => x.2.map fun answer => answer.memory.bytes 1)
      (hall _ _ _ hlinked (openAndWrite ++ readAfterwards) secondVm)
    revert htrace
    decide +kernel

end KvmHypervisor
