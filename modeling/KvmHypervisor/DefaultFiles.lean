import KvmHypervisor.DefaultGuests
import KvmHypervisor.PrivateFiles

/-!
# Files of the Default Guests

What the file calls of the default guests do to the private files of `PrivateFiles`. Each
guest has at most one descriptor open, on its `guest.txt` or its `reader.txt`. The boot test
writes to `guest.txt`, and a reader overwrites the first bytes of `reader.txt`, which it opens
without truncating it: what stood behind these bytes stays.

Several `reader.txt` may be one file, as under hard links: every reader writes the same. A
`reader.txt` that is some `guest.txt` is excluded, since a boot test may write there at any
time.

## Main results

* `FileAt.serve`: one file call of a guest, by what it touches.
* `Stored.step`: what a step of the system does to the files.
-/

open Transitions

namespace KvmHypervisor

open PosixFiles

variable {n : ℕ}

/-! ### Calls of one VM -/

section Calls

variable {configured : String → Bool} {vm : Fin n} {memory : GuestMemory}
variable {request : FileRequest} {s s' : PrivateState n} {files : FileId n → File}
variable {r : PrivateReply n} {name : String} {d : ℤ}

/-- The descriptors of `s'` are descriptors of `s`, moved at most. -/
structure Follows (s s' : PrivateState n) : Prop where
  names : s'.names = s.names
  next : s'.nextDescriptor = s.nextDescriptor
  entries : ∀ d entry', s'.entries d = some entry' →
    ∃ entry, s.entries d = some entry ∧ entry'.file = entry.file ∧ entry'.flags = entry.flags

theorem Follows.refl (s : PrivateState n) : Follows s s :=
  ⟨rfl, rfl, fun _ entry hd => ⟨entry, hd, rfl, rfl⟩⟩

/-- A descriptor that moves. -/
theorem Follows.seek {entry : PrivateEntry n} (hentry : s.entries d = some entry) (offset : ℕ) :
    Follows s (s.seek d entry offset) := by
  refine ⟨rfl, rfl, fun d' entry' hd' => ?_⟩
  rw [PrivateState.seek] at hd'
  dsimp only at hd'
  rw [Function.update_apply] at hd'
  split_ifs at hd' with hdd
  · subst hdd
    obtain rfl := Option.some.inj hd'
    exact ⟨entry, hentry, rfl, rfl⟩
  · exact ⟨entry', hd', rfl, rfl⟩

/-- A descriptor that is dropped. -/
theorem Follows.close (s : PrivateState n) (d : ℤ) : Follows s (s.close d) := by
  refine ⟨rfl, rfl, fun d' entry' hd' => ?_⟩
  rw [PrivateState.close] at hd'
  dsimp only at hd'
  rw [Function.update_apply] at hd'
  split_ifs at hd'
  exact ⟨entry', hd', rfl, rfl⟩

variable (configured vm s files) in
/-- Opening, by outcome. -/
theorem openPrivate_cases (hname : readGuestFileName memory request.buffer = some name) :
    openPrivate configured vm memory request s files = .failed memory s files ∨
    (∃ id, s.names name = some id ∧ openPrivate configured vm memory request s files =
      ⟨⟨s.nextDescriptor, memory⟩, s.emplace ⟨id, request.flags, 0⟩, files⟩) ∨
    (s.names name = none ∧ openPrivate configured vm memory request s files =
      ⟨⟨s.nextDescriptor, memory⟩,
        (s.create name (.own vm name)).emplace ⟨.own vm name, request.flags, 0⟩,
        Function.update files (.own vm name) (.made [])⟩) := by
  rw [openPrivate, hname]
  by_cases hflags : (!areValidOpenFlags request.flags) = true
  · rw [if_pos hflags]
    exact .inl rfl
  · rw [if_neg hflags]
    dsimp only
    cases hid : s.names name with
    | some id =>
        dsimp only
        split_ifs
        · exact .inr (.inl ⟨id, rfl, rfl⟩)
        · exact .inl rfl
    | none =>
        dsimp only
        split_ifs
        · exact .inr (.inr ⟨rfl, rfl⟩)
        · exact .inl rfl

/-- Closing leaves names and files alone, and the descriptor is gone. -/
theorem closePrivate_spec (hr : closePrivate memory request s files = r) :
    r.files = files ∧ Follows s r.state ∧ r.state.entries request.descriptor = none := by
  subst hr
  rw [closePrivate]
  cases hentry : s.entries request.descriptor with
  | none => exact ⟨rfl, .refl s, hentry⟩
  | some entry => exact ⟨rfl, .close s _, Function.update_self ..⟩

/-- Reading leaves names and files alone. -/
theorem readPrivate_spec (hr : readPrivate memory request s files = r) :
    r.files = files ∧ Follows s r.state := by
  subst hr
  rw [readPrivate]
  cases hentry : s.entries request.descriptor with
  | none => exact ⟨rfl, .refl s⟩
  | some entry =>
      dsimp only
      split_ifs
      · exact ⟨rfl, .refl s⟩
      · exact ⟨rfl, .refl s⟩
      · cases getGuestMemory memory request.buffer request.count.toNat with
        | none => exact ⟨rfl, .refl s⟩
        | some buffer => exact ⟨rfl, .seek hentry _⟩

/-- Seeking leaves names and files alone. -/
theorem seekPrivate_spec (hr : seekPrivate memory request s files = r) :
    r.files = files ∧ Follows s r.state := by
  subst hr
  rw [seekPrivate]
  cases hentry : s.entries request.descriptor with
  | none => exact ⟨rfl, .refl s⟩
  | some entry =>
      dsimp only
      cases if request.flags == fileSeekSet then some request.offset
          else if request.flags == fileSeekEnd then some ((files entry.file).bytes.length : ℤ)
          else none with
      | none => exact ⟨rfl, .refl s⟩
      | some position =>
          dsimp only
          split_ifs
          · exact ⟨rfl, .refl s⟩
          · exact ⟨rfl, .seek hentry _⟩
          · exact ⟨rfl, .seek hentry _⟩

/-- A descriptor that was moved to the start is there. -/
theorem seekPrivate_start (hr : seekPrivate memory request s files = r)
    (hflags : request.flags = fileSeekSet) (hoffset : request.offset = 0)
    {entry : PrivateEntry n} (hentry : r.state.entries request.descriptor = some entry) :
    entry.offset = 0 := by
  subst hr
  rw [seekPrivate, hflags, hoffset] at hentry
  cases hold : s.entries request.descriptor with
  | none => simp only [hold, PrivateReply.failed, reduceCtorEq] at hentry
  | some entry' =>
      simp only [hold, beq_self_eq_true, if_true, lt_self_iff_false, if_false,
        PrivateState.seek, Function.update_self, Option.some.injEq] at hentry
      rw [← hentry]
      rfl

/-- Writing at the start keeps what stands behind. -/
theorem overwrite_zero (bytes data : List UInt8) :
    overwrite bytes 0 data = data ++ bytes.drop data.length := by
  rw [overwrite]
  split_ifs with hempty
  · rw [List.isEmpty_iff.mp hempty]
    rfl
  · simp

/-- A write either does not return the number of bytes and leaves the files alone, or writes
them all to a file of which the hypervisor may become the owner. -/
theorem writePrivate_spec {data : List UInt8} (hr : writePrivate memory request s files = r)
    (hcount : request.count = data.length)
    (hbuffer : getGuestMemory memory request.buffer data.length = some request.buffer)
    (hslice : memory.slice request.buffer data.length = data) :
    Follows s r.state ∧ ((r.answer.result ≠ data.length ∧ r.files = files) ∨
      ∃ entry f, s.entries request.descriptor = some entry ∧
        f.bytes = overwrite (files entry.file).bytes entry.offset data ∧
        r.files = Function.update files entry.file f) := by
  subst hr
  have hfailed : (-1 : ℤ) ≠ data.length := by omega
  rw [writePrivate, hcount]
  cases hentry : s.entries request.descriptor with
  | none => exact ⟨.refl s, .inl ⟨hfailed, rfl⟩⟩
  | some entry =>
      dsimp only
      rw [writeEntry, hcount, Int.toNat_natCast, hbuffer, settle, Function.update_self]
      dsimp only
      rw [hslice, bytes_settled]
      split_ifs with hrefused hsettles hzero
      · exact ⟨.refl s, .inl ⟨hfailed, rfl⟩⟩
      · obtain rfl := List.eq_nil_of_length_eq_zero (show data.length = 0 by omega)
        exact ⟨.refl s, .inr ⟨entry, _, rfl, bytes_settled _ _, rfl⟩⟩
      · exact ⟨.seek hentry _, .inr ⟨entry, _, rfl, rfl, Function.update_idem ..⟩⟩
      · exact ⟨.refl s, .inl ⟨hfailed, rfl⟩⟩

end Calls

/-! ### The file of one guest -/

namespace DefaultProgram

/-- The descriptor a guest has open, and the name it has opened. -/
def desk : DefaultProgram → Option (ℤ × String)
  | testWrite fd | testSeek fd | testRead fd | testClose fd | readSource fd
  | closeSource fd _ _ => some (fd, "guest.txt")
  | seekTarget fd _ | writeTarget fd _ | closeTarget fd _ _ => some (fd, "reader.txt")
  | _ => none

/-- A descriptor that a guest has not moved from the start of its file. -/
def start : DefaultProgram → Option ℤ
  | readSource fd | writeTarget fd _ => some fd
  | _ => none

/-- How many files a guest has opened at most. -/
def opened : DefaultProgram → ℕ
  | testOpen => 0
  | testWrite _ | testSeek _ | testRead _ | testClose _ | mode | openSource | ask
  | receive _ _ | openTarget _ => 1
  | _ => 2

/-- A reader has stored what it has received. -/
def stores : DefaultProgram → Bool
  | closeTarget _ bytesWritten count => bytesWritten == count
  | done writer succeeded => !writer && succeeded
  | _ => false

/-- An answer at the ports is none of the files' business. -/
theorem files_resume (p : DefaultProgram) (response : ℕ) :
    (p.resume response).desk = p.desk ∧ (p.resume response).start = p.start ∧
      p.opened ≤ (p.resume response).opened ∧
      ((p.resume response).stores = true → p.stores = true) := by
  cases p with
  | mode | ask | receive =>
      rw [resume]
      split_ifs <;> exact ⟨rfl, rfl, by simp [opened], fun h => by cases h⟩
  | send read buffer sent =>
      rw [resume]
      split
      · exact ⟨rfl, rfl, le_rfl, fun h => by cases h⟩
      · exact ⟨rfl, rfl, le_rfl, fun h => by cases h⟩
  | announce | refuse => exact ⟨rfl, rfl, le_rfl, fun h => by cases h⟩
  | _ => exact ⟨rfl, rfl, le_rfl, id⟩

end DefaultProgram

section Guest

variable {configured : String → Bool} {vm : Fin n} {memory : GuestMemory} {address : ℕ}
variable {request : FileRequest} {s s' : PrivateState n} {files : FileId n → File}
variable {p p' : DefaultProgram} {call : FileCall} {name : String} {D : List UInt8}
variable {r : PrivateReply n}

/-- The descriptors of a guest: at most one, which its program knows. -/
structure FileAt (s : PrivateState n) (p : DefaultProgram) : Prop where
  desk : ∀ d entry, s.entries d = some entry →
    ∃ name, p.desk = some (d, name) ∧ s.names name = some entry.file
  start : ∀ d entry, p.start = some d → s.entries d = some entry → entry.offset = 0
  next : 3 ≤ s.nextDescriptor ∧ s.nextDescriptor ≤ 3 + p.opened

/-- The guest keeps its descriptor. -/
theorem FileAt.follows (hp : FileAt s p) (hf : Follows s s') (hdesk : p'.desk = p.desk)
    (hopened : p.opened ≤ p'.opened)
    (hstart : ∀ d entry, p'.start = some d → s'.entries d = some entry → entry.offset = 0) :
    FileAt s' p' where
  desk d entry' hd := by
    obtain ⟨entry, hentry, hfile, -⟩ := hf.entries d entry' hd
    obtain ⟨name, hname, hnamed⟩ := hp.desk d entry hentry
    exact ⟨name, by rw [hdesk, hname], by rw [hf.names, hfile, hnamed]⟩
  start := hstart
  next := by
    have hnext := hp.next
    rw [hf.next]
    omega

/-- An answer at the ports. -/
theorem FileAt.resume (hp : FileAt s p) (response : ℕ) : FileAt s (p.resume response) := by
  obtain ⟨hdesk, hstart, hopened, -⟩ := p.files_resume response
  refine hp.follows (.refl s) hdesk hopened fun d entry hd => ?_
  rw [hstart] at hd
  exact hp.start d entry hd

/-- The guest closes its descriptor. -/
theorem FileAt.close (hp : FileAt s p) {fd : ℤ} (hdesk : p.desk = some (fd, name))
    (hf : Follows s s') (hclosed : s'.entries fd = none) (hopened : p.opened ≤ p'.opened) :
    FileAt s' p' := by
  have hempty : ∀ d, s'.entries d = none := by
    intro d
    by_contra hne
    obtain ⟨entry', hd⟩ := Option.ne_none_iff_exists'.mp hne
    obtain ⟨entry, hentry, -⟩ := hf.entries d entry' hd
    obtain ⟨name', hname, -⟩ := hp.desk d entry hentry
    rw [hdesk] at hname
    cases hname
    exact hne hclosed
  have hnext := hp.next
  refine ⟨fun d entry hd => ?_, fun d entry _ hd => ?_, by rw [hf.next]; omega⟩
  · rw [hempty] at hd
    cases hd
  · rw [hempty] at hd
    cases hd

/-- What one file call does to the directory of its VM and to the files. A reader that stores
overwrites the first bytes with `D`. -/
inductive Touch (D : List UInt8) (vm : Fin n) (s : PrivateState n) (files : FileId n → File) :
    (String → Option (FileId n)) → (FileId n → File) → Prop
  | keep : Touch D vm s files s.names files
  | create {name : String} : s.names name = none →
      Touch D vm s files (Function.update s.names name (some (.own vm name)))
        (Function.update files (.own vm name) (.made []))
  | test {id : FileId n} (f : File) : s.names "guest.txt" = some id →
      Touch D vm s files s.names (Function.update files id f)
  | store {id : FileId n} {f : File} : s.names "reader.txt" = some id →
      f.bytes = overwrite (files id).bytes 0 D →
      Touch D vm s files s.names (Function.update files id f)

/-- The guest opens a file while it has none open: it fails, or it has one descriptor, at the
start of the file. -/
theorem FileAt.open (hp : FileAt s p) (hdesk : p.desk = none) (hopened : p.opened ≤ 1)
    {flags : BitVec 32} (hname : (FileCall.openFile name flags).InMemory memory address)
    (hr : servePrivate configured vm memory ((FileCall.openFile name flags).request address) s
      files = r) :
    Touch D vm s files r.state.names r.files ∧
      ((r.answer.result = -1 ∧ r.state = s) ∨
        (0 ≤ r.answer.result ∧ ∀ p' : DefaultProgram,
          p'.desk = some (r.answer.result, name) → p.opened < p'.opened →
          FileAt r.state p')) := by
  have hempty : ∀ d, s.entries d = none := by
    intro d
    by_contra hne
    obtain ⟨entry, hd⟩ := Option.ne_none_iff_exists'.mp hne
    obtain ⟨name', hname', -⟩ := hp.desk d entry hd
    rw [hdesk] at hname'
    cases hname'
  obtain ⟨hle, hnext⟩ := hp.next
  have hstep : (s.nextDescriptor + 1).bmod (2 ^ 32) = s.nextDescriptor + 1 :=
    Int.bmod_eq_of_le (by omega) (by omega)
  -- one descriptor on the file that the name stands for
  have hsingle : ∀ (s₀ : PrivateState n) (id : FileId n), s₀.entries = s.entries →
      s₀.nextDescriptor = s.nextDescriptor → s₀.names name = some id →
      ∀ p' : DefaultProgram, p'.desk = some (s.nextDescriptor, name) → p.opened < p'.opened →
        FileAt (s₀.emplace ⟨id, flags, 0⟩) p' := by
    intro s₀ id hentries hnext₀ hid p' hdesk' hlt
    have hlookup : ∀ d entry, (s₀.emplace ⟨id, flags, 0⟩).entries d = some entry →
        d = s.nextDescriptor ∧ entry = ⟨id, flags, 0⟩ := by
      intro d entry hd
      simp only [PrivateState.emplace, hentries, hnext₀, hempty, Option.isSome_none,
        Bool.false_eq_true, if_false, Function.update_apply] at hd
      split_ifs at hd with hdn
      exact ⟨hdn, (Option.some.inj hd).symm⟩
    refine ⟨fun d entry hd => ?_, fun d entry _ hd => ?_, ?_⟩
    · obtain ⟨rfl, rfl⟩ := hlookup d entry hd
      exact ⟨name, hdesk', hid⟩
    · obtain ⟨-, rfl⟩ := hlookup d entry hd
      rfl
    · simp only [PrivateState.emplace, hnext₀, hstep]
      omega
  have hserve : servePrivate configured vm memory
      ((FileCall.openFile name flags).request address) s files =
        openPrivate configured vm memory ((FileCall.openFile name flags).request address) s
          files := rfl
  have hname' : readGuestFileName memory
      ((FileCall.openFile name flags).request address).buffer = some name := hname
  rw [hserve] at hr
  obtain heq | ⟨id, hid, heq⟩ | ⟨hnone, heq⟩ :=
    openPrivate_cases configured vm s files hname'
  · rw [heq] at hr
    subst hr
    exact ⟨.keep, .inl ⟨rfl, rfl⟩⟩
  · rw [heq] at hr
    subst hr
    exact ⟨.keep, .inr ⟨by dsimp only; omega, hsingle s id rfl rfl hid⟩⟩
  · rw [heq] at hr
    subst hr
    exact ⟨.create hnone, .inr ⟨by dsimp only; omega,
      hsingle _ _ rfl rfl (Function.update_self ..)⟩⟩

/-- What a file call of a guest comes to. -/
structure Serves (D : List UInt8) (vm : Fin n) (s : PrivateState n) (files : FileId n → File)
    (address : ℕ) (p : DefaultProgram) (r : PrivateReply n) : Prop where
  file : FileAt r.state (p.returned address r.answer)
  touch : Touch D vm s files r.state.names r.files
  stores : (p.returned address r.answer).stores = true → p.stores = true ∨
    ∃ id f, s.names "reader.txt" = some id ∧ r.state.names = s.names ∧
      f.bytes = overwrite (files id).bytes 0 D ∧ r.files = Function.update files id f

/-- Names and files stay as they are. -/
theorem Serves.keep (hfile : FileAt r.state (p.returned address r.answer))
    (hfiles : r.files = files) (hnames : r.state.names = s.names)
    (hstores : (p.returned address r.answer).stores = true → p.stores = true) :
    Serves D vm s files address p r :=
  ⟨hfile, by rw [hfiles, hnames]; exact .keep, fun h => .inl (hstores h)⟩

/-- A call that opens. -/
theorem FileAt.serveOpen (hp : FileAt s p) (hdesk : p.desk = none) (hopened : p.opened ≤ 1)
    {flags : BitVec 32} (hname : (FileCall.openFile name flags).InMemory memory address)
    (hr : servePrivate configured vm memory ((FileCall.openFile name flags).request address) s
      files = r) {q q' : DefaultProgram}
    (hreturned : p.returned address r.answer = if 0 ≤ r.answer.result then q else q')
    (hq : q.desk = some (r.answer.result, name) ∧ p.opened < q.opened ∧ q.stores = false)
    (hq' : q'.desk = none ∧ q'.start = none ∧ p.opened < q'.opened ∧ q'.stores = false) :
    Serves D vm s files address p r := by
  obtain ⟨htouch, ⟨hresult, hstate⟩ | ⟨hresult, hopen⟩⟩ := hp.open hdesk hopened hname hr
  · rw [if_neg (by omega)] at hreturned
    refine ⟨?_, htouch, fun h => ?_⟩
    · rw [hreturned, hstate]
      refine hp.follows (.refl s) (by rw [hq'.1, hdesk]) hq'.2.2.1.le fun d entry hd => ?_
      rw [hq'.2.1] at hd
      cases hd
    · rw [hreturned, hq'.2.2.2] at h
      cases h
  · rw [if_pos hresult] at hreturned
    refine ⟨?_, htouch, fun h => ?_⟩
    · rw [hreturned]
      exact hopen q hq.1 hq.2.1
    · rw [hreturned, hq.2.2] at h
      cases h

/-- A call that closes. -/
theorem FileAt.serveClose (hp : FileAt s p) {fd : ℤ} (hdesk : p.desk = some (fd, name))
    (hr : servePrivate configured vm memory ((FileCall.close fd).request address) s files = r)
    (hopened : p.opened ≤ (p.returned address r.answer).opened)
    (hstores : (p.returned address r.answer).stores = true → p.stores = true) :
    Serves D vm s files address p r := by
  obtain ⟨hfiles, hfollows, hclosed⟩ := closePrivate_spec hr
  exact .keep (hp.close hdesk hfollows hclosed hopened) hfiles hfollows.names hstores

/-- A call that leaves names, files and the descriptor as they are. -/
theorem FileAt.serveKeep (hp : FileAt s p) (hfiles : r.files = files)
    (hfollows : Follows s r.state) {q : DefaultProgram}
    (hreturned : p.returned address r.answer = q) (hdesk : q.desk = p.desk)
    (hopened : p.opened ≤ q.opened)
    (hstart : ∀ d entry, q.start = some d → r.state.entries d = some entry → entry.offset = 0)
    (hstores : q.stores = false) : Serves D vm s files address p r := by
  subst hreturned
  refine .keep (hp.follows hfollows hdesk hopened hstart) hfiles hfollows.names fun h => ?_
  rw [hstores] at h
  cases h

/-- A write of the boot test. -/
theorem FileAt.serveTest {fd : ℤ} (hp : FileAt s (.testWrite fd))
    (hmemory : (FileCall.write fd testMessage).InMemory memory address)
    (hr : servePrivate configured vm memory ((FileCall.write fd testMessage).request address) s
      files = r) : Serves D vm s files address (.testWrite fd) r := by
  obtain ⟨hfollows, hwrite⟩ := writePrivate_spec hr rfl hmemory.1 hmemory.2
  have hfile : FileAt r.state ((DefaultProgram.testWrite fd).returned address r.answer) := by
    rw [DefaultProgram.returned]
    split_ifs
    · exact hp.follows hfollows rfl le_rfl fun _ _ h => by cases h
    · exact hp.follows hfollows rfl le_rfl fun _ _ h => by cases h
  have hstores : ((DefaultProgram.testWrite fd).returned address r.answer).stores = false := by
    rw [DefaultProgram.returned]
    split_ifs <;> rfl
  refine ⟨hfile, ?_, fun h => by rw [hstores] at h; cases h⟩
  rw [hfollows.names]
  obtain ⟨-, hfiles⟩ | ⟨entry, f, hentry, -, hfiles⟩ := hwrite
  · rw [hfiles]
    exact .keep
  · obtain ⟨name, hname, hnamed⟩ := hp.desk _ entry hentry
    cases hname
    rw [hfiles]
    exact .test _ hnamed

/-- A reader stores what it has received. -/
theorem FileAt.serveStore {fd : ℤ} {buffer : List UInt8} (hp : FileAt s (.writeTarget fd buffer))
    (hmemory : (FileCall.write fd buffer).InMemory memory address)
    (hr : servePrivate configured vm memory ((FileCall.write fd buffer).request address) s
      files = r) : Serves buffer vm s files address (.writeTarget fd buffer) r := by
  obtain ⟨hfollows, hwrite⟩ := writePrivate_spec hr rfl hmemory.1 hmemory.2
  have hfile : FileAt r.state ((DefaultProgram.writeTarget fd buffer).returned address r.answer) :=
    hp.follows hfollows rfl le_rfl fun _ _ h => by cases h
  obtain ⟨hresult, hfiles⟩ | ⟨entry, f, hentry, hbytes, hfiles⟩ := hwrite
  · refine .keep hfile hfiles hfollows.names fun h => ?_
    rw [DefaultProgram.returned, DefaultProgram.stores, beq_iff_eq] at h
    exact absurd h hresult
  · obtain ⟨name, hname, hnamed⟩ := hp.desk _ entry hentry
    cases hname
    rw [hp.start _ entry rfl hentry] at hbytes
    refine ⟨hfile, ?_, fun _ => .inr ⟨_, f, hnamed, hfollows.names, hbytes, hfiles⟩⟩
    rw [hfollows.names, hfiles]
    exact .store hnamed hbytes

/-- **One file call of a guest.** -/
theorem FileAt.serve (hp : FileAt s p) (hcall : p.fileCall = some call)
    (hmemory : call.InMemory memory address)
    (hreceived : ∀ buffer, p.received = some buffer → buffer = D)
    (hr : servePrivate configured vm memory (call.request address) s files = r) :
    Serves D vm s files address p r := by
  cases p with
  | testOpen =>
      cases hcall
      exact hp.serveOpen rfl (Nat.zero_le 1) hmemory hr rfl ⟨rfl, Nat.one_pos, rfl⟩
        ⟨rfl, rfl, Nat.one_pos, rfl⟩
  | openSource | openTarget =>
      cases hcall
      exact hp.serveOpen rfl le_rfl hmemory hr rfl ⟨rfl, Nat.lt_succ_self 1, rfl⟩
        ⟨rfl, rfl, Nat.lt_succ_self 1, rfl⟩
  | testClose fd | closeSource fd =>
      cases hcall
      exact hp.serveClose rfl hr le_rfl fun h => by cases h
  | closeTarget fd bytesWritten count =>
      cases hcall
      refine hp.serveClose rfl hr le_rfl fun h => ?_
      simp only [DefaultProgram.returned, DefaultProgram.stores, Bool.not_false, Bool.true_and,
        Bool.and_eq_true] at h
      exact h.1
  | testSeek fd =>
      cases hcall
      obtain ⟨hfiles, hfollows⟩ := seekPrivate_spec hr
      by_cases hzero : r.answer.result = 0
      · exact hp.serveKeep hfiles hfollows (if_pos hzero) rfl le_rfl (fun _ _ h => by cases h) rfl
      · exact hp.serveKeep hfiles hfollows (if_neg hzero) rfl le_rfl (fun _ _ h => by cases h) rfl
  | seekTarget fd buffer =>
      cases hcall
      obtain ⟨hfiles, hfollows⟩ := seekPrivate_spec hr
      by_cases hzero : r.answer.result = 0
      · refine hp.serveKeep hfiles hfollows (if_pos hzero) rfl le_rfl (fun d entry hd hentry => ?_)
          rfl
        obtain rfl := Option.some.inj hd
        exact seekPrivate_start hr rfl rfl hentry
      · refine hp.serveKeep hfiles hfollows (if_neg hzero) rfl le_rfl (fun _ _ h => by cases h) ?_
        simp [DefaultProgram.stores]
  | testRead fd | readSource fd =>
      cases hcall
      obtain ⟨hfiles, hfollows⟩ := readPrivate_spec hr
      exact hp.serveKeep hfiles hfollows rfl rfl le_rfl (fun _ _ h => by cases h) rfl
  | testWrite fd =>
      cases hcall
      exact hp.serveTest hmemory hr
  | writeTarget fd buffer =>
      cases hcall
      obtain rfl := hreceived buffer rfl
      exact hp.serveStore hmemory hr
  | _ => cases hcall

/-- What was stored in memory is read back. -/
theorem slice_store (memory : GuestMemory) (address : ℕ) (data : List UInt8) :
    (memory.store address data).slice address data.length = data := by
  refine List.ext_getElem (by simp [GuestMemory.slice]) fun k hk hk' => ?_
  simp [GuestMemory.slice, GuestMemory.store, hk']

/-- What a writer has read is the first part of what `guest.txt` holds. -/
theorem FileAt.read_source {fd : ℤ} (hp : FileAt s (.readSource fd))
    (hmemory : (FileCall.read fd (bufferSize + 1)).InMemory memory address)
    (hr : servePrivate configured vm memory ((FileCall.read fd (bufferSize + 1)).request address)
      s files = r) (hresult : 0 ≤ r.answer.result) :
    ∃ id, s.names "guest.txt" = some id ∧
      r.answer.memory.slice address r.answer.result.toNat =
        (files id).bytes.take (bufferSize + 1) := by
  have hread : readPrivate memory ((FileCall.read fd (bufferSize + 1)).request address) s
      files = r := hr
  have hbuffer : getGuestMemory memory address (bufferSize + 1) = some address := hmemory
  have hnegative : ¬(0 : ℤ) ≤ -1 := by decide
  rw [readPrivate] at hread
  cases hentry : s.entries fd with
  | none =>
      simp only [FileCall.request, hentry] at hread
      subst hread
      exact absurd hresult hnegative
  | some entry =>
      simp only [FileCall.request, hentry, Int.toNat_natCast, hbuffer,
        hp.start fd entry rfl hentry, List.drop_zero] at hread
      obtain ⟨name, hname, hnamed⟩ := hp.desk fd entry hentry
      cases hname
      split_ifs at hread with hrefused hzero
      · subst hread
        exact absurd hresult hnegative
      · omega
      · subst hread
        exact ⟨entry.file, hnamed, by rw [Int.toNat_natCast, slice_store]⟩

end Guest

/-! ### The files of all guests -/

/-- What a name of a VM holds. -/
def PrivateWorld.contents (a : PrivateWorld n) (vm : Fin n) (name : String) :
    Option (List UInt8) :=
  ((a.states vm).names name).map fun id => (a.files id).bytes

/-- An own file has one name, and no reader's `reader.txt` is a `guest.txt`. -/
structure Named (a : PrivateWorld (n + 1)) : Prop where
  own : ∀ i name j name', (a.states i).names name = some (.own j name') → i = j ∧ name = name'
  apart : ∀ i, i ≠ 0 → ∀ j id, (a.states i).names "reader.txt" = some id →
    (a.states j).names "guest.txt" ≠ some id

section World

variable {configured : String → Bool} {D : List UInt8} {old : Fin (n + 1) → List UInt8}
variable {a : PrivateWorld (n + 1)} {i j : Fin (n + 1)} {s : PrivateState (n + 1)}
variable {files : FileId (n + 1) → File} {programs : Fin (n + 1) → DefaultProgram}
variable {address : ℕ} {r : PrivateReply (n + 1)}

theorem names_update_apply (a : PrivateWorld (n + 1)) (i j : Fin (n + 1))
    (s : PrivateState (n + 1)) (files : FileId (n + 1) → File) (name : String) :
    ((a.update i s files).states j).names name =
      if j = i then s.names name else (a.states j).names name := by
  have hnames := congrFun (congrFun (a.names_update i s files) j) name
  rw [Function.update_apply, ite_apply] at hnames
  exact hnames

/-- The names after one VM has touched its directory. -/
theorem names_touch (ht : Touch D i (a.states i) a.files s.names files) (name : String) :
    ((a.update i s files).states j).names name = (a.states j).names name ∨
      (j = i ∧ (a.states i).names name = none ∧
        ((a.update i s files).states j).names name = some (.own i name) ∧
        files = Function.update a.files (.own i name) (.made [])) := by
  rw [names_update_apply]
  generalize s.names = names at ht ⊢
  by_cases hj : j = i
  · subst hj
    rw [if_pos rfl]
    cases ht with
    | keep | test | store => exact .inl rfl
    | @create created hnone =>
        by_cases hname : name = created
        · subst hname
          exact .inr ⟨rfl, hnone, Function.update_self .., rfl⟩
        · exact .inl (Function.update_of_ne hname ..)
  · rw [if_neg hj]
    exact .inl rfl

/-- Created files are own files, and apart. -/
theorem Named.touch (ha : Named a) (ht : Touch D i (a.states i) a.files s.names files) :
    Named (a.update i s files) := by
  have hown : ∀ j name k name', ((a.update i s files).states j).names name =
      some (.own k name') → j = k ∧ name = name' := by
    intro j name k name' hname
    obtain heq | ⟨rfl, -, heq, -⟩ := names_touch (j := j) ht name
    · rw [heq] at hname
      exact ha.own j name k name' hname
    · rw [heq] at hname
      cases hname
      exact ⟨rfl, rfl⟩
  refine ⟨hown, fun j hj k id hreader hguest => ?_⟩
  obtain heq | ⟨rfl, -, heq, -⟩ := names_touch (j := j) ht "reader.txt"
  · obtain heq' | ⟨rfl, -, heq', -⟩ := names_touch (j := k) ht "guest.txt"
    · rw [heq] at hreader
      rw [heq'] at hguest
      exact ha.apart j hj k id hreader hguest
    · rw [heq'] at hguest
      cases hguest
      exact absurd (hown j _ k _ hreader).2 (by decide)
  · rw [heq] at hreader
    cases hreader
    exact absurd (hown k _ j _ hguest).2 (by decide)

/-- What becomes of a reader's file when a VM touches its directory: nothing, or it is created,
or its first bytes are overwritten. -/
theorem Named.contents_touch (ha : Named a)
    (ht : Touch D i (a.states i) a.files s.names files) (hj : j ≠ 0) :
    (a.update i s files).contents j "reader.txt" = a.contents j "reader.txt" ∨
      (a.contents j "reader.txt" = none ∧
        (a.update i s files).contents j "reader.txt" = some []) ∨
      ∃ bytes, a.contents j "reader.txt" = some bytes ∧
        (a.update i s files).contents j "reader.txt" = some (D ++ bytes.drop D.length) := by
  have hfiles : (a.update i s files).files = files := rfl
  simp only [PrivateWorld.contents, hfiles]
  obtain heq | ⟨rfl, hnone, heq, rfl⟩ := names_touch (j := j) ht "reader.txt"
  · rw [heq]
    cases hid : (a.states j).names "reader.txt" with
    | none => exact .inl rfl
    | some id =>
        rw [Option.map_some, Option.map_some]
        generalize s.names = names at ht
        cases ht with
        | keep => exact .inl rfl
        | @create name hnone =>
            refine .inl ?_
            rw [Function.update_of_ne]
            rintro rfl
            obtain ⟨rfl, rfl⟩ := ha.own _ _ _ _ hid
            rw [hid] at hnone
            cases hnone
        | @test id' f hguest =>
            refine .inl ?_
            rw [Function.update_of_ne]
            rintro rfl
            exact ha.apart j hj i _ hid hguest
        | @store id' f hreader hbytes =>
            by_cases hsame : id = id'
            · subst hsame
              rw [Function.update_self, hbytes, overwrite_zero]
              exact .inr (.inr ⟨_, rfl, rfl⟩)
            · rw [Function.update_of_ne hsame]
              exact .inl rfl
  · rw [heq, hnone]
    exact .inr (.inl ⟨rfl, by rw [Option.map_some, Function.update_self, File.bytes_made]⟩)

/-- **The invariant of the files**, for readers that store `D`: what a `reader.txt` holds is
what it held at the start, with its first bytes overwritten or not, and they are once its VM
has stored. -/
structure Stored (D : List UInt8) (old : Fin (n + 1) → List UInt8)
    (programs : Fin (n + 1) → DefaultProgram) (a : PrivateWorld (n + 1)) : Prop where
  named : Named a
  text : ∀ i, i ≠ 0 → (a.contents i "reader.txt").getD [] = old i ∨
    (a.contents i "reader.txt").getD [] = D ++ (old i).drop D.length
  stored : ∀ i, i ≠ 0 → (programs i).stores = true →
    a.contents i "reader.txt" = some (D ++ (old i).drop D.length)
  file : ∀ i, FileAt (a.states i) (programs i)

/-- Overwriting twice is overwriting once. -/
theorem drop_append_drop (D bytes : List UInt8) :
    D ++ (D ++ bytes.drop D.length).drop D.length = D ++ bytes.drop D.length := by
  rw [List.drop_left]

/-- One file call. -/
theorem Stored.serve (hS : Stored D old programs a)
    (hserves : Serves D i (a.states i) a.files address (programs i) r) :
    Stored D old (Function.update programs i ((programs i).returned address r.answer))
      (a.update i r.state r.files) := by
  have hcontents := fun j (hj : j ≠ 0) => hS.named.contents_touch hserves.touch hj
  constructor
  case named => exact hS.named.touch hserves.touch
  case text =>
    intro j hj
    have htext := hS.text j hj
    obtain heq | ⟨hnone, heq⟩ | ⟨bytes, hbytes, heq⟩ := hcontents j hj
    · rwa [heq]
    · rw [hnone] at htext
      rwa [heq]
    · rw [hbytes, Option.getD_some] at htext
      rw [heq, Option.getD_some]
      refine .inr ?_
      obtain rfl | rfl := htext
      · rfl
      · exact drop_append_drop D (old j)
  case stored =>
    intro j hj hstores
    -- what was stored before is not lost
    have hkept : (programs j).stores = true → (a.update i r.state r.files).contents j
        "reader.txt" = some (D ++ (old j).drop D.length) := by
      intro hbefore
      have hstored := hS.stored j hj hbefore
      obtain heq | ⟨hnone, -⟩ | ⟨bytes, hbytes, heq⟩ := hcontents j hj
      · rw [heq, hstored]
      · rw [hnone] at hstored
        cases hstored
      · obtain rfl := Option.some.inj (hbytes.symm.trans hstored)
        rw [heq, drop_append_drop]
    by_cases hji : j = i
    · subst hji
      rw [Function.update_self] at hstores
      obtain hbefore | ⟨id, f, hid, hnames, hbytes, hfiles⟩ := hserves.stores hstores
      · exact hkept hbefore
      · have htext := hS.text j hj
        have hafter : (a.update j r.state r.files).files = r.files := rfl
        rw [PrivateWorld.contents, hid, Option.map_some, Option.getD_some] at htext
        rw [PrivateWorld.contents, names_update_apply, if_pos rfl, hnames, hid, hafter, hfiles,
          Option.map_some, Function.update_self, hbytes, overwrite_zero]
        obtain heq | heq := htext
        · rw [heq]
        · rw [heq, drop_append_drop]
    · rw [Function.update_of_ne hji] at hstores
      exact hkept hstores
  case file =>
    intro j
    by_cases hji : j = i
    · subst hji
      simpa only [PrivateWorld.update, Function.update_self] using hserves.file
    · simpa only [PrivateWorld.update, Function.update_of_ne hji] using hS.file j

/-- An answer at the ports. -/
theorem Stored.resume (hS : Stored D old programs a) (i : Fin (n + 1)) (response : ℕ) :
    Stored D old (Function.update programs i ((programs i).resume response)) a where
  named := hS.named
  text := hS.text
  stored j hj hstores := by
    by_cases hji : j = i
    · subst hji
      rw [Function.update_self] at hstores
      exact hS.stored j hj (((programs j).files_resume response).2.2.2 hstores)
    · rw [Function.update_of_ne hji] at hstores
      exact hS.stored j hj hstores
  file j := by
    by_cases hji : j = i
    · subst hji
      rw [Function.update_self]
      exact (hS.file j).resume response
    · rw [Function.update_of_ne hji]
      exact hS.file j

/-- A VM that ends closes its descriptors. -/
theorem Stored.finish (hS : Stored D old programs a) (i : Fin (n + 1)) :
    Stored D old programs (a.update i (a.states i).finish a.files) := by
  have hnames : ∀ j name, ((a.update i (a.states i).finish a.files).states j).names name =
      (a.states j).names name := by
    intro j name
    rw [names_update_apply]
    split_ifs with hji
    · rw [hji]
      rfl
    · rfl
  have hcontents : ∀ j, (a.update i (a.states i).finish a.files).contents j "reader.txt" =
      a.contents j "reader.txt" := by
    intro j
    rw [PrivateWorld.contents, hnames]
    rfl
  constructor
  case named =>
    refine ⟨fun j name k name' hname => ?_, fun j hj k id hreader => ?_⟩
    · rw [hnames] at hname
      exact hS.named.own j name k name' hname
    · rw [hnames] at hreader ⊢
      exact hS.named.apart j hj k id hreader
  case text =>
    intro j hj
    rw [hcontents]
    exact hS.text j hj
  case stored =>
    intro j hj hstores
    rw [hcontents]
    exact hS.stored j hj hstores
  case file =>
    intro j
    by_cases hji : j = i
    · subst hji
      simp only [PrivateWorld.update, Function.update_self]
      exact ⟨fun _ _ h => (by cases h), fun _ _ _ h => (by cases h), (hS.file j).next⟩
    · simpa only [PrivateWorld.update, Function.update_of_ne hji] using hS.file j

variable {s s' : DefaultGuests n (PrivateWorld (n + 1))} {m : DefaultMove n}
variable {e : DefaultEvent n} {layout : Fin (n + 1) → RunLayout}

/-- **One step of the system**, as long as readers store `D`. -/
theorem Stored.step (hS : Stored D old s.programs s.world)
    (hreceived : ∀ i buffer, (s.programs i).received = some buffer → buffer = D)
    (hs : s.step (privateLayer configured) layout m = some (e, s')) :
    Stored D old s'.programs s'.world := by
  obtain ⟨a, e₀, system, -, -, hadv⟩ |
    ⟨i, memory, address, call, answer, world, -, hserved, -, rfl⟩ :=
      DefaultGuests.step_cases hs
  · cases e₀ with
    | call i c =>
        cases hadv
        exact hS.resume i c.response
    | finish i success =>
        cases hadv
        exact hS.finish i
    | _ =>
        cases hadv
        exact hS
  · have hanswered := hserved.answered
    rw [privateLayer_request] at hanswered
    cases hanswered
    exact hS.serve ((hS.file i).serve hserved.fileCall hserved.inMemory (hreceived i) rfl)

end World

end KvmHypervisor
