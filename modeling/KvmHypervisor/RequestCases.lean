import KvmHypervisor.PrivateCopies

/-!
# What One Request Can Do

One case lemma for each operation, whatever host calls fail on the way: the request is
refused and nothing changes, or it takes effect in the one way the lemma spells out. All
later results about requests start from these lemmas and unfold no operation again.
-/

namespace KvmHypervisor

open PosixFiles

variable (sys : HostSystem) (context : GuestContext) (memory : GuestMemory)
variable (request : FileRequest) (s : FileState) (h : Host HostPath)

/-! ### Open -/

/-- A resolution of a name: the VM's own path, unless the own file was not seen and the
name is shared. -/
structure Resolves (name : String) (h : Host HostPath) (resolved : ResolvedFile) : Prop where
  own : resolved.shared = false → resolved.path = sys.localPathOf context name ∧
    ((h.names (sys.localPathOf context name)).isSome ∨ context.sharedFiles.lookup name = none)
  original : resolved.shared = true →
    context.sharedFiles.lookup name = some resolved.path ∧
      (h.names (sys.localPathOf context name) = none ∨
        (sys.kernel.outcome h.calls).failed = true)

/-- What `resolveFile` computes is a resolution, at the cost of one call. -/
theorem resolveFile_cases (name : String) :
    ∃ resolved, resolveFile sys context name h = (resolved, h.tick) ∧
      Resolves sys context name h resolved := by
  rw [resolveFile, Host.existsAt]
  cases hfail : (sys.kernel.outcome h.calls).failed with
  | true =>
      simp only [if_true]
      cases hshared : context.sharedFiles.lookup name with
      | none => exact ⟨_, rfl, ⟨fun _ => ⟨rfl, .inr hshared⟩, fun h => by cases h⟩⟩
      | some path => exact ⟨_, rfl, ⟨(fun h => by cases h), fun _ => ⟨hshared, .inr hfail⟩⟩⟩
  | false =>
      simp only [Bool.false_eq_true, if_false]
      cases hnames : h.names (sys.localPathOf context name) with
      | some m => exact ⟨_, rfl, ⟨fun _ => ⟨rfl, .inl (by simp [hnames])⟩, fun h => by cases h⟩⟩
      | none =>
          dsimp only [Option.isSome_none]
          cases hshared : context.sharedFiles.lookup name with
          | none => exact ⟨_, rfl, ⟨fun _ => ⟨rfl, .inr hshared⟩, fun h => by cases h⟩⟩
          | some path => exact ⟨_, rfl, ⟨(fun h => by cases h), fun _ => ⟨hshared, .inl hnames⟩⟩⟩

/-- The mode a resolved file is opened in: a shared original only for reading. -/
def openModeOf (resolved : ResolvedFile) (flags : BitVec 32) : OpenMode :=
  if resolved.shared then readOnly else toHostOpenFlags flags

/-- The mode of an own file. -/
theorem openModeOf_own (path : HostPath) (flags : BitVec 32) :
    openModeOf ⟨path, false⟩ flags = toHostOpenFlags flags :=
  rfl

/-- The mode of a shared original. -/
theorem openModeOf_shared (path : HostPath) (flags : BitVec 32) :
    openModeOf ⟨path, true⟩ flags = readOnly :=
  rfl

/-- What is opened to be written or created is no shared original. -/
theorem own_of_openModeOf {resolved : ResolvedFile} {flags : BitVec 32}
    (h : (openModeOf resolved flags).writable = true ∨ (openModeOf resolved flags).create = true) :
    resolved.shared = false := by
  by_contra hshared
  rw [Bool.not_eq_false] at hshared
  simp [openModeOf, hshared, readOnly] at h

/-- The host after a successful open: a fresh descriptor on the file of the path, which is
created first if it did not exist. -/
def OpensAt (path : HostPath) (mode : OpenMode) (fd : ℕ) (h h' : Host HostPath) : Prop :=
  (∃ m, h.names path = some m ∧ (h.files m).permits mode ∧ h' = h.tick.grant fd path mode) ∨
    (h.names path = none ∧ mode.create ∧
      h' = (h.tick.link path (.made [])).grant fd path mode)

/-- The host `open` at the end fails without effect, or adds one entry to the table. -/
theorem openResolved_cases (name : String) (resolved : ResolvedFile) :
    (∃ h', openResolved sys memory request name resolved s h = Reply.failed memory s h' ∧
        h.Unchanged h') ∨
      ∃ fd h', h.descriptors.lookup fd = none ∧
        OpensAt resolved.path (openModeOf resolved request.flags) fd h h' ∧
        openResolved sys memory request name resolved s h =
          ⟨s.nextDescriptor, memory,
            s.emplace ⟨fd, request.flags, name, resolved.path, resolved.shared⟩, h'⟩ := by
  rw [openResolved, ← openModeOf]
  rcases h.openAt_cases sys.kernel resolved.path (openModeOf resolved request.flags) with
    hopen | ⟨fd, hfd, ⟨m, hm, hpermits, hopen⟩ | ⟨hnone, hcreate, hopen⟩⟩
  · rw [hopen]
    exact .inl ⟨_, rfl, .tick h⟩
  · rw [hopen]
    exact .inr ⟨fd, _, hfd, .inl ⟨m, hm, hpermits, rfl⟩, rfl⟩
  · rw [hopen]
    exact .inr ⟨fd, _, hfd, .inr ⟨hnone, hcreate, rfl⟩, rfl⟩

/-- Making the directory first changes no file. -/
theorem openInDirectory_cases (name : String) (resolved : ResolvedFile) :
    (∃ h', openInDirectory sys memory request name resolved s h = Reply.failed memory s h' ∧
        h.Unchanged h') ∨
      ∃ fd h₁ h', h.Unchanged h₁ ∧ h₁.descriptors.lookup fd = none ∧
        OpensAt resolved.path (openModeOf resolved request.flags) fd h₁ h' ∧
        openInDirectory sys memory request name resolved s h =
          ⟨s.nextDescriptor, memory,
            s.emplace ⟨fd, request.flags, name, resolved.path, resolved.shared⟩, h'⟩ := by
  have hopen : ∀ h₁ : Host HostPath, h.Unchanged h₁ →
      (∃ h', openResolved sys memory request name resolved s h₁ = Reply.failed memory s h' ∧
          h.Unchanged h') ∨
        ∃ fd h₂ h', h.Unchanged h₂ ∧ h₂.descriptors.lookup fd = none ∧
          OpensAt resolved.path (openModeOf resolved request.flags) fd h₂ h' ∧
          openResolved sys memory request name resolved s h₁ =
            ⟨s.nextDescriptor, memory,
              s.emplace ⟨fd, request.flags, name, resolved.path, resolved.shared⟩, h'⟩ := by
    intro h₁ hu
    rcases openResolved_cases sys memory request s h₁ name resolved with
      ⟨h', hr, hu'⟩ | ⟨fd, h', hfd, hopens, hr⟩
    · exact .inl ⟨h', hr, hu.trans hu'⟩
    · exact .inr ⟨fd, h₁, h', hu, hfd, hopens, hr⟩
  rw [openInDirectory]
  split_ifs
  · rw [Host.createDirectories]
    cases (sys.kernel.outcome h.calls).failed with
    | true => exact .inl ⟨_, rfl, .tick h⟩
    | false => exact hopen _ (.tick h)
  · exact hopen h (.refl h)

/-- **Open.** The request is refused and nothing changes, or a valid name is resolved and
one entry is added. -/
theorem openFile_cases :
    (∃ h', openFile sys context memory request s h = Reply.failed memory s h' ∧
        h.Unchanged h') ∨
      ∃ name resolved fd h₁ h', areValidOpenFlags request.flags = true ∧
        readGuestFileName memory request.buffer = some name ∧
        Resolves sys context name h resolved ∧ h.Unchanged h₁ ∧
        h₁.descriptors.lookup fd = none ∧
        OpensAt resolved.path (openModeOf resolved request.flags) fd h₁ h' ∧
        openFile sys context memory request s h =
          ⟨s.nextDescriptor, memory,
            s.emplace ⟨fd, request.flags, name, resolved.path, resolved.shared⟩, h'⟩ := by
  rw [openFile]
  cases hflags : areValidOpenFlags request.flags with
  | false => exact .inl ⟨h, rfl, .refl h⟩
  | true =>
      cases hname : readGuestFileName memory request.buffer with
      | none => exact .inl ⟨h, rfl, .refl h⟩
      | some name =>
          obtain ⟨resolved, hresolve, hresolves⟩ := resolveFile_cases sys context h name
          simp only [Bool.not_true, Bool.false_eq_true, if_false, hresolve]
          rcases openInDirectory_cases sys memory request s h.tick name resolved with
            ⟨h', hr, hu⟩ | ⟨fd, h₁, h', hu, hfd, hopens, hr⟩
          · exact .inl ⟨h', hr, (Host.Unchanged.tick h).trans hu⟩
          · exact .inr ⟨name, resolved, fd, h₁, h', trivial, rfl, hresolves,
              (Host.Unchanged.tick h).trans hu, hfd, hopens, hr⟩

/-! ### Close -/

/-- **Close.** An unknown descriptor is refused; a known one leaves the table and its host
descriptor is closed. -/
theorem closeFile_cases (descriptor : ℤ) :
    (s.openFiles.lookup descriptor = none ∧
        closeFile memory descriptor s h = Reply.failed memory s h) ∨
      ∃ file, s.openFiles.lookup descriptor = some file ∧
        closeFile memory descriptor s h =
          ⟨if (h.descriptors.lookup file.hostDescriptor).isSome then 0 else -1, memory,
            { s with openFiles := s.openFiles.erase descriptor },
            h.release file.hostDescriptor⟩ := by
  rw [closeFile]
  cases hfile : s.openFiles.lookup descriptor with
  | none => exact .inl ⟨rfl, rfl⟩
  | some file => exact .inr ⟨file, rfl, rfl⟩

/-! ### Read and seek -/

/-- **Read.** The request delivers nothing and changes nothing, or an open description moves
past the bytes that are delivered. -/
theorem readFile_cases :
    (∃ result h', readFile sys memory request s h = ⟨result, memory, s, h'⟩ ∧
        h.Unchanged h' ∧ result ≤ 0) ∨
      ∃ file d buffer, ∃ data : List UInt8,
        s.openFiles.lookup request.descriptor = some file ∧
        h.descriptors.lookup file.hostDescriptor = some d ∧
        data <+: (h.files d.ino).bytes.drop d.offset ∧
        readFile sys memory request s h =
          ⟨data.length, memory.store buffer data, s,
            h.tick.reposition file.hostDescriptor (d.offset + data.length)⟩ := by
  rw [readFile]
  cases hfile : s.openFiles.lookup request.descriptor with
  | none => exact .inl ⟨-1, h, rfl, .refl h, by decide⟩
  | some file =>
      dsimp only
      split_ifs
      · exact .inl ⟨-1, h, rfl, .refl h, by decide⟩
      · exact .inl ⟨0, h, rfl, .refl h, le_rfl⟩
      · cases getGuestMemory memory request.buffer request.count.toNat with
        | none => exact .inl ⟨-1, h, rfl, .refl h, by decide⟩
        | some buffer =>
            dsimp only
            rcases h.read_cases sys.kernel file.hostDescriptor request.count.toNat with
              hread | ⟨d, data, hd, hdata, hread⟩
            · rw [hread]
              exact .inl ⟨-1, _, rfl, .tick h, by decide⟩
            · rw [hread]
              exact .inr ⟨file, d, buffer, data, rfl, hd, hdata, rfl⟩

/-- Where a seek request starts from, and the offset it adds. -/
def seekTarget (request : FileRequest) : Option (Whence × ℤ) :=
  if request.flags == fileSeekSet then some (.set, request.offset)
  else if request.flags == fileSeekEnd then some (.fromEnd, 0)
  else none

/-- **Seek.** The request is refused and nothing changes, or an open description moves to
the position asked for, which is the result unless it is too large for one. -/
theorem seekFile_cases :
    (∃ h', seekFile sys memory request s h = Reply.failed memory s h' ∧ h.Unchanged h') ∨
      ∃ file d whence offset, ∃ position : ℕ,
        s.openFiles.lookup request.descriptor = some file ∧
        h.descriptors.lookup file.hostDescriptor = some d ∧
        seekTarget request = some (whence, offset) ∧
        (position : ℤ) = h.target offset whence d ∧
        seekFile sys memory request s h =
          ⟨if intMax < position then -1 else position, memory, s,
            h.tick.reposition file.hostDescriptor position⟩ := by
  rw [seekFile]
  cases hfile : s.openFiles.lookup request.descriptor with
  | none => exact .inl ⟨h, rfl, .refl h⟩
  | some file =>
      dsimp only
      rw [← seekTarget]
      cases htarget : seekTarget request with
      | none => exact .inl ⟨h, rfl, .refl h⟩
      | some target =>
          obtain ⟨hostWhence, offset⟩ := target
          rcases h.lseek_cases sys.kernel file.hostDescriptor offset hostWhence with
            hseek | ⟨d, position, hd, hposition, hseek⟩
          · simp only [hseek]
            exact .inl ⟨_, rfl, .tick h⟩
          · refine .inr ⟨file, d, hostWhence, offset, position, rfl, hd, rfl, hposition, ?_⟩
            simp only [hseek]
            split_ifs
            · rfl
            · rfl

/-! ### Write -/

/-- The host `write` at the end: nothing changes, or the file behind a writable
description does, and then the result is not negative. -/
theorem writePrepared_cases (file : OpenFile) :
    (∃ result h', writePrepared sys memory request file s h = ⟨result, memory, s, h'⟩ ∧
        h.Unchanged h') ∨
      ∃ d, ∃ data : List UInt8, h.descriptors.lookup file.hostDescriptor = some d ∧
        d.writable = true ∧
        writePrepared sys memory request file s h =
          ⟨data.length, memory, s,
            (h.tick.setFile d.ino { h.files d.ino with
              bytes := overwrite (h.files d.ino).bytes d.offset data }).reposition
                file.hostDescriptor (d.offset + data.length)⟩ := by
  rw [writePrepared]
  split_ifs
  · exact .inl ⟨0, h, rfl, .refl h⟩
  · cases getGuestMemory memory request.buffer request.count.toNat with
    | none => exact .inl ⟨-1, h, rfl, .refl h⟩
    | some buffer =>
        dsimp only
        rcases h.write_cases sys.kernel file.hostDescriptor
            (memory.slice buffer request.count.toNat) with hwrite | ⟨d, data, hd, hw, hwrite⟩
        · rw [hwrite]
          exact .inl ⟨-1, _, rfl, .tick h⟩
        · rw [hwrite]
          exact .inr ⟨d, data, hd, hw, rfl⟩

/-- A write request that gets as far as the switch: the descriptor is open for writing and
the count is not negative. -/
def Writes (request : FileRequest) (s : FileState) (file : OpenFile) : Prop :=
  s.openFiles.lookup request.descriptor = some file ∧ hasWriteAccess file.flags = true ∧
    0 ≤ request.count

/-- **Write.** The request is refused before the switch, the switch fails, or the write
itself follows in the table and host after the switch. -/
theorem writeFile_cases :
    ((∀ file, ¬ Writes request s file) ∧
        writeFile sys context memory request s h = Reply.failed memory s h) ∨
      ∃ file s' h', Writes request s file ∧
        ((prepareFileForWrite sys context file s h = (false, s', h') ∧
            writeFile sys context memory request s h = Reply.failed memory s' h') ∨
          (prepareFileForWrite sys context file s h = (true, s', h') ∧
            ((s'.openFiles.lookup request.descriptor = none ∧
                writeFile sys context memory request s h = Reply.failed memory s' h') ∨
              ∃ file', s'.openFiles.lookup request.descriptor = some file' ∧
                writeFile sys context memory request s h =
                  writePrepared sys memory request file' s' h'))) := by
  rw [writeFile]
  cases hfile : s.openFiles.lookup request.descriptor with
  | none =>
      refine .inl ⟨fun file hw => ?_, rfl⟩
      rw [hw.1] at hfile
      cases hfile
  | some file =>
      dsimp only
      split_ifs with hrefused
      · refine .inl ⟨fun file' hw => ?_, rfl⟩
        obtain rfl : file' = file := Option.some.inj (hw.1.symm.trans hfile)
        have := hw.2
        simp_all
        omega
      · have hw : Writes request s file := by
          rw [Bool.or_eq_true, not_or] at hrefused
          refine ⟨hfile, by simpa using hrefused.1, ?_⟩
          have := hrefused.2
          simp only [decide_eq_true_eq] at this
          omega
        generalize hprepare : prepareFileForWrite sys context file s h = r
        obtain ⟨ok, s', h'⟩ := r
        refine .inr ⟨file, s', h', hw, ?_⟩
        cases ok with
        | false => exact .inl ⟨hprepare, rfl⟩
        | true =>
            refine .inr ⟨hprepare, ?_⟩
            dsimp only
            cases hfile' : s'.openFiles.lookup request.descriptor with
            | none => exact .inl ⟨rfl, rfl⟩
            | some file' => exact .inr ⟨file', rfl, rfl⟩

/-! ### One request -/

/-- Everything a request can leave behind. It changes nothing; it opens a file; it takes an
entry away; it moves an open description; it prepares a write that then changes nothing
more; or it writes. -/
inductive Effect : Reply → Prop
  | nothing {result : ℤ} {h' : Host HostPath} :
      (FileOperation.ofCode request.operation = some .openFile → result = -1) →
      h.Unchanged h' → Effect ⟨result, memory, s, h'⟩
  | opens {name : String} {resolved : ResolvedFile} {fd : ℕ} {h₁ h' : Host HostPath} :
      FileOperation.ofCode request.operation = some .openFile →
      readGuestFileName memory request.buffer = some name →
      Resolves sys context name h resolved → h.Unchanged h₁ → h₁.descriptors.lookup fd = none →
      OpensAt resolved.path (openModeOf resolved request.flags) fd h₁ h' →
      Effect ⟨s.nextDescriptor, memory,
        s.emplace ⟨fd, request.flags, name, resolved.path, resolved.shared⟩, h'⟩
  | closes {file : OpenFile} {result : ℤ} :
      FileOperation.ofCode request.operation = some .close →
      s.openFiles.lookup request.descriptor = some file →
      Effect ⟨result, memory, { s with openFiles := s.openFiles.erase request.descriptor },
        h.release file.hostDescriptor⟩
  | moves {file : OpenFile} {d : Description} {memory' : GuestMemory} {result : ℤ}
      {offset : ℕ} :
      FileOperation.ofCode request.operation ≠ some .openFile →
      s.openFiles.lookup request.descriptor = some file →
      h.descriptors.lookup file.hostDescriptor = some d →
      Effect ⟨result, memory', s, h.tick.reposition file.hostDescriptor offset⟩
  | prepares {file : OpenFile} {ok : Bool} {s' : FileState} {h' h'' : Host HostPath}
      {result : ℤ} :
      FileOperation.ofCode request.operation = some .write → Writes request s file →
      Prepared sys context file s h ok s' h' → h'.Unchanged h'' →
      Effect ⟨result, memory, s', h''⟩
  | writes {file file' : OpenFile} {s' : FileState} {h' : Host HostPath} {d : Description}
      {data : List UInt8} :
      FileOperation.ofCode request.operation = some .write → Writes request s file →
      Prepared sys context file s h true s' h' →
      s'.openFiles.lookup request.descriptor = some file' →
      h'.descriptors.lookup file'.hostDescriptor = some d → d.writable = true →
      Effect ⟨data.length, memory, s',
        (h'.tick.setFile d.ino { h'.files d.ino with
          bytes := overwrite (h'.files d.ino).bytes d.offset data }).reposition
            file'.hostDescriptor (d.offset + data.length)⟩

/-- **One request** leaves nothing else behind, whatever host calls fail. -/
theorem processFileRequest_effect :
    Effect sys context memory request s h (processFileRequest sys context memory request s h) := by
  rw [processFileRequest]
  rcases hop : FileOperation.ofCode request.operation with _ | op
  · exact .nothing (fun _ => rfl) (.refl h)
  cases op with
  | openFile =>
      rcases openFile_cases sys context memory request s h with
        ⟨h', hr, hu⟩ | ⟨name, resolved, fd, h₁, h', -, hname, hres, hu, hfd, ho, hr⟩
      · simp only [hr]
        exact .nothing (fun _ => rfl) hu
      · simp only [hr]
        exact .opens hop hname hres hu hfd ho
  | close =>
      rcases closeFile_cases memory s h request.descriptor with ⟨-, hr⟩ | ⟨file, hfile, hr⟩
      · simp only [hr]
        exact .nothing (fun _ => rfl) (.refl h)
      · simp only [hr]
        exact .closes hop hfile
  | read =>
      rcases readFile_cases sys memory request s h with
        ⟨result, h', hr, hu, -⟩ | ⟨file, d, buffer, data, hfile, hd, -, hr⟩
      · simp only [hr]
        exact .nothing (by simp [hop]) hu
      · simp only [hr]
        exact .moves (by simp [hop]) hfile hd
  | write =>
      rcases writeFile_cases sys context memory request s h with
        ⟨-, hr⟩ | ⟨file, s', h', hw, ⟨hp, hr⟩ | ⟨hp, ⟨-, hr⟩ | ⟨file', hfile', hr⟩⟩⟩
      · simp only [hr]
        exact .nothing (fun _ => rfl) (.refl h)
      · simp only [hr]
        exact .prepares hop hw (prepared_of_prepareFileForWrite sys context hp) (.refl h')
      · simp only [hr]
        exact .prepares hop hw (prepared_of_prepareFileForWrite sys context hp) (.refl h')
      · have hprepared := prepared_of_prepareFileForWrite sys context hp
        simp only [hr]
        rcases writePrepared_cases sys memory request s' h' file' with
          ⟨result, h'', hr', hu⟩ | ⟨d, data, hd, hwritable, hr'⟩
        · simp only [hr']
          exact .prepares hop hw hprepared hu
        · simp only [hr']
          exact .writes hop hw hprepared hfile' hd hwritable
  | lseek =>
      rcases seekFile_cases sys memory request s h with
        ⟨h', hr, hu⟩ | ⟨file, d, whence, offset, position, hfile, hd, -, -, hr⟩
      · simp only [hr]
        exact .nothing (fun _ => rfl) hu
      · simp only [hr]
        exact .moves (by simp [hop]) hfile hd

/-! ### Descriptor numbers -/

/-- A switch adds no entry and keeps the counter. -/
theorem Prepared.descriptors {file : OpenFile} {ok : Bool} {s' : FileState}
    {h' : Host HostPath} (hp : Prepared sys context file s h ok s' h') :
    s'.nextDescriptor = s.nextDescriptor ∧ ∀ d ∈ s'.openFiles, d ∈ s.openFiles := by
  cases hp with
  | own _ => exact ⟨rfl, fun d hd => hd⟩
  | noDirectory _ _ => exact ⟨rfl, fun d hd => hd⟩
  | discarded _ _ _ _ => exact ⟨rfl, fun d hd => hd⟩
  | copied _ _ _ hm =>
      refine ⟨hm.nextDescriptor, fun d hd => ?_⟩
      obtain ⟨file', hfile'⟩ := Finmap.mem_iff.mp hd
      rw [hm.table] at hfile'
      split_ifs at hfile'
      · obtain ⟨old, hold, -⟩ := Option.map_eq_some_iff.mp hfile'
        exact Finmap.mem_of_lookup_eq_some hold
      · exact Finmap.mem_of_lookup_eq_some hfile'

/-- **Descriptor numbers.** A request opens a file and adds an entry under the next
descriptor, which it returns; or it adds no entry, keeps the counter, and returns `-1` if
it asked to open. -/
theorem processFileRequest_descriptors :
    (FileOperation.ofCode request.operation = some .openFile ∧
        (processFileRequest sys context memory request s h).result = s.nextDescriptor ∧
        ∃ file, (processFileRequest sys context memory request s h).state = s.emplace file) ∨
      ((processFileRequest sys context memory request s h).state.nextDescriptor =
          s.nextDescriptor ∧
        (∀ d ∈ (processFileRequest sys context memory request s h).state.openFiles,
          d ∈ s.openFiles) ∧
        (FileOperation.ofCode request.operation = some .openFile →
          (processFileRequest sys context memory request s h).result = -1)) := by
  have heffect := processFileRequest_effect sys context memory request s h
  generalize processFileRequest sys context memory request s h = reply at heffect ⊢
  cases heffect with
  | nothing hresult _ => exact .inr ⟨rfl, fun d hd => hd, hresult⟩
  | opens hop _ _ _ _ _ => exact .inl ⟨hop, rfl, _, rfl⟩
  | closes hop _ => exact .inr ⟨rfl, fun d hd => (Finmap.mem_erase.mp hd).2, by simp [hop]⟩
  | moves hop _ _ => exact .inr ⟨rfl, fun d hd => hd, fun hop' => absurd hop' hop⟩
  | prepares hop _ hp _ =>
      obtain ⟨hnext, hkeys⟩ := hp.descriptors
      exact .inr ⟨hnext, hkeys, by simp [hop]⟩
  | writes hop _ hp _ _ _ =>
      obtain ⟨hnext, hkeys⟩ := hp.descriptors
      exact .inr ⟨hnext, hkeys, by simp [hop]⟩

/-! ### Names of other directories -/

variable {sys context}

/-- Only an own path is ever created by an open. -/
theorem names_of_opensAt {name : String} {resolved : ResolvedFile} {flags : BitVec 32}
    {fd : ℕ} {h₁ h' : Host HostPath} (hresolves : Resolves sys context name h resolved)
    (ho : OpensAt resolved.path (openModeOf resolved flags) fd h₁ h') {p : HostPath}
    (hp : p ≠ sys.localPathOf context name) : h'.names p = h₁.names p := by
  rcases ho with ⟨m, -, -, rfl⟩ | ⟨-, hcreate, rfl⟩
  · rfl
  · have hpath := (hresolves.own (own_of_openModeOf (.inr hcreate))).1
    simp [hpath, hp]

/-- An open creates no local file under a shared name: where none is seen, the original is
opened. -/
theorem names_of_opensAt_shared {name name' : String} {resolved : ResolvedFile}
    {flags : BitVec 32} {fd : ℕ} {h₁ h' : Host HostPath}
    (hresolves : Resolves sys context name h resolved) (hu : h.Unchanged h₁)
    (ho : OpensAt resolved.path (openModeOf resolved flags) fd h₁ h')
    (hshared : (context.sharedFiles.lookup name').isSome)
    (hnone : h.names (sys.localPathOf context name') = none) :
    h'.names (sys.localPathOf context name') = none := by
  by_cases hname : name' = name
  · subst hname
    rcases ho with ⟨m, -, -, rfl⟩ | ⟨-, hcreate, -⟩
    · exact (congrFun hu.names _).trans hnone
    · obtain ⟨-, hlocal | hnot⟩ := hresolves.own (own_of_openModeOf (.inr hcreate))
      · simp [hnone] at hlocal
      · simp [hnot] at hshared
  · have hne : sys.localPathOf context name' ≠ sys.localPathOf context name := fun heq =>
      hname (localPath_inj.mp heq).2
    exact (names_of_opensAt h hresolves ho hne).trans ((congrFun hu.names _).trans hnone)

/-- A switch touches the local name of the file alone. -/
theorem Prepared.names {s h} {file : OpenFile} {ok : Bool} {s' : FileState}
    {h' : Host HostPath} (hprepared : Prepared sys context file s h ok s' h')
    {p : HostPath} (hp : p ≠ sys.localPathOf context file.name) : h'.names p = h.names p := by
  cases hprepared with
  | own _ => rfl
  | noDirectory _ _ => rfl
  | discarded _ _ hd _ => rw [hd.names, Function.update_of_ne hp]
  | copied _ _ hc hm => rw [hm.names, hc.names, Function.update_of_ne hp]

/-- **Names.** A request of a VM leaves every name outside the VM's own directory as it
is. -/
theorem names_processFileRequest {p : HostPath}
    (hp : ∀ name, p ≠ sys.localPathOf context name) :
    (processFileRequest sys context memory request s h).host.names p = h.names p := by
  have heffect := processFileRequest_effect sys context memory request s h
  generalize processFileRequest sys context memory request s h = reply at heffect ⊢
  cases heffect with
  | nothing _ hu => exact congrFun hu.names p
  | opens _ _ hres hu _ ho =>
      exact (names_of_opensAt h hres ho (hp _)).trans (congrFun hu.names p)
  | closes _ _ => rfl
  | moves _ _ _ => rfl
  | prepares _ _ hprepared hu => exact (congrFun hu.names p).trans (hprepared.names (hp _))
  | writes _ _ hprepared _ _ _ => exact hprepared.names (hp _)

end KvmHypervisor
