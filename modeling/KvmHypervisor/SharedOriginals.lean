import KvmHypervisor.CommandLine
import KvmHypervisor.FaultlessRequests
import KvmHypervisor.SharedConfiguration

/-!
# Shared Originals

Whether requests can change the bytes of the files supplied with `--file`. A shared entry
only ever reads its original and a switch writes a new file, so an original is safe as long
as no guest can open it under a name of the VM's own directory. The configuration does not
check where an original lies, though: a writable one that also lies in a VM's directory is
resolved as the VM's own file and opened for writing.

## Main results

* `Intact.effect`: one request leaves an original alone that the VM has no name for.
* `originals_intact_iff`: over all runs, exactly the configurations whose writable originals
  lie outside the VMs' directories are safe.
* `originals_intact_false`: an original in the directory of the VM that writes to it.
-/

namespace KvmHypervisor

open PosixFiles Transitions

/-! ### One file under requests -/

section Intact

variable {sys : HostSystem} {context : GuestContext} {memory : GuestMemory}
variable {request : FileRequest} {s s' : FileState} {h₀ h h' : Host HostPath} {o : ℕ}

/-- The file `o` is as it was on the host `h₀`, has no new names, and no descriptor may write
to it. -/
structure Intact (h₀ : Host HostPath) (o : ℕ) (h : Host HostPath) : Prop where
  file : h.files o = h₀.files o
  old : o < h.nextIno
  names : ∀ p, h.names p = some o → h₀.names p = some o
  descriptors : ∀ fd e, h.descriptors.lookup fd = some e → e.writable = true → e.ino ≠ o

/-- Calls without effect. -/
theorem Intact.of_unchanged (hI : Intact h₀ o h) (hu : h.Unchanged h') : Intact h₀ o h' where
  file := by rw [hu.files, hI.file]
  old := by rw [hu.nextIno]; exact hI.old
  names p hp := hI.names p (by rwa [← hu.names])
  descriptors fd e he := hI.descriptors fd e (by rwa [← hu.descriptors])

/-- A new file under any name is another file. -/
theorem Intact.link (hI : Intact h₀ o h) (p : HostPath) (f : File) : Intact h₀ o (h.link p f) where
  file := by rw [Host.files_link, Function.update_of_ne hI.old.ne, hI.file]
  old := Nat.lt_succ_of_lt hI.old
  names q hq := by
    rw [Host.names_link] at hq
    by_cases hqp : q = p
    · rw [hqp, Function.update_self, Option.some.injEq] at hq
      exact absurd hq hI.old.ne'
    · rw [Function.update_of_ne hqp] at hq
      exact hI.names q hq
  descriptors := hI.descriptors

/-- A description moves. -/
theorem Intact.reposition (hI : Intact h₀ o h) {fd : ℕ} {d : Description}
    (hd : h.descriptors.lookup fd = some d) (offset : ℕ) :
    Intact h₀ o (h.reposition fd offset) where
  file := hI.file
  old := hI.old
  names := hI.names
  descriptors x e he hw := by
    rw [Host.lookup_reposition hd] at he
    split_ifs at he
    · obtain rfl := Option.some.inj he
      exact hI.descriptors fd d hd hw
    · exact hI.descriptors x e he hw

/-- Another file gets new contents. -/
theorem Intact.setFile (hI : Intact h₀ o h) {m : ℕ} (hm : m ≠ o) (f : File) :
    Intact h₀ o (h.setFile m f) where
  file := by rw [Host.files_setFile, Function.update_of_ne hm.symm, hI.file]
  old := hI.old
  names := hI.names
  descriptors := hI.descriptors

/-- Descriptors go away. -/
theorem Intact.of_closed (hI : Intact h₀ o h) (hnames : h'.names = h.names)
    (hfiles : h'.files = h.files) (hnext : h'.nextIno = h.nextIno)
    (hd : ∀ fd e, h'.descriptors.lookup fd = some e → h.descriptors.lookup fd = some e) :
    Intact h₀ o h' where
  file := by rw [hfiles, hI.file]
  old := by rw [hnext]; exact hI.old
  names p hp := hI.names p (by rwa [← hnames])
  descriptors fd e he := hI.descriptors fd e (hd fd e he)

/-- An open that a guest can ask for does not open the file for writing, if the VM has no name
for it or it may not be written. -/
theorem Intact.open (hI : Intact h₀ o h) {name : String} (hname : GuestName name)
    (hlocal : ∀ name, GuestName name → h₀.names (sys.localPathOf context name) = some o →
      (h₀.files o).writable = false) {resolved : ResolvedFile} {fd : ℕ} {h₁ : Host HostPath}
    (hu : h.Unchanged h₁) (hres : Resolves sys context name h resolved)
    (ho : OpensAt resolved.path (openModeOf resolved request.flags) fd h₁ h') :
    Intact h₀ o h' := by
  have hI₁ := hI.of_unchanged hu
  rcases ho with ⟨m, hm, hpermits, rfl⟩ | ⟨-, -, rfl⟩
  · refine ⟨hI₁.file, hI₁.old, hI₁.names, fun x e he hw => ?_⟩
    rw [Host.lookup_grant (h := h₁.tick) hm] at he
    split_ifs at he
    · obtain rfl := Option.some.inj he
      dsimp only at hw ⊢
      rintro rfl
      rw [(hres.own (own_of_openModeOf (.inl hw))).1] at hm
      have hprotected := hlocal name hname (hI₁.names _ hm)
      rw [← hI₁.file] at hprotected
      simp [File.permits, hw, hprotected] at hpermits
    · exact hI₁.descriptors x e he hw
  · have hI₂ : Intact h₀ o (h₁.tick.link resolved.path (.made [])) :=
      Intact.link (hI₁.of_unchanged (.tick h₁)) _ _
    have hm : (h₁.tick.link resolved.path (.made [])).names resolved.path =
        some h₁.nextIno := by simp
    refine ⟨hI₂.file, hI₂.old, hI₂.names, fun x e he hw => ?_⟩
    rw [Host.lookup_grant hm] at he
    split_ifs at he
    · obtain rfl := Option.some.inj he
      exact hI₁.old.ne'
    · exact hI₂.descriptors x e he hw

/-- A switch writes a file of its own. -/
theorem Intact.prepare (hI : Intact h₀ o h) {file : OpenFile} {ok : Bool}
    (hp : Prepared sys context file s h ok s' h') : Intact h₀ o h' := by
  cases hp with
  | own _ => exact hI
  | noDirectory _ _ => exact hI.of_unchanged (.tick h)
  | discarded _ _ hd _ =>
      refine ⟨(hd.files o hI.old).trans hI.file, lt_of_lt_of_le hI.old hd.nextIno, ?_, ?_⟩
      · intro p hp
        rw [hd.names, Function.update_apply] at hp
        split_ifs at hp
        exact hI.names p hp
      · intro fd e he
        exact hI.descriptors fd e (by rwa [← hd.descriptors])
  | copied _ _ hc hm =>
      refine ⟨?_, ?_, ?_, ?_⟩
      · rw [hm.files, hc.files, Function.update_of_ne hI.old.ne, hI.file]
      · rw [hm.nextIno, hc.nextIno]
        exact Nat.lt_succ_of_lt hI.old
      · intro p hp
        rw [hm.names, hc.names, Function.update_apply] at hp
        split_ifs at hp
        · exact absurd (Option.some.inj hp) hI.old.ne'
        · exact hI.names p hp
      · intro fd e he hw
        rcases hm.origin fd e he with he | ⟨hino, -⟩
        · exact hI.descriptors fd e (by rwa [← hc.descriptors]) hw
        · rw [hino]
          exact hI.old.ne'

/-- **One request** of a VM, whatever host calls fail: a file is left alone, if the VM has no
name for it or it may not be written. -/
theorem Intact.effect (hI : Intact h₀ o h)
    (hlocal : ∀ name, GuestName name → h₀.names (sys.localPathOf context name) = some o →
      (h₀.files o).writable = false) {reply : Reply}
    (heffect : Effect sys context memory request s h reply) : Intact h₀ o reply.host := by
  cases heffect with
  | nothing _ hu => exact hI.of_unchanged hu
  | opens _ hname hres hu _ ho =>
      exact hI.open (readGuestFileName_guestName hname) hlocal hu hres ho
  | closes _ _ =>
      refine hI.of_closed rfl rfl rfl fun fd e he => ?_
      rw [Host.lookup_release] at he
      split_ifs at he
      exact he
  | moves _ _ hd => exact (hI.of_unchanged (.tick h)).reposition hd _
  | prepares _ _ hp hu => exact (hI.prepare hp).of_unchanged hu
  | @writes _ _ _ h' d _ _ _ hp _ hd hw =>
      have hI' := (hI.prepare hp).of_unchanged (.tick h')
      exact (hI'.setFile (hI'.descriptors _ d hd hw) _).reposition hd _

end Intact

/-! ### All runs of a configuration -/

section Runs

variable {n : ℕ} (sys : HostSystem) (sharedFiles : List (String × HostPath))

/-- No writable original is also a file of a VM's directory that a guest can ask for. -/
def OriginalsApart (n : ℕ) (h : Host HostPath) : Prop :=
  ∀ x ∈ sharedFiles, ∀ o, h.names x.2 = some o → (h.files o).writable = true →
    ∀ (vm : Fin n) name, GuestName name → h.names (sys.localPathAt vm name) ≠ some o

/-- The originals have the bytes they had on the host `h`, and no descriptor may write to
them. -/
def OriginalsIntact (h : Host HostPath) (w : FileWorld n) : Prop :=
  ∀ x ∈ sharedFiles, ∀ o, h.names x.2 = some o →
    (w.host.files o).bytes = (h.files o).bytes ∧
      ∀ fd e, w.host.descriptors.lookup fd = some e → e.writable = true → e.ino ≠ o

/-- A request comes from a guest with `size` bytes of memory. -/
def FitsMemory (size : ℕ) : FileInput n → Prop
  | .request call => call.memory.size = size
  | .finish _ => True

instance (size : ℕ) : DecidablePred (FitsMemory size : FileInput n → Prop)
  | .request call => inferInstanceAs (Decidable (call.memory.size = size))
  | .finish _ => isTrue trivial

variable {sys sharedFiles}

/-- A file stays intact in every run, if no VM has a name for it or it may not be written. -/
theorem intact_of_run {h : Host HostPath} {o : ℕ} (hold : o < h.nextIno)
    (hlocal : ∀ (vm : Fin n) name, GuestName name → h.names (sys.localPathAt vm name) = some o →
      (h.files o).writable = false)
    {ok : FileWorld n → FileInput n → Prop} {tr : List (FileInput n × Option Answer)}
    {w : FileWorld n}
    (hrun : ((fileLayer sys sharedFiles).machine (FileWorld.start h)).Run ok tr w) :
    Intact h o w.host := by
  refine Transducer.invariant (I := fun w => Intact h o w.host)
    ⟨rfl, hold, fun _ hp => hp, fun fd e he => by cases he⟩ (fun w input hI _ => ?_) hrun
  cases input with
  | request call =>
      have heffect := processFileRequest_effect sys (contextOf sharedFiles call.vm) call.memory
        call.request (w.states call.vm) w.host
      have hlocal' : ∀ name, GuestName name →
          h.names (sys.localPathOf (contextOf sharedFiles call.vm) name) = some o →
          (h.files o).writable = false := hlocal call.vm
      rw [fileLayer_request]
      exact Intact.effect hI hlocal' heffect
  | finish vm =>
      obtain ⟨hnames, hfiles, hnext⟩ := closeGuestFiles_frame sys (w.states vm) w.host
      rw [fileLayer_finish]
      refine hI.of_closed hnames hfiles hnext fun fd e he => ?_
      rw [FileWorld.update, closeGuestFiles_eq, lookup_closeReopenedFiles] at he
      split_ifs at he
      exact he

/-- In memory in which a name is spelled some byte differs from a given one. -/
theorem exists_other_byte {name : String} (hname : GuestName name) (size : ℕ)
    (first : Option UInt8) :
    ∃ address ≤ fileNameMax, first ≠ some ((spelled size name []).bytes address) := by
  by_cases hfirst : first = some 0
  · have hpos : 0 < (nameBytes name).length := by
      rw [length_nameBytes]
      by_contra hempty
      have hnil : name = "" := String.length_eq_zero_iff.mp (by omega)
      rw [hnil] at hname
      exact absurd hname.1 (by decide)
    refine ⟨0, Nat.zero_le _, ?_⟩
    rw [hfirst, bytes_spelled hpos, ne_eq, Option.some.injEq]
    exact (ne_zero_of_mem_nameBytes hname.1 (List.getElem_mem hpos)).symm
  · refine ⟨name.length, hname.2, ?_⟩
    rw [bytes_spelled_length]
    exact hfirst

/-- Writing one other byte at the start changes the bytes. -/
theorem overwrite_ne {bytes : List UInt8} {byte : UInt8} (hne : bytes.head? ≠ some byte) :
    overwrite bytes 0 [byte] ≠ bytes := by
  intro heq
  rw [← heq] at hne
  simp [overwrite] at hne

/-- A write request for the byte at an address. -/
def writeByteFrom (descriptor : ℤ) (address : ℕ) : FileRequest :=
  { writeRequest descriptor 1 with buffer := address }

/-- Writing one byte through a private entry. -/
theorem files_writeByteFrom (hκ : sys.kernel.Faultless) (context : GuestContext)
    (memory : GuestMemory) {s : FileState} {h : Host HostPath} {d : ℤ} {file : OpenFile}
    {e : Description} (hfile : s.openFiles.lookup d = some file)
    (haccess : hasWriteAccess file.flags = true) (hown : file.shared = false)
    (he : h.descriptors.lookup file.hostDescriptor = some e) (hw : e.writable = true)
    {address : ℕ} (haddress : address < memory.size) :
    ((processFileRequest sys context memory (writeByteFrom d address) s h).host.files e.ino).bytes =
      overwrite (h.files e.ino).bytes e.offset [memory.bytes address] := by
  have hwrites : Writes (writeByteFrom d address) s file := ⟨hfile, haccess, Int.zero_le_ofNat 1⟩
  have hbuffer : getGuestMemory memory address 1 = some address := by
    rw [getGuestMemory, if_neg]
    omega
  have hone : 0 < (writeByteFrom d address).count := Int.one_pos
  have hwrite := writePrepared_of_faultless (s := s) hκ he hw hone hbuffer
  have hprocess : processFileRequest sys context memory (writeByteFrom d address) s h =
      writeFile sys context memory (writeByteFrom d address) s h := rfl
  rw [hprocess, writeFile_own hwrites hown, hwrite]
  simp only [Host.files_reposition, Host.files_setFile, Function.update_self]
  rfl

/-- A writable file in the VM's directory can be changed: the VM opens it under its name and
writes one byte. -/
theorem modified_of_local (sharedFiles : List (String × HostPath)) (hκ : sys.kernel.Faultless)
    {h : Host HostPath} {vm : Fin n}
    {name : String} (hname : GuestName name) {o : ℕ}
    (hlocal : h.names (sys.localPathAt vm name) = some o) (hw : (h.files o).writable = true)
    {size : ℕ} (hsize : fileNameMax < size) :
    ∃ tr, ∃ w : FileWorld n, ((fileLayer sys sharedFiles).machine (FileWorld.start h)).Run
        (fun _ input => FitsMemory size input) tr w ∧
      (w.host.files o).bytes ≠ (h.files o).bytes := by
  obtain ⟨address, haddress, hbyte⟩ := exists_other_byte hname size (h.files o).bytes.head?
  let memory := spelled size name []
  have hcontext : (FileWorld.start h : FileWorld n).host.names
      (sys.localPathOf (contextOf sharedFiles vm) name) = some o := hlocal
  have hpermits : ((FileWorld.start h : FileWorld n).host.files o).permits
      (toHostOpenFlags fileOpenWrite) = true := by
    change (h.files o).permits (toHostOpenFlags fileOpenWrite) = true
    rw [File.permits, hw]
    rfl
  have hflags : areValidOpenFlags (openRequest fileOpenWrite).flags = true := by decide
  have haccess : hasWriteAccess (openRequest fileOpenWrite).flags = true := by decide
  -- the open gets an entry on the file itself
  obtain ⟨fd, h', hopens, hfd, hfiles⟩ := openFile_own (contextOf sharedFiles vm)
    FileState.initial hκ hflags (readGuestFileName_spelled hname hsize []) hcontext hpermits
  generalize hfile : (⟨fd, (openRequest fileOpenWrite).flags, name,
    sys.localPathOf (contextOf sharedFiles vm) name, false⟩ : OpenFile) = file at hopens
  have hreply : replyTo sys sharedFiles (FileWorld.start h)
      ⟨vm, memory, openRequest fileOpenWrite⟩ =
        ⟨3, memory, FileState.initial.emplace file, h'⟩ := hopens
  have hentry : (FileState.initial.emplace file).openFiles.lookup 3 = some file := by
    rw [FileState.lookup_emplace]
    exact if_pos ⟨rfl, Finmap.notMem_empty⟩
  -- the write replaces its first byte
  have hwritten : ∀ s, s = FileState.initial.emplace file →
      ((processFileRequest sys (contextOf sharedFiles vm) memory (writeByteFrom 3 address) s
        h').host.files o).bytes = overwrite (h.files o).bytes 0 [memory.bytes address] := by
    rintro s rfl
    have hwrite := files_writeByteFrom hκ (contextOf sharedFiles vm) memory hentry
      (by rw [← hfile]; exact haccess) (by rw [← hfile]) (by rw [← hfile]; exact hfd) rfl
      (lt_of_le_of_lt haddress hsize)
    rw [hfiles] at hwrite
    exact hwrite
  let opens : FileInput n := .request ⟨vm, memory, openRequest fileOpenWrite⟩
  let writes : FileInput n := .request ⟨vm, memory, writeByteFrom 3 address⟩
  have hfits : ∀ request, FitsMemory size (.request ⟨vm, memory, request⟩ : FileInput n) :=
    fun _ => rfl
  have hrun₁ : ((fileLayer sys sharedFiles).machine (FileWorld.start h)).Run
      (fun _ input => FitsMemory size input) _
      ((fileLayer sys sharedFiles).step (FileWorld.start h) opens).2 :=
    Transducer.exists_run .refl (hfits _)
  have hrun := Transducer.exists_run (a := writes) hrun₁ (hfits _)
  refine ⟨_, _, hrun, ?_⟩
  have hopened : ((fileLayer sys sharedFiles).step (FileWorld.start h) opens).2 =
      (FileWorld.start h : FileWorld n).update vm (FileState.initial.emplace file) h' := by
    rw [fileLayer_request, hreply]
  rw [hopened, fileLayer_request, replyTo]
  simp only [FileWorld.update, Function.update_self]
  rw [hwritten _ rfl]
  exact overwrite_ne hbyte

end Runs

/-! ### Main results -/

/-- **Shared originals.** For every configuration that `parseArguments` and
`configureSharedFiles` accept, whatever host calls fail: if no writable original is also a
file of a VM's directory, then in every run of requests and clean-ups of the VMs all
originals keep their bytes, no descriptor may write to one, and canonical paths outside the VMs'
directories keep naming them. If no host call fails without cause, this is exactly when they are
safe, and all their canonical paths keep naming them. -/
theorem originals_intact_iff (program : String) (args : List String) (config : Config)
    (haccepted : (parseArguments program args).status = .ok)
    (hconfig : (parseArguments program args).config = config)
    (canonical : String → Option HostPath) (h : Host HostPath)
    (sharedFiles : List (String × HostPath))
    (hshared : configureSharedFiles canonical h [] config.sharedFiles = .ok sharedFiles)
    (sys : HostSystem) :
    (OriginalsApart sys sharedFiles config.guestImages.length h →
        ∀ tr, ∀ w : FileWorld config.guestImages.length,
          ((fileLayer sys sharedFiles).machine (FileWorld.start h)).Run
            (fun _ input => FitsMemory config.memorySize input) tr w →
          OriginalsIntact sharedFiles h w ∧ ∀ x ∈ sharedFiles,
            (∀ (vm : Fin config.guestImages.length) name, x.2 ≠ sys.localPathAt vm name) →
            w.host.names x.2 = h.names x.2) ∧
      (sys.kernel.Faultless →
        ((∀ tr, ∀ w : FileWorld config.guestImages.length,
            ((fileLayer sys sharedFiles).machine (FileWorld.start h)).Run
              (fun _ input => FitsMemory config.memorySize input) tr w →
            OriginalsIntact sharedFiles h w ∧
              ∀ x ∈ sharedFiles, w.host.names x.2 = h.names x.2) ↔
          OriginalsApart sys sharedFiles config.guestImages.length h)) := by
  have hsafe : OriginalsApart sys sharedFiles config.guestImages.length h →
      ∀ tr, ∀ w : FileWorld config.guestImages.length,
        ((fileLayer sys sharedFiles).machine (FileWorld.start h)).Run
          (fun _ input => FitsMemory config.memorySize input) tr w →
        OriginalsIntact sharedFiles h w := by
    intro hapart tr w hrun x hx o ho
    have hI : Intact h o w.host := by
      refine intact_of_run (h.named_lt _ o ho) (fun vm name hname hlocal => ?_) hrun
      by_contra hwritable
      rw [Bool.not_eq_false] at hwritable
      exact hapart x hx o ho hwritable vm name hname hlocal
    exact ⟨congrArg File.bytes hI.file, hI.descriptors⟩
  have hnamed : ∀ x ∈ sharedFiles, ∃ o, h.names x.2 = some o := fun x hx =>
    Option.isSome_iff_exists.mp ((configured_of_ok .nil hshared).named x hx)
  refine ⟨fun hapart tr w hrun => ⟨hsafe hapart tr w hrun, fun x hx houtside => ?_⟩,
    fun hκ => ⟨fun hintact => ?_, fun hapart tr w hrun => ?_⟩⟩
  · obtain ⟨o, ho⟩ := hnamed x hx
    rw [ho, names_original_of_run ho (.inr houtside) hrun]
  · intro x hx o ho hwritable vm name hname hlocal
    have hsize : fileNameMax < config.memorySize := by
      have hsizes := (parseArguments_sizes haccepted).1
      rw [hconfig] at hsizes
      rcases hsizes with hsize | hsize | hsize <;> rw [hsize] <;> decide
    obtain ⟨tr, w, hrun, hchanged⟩ :=
      modified_of_local sharedFiles hκ hname hlocal hwritable hsize
    exact hchanged ((hintact tr w hrun).1 x hx o ho).1
  · refine ⟨hsafe hapart tr w hrun, fun x hx => ?_⟩
    obtain ⟨o, ho⟩ := hnamed x hx
    rw [ho, names_original_of_run ho (.inl hκ) hrun]

/-- The command line of one guest and the shared file at a path. -/
def argumentsFor (path : String) : List String :=
  ["-m", "2", "-p", "4", "-g", "guest.img", "-f", path]

/-- The result applies to an original outside the VMs' directories to which the guest wrote:
the byte went to the private copy. -/
theorem originals_intact_iff_outside :
    ∃ tr, ∃ w : FileWorld 1,
      ((fileLayer (plainSystem fun _ => .completes) [("a", ["srv", "a"])]).machine
        (FileWorld.start sharedA)).Run (fun _ input => FitsMemory (2 * miB) input) tr w ∧
      (w.host.files 1).bytes = [97] ∧ OriginalsIntact [("a", ["srv", "a"])] sharedA w := by
  have haccepted : (parseArguments "kvm" (argumentsFor "/srv/a")).status = .ok := by
    decide +kernel
  have hconfig : (parseArguments "kvm" (argumentsFor "/srv/a")).config =
      ⟨2 * miB, pageSize4K, ["guest.img"], ["/srv/a"]⟩ := by
    decide +kernel
  obtain ⟨hsafe, -⟩ := originals_intact_iff _ _ _ haccepted hconfig (fun _ => some ["srv", "a"])
    sharedA [("a", ["srv", "a"])] (configureSharedFiles_a rfl) (plainSystem fun _ => .completes)
  have hapart : OriginalsApart (plainSystem fun _ => .completes) [("a", ["srv", "a"])] 1
      sharedA := by
    rintro x - o - - vm name -
    simp [sharedA, oneFileHost, HostSystem.localPathAt, localPath, plainSystem]
  have hexec : (((fileLayer (plainSystem fun _ => .completes) [("a", ["srv", "a"])]).machine
      (FileWorld.start sharedA)).exec (fun _ input => FitsMemory (2 * miB) input)
      (FileWorld.start sharedA) [.request ⟨(0 : Fin 1), memoryA, openRequest fileOpenReadWrite⟩,
        .request ⟨0, memoryA, writeRequest 3 1⟩]).map
      (fun p => (p.2.host.files 1).bytes) = some [97] := by
    decide +kernel
  obtain ⟨tr, w, hrun, hobs⟩ := Machine.exists_of_exec hexec
  exact ⟨tr, w, hrun, hobs, (hsafe hapart tr w hrun).1⟩

/-- A host whose only file lies in the directory of VM 0. -/
def localA : Host HostPath :=
  oneFileHost ["root", "vm_files", "vm_0", "a"] (.made [65])

/-- **An original in the VM's own directory is modified.** The configuration accepts it, the
VM opens `a` for reading and writing as a file of its own and writes one byte. -/
theorem originals_intact_false :
    ¬ ∀ (program : String) (args : List String) (config : Config),
      (parseArguments program args).status = .ok →
      (parseArguments program args).config = config →
      ∀ (canonical : String → Option HostPath) (h : Host HostPath)
        (sharedFiles : List (String × HostPath)),
        configureSharedFiles canonical h [] config.sharedFiles = .ok sharedFiles →
        ∀ (sys : HostSystem) tr, ∀ w : FileWorld config.guestImages.length,
          ((fileLayer sys sharedFiles).machine (FileWorld.start h)).Run
            (fun _ input => FitsMemory config.memorySize input) tr w →
          OriginalsIntact sharedFiles h w := by
  intro hall
  have haccepted : (parseArguments "kvm" (argumentsFor "vm_files/vm_0/a")).status = .ok := by
    decide +kernel
  have hconfig : (parseArguments "kvm" (argumentsFor "vm_files/vm_0/a")).config =
      ⟨2 * miB, pageSize4K, ["guest.img"], ["vm_files/vm_0/a"]⟩ := by
    decide +kernel
  have hshared : configureSharedFiles (fun _ => some ["root", "vm_files", "vm_0", "a"]) localA []
      ["vm_files/vm_0/a"] = .ok [("a", ["root", "vm_files", "vm_0", "a"])] :=
    configureSharedFiles_single (by decide) (by decide) rfl
  have hexec : (((fileLayer (plainSystem fun _ => .completes)
      [("a", ["root", "vm_files", "vm_0", "a"])]).machine (FileWorld.start localA)).exec
      (fun _ input => FitsMemory (2 * miB) input) (FileWorld.start localA)
      [.request ⟨(0 : Fin 1), memoryA, openRequest fileOpenReadWrite⟩,
        .request ⟨0, memoryA, writeRequest 3 1⟩]).map
      (fun p => (p.2.host.files 0).bytes) = some [97] := by
    decide +kernel
  obtain ⟨tr, w, hrun, hobs⟩ := Machine.exists_of_exec hexec
  obtain ⟨hbytes, -⟩ := hall _ _ _ haccepted hconfig _ localA _ hshared
    (plainSystem fun _ => .completes) tr w hrun _ List.mem_cons_self 0 rfl
  rw [hobs] at hbytes
  exact absurd hbytes (by decide)

end KvmHypervisor
