import KvmHypervisor.Descriptors
import KvmHypervisor.FaultlessRequests

/-!
# Descriptor Numbers in Long Runs

A guest may open and close files without bound, and every file it opens gets its number from a
counter that only grows. The requests of one VM are served one after the other; what other VMs
and the host do in between is left open, so that every request finds a guest memory and a host
of its own.

The counter is an `int`. It issues `openLimit` numbers before it wraps around, and these are
fresh: non-negative, in no use, and never issued again. The number after them is negative.

## Main results

* `Numbered.step`: what one request does to the counter and the numbers in use.
* `descriptorsFresh_iff`: descriptors stay valid and fresh in exactly the runs that open at most
  `openLimit` files on the host.
-/

open Transitions

namespace KvmHypervisor

open PosixFiles

/-- A file request of a VM, with the guest memory and the host it finds. -/
structure PlacedRequest where
  memory : GuestMemory
  request : FileRequest
  host : Host HostPath

/-- A file request that was served: the state it found, and the reply. -/
structure ServedCall where
  call : PlacedRequest
  before : FileState
  reply : Reply

variable (sys : HostSystem) (context : GuestContext)

/-- The file requests of one VM. -/
def fileCalls : Machine FileState PlacedRequest ServedCall where
  init := .initial
  step s call :=
    let reply := processFileRequest sys context call.memory call.request s call.host
    some (⟨call, s, reply⟩, reply.state)

/-! ### The host side of an open -/

/-- The host once the directory of a file has been made where `openFile` makes it, unless that
fails. -/
def withDirectory (resolved : ResolvedFile) (flags : BitVec 32) (h : Host HostPath) :
    Option (Host HostPath) :=
  if !resolved.shared && flags &&& fileOpenCreate != 0 then
    match h.createDirectories sys.kernel with
    | (false, _) => none
    | (true, h) => some h
  else some h

/-- The file that `openFile` opens on the host, if it gets that far: nothing of it depends on
the descriptors of the VM. -/
def openOnHost (call : PlacedRequest) : Option OpenFile :=
  if FileOperation.ofCode call.request.operation = some .openFile ∧
      areValidOpenFlags call.request.flags = true then
    (readGuestFileName call.memory call.request.buffer).bind fun name =>
      let (resolved, h) := resolveFile sys context name call.host
      (withDirectory sys resolved call.request.flags h).bind fun h =>
        (h.openAt sys.kernel resolved.path (openModeOf resolved call.request.flags)).1.map
          fun hostDescriptor =>
            ⟨hostDescriptor, call.request.flags, name, resolved.path, resolved.shared⟩
  else none

variable {sys context} {s t : FileState} {e : ServedCall} {tr : List ServedCall}
variable {call : PlacedRequest}

/-- The host `open` at the end, as an entry that is added or not. -/
theorem openResolved_eq (memory : GuestMemory) (request : FileRequest) (name : String)
    (resolved : ResolvedFile) (s : FileState) (h : Host HostPath) :
    (openResolved sys memory request name resolved s h).state =
      (((h.openAt sys.kernel resolved.path (openModeOf resolved request.flags)).1.map
        fun hostDescriptor => OpenFile.mk hostDescriptor request.flags name resolved.path
          resolved.shared).map s.emplace).getD s := by
  rw [openResolved, ← openModeOf]
  rcases h.openAt sys.kernel resolved.path (openModeOf resolved request.flags) with
    ⟨_ | hostDescriptor, h'⟩
  · rfl
  · rfl

variable (sys context) in
/-- **The table after an open**: it gains the file that was opened on the host. -/
theorem state_openFile (hop : FileOperation.ofCode call.request.operation = some .openFile)
    (s : FileState) :
    (processFileRequest sys context call.memory call.request s call.host).state =
      ((openOnHost sys context call).map s.emplace).getD s := by
  rw [processFileRequest, hop, openOnHost]
  dsimp only
  rw [openFile]
  cases hflags : areValidOpenFlags call.request.flags with
  | false => simp [Reply.failed]
  | true =>
      simp only [hop, Bool.not_true, Bool.false_eq_true, if_false, and_self, if_true]
      cases readGuestFileName call.memory call.request.buffer with
      | none => rfl
      | some name =>
          dsimp only [Option.bind_some]
          generalize resolveFile sys context name call.host = resolution
          obtain ⟨resolved, h⟩ := resolution
          dsimp only
          rw [openInDirectory, withDirectory]
          split_ifs
          · generalize h.createDirectories sys.kernel = made
            obtain ⟨_ | _, h'⟩ := made
            · rfl
            · exact openResolved_eq _ _ _ _ _ _
          · exact openResolved_eq _ _ _ _ _ _

variable (sys context) in
/-- A request either opens a file on the host, and adds an entry under the next descriptor, which
it returns; or it adds no entry and keeps the counter. -/
theorem processFileRequest_cases (s : FileState) (call : PlacedRequest) :
    (∃ file, openOnHost sys context call = some file ∧
        (processFileRequest sys context call.memory call.request s call.host).result =
          s.nextDescriptor ∧
        (processFileRequest sys context call.memory call.request s call.host).state =
          s.emplace file) ∨
      (openOnHost sys context call = none ∧
        (processFileRequest sys context call.memory call.request s call.host).state.nextDescriptor =
          s.nextDescriptor ∧
        ∀ d ∈ (processFileRequest sys context call.memory call.request s call.host).state.openFiles,
          d ∈ s.openFiles) := by
  rcases processFileRequest_descriptors sys context call.memory call.request s call.host with
    ⟨hop, hresult, file, hstate⟩ | ⟨hnext, hkeys, -⟩
  · have heq := state_openFile sys context hop s
    cases hopen : openOnHost sys context call with
    | none =>
        rw [hopen, hstate] at heq
        exact absurd (congrArg FileState.nextDescriptor heq) s.increment_ne
    | some file' =>
        rw [hopen] at heq
        exact .inl ⟨file', rfl, hresult, heq⟩
  · refine .inr ⟨?_, hnext, hkeys⟩
    by_contra hopen
    obtain ⟨file, hopen⟩ := Option.ne_none_iff_exists'.mp hopen
    by_cases hop : FileOperation.ofCode call.request.operation = some .openFile
    · rw [state_openFile sys context hop, hopen] at hnext
      exact s.increment_ne hnext
    · rw [openOnHost, if_neg (fun h => hop h.1)] at hopen
      cases hopen

/-- Whatever else is asked of a descriptor that is not in use is refused. -/
theorem processFileRequest_of_notMem {op : FileOperation} {s : FileState}
    (hop : FileOperation.ofCode call.request.operation = some op) (hne : op ≠ .openFile)
    (hd : call.request.descriptor ∉ s.openFiles) :
    processFileRequest sys context call.memory call.request s call.host =
      .failed call.memory s call.host := by
  have hnone := Finmap.lookup_eq_none.mpr hd
  rw [processFileRequest, hop]
  cases op with
  | openFile => exact absurd rfl hne
  | close => simp only [closeFile, hnone]
  | read => simp only [readFile, hnone]
  | write => simp only [writeFile, hnone]
  | lseek => simp only [seekFile, hnone]

/-! ### Fresh descriptors -/

variable (sys context) in
/-- The request opened a file on the host. -/
def ServedCall.Opens (e : ServedCall) (file : OpenFile) : Prop :=
  openOnHost sys context e.call = some file

/-- The descriptor of an open is a valid number that was in no use, and the table gains its entry
and nothing else. -/
structure ServedCall.IsFresh (e : ServedCall) (file : OpenFile) : Prop where
  nonneg : 0 ≤ e.reply.result
  notMem : e.reply.result ∉ e.before.openFiles
  table : e.reply.state.openFiles = e.before.openFiles.insert e.reply.result file

/-- The request closed a descriptor that was in use. -/
def ServedCall.Closes (e : ServedCall) : Prop :=
  FileOperation.ofCode e.call.request.operation = some .close ∧
    e.call.request.descriptor ∈ e.before.openFiles

/-- The request was a close, read, write or seek on the descriptor. -/
def ServedCall.Uses (e : ServedCall) (d : ℤ) : Prop :=
  (∃ op ∈ [FileOperation.close, .read, .write, .lseek],
      FileOperation.ofCode e.call.request.operation = some op) ∧
    e.call.request.descriptor = d

/-- The request was refused and changed nothing. -/
def ServedCall.Rejected (e : ServedCall) : Prop :=
  e.reply = .failed e.call.memory e.before e.call.host

variable (sys context) in
/-- Descriptors stay valid and fresh: every file that is opened on the host gets a fresh
descriptor, and a descriptor that was closed is refused from then on. The trace has the newest
request first. -/
structure DescriptorsFresh (tr : List ServedCall) : Prop where
  opened : ∀ e ∈ tr, ∀ file, e.Opens sys context file → e.IsFresh file
  closed : tr.Pairwise fun later earlier =>
    earlier.Closes → later.Uses earlier.call.request.descriptor → later.Rejected

variable (sys context) in
/-- How many files were opened on the host. -/
def hostOpens (tr : List ServedCall) : ℕ :=
  tr.countP fun e => (openOnHost sys context e.call).isSome

/-- One request more. -/
theorem descriptorsFresh_cons :
    DescriptorsFresh sys context (e :: tr) ↔ DescriptorsFresh sys context tr ∧
      (∀ file, e.Opens sys context file → e.IsFresh file) ∧
      ∀ earlier ∈ tr, earlier.Closes → e.Uses earlier.call.request.descriptor → e.Rejected := by
  constructor
  · intro h
    obtain ⟨hhead, htail⟩ := List.forall_mem_cons.mp h.opened
    obtain ⟨hclosed, hpairs⟩ := List.pairwise_cons.mp h.closed
    exact ⟨⟨htail, hpairs⟩, hhead, hclosed⟩
  · rintro ⟨h, hhead, hclosed⟩
    exact ⟨List.forall_mem_cons.mpr ⟨hhead, h.opened⟩, List.pairwise_cons.mpr ⟨hclosed, h.closed⟩⟩

/-! ### The counter -/

variable (sys context) in
/-- The counter after a trace counts the files that were opened; until it wraps around, all
numbers in use and all numbers that were closed are below it, and none of the closed ones is in
use. -/
structure Numbered (tr : List ServedCall) (s : FileState) : Prop where
  counter : s.nextDescriptor = (3 + hostOpens sys context tr : ℤ).bmod (2 ^ 32)
  inUse : hostOpens sys context tr ≤ openLimit →
    ∀ d ∈ s.openFiles, d < 3 + hostOpens sys context tr
  closed : hostOpens sys context tr ≤ openLimit → ∀ e ∈ tr, e.Closes →
    e.call.request.descriptor < 3 + hostOpens sys context tr ∧
      e.call.request.descriptor ∉ s.openFiles

/-- Until it wraps around, the counter is the next number. -/
theorem Numbered.counter_of_lt (hn : Numbered sys context tr s)
    (hlt : hostOpens sys context tr < openLimit) :
    s.nextDescriptor = 3 + hostOpens sys context tr := by
  rw [openLimit] at hlt
  rw [hn.counter]
  exact Int.bmod_eq_of_le (by omega) (by omega)

/-- The number after the last one is negative. -/
theorem Numbered.counter_of_eq (hn : Numbered sys context tr s)
    (heq : hostOpens sys context tr = openLimit) : s.nextDescriptor = -2 ^ 31 := by
  rw [hn.counter, heq]
  decide

theorem Numbered.initial : Numbered sys context [] .initial where
  counter := by
    rw [hostOpens, List.countP_nil]
    decide
  inUse _ d hd := absurd hd Finmap.notMem_empty
  closed _ e he := by cases he

/-- The numbers in use after an entry was added. -/
theorem mem_emplace {file : OpenFile} {d : ℤ} :
    d ∈ (s.emplace file).openFiles ↔ d = s.nextDescriptor ∨ d ∈ s.openFiles := by
  rw [FileState.emplace]
  dsimp only
  split_ifs with hmem
  · refine ⟨.inr, ?_⟩
    rintro (rfl | hd)
    · exact hmem
    · exact hd
  · rw [Finmap.mem_insert]

/-- A descriptor that is closed is no longer in use. -/
theorem notMem_of_closes (hop : FileOperation.ofCode call.request.operation = some .close)
    (s : FileState) :
    call.request.descriptor ∉
      (processFileRequest sys context call.memory call.request s call.host).state.openFiles := by
  rw [processFileRequest, hop]
  dsimp only
  rcases closeFile_cases call.memory s call.host call.request.descriptor with
    ⟨hnone, hr⟩ | ⟨file, -, hr⟩
  · rw [hr]
    exact Finmap.lookup_eq_none.mp hnone
  · rw [hr]
    exact Finmap.notMem_erase_self

variable (tr) in
/-- One file more. -/
theorem hostOpens_of_opens {file : OpenFile} (h : e.Opens sys context file) :
    hostOpens sys context (e :: tr) = hostOpens sys context tr + 1 :=
  List.countP_cons_of_pos (by rw [h]; rfl)

variable (tr) in
/-- No file more. -/
theorem hostOpens_of_none (h : openOnHost sys context e.call = none) :
    hostOpens sys context (e :: tr) = hostOpens sys context tr :=
  List.countP_cons_of_neg (by rw [h]; decide)

/-- A request is served from the state it finds. -/
theorem fileCalls_step (hstep : (fileCalls sys context).step s call = some (e, t)) :
    e = ⟨call, s, processFileRequest sys context call.memory call.request s call.host⟩ ∧
      t = e.reply.state := by
  obtain ⟨rfl, rfl⟩ := Prod.mk.inj (Option.some.inj hstep)
  exact ⟨rfl, rfl⟩

/-- **One request** keeps the count. -/
theorem Numbered.step (hn : Numbered sys context tr s)
    (hstep : (fileCalls sys context).step s call = some (e, t)) :
    Numbered sys context (e :: tr) t := by
  obtain ⟨rfl, rfl⟩ := fileCalls_step hstep
  dsimp only
  rcases processFileRequest_cases sys context s call with
    ⟨file, hopen, hresult, hstate⟩ | ⟨hnone, hnext, hkeys⟩
  · have hcount := hostOpens_of_opens tr
      (e := ⟨call, s, processFileRequest sys context call.memory call.request s call.host⟩) hopen
    have hnoclose : FileOperation.ofCode call.request.operation ≠ some .close := by
      intro hop
      rw [openOnHost, if_neg (by simp [hop])] at hopen
      cases hopen
    rw [hstate]
    refine ⟨?_, fun hlimit d hd => ?_, fun hlimit e he hcloses => ?_⟩
    · rw [hcount, show (s.emplace file).nextDescriptor = s.increment from rfl,
        FileState.increment, hn.counter, Int.bmod_add_bmod]
      push_cast
      rw [add_assoc]
    · have hlt : hostOpens sys context tr < openLimit := by omega
      rw [hcount]
      push_cast
      obtain rfl | hd := mem_emplace.mp hd
      · rw [hn.counter_of_lt hlt]
        omega
      · have := hn.inUse hlt.le d hd
        omega
    · have hlt : hostOpens sys context tr < openLimit := by omega
      obtain rfl | he := List.mem_cons.mp he
      · exact absurd hcloses.1 hnoclose
      · obtain ⟨hbelow, hnotMem⟩ := hn.closed hlt.le e he hcloses
        rw [hcount]
        push_cast
        refine ⟨by omega, fun hmem => ?_⟩
        obtain heq | hmem := mem_emplace.mp hmem
        · rw [hn.counter_of_lt hlt] at heq
          omega
        · exact hnotMem hmem
  · have hcount := hostOpens_of_none tr
      (e := ⟨call, s, processFileRequest sys context call.memory call.request s call.host⟩) hnone
    refine ⟨by rw [hcount, hnext, hn.counter], fun hlimit d hd => ?_, fun hlimit e he hcloses => ?_⟩
    · rw [hcount] at hlimit ⊢
      exact hn.inUse hlimit d (hkeys d hd)
    · rw [hcount] at hlimit ⊢
      obtain rfl | he := List.mem_cons.mp he
      · exact ⟨hn.inUse hlimit _ hcloses.2, notMem_of_closes hcloses.1 s⟩
      · obtain ⟨hbelow, hnotMem⟩ := hn.closed hlimit e he hcloses
        exact ⟨hbelow, fun hmem => hnotMem (hkeys _ hmem)⟩

/-! ### Runs -/

/-- An open below the limit gets a fresh descriptor. -/
theorem Numbered.isFresh (hn : Numbered sys context tr s)
    (hlt : hostOpens sys context tr < openLimit)
    (hstep : (fileCalls sys context).step s call = some (e, t)) {file : OpenFile}
    (hopen : e.Opens sys context file) : e.IsFresh file := by
  obtain ⟨rfl, rfl⟩ := fileCalls_step hstep
  have hcounter := hn.counter_of_lt hlt
  have hnotMem : s.nextDescriptor ∉ s.openFiles := by
    intro hmem
    have := hn.inUse hlt.le _ hmem
    omega
  obtain ⟨file', hopen', hresult, hstate⟩ | ⟨hnone, -⟩ :=
    processFileRequest_cases sys context s call
  · obtain rfl := Option.some.inj (hopen'.symm.trans hopen)
    refine ⟨?_, ?_, ?_⟩
    · dsimp only
      rw [hresult, hcounter]
      omega
    · dsimp only
      rwa [hresult]
    · dsimp only
      rw [hresult, hstate, FileState.emplace, if_neg hnotMem]
  · exact absurd (hnone.symm.trans hopen) (by simp)

/-- A descriptor that was closed is refused, up to the limit. -/
theorem Numbered.rejected (hn : Numbered sys context tr s)
    (hlimit : hostOpens sys context tr ≤ openLimit)
    (hstep : (fileCalls sys context).step s call = some (e, t)) {earlier : ServedCall}
    (hmem : earlier ∈ tr) (hcloses : earlier.Closes)
    (huses : e.Uses earlier.call.request.descriptor) : e.Rejected := by
  obtain ⟨rfl, rfl⟩ := fileCalls_step hstep
  obtain ⟨-, hnotMem⟩ := hn.closed hlimit earlier hmem hcloses
  obtain ⟨⟨op, hop, hcode⟩, hd⟩ := huses
  refine processFileRequest_of_notMem hcode ?_ (hd ▸ hnotMem)
  rintro rfl
  simp at hop

/-- The open at the limit gets a negative number. -/
theorem Numbered.result_of_eq (hn : Numbered sys context tr s)
    (heq : hostOpens sys context tr = openLimit)
    (hstep : (fileCalls sys context).step s call = some (e, t)) {file : OpenFile}
    (hopen : e.Opens sys context file) : e.reply.result = -2 ^ 31 := by
  obtain ⟨rfl, rfl⟩ := fileCalls_step hstep
  obtain ⟨-, -, hresult, -⟩ | ⟨hnone, -⟩ :=
    processFileRequest_cases sys context s call
  · exact hresult.trans (hn.counter_of_eq heq)
  · exact absurd (hnone.symm.trans hopen) (by simp)

/-- The counter counts along every run. -/
theorem numbered_of_run
    (hrun : (fileCalls sys context).Run (fun _ _ => True) tr s) : Numbered sys context tr s :=
  Machine.Run.invariant .initial (fun _ _ _ _ _ hn _ hstep => hn.step hstep) hrun

/-- **Descriptor numbers.** Whatever requests a VM makes, in whatever order and with whatever
memory and host they meet, its descriptors stay valid and fresh exactly as long as no more than
`openLimit` of its opens succeed on the host. -/
theorem descriptorsFresh_iff (sys : HostSystem) (context : GuestContext) (tr : List ServedCall)
    (s : FileState) (hrun : (fileCalls sys context).Run (fun _ _ => True) tr s) :
    DescriptorsFresh sys context tr ↔ hostOpens sys context tr ≤ openLimit := by
  induction hrun with
  | refl => exact ⟨fun _ => Nat.zero_le _, fun _ => ⟨nofun, .nil⟩⟩
  | @step tr s t call e hpath _ hstep ih =>
      have hn := numbered_of_run hpath
      rw [descriptorsFresh_cons, ih]
      cases hopen : openOnHost sys context e.call with
      | none =>
          rw [hostOpens_of_none tr hopen]
          refine ⟨fun h => h.1, fun hlimit => ⟨hlimit, fun file hfile => ?_, ?_⟩⟩
          · exact absurd (hopen.symm.trans hfile) (by simp)
          · exact fun earlier hmem => hn.rejected hlimit hstep hmem
      | some file =>
          rw [hostOpens_of_opens tr hopen]
          constructor
          · rintro ⟨hlimit, hfresh, -⟩
            refine lt_of_le_of_ne hlimit fun heq => ?_
            have hnonneg := (hfresh file hopen).nonneg
            rw [hn.result_of_eq heq hstep hopen] at hnonneg
            exact absurd hnonneg (by decide)
          · intro hlt
            exact ⟨Nat.le_of_succ_le hlt, fun file' hfile => hn.isFresh hlt hstep hfile,
              fun earlier hmem => hn.rejected (Nat.le_of_succ_le hlt) hstep hmem⟩

/-- Close a descriptor. -/
def closeRequest (descriptor : ℤ) : FileRequest :=
  { operation := 2, descriptor := descriptor, buffer := 0, count := 0, offset := 0, flags := 0 }

/-- A VM opens `a`, closes it, tries to close it again and opens it again. -/
def openCloseOpen : List PlacedRequest :=
  [⟨memoryA, openRequest fileOpenRead, sharedA⟩, ⟨memoryA, closeRequest 3, sharedA⟩,
    ⟨memoryA, closeRequest 3, sharedA⟩, ⟨memoryA, openRequest fileOpenRead, sharedA⟩]

/-- The result applies to a run with two opens and a refused close. -/
theorem descriptorsFresh_iff_openCloseOpen :
    ∃ tr s, (fileCalls (plainSystem fun _ => .completes) contextA).Run (fun _ _ => True) tr s ∧
      tr.map (fun e => e.reply.result) = [4, -1, -1, 3] ∧
      DescriptorsFresh (plainSystem fun _ => .completes) contextA tr := by
  have hexec : ((fileCalls (plainSystem fun _ => .completes) contextA).exec (fun _ _ => True)
      .initial openCloseOpen).map (fun p => (p.1.map (fun e => e.reply.result),
        hostOpens (plainSystem fun _ => .completes) contextA p.1)) =
      some ([4, -1, -1, 3], 2) := by
    decide +kernel
  obtain ⟨tr, s, hrun, hobs⟩ := Machine.exists_of_exec hexec
  obtain ⟨hresults, hopens⟩ := Prod.mk.inj hobs
  refine ⟨tr, s, hrun, hresults, (descriptorsFresh_iff _ _ tr s hrun).mpr ?_⟩
  rw [hopens]
  decide

/-! ### A run beyond the limit -/

/-- The hosts of a trace follow one another, the last one to `h`. -/
def OnOneHost : List ServedCall → Host HostPath → Prop
  | [], _ => True
  | e :: tr, h => e.reply.host = h ∧ OnOneHost tr e.call.host

/-- A host with the files of `sharedA`. -/
structure HoldsA (h : Host HostPath) : Prop where
  names : h.names = sharedA.names
  files : h.files = sharedA.files

variable (sys context call) in
/-- A faultless host opens a shared original that can be read. -/
theorem openOnHost_original (hκ : sys.kernel.Faultless)
    (hop : FileOperation.ofCode call.request.operation = some .openFile)
    (hflags : areValidOpenFlags call.request.flags = true) {name : String}
    (hname : readGuestFileName call.memory call.request.buffer = some name)
    (hlocal : call.host.names (sys.localPathOf context name) = none) {path : HostPath}
    (hshared : context.sharedFiles.lookup name = some path) {m : ℕ}
    (hpath : call.host.names path = some m)
    (hread : (call.host.files m).permits readOnly = true) :
    ∃ fd, openOnHost sys context call =
      some ⟨fd, call.request.flags, name, path, true⟩ := by
  have hresolve : resolveFile sys context name call.host = (⟨path, true⟩, call.host.tick) := by
    obtain ⟨resolved, heq, -⟩ := resolveFile_cases sys context call.host name
    have hfirst : (resolveFile sys context name call.host).1 = _ :=
      resolveFile_of_faultless hκ name
    rw [heq, hlocal, hshared] at hfirst
    obtain rfl : resolved = ⟨path, true⟩ := hfirst
    exact heq
  have hopen := Host.openAt_of_faultless hκ (h := call.host.tick) hpath readOnly
  rw [if_pos (show (call.host.tick.files m).permits readOnly = true from hread)] at hopen
  refine ⟨sys.kernel.pick call.host.tick.calls call.host.tick.descriptors.keys, ?_⟩
  rw [openOnHost, if_pos ⟨hop, hflags⟩, hname, Option.bind_some]
  simp only [hresolve, withDirectory, Bool.not_true, Bool.false_and, Bool.false_eq_true, if_false,
    Option.bind_some, openModeOf_shared, hopen, Option.map_some]

/-- The host opens `a`. -/
theorem HoldsA.opens {h : Host HostPath} (hA : HoldsA h) :
    ∃ file, openOnHost (plainSystem fun _ => .completes) contextA
      ⟨memoryA, openRequest fileOpenRead, h⟩ = some file := by
  have hlocal : h.names ((plainSystem fun _ => .completes).localPathOf contextA "a") = none := by
    rw [hA.names]
    decide
  have hpath : h.names ["srv", "a"] = some 0 := by
    rw [hA.names]
    decide
  have hread : (h.files 0).permits readOnly = true := by
    rw [hA.files]
    decide
  have hflags : areValidOpenFlags fileOpenRead = true := by decide
  have hname : readGuestFileName memoryA 0 = some "a" := by decide +kernel
  obtain ⟨fd, hopen⟩ := openOnHost_original (plainSystem fun _ => .completes) contextA
    ⟨memoryA, openRequest fileOpenRead, h⟩ (fun _ => rfl) rfl hflags hname hlocal rfl hpath hread
  exact ⟨_, hopen⟩

/-- An open for reading leaves the files alone. -/
theorem HoldsA.open {h : Host HostPath} (hA : HoldsA h) (s : FileState) :
    HoldsA (processFileRequest (plainSystem fun _ => .completes) contextA memoryA
      (openRequest fileOpenRead) s h).host := by
  rw [processFileRequest, show FileOperation.ofCode (openRequest fileOpenRead).operation =
    some .openFile from rfl]
  dsimp only
  obtain ⟨h', hr, hu⟩ | ⟨name, resolved, fd, h₁, h', -, -, -, hu, -, hopens, hr⟩ :=
    openFile_cases (plainSystem fun _ => .completes) contextA memoryA (openRequest fileOpenRead) s h
  · rw [hr]
    exact ⟨hu.names.trans hA.names, hu.files.trans hA.files⟩
  · rw [hr]
    obtain ⟨m, -, -, rfl⟩ | ⟨-, hcreate, -⟩ := hopens
    · exact ⟨hu.names.trans hA.names, hu.files.trans hA.files⟩
    · have hmode : (openModeOf resolved (openRequest fileOpenRead).flags).create = false := by
        rw [openModeOf]
        split_ifs <;> rfl
      rw [hmode] at hcreate
      cases hcreate

/-- A close leaves the files alone. -/
theorem HoldsA.close {h : Host HostPath} (hA : HoldsA h) (d : ℤ) (s : FileState) :
    HoldsA (processFileRequest (plainSystem fun _ => .completes) contextA memoryA
      (closeRequest d) s h).host := by
  rw [processFileRequest, show FileOperation.ofCode (closeRequest d).operation = some .close
    from rfl]
  dsimp only
  obtain ⟨-, hr⟩ | ⟨file, -, hr⟩ := closeFile_cases memoryA s h d
  · rw [closeRequest, hr]
    exact hA
  · rw [closeRequest, hr]
    exact ⟨hA.names, hA.files⟩

/-- A VM that opens and closes `a` over and over, on one host. -/
theorem exists_rounds (k : ℕ) :
    ∃ tr s h, (fileCalls (plainSystem fun _ => .completes) contextA).Run (fun _ _ => True) tr s ∧
      OnOneHost tr h ∧ HoldsA h ∧ tr.length = 2 * k ∧
      hostOpens (plainSystem fun _ => .completes) contextA tr = k := by
  induction k with
  | zero => exact ⟨[], .initial, sharedA, .refl, trivial, ⟨rfl, rfl⟩, rfl, rfl⟩
  | succ k ih =>
      obtain ⟨tr, s, h, hrun, hhost, hA, hlength, hopens⟩ := ih
      obtain ⟨file, hopen⟩ := hA.opens
      have hA₁ := hA.open s
      generalize hreply : processFileRequest (plainSystem fun _ => .completes) contextA memoryA
        (openRequest fileOpenRead) s h = reply at hA₁
      have hfirst : (fileCalls (plainSystem fun _ => .completes) contextA).step s
          ⟨memoryA, openRequest fileOpenRead, h⟩ =
            some (⟨⟨memoryA, openRequest fileOpenRead, h⟩, s, reply⟩, reply.state) := by
        rw [← hreply]
        rfl
      have hsecond : (fileCalls (plainSystem fun _ => .completes) contextA).step reply.state
          ⟨memoryA, closeRequest s.nextDescriptor, reply.host⟩ = some (_, _) := rfl
      refine ⟨_, _, _, (hrun.step trivial hfirst).step trivial hsecond, ⟨rfl, rfl, hhost⟩,
        hA₁.close _ _, ?_, ?_⟩
      · rw [List.length_cons, List.length_cons, hlength]
        omega
      · have hopened : (ServedCall.mk ⟨memoryA, openRequest fileOpenRead, h⟩ s reply).Opens
            (plainSystem fun _ => .completes) contextA file := hopen
        rw [hostOpens_of_none _ rfl, hostOpens_of_opens _ hopened, hopens]

/-- **The counter wraps around.** A VM that opens and closes a file `openLimit` times, on a host
where nothing fails, is given a negative descriptor by its next open, although the host has
opened the file. -/
theorem descriptorsFresh_false :
    ∃ e tr s h,
      (fileCalls (plainSystem fun _ => .completes) contextA).Run (fun _ _ => True) (e :: tr) s ∧
      OnOneHost (e :: tr) h ∧ tr.length = 2 * openLimit ∧
      (∃ file, e.Opens (plainSystem fun _ => .completes) contextA file) ∧
      e.reply.result = -2 ^ 31 ∧
      ¬DescriptorsFresh (plainSystem fun _ => .completes) contextA (e :: tr) := by
  obtain ⟨tr, s, h, hrun, hhost, hA, hlength, hopens⟩ := exists_rounds openLimit
  obtain ⟨file, hopen⟩ := hA.opens
  have hstep : (fileCalls (plainSystem fun _ => .completes) contextA).step s
      ⟨memoryA, openRequest fileOpenRead, h⟩ = some (_, _) := rfl
  have hresult := (numbered_of_run hrun).result_of_eq hopens hstep hopen
  refine ⟨_, tr, _, _, hrun.step trivial hstep, ⟨rfl, hhost⟩, hlength, ⟨file, hopen⟩, hresult,
    fun hfresh => ?_⟩
  have hnonneg := (hfresh.opened _ List.mem_cons_self file hopen).nonneg
  rw [hresult] at hnonneg
  exact absurd hnonneg (by decide)

end KvmHypervisor
