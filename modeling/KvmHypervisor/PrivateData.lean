import KvmHypervisor.FileRuns
import KvmHypervisor.RequestCases

/-!
# Failed Requests and Private Data

What a request that returns `-1` does to the files in the VMs' own directories, when any
host call but `close` and `remove` may fail at any time. The clean-up of a failed switch
removes the local path whatever it named before, so a private file is lost exactly when a
write goes through an entry that is still marked shared although the file of that name
exists in the VM's directory. Only an existence probe that fails on that file, at an
earlier open for writing, makes such an entry.

## Main results

* `privateDataKept_iff`: the requests that lose private data, in any state.
* `private_data_kept`: in runs whose probes do not miss a private copy there are none.
* `private_data_lost`: a run that loses the bytes a VM has written.
-/

namespace KvmHypervisor

open PosixFiles Transitions

variable {n : ℕ} (sys : HostSystem) (sharedFiles : List (String × HostPath))

/-! ### The property and its condition -/

/-- If the request fails, every file in a VM's own directory is still there with the same
bytes. -/
def PrivateDataKept (w : FileWorld n) (call : GuestCall n) : Prop :=
  (replyTo sys sharedFiles w call).result = -1 →
    ∀ (vm : Fin n) name, w.host.Keeps (replyTo sys sharedFiles w call).host
      (sys.localPathAt vm name)

/-- A write through an entry still marked shared, although the VM's own file of that name
exists, that gets past making the directory. -/
def WritesPastCopy (w : FileWorld n) (call : GuestCall n) : Prop :=
  FileOperation.ofCode call.request.operation = some .write ∧
    ∃ file, Writes call.request (w.states call.vm) file ∧ file.shared = true ∧
      (w.host.names (sys.localPathAt call.vm file.name)).isSome ∧
      (sys.kernel.outcome w.host.calls).failed = false

/-- An open of a shared name for writing whose existence probe fails although the VM has its
private copy. -/
def ProbeMissesCopy (w : FileWorld n) (call : GuestCall n) : Prop :=
  FileOperation.ofCode call.request.operation = some .openFile ∧
    hasWriteAccess call.request.flags = true ∧
    (sys.kernel.outcome w.host.calls).failed = true ∧
    ∃ name, readGuestFileName call.memory call.request.buffer = some name ∧
      (sharedFiles.lookup name).isSome ∧ (w.host.names (sys.localPathAt call.vm name)).isSome

/-! ### What each operation keeps -/

section Keeps

variable {sys sharedFiles}
variable {context : GuestContext} {memory : GuestMemory} {request : FileRequest}
variable {s : FileState} {h h' : Host HostPath} {path : HostPath}

/-- A request without effect keeps every file. -/
theorem Unchanged.keeps (hu : h.Unchanged h') (p : HostPath) : h.Keeps h' p :=
  .of_eq hu.names hu.files p

/-- An open keeps every file: it creates one only under a name that has none. -/
theorem OpensAt.keeps {mode : OpenMode} {fd : ℕ} (ho : OpensAt path mode fd h h')
    (p : HostPath) : h.Keeps h' p := by
  rcases ho with ⟨m, -, -, rfl⟩ | ⟨hnone, -, rfl⟩
  · exact .of_eq rfl rfl p
  · exact Host.Keeps.link (h := h.tick) hnone p

/-- A new copy keeps every file. -/
theorem CopiedTo.keeps {src : ℕ} (hc : CopiedTo path src h h') (p : HostPath) :
    h.Keeps h' p := by
  intro m hm
  have hne : p ≠ path := by
    rintro rfl
    rw [hc.absent] at hm
    cases hm
  rw [hc.names, hc.files, Function.update_of_ne hne,
    Function.update_of_ne (h.nextIno_ne_of_named hm)]
  exact ⟨hm, rfl⟩

/-- A failed switch keeps every file but the one the local name stood for. -/
theorem Discarded.keeps (hd : Discarded path h h') {p : HostPath}
    (hp : p = path → h.names path = none) : h.Keeps h' p := by
  intro m hm
  have hne : p ≠ path := by
    rintro rfl
    rw [hp rfl] at hm
    cases hm
  rw [hd.names, hd.files m (h.named_lt p m hm), Function.update_of_ne hne]
  exact ⟨hm, rfl⟩

/-- A switch that succeeds keeps every file; one that fails keeps every file but the one
the local name stood for. -/
theorem Prepared.keeps {file : OpenFile} {ok : Bool} {s' : FileState}
    (hprepared : Prepared sys context file s h ok s' h') {p : HostPath}
    (hcopy : file.shared = true → p = sys.localPathOf context file.name →
      (sys.kernel.outcome h.calls).failed = false → h.names p = none) :
    h.Keeps h' p := by
  cases hprepared with
  | own _ => exact .refl h p
  | noDirectory _ _ => exact Unchanged.keeps (.tick h) p
  | discarded hshared hfail hd _ =>
      exact Discarded.keeps hd fun heq => heq ▸ hcopy hshared heq hfail
  | copied _ _ hc hm => exact (CopiedTo.keeps hc p).trans (.of_eq hm.names hm.files p)

/-- A request that returns `-1` keeps every file but the one a failed switch removes. -/
theorem Effect.keeps {reply : Reply} (heffect : Effect sys context memory request s h reply)
    (hresult : reply.result = -1) {p : HostPath}
    (hcopy : FileOperation.ofCode request.operation = some .write →
      ∀ file, Writes request s file → file.shared = true →
        p = sys.localPathOf context file.name →
        (sys.kernel.outcome h.calls).failed = false → h.names p = none) :
    h.Keeps reply.host p := by
  cases heffect with
  | nothing _ hu => exact Unchanged.keeps hu p
  | opens _ _ _ hu _ ho => exact (Unchanged.keeps hu p).trans (OpensAt.keeps ho p)
  | closes _ _ => exact .of_eq rfl rfl p
  | moves _ _ _ => exact .of_eq rfl rfl p
  | prepares hop hw hp hu => exact (hp.keeps (hcopy hop _ hw)).trans (Unchanged.keeps hu p)
  | @writes _ _ _ _ _ data _ _ _ _ _ _ =>
      have hnonneg : (0 : ℤ) ≤ data.length := Int.natCast_nonneg _
      exact absurd hresult (by dsimp only; omega)

end Keeps

/-! ### Which requests lose data -/

/-- **Exactly which failed requests lose private data**, in any state and whatever host
calls fail: the writes past a copy. -/
theorem privateDataKept_iff (w : FileWorld n) (call : GuestCall n) :
    PrivateDataKept sys sharedFiles w call ↔ ¬ WritesPastCopy sys w call := by
  constructor
  · rintro hkept ⟨hop, file, hw, hshared, hcopy, hfail⟩
    obtain ⟨m, hm⟩ := Option.isSome_iff_exists.mp hcopy
    have hreply : replyTo sys sharedFiles w call =
        writeFile sys (contextOf sharedFiles call.vm) call.memory call.request
          (w.states call.vm) w.host := by
      rw [replyTo, processFileRequest, hop]
    have hfile : ∀ file', Writes call.request (w.states call.vm) file' → file' = file :=
      fun file' hw' => Option.some.inj (hw'.1.symm.trans hw.1)
    rcases writeFile_cases sys (contextOf sharedFiles call.vm) call.memory call.request
        (w.states call.vm) w.host with
      ⟨hno, -⟩ | ⟨file', s', h', hw', hrest⟩
    · exact hno file hw
    obtain rfl := hfile file' hw'
    rcases prepareFileForWrite_cases sys (contextOf sharedFiles call.vm) hshared
        (w.states call.vm) w.host with
      ⟨-, hfail'⟩ | ⟨h₁, hr, -, hd, -⟩ | ⟨src, h₁, s₁, h₂, fd, -, -, hc, -⟩
    · rw [hfail] at hfail'
      cases hfail'
    · rw [hr] at hrest
      rcases hrest with ⟨heq, hr'⟩ | ⟨heq, -⟩
      · simp only [Prod.mk.injEq, true_and] at heq
        obtain ⟨rfl, rfl⟩ := heq
        rw [hr'] at hreply
        obtain ⟨hgone, -⟩ := hkept (by rw [hreply]; rfl) call.vm file'.name m hm
        rw [hreply] at hgone
        have hnone : h₁.names (sys.localPathAt call.vm file'.name) = none := by
          rw [hd.names]
          exact Function.update_self _ _ _
        exact absurd (hgone.symm.trans hnone) (by simp)
      · cases heq
    · exact absurd (hm.symm.trans hc.absent) (by simp)
  · intro hno hresult vm name
    refine (processFileRequest_effect sys (contextOf sharedFiles call.vm) call.memory
      call.request (w.states call.vm) w.host).keeps hresult ?_
    intro hop file hw hshared heq hfail
    by_contra hcopy
    rw [heq] at hcopy
    exact hno ⟨hop, file, hw, hshared, Option.ne_none_iff_isSome.mp hcopy, hfail⟩

/-! ### Shared entries open for writing have no copy -/

section Uncopied

variable (context : GuestContext)

/-- An entry open for writing and still marked shared has a shared name, and the VM has no file
of that name. -/
def Uncopied (s : FileState) (h : Host HostPath) : Prop :=
  ∀ d file, s.openFiles.lookup d = some file → file.shared = true →
    hasWriteAccess file.flags = true → (context.sharedFiles.lookup file.name).isSome ∧
      h.names (sys.localPathOf context file.name) = none

variable {sys context}
variable {memory : GuestMemory} {request : FileRequest} {s s' : FileState}
variable {h h' : Host HostPath}

/-- The table and the names are all that counts. -/
theorem Uncopied.of_eq (hU : Uncopied sys context s h) (hs : s'.openFiles = s.openFiles)
    (hnames : h'.names = h.names) : Uncopied sys context s' h' := by
  intro d file hfile hshared haccess
  rw [hnames]
  rw [hs] at hfile
  exact hU d file hfile hshared haccess

/-- An open for writing whose probe did not miss a copy adds a shared entry only where there is
none. Every open creates a file only under a name that is not shared. -/
theorem Uncopied.open (hU : Uncopied sys context s h) {name : String}
    {resolved : ResolvedFile} {fd : ℕ} {h₁ : Host HostPath} (hu : h.Unchanged h₁)
    (hresolves : Resolves sys context name h resolved)
    (ho : OpensAt resolved.path (openModeOf resolved request.flags) fd h₁ h')
    (hprobe : (context.sharedFiles.lookup name).isSome →
      hasWriteAccess request.flags = true → (sys.kernel.outcome h.calls).failed = true →
      h.names (sys.localPathOf context name) = none) :
    Uncopied sys context
      (s.emplace ⟨fd, request.flags, name, resolved.path, resolved.shared⟩) h' := by
  -- no shared name gets a file
  have hnames : ∀ name', (context.sharedFiles.lookup name').isSome →
      h.names (sys.localPathOf context name') = none →
      h'.names (sys.localPathOf context name') = none := fun _ =>
    names_of_opensAt_shared h hresolves hu ho
  intro d file hfile hshared haccess
  rw [FileState.lookup_emplace] at hfile
  split_ifs at hfile with hd
  · obtain rfl := Option.some.inj hfile
    obtain ⟨hlookup, hnone⟩ := hresolves.original hshared
    have hsome : (context.sharedFiles.lookup name).isSome := by simp [hlookup]
    exact ⟨hsome, hnames name hsome (hnone.elim id (hprobe hsome haccess))⟩
  · obtain ⟨hsome, hnone⟩ := hU d file hfile hshared haccess
    exact ⟨hsome, hnames file.name hsome hnone⟩

/-- A switch leaves no entry of the copied name shared, and no copy when it fails. -/
theorem Uncopied.prepare (hU : Uncopied sys context s h) {file : OpenFile} {ok : Bool}
    (hp : Prepared sys context file s h ok s' h') : Uncopied sys context s' h' := by
  cases hp with
  | own _ => exact hU
  | noDirectory _ _ => exact hU
  | discarded _ _ hd _ =>
      intro d file' hfile' hshared' haccess
      obtain ⟨hsome, hnone⟩ := hU d file' hfile' hshared' haccess
      refine ⟨hsome, ?_⟩
      rw [hd.names, Function.update_apply, hnone, ite_self]
  | copied _ _ hc hm =>
      intro d file' hfile' hshared' haccess
      rw [hm.table] at hfile'
      split_ifs at hfile' with hentry
      · obtain ⟨old, -, rfl⟩ := Option.map_eq_some_iff.mp hfile'
        cases hshared'
      · obtain ⟨hsome, hnone⟩ := hU d file' hfile' hshared' haccess
        have hne : file'.name ≠ file.name :=
          fun heq => hentry (isSharedEntry_iff.mpr ⟨file', hfile', hshared', heq⟩)
        have hpath : sys.localPathOf context file'.name ≠ sys.localPathOf context file.name :=
          fun heq => hne (localPath_inj.mp heq).2
        exact ⟨hsome, by rw [hm.names, hc.names, Function.update_of_ne hpath, hnone]⟩

/-- **One request** of a VM keeps its shared entries uncopied, unless it is an open for writing
whose probe misses a copy. -/
theorem Uncopied.processFileRequest (hU : Uncopied sys context s h)
    (hprobe : ∀ name, FileOperation.ofCode request.operation = some .openFile →
      hasWriteAccess request.flags = true → readGuestFileName memory request.buffer = some name →
      (context.sharedFiles.lookup name).isSome →
      (sys.kernel.outcome h.calls).failed = true →
      h.names (sys.localPathOf context name) = none) :
    Uncopied sys context (processFileRequest sys context memory request s h).state
      (processFileRequest sys context memory request s h).host := by
  have heffect := processFileRequest_effect sys context memory request s h
  generalize KvmHypervisor.processFileRequest sys context memory request s h = reply
    at heffect ⊢
  cases heffect with
  | nothing _ hu => exact hU.of_eq rfl hu.names
  | opens hop hname hres hu _ ho =>
      exact hU.open hu hres ho fun hsome haccess => hprobe _ hop haccess hname hsome
  | closes _ _ =>
      intro d file' hfile'
      rw [lookup_erase_eq] at hfile'
      split_ifs at hfile'
      exact hU d file' hfile'
  | moves _ _ _ => exact hU.of_eq rfl rfl
  | prepares _ _ hp hu => exact (hU.prepare hp).of_eq rfl hu.names
  | writes _ _ hp _ _ _ => exact (hU.prepare hp).of_eq rfl rfl

end Uncopied

/-- No VM has a file of a name it has a shared entry for that is open for writing. -/
def SharedUncopied (w : FileWorld n) : Prop :=
  ∀ vm : Fin n, Uncopied sys (contextOf sharedFiles vm) (w.states vm) w.host

variable {sys sharedFiles}

/-- One step of any VM keeps the shared entries of all VMs uncopied, unless it is an open for
writing whose probe misses a copy. -/
theorem SharedUncopied.step {w : FileWorld n} (hU : SharedUncopied sys sharedFiles w)
    {call : GuestCall n} (hprobe : ¬ ProbeMissesCopy sys sharedFiles w call) :
    SharedUncopied sys sharedFiles ((fileServer sys sharedFiles).step w call).2 := by
  intro vm
  by_cases hvm : vm = call.vm
  · subst hvm
    simp only [fileServer, Function.update_self]
    refine (hU call.vm).processFileRequest fun name hop haccess hname hsome hfail => ?_
    by_contra hnone
    exact hprobe ⟨hop, haccess, hfail, name, hname, hsome, Option.ne_none_iff_isSome.mp hnone⟩
  · intro d file hfile hshared haccess
    simp only [fileServer, Function.update_of_ne hvm] at hfile ⊢
    obtain ⟨hsome, hnone⟩ := hU vm d file hfile hshared haccess
    exact ⟨hsome, (names_processFileRequest _ _ _ _
      fun name => localPathAt_ne hvm name file.name).trans hnone⟩

/-- In a run whose probes do not miss a private copy, no write goes past one. -/
theorem not_writesPastCopy_of_run {h : Host HostPath} {tr : List (GuestCall n × Answer)}
    {w : FileWorld n}
    (hrun : ((fileServer sys sharedFiles).machine (FileWorld.start h)).Run
      (fun w call => ¬ ProbeMissesCopy sys sharedFiles w call) tr w) (call : GuestCall n) :
    ¬ WritesPastCopy sys w call := by
  have hU : SharedUncopied sys sharedFiles w := by
    refine Transducer.invariant ?_ (fun t a hI hok => hI.step hok) hrun
    intro vm d file hfile
    cases hfile
  rintro ⟨-, file, hw, hshared, hcopy, -⟩
  obtain ⟨-, hnone⟩ := hU call.vm _ file hw.1 hshared hw.2.1
  have hpath : sys.localPathOf (contextOf sharedFiles call.vm) file.name =
      sys.localPathAt call.vm file.name := rfl
  rw [← hpath, hnone] at hcopy
  cases hcopy

/-! ### Main results -/

/-- Whether an open would miss a private copy can be decided. -/
instance (w : FileWorld n) (call : GuestCall n) :
    Decidable (ProbeMissesCopy sys sharedFiles w call) :=
  decidable_of_iff
    (FileOperation.ofCode call.request.operation = some .openFile ∧
      hasWriteAccess call.request.flags = true ∧
      (sys.kernel.outcome w.host.calls).failed = true ∧
      (readGuestFileName call.memory call.request.buffer).any fun name =>
        (sharedFiles.lookup name).isSome &&
          (w.host.names (sys.localPathAt call.vm name)).isSome) (by
    simp only [ProbeMissesCopy, Option.any_eq_true, Bool.and_eq_true])

/-- **Failed requests keep private data.** Whatever host calls fail, in any state, a
request that returns `-1` keeps every file in the VMs' directories unless it is a write
past a copy; and in every run whose open requests for writing do not miss a private copy in
their existence probe, every request that returns `-1` keeps them all. -/
theorem private_data_kept (sys : HostSystem) (sharedFiles : List (String × HostPath))
    (h : Host HostPath) :
    (∀ (w : FileWorld n) call,
        PrivateDataKept sys sharedFiles w call ↔ ¬ WritesPastCopy sys w call) ∧
      ∀ tr (w : FileWorld n),
        ((fileServer sys sharedFiles).machine (FileWorld.start h)).Run
          (fun w call => ¬ ProbeMissesCopy sys sharedFiles w call) tr w →
        ∀ call, PrivateDataKept sys sharedFiles w call :=
  ⟨privateDataKept_iff sys sharedFiles, fun _ _ hrun call =>
    (privateDataKept_iff sys sharedFiles _ call).mpr (not_writesPastCopy_of_run hrun call)⟩

/-- The result applies to a run that makes a private copy and opens it again: a write to an
unknown descriptor then fails, and the copy keeps the byte that was written. -/
theorem private_data_kept_copyThenReopen :
    ∃ tr w, (serverA fun _ => .completes).Run
        (fun w call => ¬ ProbeMissesCopy (plainSystem fun _ => .completes)
          [("a", ["srv", "a"])] w call) tr w ∧
      w.host.names (localPath ["root"] 0 "a") = some 1 ∧ (w.host.files 1).bytes = [97] ∧
      PrivateDataKept (plainSystem fun _ => .completes) [("a", ["srv", "a"])] w
        ⟨0, memoryA, writeRequest 9 1⟩ := by
  have hexec : ((serverA fun _ => .completes).exec
      (fun w call => ¬ ProbeMissesCopy (plainSystem fun _ => .completes)
        [("a", ["srv", "a"])] w call) (FileWorld.start sharedA) copyThenReopen).map
      (fun p => (p.2.host.names (localPath ["root"] 0 "a"), (p.2.host.files 1).bytes)) =
        some (some 1, [97]) := by
    decide +kernel
  obtain ⟨tr, w, hrun, hobs⟩ := Machine.exists_of_exec hexec
  rw [Prod.mk.injEq] at hobs
  exact ⟨tr, w, hrun, hobs.1, hobs.2,
    (private_data_kept (plainSystem fun _ => .completes) [("a", ["srv", "a"])] sharedA).2
      tr w hrun _⟩

/-- **A failed write can destroy private data.** The second open misses the private copy
because its existence probe, the tenth call, fails; the write through the new entry then
fails to copy the original over the private copy and removes it. -/
theorem private_data_lost :
    ¬ ∀ (sys : HostSystem) (sharedFiles : List (String × HostPath)) (h : Host HostPath) tr
        (w : FileWorld 1),
        ((fileServer sys sharedFiles).machine (FileWorld.start h)).Run (fun _ _ => True) tr w →
        ∀ call, PrivateDataKept sys sharedFiles w call := by
  intro hkept
  let outcome : ℕ → PosixFiles.Outcome := fun k => if k = 9 then .fails none else .completes
  have hexec : ((serverA outcome).exec (fun _ _ => True) (FileWorld.start sharedA)
      copyThenReopen).map (fun p =>
        let reply := replyTo (plainSystem outcome) [("a", ["srv", "a"])] p.2
          ⟨0, memoryA, writeRequest 4 1⟩
        (p.2.host.names (localPath ["root"] 0 "a"), reply.result,
          reply.host.names (localPath ["root"] 0 "a"))) = some (some 1, -1, none) := by
    decide +kernel
  obtain ⟨tr, w, hrun, hobs⟩ := Machine.exists_of_exec hexec
  simp only [Prod.mk.injEq] at hobs
  obtain ⟨hbefore, hresult, hafter⟩ := hobs
  have hkeeps := hkept _ _ sharedA tr w hrun ⟨0, memoryA, writeRequest 4 1⟩ hresult 0 "a"
  obtain ⟨hstill, -⟩ := hkeeps 1 hbefore
  exact absurd (hstill.symm.trans hafter) (by simp)

end KvmHypervisor
