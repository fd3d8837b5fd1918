import KvmHypervisor.FaultlessRequests
import KvmHypervisor.SharedConfiguration

/-!
# Sharing in a New Run

What a VM sees of a shared file in one run of the hypervisor, on a host that earlier runs
may have changed. The VM's own directory takes part in the resolution of names and outlives
the process. As long as it holds no file of a shared name and the VM has not written to that
name, every open of the name opens the original and every read delivers its bytes. A private
copy that an earlier run left behind is opened instead, and so is one that a write request of
the same run made before it failed or wrote nothing.

## Main results

* `shares_afresh_of_run`: every run that starts without a private copy of the name.
* `not_sharesAfresh_of_copy`: a run that starts with one.
* `not_sharesAfresh_of_failedWrite`: a run in which a write made one and failed.
* `shares_afresh_false`: two runs, the second of which opens the copy made in the first.
-/

namespace KvmHypervisor

open PosixFiles Transitions

variable {n : ℕ} (sys : HostSystem) (sharedFiles : List (String × HostPath))

/-! ### The property -/

/-- An entry that stands on the original at `path`, the file `o`. -/
structure OnOriginal (path : HostPath) (o : ℕ) (h : Host HostPath) (file : OpenFile) : Prop where
  shared : file.shared = true
  path : file.hostPath = path
  opened : ∃ e, h.descriptors.lookup file.hostDescriptor = some e ∧ e.ino = o ∧
    e.readable = true

/-- Every open of the name by the VM opens the original, or is refused. If no host call fails
without cause, that is because of its flags or because the original may not be read. -/
def OpensOriginal (vm : Fin n) (name : String) (path : HostPath) (o : ℕ) (w : FileWorld n) :
    Prop :=
  ∀ call : GuestCall n, call.vm = vm →
    FileOperation.ofCode call.request.operation = some .openFile →
    readGuestFileName call.memory call.request.buffer = some name →
    ((replyTo sys sharedFiles w call).state = w.states vm ∧
        (sys.kernel.Faultless → areValidOpenFlags call.request.flags = false ∨
          (w.host.files o).readable = false)) ∨
      ∃ file, (replyTo sys sharedFiles w call).state = (w.states vm).emplace file ∧
        OnOriginal path o (replyTo sys sharedFiles w call).host file

/-- Every read of the VM through an entry of the name delivers bytes of the original from the
position of the descriptor on, or nothing. If no host call fails without cause, it delivers
all that are asked for, or nothing because of what the request asks for. -/
def ReadsOriginal (vm : Fin n) (name : String) (o : ℕ) (w : FileWorld n) : Prop :=
  ∀ call : GuestCall n, call.vm = vm →
    FileOperation.ofCode call.request.operation = some .read →
    ∀ file, (w.states vm).openFiles.lookup call.request.descriptor = some file →
      file.name = name →
      ((replyTo sys sharedFiles w call).result ≤ 0 ∧
          (replyTo sys sharedFiles w call).memory = call.memory ∧
          (sys.kernel.Faultless → hasReadAccess file.flags = false ∨ call.request.count ≤ 0 ∨
            getGuestMemory call.memory call.request.buffer call.request.count.toNat = none)) ∨
        ∃ e buffer data, w.host.descriptors.lookup file.hostDescriptor = some e ∧
          data <+: (w.host.files o).bytes.drop e.offset ∧
          (sys.kernel.Faultless →
            data = ((w.host.files o).bytes.drop e.offset).take call.request.count.toNat) ∧
          (replyTo sys sharedFiles w call).result = data.length ∧
          (replyTo sys sharedFiles w call).memory = call.memory.store buffer data

/-- The VM still shares the file of a name. -/
structure SharesAfresh (vm : Fin n) (name : String) (path : HostPath) (o : ℕ)
    (w : FileWorld n) : Prop where
  opens : OpensOriginal sys sharedFiles vm name path o w
  reads : ReadsOriginal sys sharedFiles vm name o w

/-- A write request of the VM, let through by the access checks, on one of its entries of the
name. -/
def AsksToWrite (vm : Fin n) (name : String) (w : FileWorld n) (call : GuestCall n) : Prop :=
  call.vm = vm ∧ FileOperation.ofCode call.request.operation = some .write ∧
    ∃ file, Writes call.request (w.states vm) file ∧ file.name = name

/-- The VM writes to the name: such a request writes at least one byte. -/
def WritesTo (vm : Fin n) (name : String) (w : FileWorld n) (input : FileInput n) : Prop :=
  ∃ call, input = .request call ∧ AsksToWrite vm name w call ∧
    0 < (replyTo sys sharedFiles w call).result

/-- The VM writes in vain to the name: such a request asks for no bytes or fails. The switch to
a private copy comes before that shows. -/
def WritesInVain (vm : Fin n) (name : String) (w : FileWorld n) (input : FileInput n) : Prop :=
  ∃ call, input = .request call ∧ AsksToWrite vm name w call ∧
    (replyTo sys sharedFiles w call).result ≤ 0

/-! ### Entries on the original -/

section Request

variable {sys} {context : GuestContext} {memory : GuestMemory} {request : FileRequest}
variable {s s' : FileState} {h h' : Host HostPath} {name : String} {path : HostPath} {o : ℕ}

/-- All entries of the name stand on the original. -/
def EntriesOnOriginal (name : String) (path : HostPath) (o : ℕ) (s : FileState)
    (h : Host HostPath) : Prop :=
  ∀ d file, s.openFiles.lookup d = some file → file.name = name → OnOriginal path o h file

/-- Entries stay on the original while their descriptors only move. -/
theorem EntriesOnOriginal.keep (hon : EntriesOnOriginal name path o s h)
    (hentries : ∀ d file, s'.openFiles.lookup d = some file → file.name = name →
      s.openFiles.lookup d = some file)
    (hdescriptors : ∀ d file e, s'.openFiles.lookup d = some file → file.name = name →
      h.descriptors.lookup file.hostDescriptor = some e →
      ∃ offset, h'.descriptors.lookup file.hostDescriptor = some { e with offset := offset }) :
    EntriesOnOriginal name path o s' h' := by
  intro d file hfile hname
  obtain ⟨hshared, hpath, e, he, hino, hread⟩ := hon d file (hentries d file hfile hname) hname
  obtain ⟨offset, he'⟩ := hdescriptors d file e hfile hname he
  exact ⟨hshared, hpath, _, he', hino, hread⟩

/-- Calls without effect. -/
theorem EntriesOnOriginal.of_descriptors (hon : EntriesOnOriginal name path o s h)
    (hd : ∀ fd, h'.descriptors.lookup fd = h.descriptors.lookup fd) :
    EntriesOnOriginal name path o s h' :=
  hon.keep (fun _ _ hfile _ => hfile) fun _ _ e _ _ he => ⟨e.offset, by rw [hd, he]⟩

/-- A description of the table moves. -/
theorem EntriesOnOriginal.reposition (hon : EntriesOnOriginal name path o s h) {fd : ℕ}
    {e : Description} (hd : h'.descriptors = h.descriptors)
    (he : h.descriptors.lookup fd = some e) (offset : ℕ) :
    EntriesOnOriginal name path o s (h'.reposition fd offset) := by
  refine hon.keep (fun _ _ hfile _ => hfile) fun d file e' _ _ he' => ?_
  rw [← hd] at he
  rw [Host.lookup_reposition he, hd, he']
  split_ifs with heq
  · rw [hd, ← heq, he'] at he
    obtain rfl := Option.some.inj he
    exact ⟨offset, rfl⟩
  · exact ⟨e'.offset, rfl⟩

/-- Without a file of its own the VM resolves a shared name to the original. -/
theorem Resolves.eq_original {resolved : ResolvedFile}
    (hres : Resolves sys context name h resolved)
    (hlookup : context.sharedFiles.lookup name = some path)
    (habsent : h.names (sys.localPathOf context name) = none) : resolved = ⟨path, true⟩ := by
  obtain ⟨resolvedPath, shared⟩ := resolved
  cases shared with
  | false =>
      rcases (hres.own rfl).2 with hown | hnot
      · simp [habsent] at hown
      · simp [hlookup] at hnot
  | true =>
      obtain ⟨horiginal, -⟩ := hres.original rfl
      rw [hlookup, Option.some.injEq] at horiginal
      rw [horiginal]

/-- An open of the name gets an entry on the original. -/
theorem onOriginal_of_opens (hlookup : context.sharedFiles.lookup name = some path)
    (hnamed : h.names path = some o) (habsent : h.names (sys.localPathOf context name) = none)
    {resolved : ResolvedFile} {fd : ℕ} {h₁ : Host HostPath}
    (hres : Resolves sys context name h resolved) (hu : h.Unchanged h₁)
    (ho : OpensAt resolved.path (openModeOf resolved request.flags) fd h₁ h') :
    OnOriginal path o h' ⟨fd, request.flags, name, resolved.path, resolved.shared⟩ ∧
      h'.names = h₁.names := by
  obtain rfl := hres.eq_original hlookup habsent
  obtain ⟨m, hm, hfd⟩ := ho.lookup
  have hnames : h'.names = h₁.names := by
    rcases ho with ⟨_, -, -, rfl⟩ | ⟨hnone, -, -⟩
    · rfl
    · rw [hu.names, hnamed] at hnone
      cases hnone
  rw [hnames, hu.names, hnamed, Option.some.injEq] at hm
  exact ⟨⟨rfl, rfl, _, by rw [hfd, if_pos rfl], hm.symm, rfl⟩, hnames⟩

/-- A switch of another name leaves the entries of this one on the original. -/
theorem EntriesOnOriginal.prepare (hon : EntriesOnOriginal name path o s h) (ho : Owned s h)
    {file : OpenFile} (hne : file.name ≠ name) {ok : Bool}
    (hp : Prepared sys context file s h ok s' h') : EntriesOnOriginal name path o s' h' := by
  cases hp with
  | own _ => exact hon
  | noDirectory _ _ => exact hon.of_descriptors fun _ => rfl
  | discarded _ _ hd _ => exact hon.of_descriptors hd.descriptors
  | copied _ _ hc hm =>
      have hother : ∀ d file', s.openFiles.lookup d = some file' → file'.name = name →
          isSharedEntry s.openFiles file.name d = false := by
        intro d file' hfile' hname
        by_contra hentry
        rw [Bool.not_eq_false, isSharedEntry_iff] at hentry
        obtain ⟨file₀, hfile₀, -, hname₀⟩ := hentry
        obtain rfl : file' = file₀ := Option.some.inj (hfile'.symm.trans hfile₀)
        exact hne (hname₀.symm.trans hname)
      have hold : ∀ d file', s'.openFiles.lookup d = some file' → file'.name = name →
          s.openFiles.lookup d = some file' := by
        intro d file' hfile' hname
        rw [hm.table] at hfile'
        split_ifs at hfile' with hentry
        · obtain ⟨old, hold, rfl⟩ := Option.map_eq_some_iff.mp hfile'
          have := hother d old hold hname
          rw [hentry] at this
          cases this
        · exact hfile'
      refine hon.keep hold fun d file' e hfile' hname he => ⟨e.offset, ?_⟩
      refine hm.kept _ e (by rw [hc.descriptors, he]) fun d' file₀ hd' hfile₀ heq => ?_
      obtain rfl := ho.inj d' d file₀ file' hfile₀ (hold d file' hfile' hname) heq
      rw [hother d' file' (hold d' file' hfile' hname) hname] at hd'
      cases hd'

/-- **One request** of the VM that does not write to the name. -/
theorem EntriesOnOriginal.processFileRequest (memory : GuestMemory)
    (hon : EntriesOnOriginal name path o s h)
    (ho : Owned s h) (hlookup : context.sharedFiles.lookup name = some path)
    (hnamed : h.names path = some o) (habsent : h.names (sys.localPathOf context name) = none)
    (hwrites : FileOperation.ofCode request.operation = some .write →
      ∀ file, Writes request s file → file.name ≠ name) :
    EntriesOnOriginal name path o (processFileRequest sys context memory request s h).state
        (processFileRequest sys context memory request s h).host ∧
      (processFileRequest sys context memory request s h).host.names
        (sys.localPathOf context name) = none := by
  have heffect := processFileRequest_effect sys context memory request s h
  generalize KvmHypervisor.processFileRequest sys context memory request s h = reply
    at heffect ⊢
  have hlocal : ∀ {file : OpenFile}, file.name ≠ name →
      sys.localPathOf context name ≠ sys.localPathOf context file.name :=
    fun hne heq => hne (localPath_inj.mp heq).2.symm
  cases heffect with
  | nothing _ hu => exact ⟨hon.of_descriptors hu.descriptors, by rw [hu.names, habsent]⟩
  | @opens name' resolved fd h₁ h' _ _ hres hu hfresh hopens =>
      -- entries that were there keep their descriptors
      have hkept : ∀ d file, s.openFiles.lookup d = some file → file.name = name →
          OnOriginal path o h' file := by
        refine hon.keep (fun _ _ hfile _ => hfile) fun d file e hfile _ he => ⟨e.offset, ?_⟩
        rw [← hu.descriptors] at he
        exact hopens.kept hfresh he
      by_cases hname : name' = name
      · subst hname
        obtain ⟨hnew, hnames⟩ := onOriginal_of_opens hlookup hnamed habsent hres hu hopens
        refine ⟨fun d file hfile hname => ?_, by rw [hnames, hu.names, habsent]⟩
        rw [FileState.lookup_emplace] at hfile
        split_ifs at hfile
        · obtain rfl := Option.some.inj hfile
          exact hnew
        · exact hkept d file hfile hname
      · refine ⟨fun d file hfile hname' => ?_, ?_⟩
        · rw [FileState.lookup_emplace] at hfile
          split_ifs at hfile
          · obtain rfl := Option.some.inj hfile
            exact absurd hname' hname
          · exact hkept d file hfile hname'
        · have hpath : sys.localPathOf context name ≠ sys.localPathOf context name' :=
            fun heq => hname (localPath_inj.mp heq).2.symm
          exact (names_of_opensAt h hres hopens hpath).trans (by rw [hu.names, habsent])
  | @closes file _ _ hfile =>
      refine ⟨hon.keep (fun d file' hfile' _ => ?_) fun d file' e hfile' _ he => ?_, habsent⟩
      · rw [lookup_erase_eq] at hfile'
        split_ifs at hfile'
        exact hfile'
      · rw [lookup_erase_eq] at hfile'
        split_ifs at hfile' with hd
        have hne : file'.hostDescriptor ≠ file.hostDescriptor :=
          fun heq => hd (ho.inj d request.descriptor file' file hfile' hfile heq)
        exact ⟨e.offset, by rw [Host.lookup_release, if_neg hne, he]⟩
  | moves _ _ hd =>
      have htick : h.tick.descriptors = h.descriptors := rfl
      exact ⟨hon.reposition htick hd _, habsent⟩
  | prepares hop hw hp hu =>
      have hne := hwrites hop _ hw
      refine ⟨(hon.prepare ho hne hp).of_descriptors hu.descriptors, ?_⟩
      rw [hu.names, hp.names (hlocal hne), habsent]
  | @writes file file' s' h' d data hop hw hp _ hd _ =>
      have hne := hwrites hop _ hw
      refine ⟨(hon.prepare ho hne hp).reposition ?_ hd _, ?_⟩
      · rfl
      · exact (hp.names (hlocal hne)).trans habsent

end Request

/-! ### Runs -/

section Runs

variable {sys sharedFiles}
variable {h : Host HostPath} {vm : Fin n} {name : String} {path : HostPath} {o : ℕ}

/-- Until the VM asks to write to the name, it has no file of its own and all its entries of the
name stand on the original. The run itself is part of the invariant. -/
theorem entriesOnOriginal_of_run (hlookup : sharedFiles.lookup name = some path)
    (hnamed : h.names path = some o)
    (hstays : sys.kernel.Faultless ∨ ∀ (vm : Fin n) name, path ≠ sys.localPathAt vm name)
    (habsent : h.names (sys.localPathAt vm name) = none)
    {tr : List (FileInput n × Option Answer)} {w : FileWorld n}
    (hrun : ((fileLayer sys sharedFiles).machine (FileWorld.start h)).Run
      (fun w input => ¬ WritesTo sys sharedFiles vm name w input ∧
        ¬ WritesInVain sys sharedFiles vm name w input) tr w) :
    w.host.names (sys.localPathAt vm name) = none ∧
      EntriesOnOriginal name path o (w.states vm) w.host := by
  suffices hall : ((fileLayer sys sharedFiles).machine (FileWorld.start h)).Run
      (fun _ _ => True) tr w ∧ w.host.names (sys.localPathAt vm name) = none ∧
        EntriesOnOriginal name path o (w.states vm) w.host from hall.2
  refine Machine.Run.invariant
    (I := fun tr w => ((fileLayer sys sharedFiles).machine (FileWorld.start h)).Run
      (fun _ _ => True) tr w ∧ w.host.names (sys.localPathAt vm name) = none ∧
        EntriesOnOriginal name path o (w.states vm) w.host) ?_ ?_ hrun
  · exact ⟨.refl, habsent, fun d file hfile => by cases hfile⟩
  · rintro tr w input event u ⟨hrun', hnone, hon⟩ ⟨hwrites, hvain⟩ hstep
    refine ⟨hrun'.step trivial hstep, ?_⟩
    rw [Transducer.machine_step, Option.some.injEq, Prod.mk.injEq] at hstep
    obtain ⟨-, rfl⟩ := hstep
    have hapart := (accounted_of_run sys sharedFiles hrun').apart
    have hpath := names_original_of_run hnamed hstays hrun'
    -- a step of another VM, or the clean-up of this one
    have hothers : ∀ {vm' : Fin n} {s' : FileState} {h' : Host HostPath}, vm ≠ vm' →
        Handover (w.states vm') w.host s' h' →
        h'.names (sys.localPathAt vm name) = w.host.names (sys.localPathAt vm name) →
        (w.update vm' s' h').host.names (sys.localPathAt vm name) = none ∧
          EntriesOnOriginal name path o ((w.update vm' s' h').states vm)
            (w.update vm' s' h').host := by
      intro vm' s' h' hvm hh hnames
      simp only [FileWorld.update, Function.update_of_ne hvm]
      refine ⟨hnames.trans hnone, hon.keep (fun _ _ hfile _ => hfile) ?_⟩
      intro d file e hfile _ he
      refine ⟨e.offset, hh.others _ e (fun hheld => ?_) he⟩
      exact hvm (hapart.apart vm vm' _ ⟨d, file, hfile, rfl⟩ hheld)
    cases input with
    | request call =>
        have hnames : vm ≠ call.vm → (replyTo sys sharedFiles w call).host.names
            (sys.localPathAt vm name) = w.host.names (sys.localPathAt vm name) := fun hvm =>
          names_processFileRequest _ _ _ _ fun name' => localPathAt_ne hvm name' name
        have hh : Handover (w.states call.vm) w.host (replyTo sys sharedFiles w call).state
            (replyTo sys sharedFiles w call).host :=
          (processFileRequest_handover (hapart.owned call.vm)).1
        rw [fileLayer_request]
        by_cases hvm : vm = call.vm
        · subst hvm
          have hlookup' : (contextOf sharedFiles call.vm).sharedFiles.lookup name = some path :=
            hlookup
          have hnone' : w.host.names (sys.localPathOf (contextOf sharedFiles call.vm) name) =
            none := hnone
          obtain ⟨hon', hnone''⟩ := hon.processFileRequest call.memory
            (hapart.owned call.vm) hlookup' hpath hnone'
            fun hop file hw hname => by
              have hasks : AsksToWrite call.vm name w call := ⟨rfl, hop, file, hw, hname⟩
              rcases lt_or_ge 0 (replyTo sys sharedFiles w call).result with hpos | hnot
              · exact hwrites ⟨call, rfl, hasks, hpos⟩
              · exact hvain ⟨call, rfl, hasks, hnot⟩
          rw [FileWorld.update]
          dsimp only
          rw [Function.update_self]
          exact ⟨hnone'', hon'⟩
        · exact hothers hvm hh (hnames hvm)
    | finish vm' =>
        obtain ⟨hnames, -, -⟩ := closeGuestFiles_frame sys (w.states vm') w.host
        have hh := (closeGuestFiles_handover sys (hapart.owned vm')).1
        rw [fileLayer_finish]
        by_cases hvm : vm = vm'
        · subst hvm
          rw [FileWorld.update]
          dsimp only
          rw [Function.update_self, hnames]
          exact ⟨hnone, fun d file hfile => by cases hfile⟩
        · exact hothers hvm hh (congrFun hnames _)

/-- In such a state the next request still finds the original. -/
theorem sharesAfresh_of_entries {w : FileWorld n} (hlookup : sharedFiles.lookup name = some path)
    (hnamed : w.host.names path = some o)
    (habsent : w.host.names (sys.localPathAt vm name) = none)
    (hon : EntriesOnOriginal name path o (w.states vm) w.host) :
    SharesAfresh sys sharedFiles vm name path o w where
  opens := by
    rintro call rfl hop hname
    have hlookup' : (contextOf sharedFiles call.vm).sharedFiles.lookup name = some path := hlookup
    have habsent' : w.host.names (sys.localPathOf (contextOf sharedFiles call.vm) name) = none :=
      habsent
    rw [replyTo, processFileRequest, hop]
    dsimp only
    rcases openFile_cases sys (contextOf sharedFiles call.vm) call.memory call.request
        (w.states call.vm) w.host with
      ⟨h', hr, -⟩ | ⟨name', resolved, fd, h₁, h', -, hname', hres, hu, -, ho, hr⟩
    · refine .inl ⟨by rw [hr]; rfl, fun hκ => ?_⟩
      by_contra hno
      rw [not_or, Bool.not_eq_false, Bool.not_eq_false] at hno
      obtain ⟨resolved, -, hres, hcases⟩ := openFile_of_faultless (contextOf sharedFiles call.vm)
        (w.states call.vm) w.host hκ hno.1 hname
      obtain rfl := hres.eq_original hlookup' habsent'
      rcases hcases with ⟨hcan, -⟩ | ⟨-, fd, h₁, h'', -, -, -, hr'⟩
      · simp [Host.canOpen, hnamed, openModeOf, readOnly, File.permits, hno.2] at hcan
      · have hnext := congrArg (fun r => r.state.nextDescriptor) (hr.symm.trans hr')
        exact (w.states call.vm).increment_ne hnext.symm
    · obtain rfl : name = name' := Option.some.inj (hname.symm.trans hname')
      rw [hr]
      exact .inr ⟨_, rfl, (onOriginal_of_opens hlookup' hnamed habsent' hres hu ho).1⟩
  reads := by
    rintro call rfl hop file hfile hname
    obtain ⟨-, -, e, he, rfl, hreadable⟩ := hon _ file hfile hname
    rw [replyTo, processFileRequest, hop]
    dsimp only
    by_cases hκ : sys.kernel.Faultless
    · by_cases hinvalid : hasReadAccess file.flags = false ∨ call.request.count ≤ 0 ∨
          getGuestMemory call.memory call.request.buffer call.request.count.toNat = none
      · obtain ⟨result, hresult, hr⟩ := readFile_of_invalid hfile hinvalid
        rw [hr]
        exact .inl ⟨hresult, rfl, fun _ => hinvalid⟩
      · simp only [not_or, Bool.not_eq_false, not_le] at hinvalid
        obtain ⟨haccess, hcount, hbuffer⟩ := hinvalid
        obtain ⟨buffer, hbuffer⟩ := Option.ne_none_iff_exists'.mp hbuffer
        rw [readFile_of_faultless hκ hfile he hreadable haccess hcount hbuffer]
        exact .inr ⟨e, buffer, _, he, List.take_prefix _ _, fun _ => rfl, rfl, rfl⟩
    · rcases readFile_cases sys call.memory call.request (w.states call.vm) w.host with
        ⟨result, h', hr, -, hresult⟩ | ⟨file', e', buffer, data, hfile', he', hdata, hr⟩
      · rw [hr]
        exact .inl ⟨hresult, rfl, fun hκ' => absurd hκ' hκ⟩
      · obtain rfl : file = file' := Option.some.inj (hfile.symm.trans hfile')
        obtain rfl : e = e' := Option.some.inj (he.symm.trans he')
        rw [hr]
        exact .inr ⟨e, buffer, data, he, hdata, fun hκ' => absurd hκ' hκ, rfl, rfl⟩

/-- While the VM shares the file, an entry that an open of the name adds is marked shared. -/
theorem SharesAfresh.shared_of_added {w : FileWorld n}
    (hfresh : SharesAfresh sys sharedFiles vm name path o w) {call : GuestCall n}
    (hvm : call.vm = vm)
    (hop : FileOperation.ofCode call.request.operation = some .openFile)
    (hname : readGuestFileName call.memory call.request.buffer = some name) {d : ℤ}
    {file : OpenFile} (hold : (w.states vm).openFiles.lookup d = none)
    (hnew : (replyTo sys sharedFiles w call).state.openFiles.lookup d = some file) :
    file.shared = true := by
  rcases hfresh.opens call hvm hop hname with ⟨hsame, -⟩ | ⟨added, hstate, hon⟩
  · rw [hsame, hold] at hnew
    cases hnew
  · rw [hstate, FileState.lookup_emplace] at hnew
    split_ifs at hnew
    · obtain rfl := Option.some.inj hnew
      exact hon.shared
    · rw [hold] at hnew
      cases hnew

/-- A run that starts with a readable file of the name in the VM's directory: an open for
reading opens that file. -/
theorem not_sharesAfresh_of_copy (hκ : sys.kernel.Faultless) (hname : GuestName name) {m : ℕ}
    (hcopy : h.names (sys.localPathAt vm name) = some m)
    (hread : (h.files m).readable = true) :
    ¬ SharesAfresh sys sharedFiles vm name path o (FileWorld.start h) := by
  intro hfresh
  let call : GuestCall n :=
    ⟨vm, spelled (fileNameMax + 1) name [], openRequest fileOpenRead⟩
  have hspelled : readGuestFileName call.memory call.request.buffer = some name :=
    readGuestFileName_spelled hname (Nat.lt_succ_self _) []
  have hcopy' : (FileWorld.start h : FileWorld n).host.names
      (sys.localPathOf (contextOf sharedFiles vm) name) = some m := hcopy
  have hpermits : ((FileWorld.start h : FileWorld n).host.files m).permits
      (toHostOpenFlags call.request.flags) = true := by
    change (h.files m).permits (toHostOpenFlags fileOpenRead) = true
    rw [File.permits, hread]
    rfl
  obtain ⟨fd, h', hr, -⟩ := openFile_own (contextOf sharedFiles vm) FileState.initial hκ
    (show areValidOpenFlags call.request.flags = true by
      change areValidOpenFlags fileOpenRead = true; decide) hspelled hcopy' hpermits
  have hreply : replyTo sys sharedFiles (FileWorld.start h) call =
      openFile sys (contextOf sharedFiles vm) call.memory call.request FileState.initial
        (FileWorld.start h : FileWorld n).host := rfl
  -- the table has the new entry, which is not shared
  have hnew : (replyTo sys sharedFiles (FileWorld.start h) call).state.openFiles.lookup 3 =
      some ⟨fd, call.request.flags, name, sys.localPathOf (contextOf sharedFiles vm) name,
        false⟩ := by
    rw [hreply, hr]
    dsimp only
    rw [FileState.lookup_emplace]
    exact if_pos ⟨rfl, Finmap.notMem_empty⟩
  cases hfresh.shared_of_added rfl rfl hspelled rfl hnew

end Runs

/-! ### Main results -/

/-- The hosts that runs of the hypervisor in one working directory leave behind, each with
any number of VMs, any accepted shared files and any interleaving of requests. -/
inductive EarlierRuns (workingDirectory : HostPath) (h₀ : Host HostPath) : Host HostPath → Prop
  | none : EarlierRuns workingDirectory h₀ h₀
  | next {n : ℕ} {sys : HostSystem} {canonical : String → Option HostPath} {h : Host HostPath}
      {paths : List String} {sharedFiles : List (String × HostPath)}
      {tr : List (FileInput n × Option Answer)} {w : FileWorld n} :
      EarlierRuns workingDirectory h₀ h → sys.workingDirectory = workingDirectory →
      configureSharedFiles canonical h [] paths = .ok sharedFiles →
      ((fileLayer sys sharedFiles).machine (FileWorld.start h)).Run (fun _ _ => True) tr w →
      EarlierRuns workingDirectory h₀ w.host

/-- **Sharing starts afresh without a copy.** A run starts on any host, whatever earlier runs
left there, with shared files that `configureSharedFiles` accepts. Either no host call fails
without cause, or the original lies outside the VMs' directories. If the VM's directory has no
file of a shared name at the start, then in every run in which the VM has not written to the
name, and not in vain either, its opens of the name open the original and its reads deliver the
original's bytes. If there is such a file that may be read, the VM's first open of the name
opens it instead. -/
theorem shares_afresh_of_run (sys : HostSystem) (canonical : String → Option HostPath)
    (h : Host HostPath) (paths : List String) (sharedFiles : List (String × HostPath))
    (hconf : configureSharedFiles canonical h [] paths = .ok sharedFiles) (vm : Fin n)
    (name : String) (path : HostPath) (hlookup : sharedFiles.lookup name = some path)
    (hstays : sys.kernel.Faultless ∨ ∀ (vm : Fin n) name, path ≠ sys.localPathAt vm name) :
    ∃ o, h.names path = some o ∧
      (h.names (sys.localPathAt vm name) = none → ∀ tr w,
        ((fileLayer sys sharedFiles).machine (FileWorld.start h)).Run
          (fun w input => ¬ WritesTo sys sharedFiles vm name w input ∧
            ¬ WritesInVain sys sharedFiles vm name w input) tr w →
        SharesAfresh sys sharedFiles vm name path o w) ∧
      (sys.kernel.Faultless → GuestName name → ∀ m,
        h.names (sys.localPathAt vm name) = some m → (h.files m).readable = true →
        ¬ SharesAfresh sys sharedFiles vm name path o (FileWorld.start h)) := by
  obtain ⟨o, hnamed⟩ := Option.isSome_iff_exists.mp
    ((configured_of_ok .nil hconf).named _ (mem_of_lookup hlookup))
  refine ⟨o, hnamed, fun habsent tr w hrun => ?_,
    fun hκ hname m => not_sharesAfresh_of_copy hκ hname⟩
  obtain ⟨hnone, hon⟩ := entriesOnOriginal_of_run hlookup hnamed hstays habsent hrun
  exact sharesAfresh_of_entries hlookup (names_original_of_run hnamed hstays hrun) hnone hon

/-- The result applies to two VMs of which the first has made its private copy: the second
still shares the original. -/
theorem shares_afresh_of_run_secondVm :
    ∃ tr, ∃ w : FileWorld 2,
      ((fileLayer (plainSystem fun _ => .completes) [("a", ["srv", "a"])]).machine
        (FileWorld.start sharedA)).Run (fun w input =>
          ¬ WritesTo (plainSystem fun _ => .completes) [("a", ["srv", "a"])] 1 "a" w input ∧
          ¬ WritesInVain (plainSystem fun _ => .completes) [("a", ["srv", "a"])] 1 "a" w input)
        tr w ∧
      w.host.names (localPath ["root"] 0 "a") = some 1 ∧
      SharesAfresh (plainSystem fun _ => .completes) [("a", ["srv", "a"])] 1 "a" ["srv", "a"] 0
        w := by
  have hexec : (((fileLayer (plainSystem fun _ => .completes) [("a", ["srv", "a"])]).machine
      (FileWorld.start sharedA)).exec (fun _ input => input.vm ≠ 1) (FileWorld.start sharedA)
      [.request ⟨(0 : Fin 2), memoryA, openRequest fileOpenReadWrite⟩,
        .request ⟨0, memoryA, writeRequest 3 1⟩]).map
      (fun p => p.2.host.names (localPath ["root"] 0 "a")) = some (some 1) := by
    decide +kernel
  obtain ⟨tr, w, hpath, hobs⟩ := Machine.exists_of_exec hexec
  have hrun : ((fileLayer (plainSystem fun _ => .completes) [("a", ["srv", "a"])]).machine
      (FileWorld.start sharedA)).Run (fun w input =>
        ¬ WritesTo (plainSystem fun _ => .completes) [("a", ["srv", "a"])] (1 : Fin 2) "a" w input ∧
        ¬ WritesInVain (plainSystem fun _ => .completes) [("a", ["srv", "a"])] 1 "a" w input)
      tr w := by
    refine Machine.Path.mono (fun w input hvm => ⟨?_, ?_⟩) hpath
    · rintro ⟨call, rfl, ⟨hcall, -⟩, -⟩
      exact hvm hcall
    · rintro ⟨call, rfl, ⟨hcall, -⟩, -⟩
      exact hvm hcall
  obtain ⟨o, ho, hfresh, -⟩ := shares_afresh_of_run (plainSystem fun _ => .completes)
    (fun _ => some ["srv", "a"]) sharedA ["/srv/a"] _ (configureSharedFiles_a rfl) (1 : Fin 2) "a"
    ["srv", "a"] rfl (.inl fun _ => rfl)
  obtain rfl : 0 = o := Option.some.inj ho
  refine ⟨tr, w, hrun, hobs, hfresh ?_ tr w hrun⟩
  decide +kernel

/-- **A failed write ends the sharing.** In a clean working directory the VM opens the shared `a`
and asks to write a byte from outside its memory. The request fails and the VM has written
nothing, but its next open of `a` opens the private copy. -/
theorem not_sharesAfresh_of_failedWrite :
    ∃ tr, ∃ w : FileWorld 1,
      ((fileLayer (plainSystem fun _ => .completes) [("a", ["srv", "a"])]).machine
        (FileWorld.start sharedA)).Run (fun w input =>
          ¬ WritesTo (plainSystem fun _ => .completes) [("a", ["srv", "a"])] soleVm "a" w input)
        tr w ∧
      ¬ SharesAfresh (plainSystem fun _ => .completes) [("a", ["srv", "a"])] soleVm "a"
        ["srv", "a"] 0 w := by
  have hexec : (((fileLayer (plainSystem fun _ => .completes) [("a", ["srv", "a"])]).machine
      (FileWorld.start sharedA)).exec (fun w input => ∀ call ∈ input.call,
        (replyTo (plainSystem fun _ => .completes) [("a", ["srv", "a"])] w call).result ≤ 0 ∨
          FileOperation.ofCode call.request.operation = some .openFile)
      (FileWorld.start sharedA)
      [.request ⟨soleVm, memoryA, openRequest fileOpenReadWrite⟩,
        .request ⟨soleVm, memoryA, writeFromEnd 3⟩]).map (fun p =>
        let call : GuestCall 1 := ⟨soleVm, memoryA, openRequest fileOpenReadWrite⟩
        let reply := replyTo (plainSystem fun _ => .completes) [("a", ["srv", "a"])] p.2 call
        ((p.2.states soleVm).openFiles.lookup 4 |>.map OpenFile.shared,
          reply.state.openFiles.lookup 4 |>.map OpenFile.shared)) = some (none, some false) := by
    decide +kernel
  obtain ⟨tr, w, hpath, hobs⟩ := Machine.exists_of_exec hexec
  refine ⟨tr, w, Machine.Path.mono (fun w input hok => ?_) hpath, fun hfresh => ?_⟩
  · rintro ⟨call, rfl, ⟨-, hop, -⟩, hpos⟩
    rcases hok call rfl with hle | hopen
    · exact absurd hpos (not_lt.mpr hle)
    · rw [hop] at hopen
      cases hopen
  · simp only [Prod.mk.injEq, Option.map_eq_none_iff, Option.map_eq_some_iff] at hobs
    obtain ⟨hold, file, hnew, hshared⟩ := hobs
    have hspelled : readGuestFileName memoryA (openRequest fileOpenReadWrite).buffer =
        some "a" := by
      decide +kernel
    have hmarked : file.shared = true := hfresh.shared_of_added rfl rfl hspelled hold hnew
    rw [hmarked] at hshared
    cases hshared

/-- **A later run opens the copy of an earlier one.** Nothing is in the VM's directory at
first. The first run writes one byte to the shared `a`; in the second run the VM, which has
written nothing, opens the private copy that the first run made. -/
theorem shares_afresh_false :
    ¬ ∀ (sys : HostSystem), sys.kernel.Faultless → ∀ (h₀ h : Host HostPath),
      (∀ i name, h₀.names (localPath sys.workingDirectory i name) = none) →
      EarlierRuns sys.workingDirectory h₀ h →
      ∀ (canonical : String → Option HostPath) (paths : List String)
        (sharedFiles : List (String × HostPath)),
        configureSharedFiles canonical h [] paths = .ok sharedFiles →
        ∀ (vm : Fin 1) name path o, sharedFiles.lookup name = some path →
          h.names path = some o → ∀ tr w,
            ((fileLayer sys sharedFiles).machine (FileWorld.start h)).Run
              (fun w input => ¬ WritesTo sys sharedFiles vm name w input) tr w →
            SharesAfresh sys sharedFiles vm name path o w := by
  intro hall
  have hexec : (((fileLayer (plainSystem fun _ => .completes) [("a", ["srv", "a"])]).machine
      (FileWorld.start sharedA)).exec (fun _ _ => True) (FileWorld.start sharedA)
      [.request ⟨(0 : Fin 1), memoryA, openRequest fileOpenReadWrite⟩,
        .request ⟨0, memoryA, writeRequest 3 1⟩]).map
      (fun p => (p.2.host.names ["srv", "a"], p.2.host.names (localPath ["root"] 0 "a"),
        (p.2.host.files 1).readable)) = some (some 0, some 1, true) := by
    decide +kernel
  obtain ⟨tr, w, hrun, hobs⟩ := Machine.exists_of_exec hexec
  simp only [Prod.mk.injEq] at hobs
  obtain ⟨hnamed, hcopy, hread⟩ := hobs
  have hclean : ∀ i name, sharedA.names (localPath ["root"] i name) = none := by
    intro i name
    simp [sharedA, oneFileHost, localPath]
  have hfresh := hall (plainSystem fun _ => .completes) (fun _ => rfl) sharedA w.host hclean
    (.next .none rfl (configureSharedFiles_a rfl) hrun) _ _ _
    (configureSharedFiles_a (by rw [hnamed]; rfl)) 0 "a" _ 0 rfl hnamed [] _ .refl
  refine not_sharesAfresh_of_copy (fun _ => rfl) ⟨by decide, by decide⟩ hcopy hread hfresh

end KvmHypervisor
