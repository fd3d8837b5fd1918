import KvmHypervisor.Descriptors

/-!
# What Stands Behind an Entry

In runs in which no host call fails without cause, every entry of a descriptor table stays
tied to the file it was opened on. An entry marked shared stands on the original of its
name, may only read it, and the VM has no file of that name yet; any other entry stands on
the VM's own file of its name, with the access its flags ask for. In such a state a switch
to a private copy fails only if the permissions of the original let the hypervisor read it, but
not its owner: the hypervisor owns the copy.

## Main results

* `Backed.processFileRequest`: one request of a VM.
* `sound_of_run`: every run of requests and clean-ups of any number of VMs.
* `names_original_of_run`: when the path of an original keeps naming it.
* `prepared_of_backed`: preparing a write succeeds, and the entry is private afterwards, unless
  a copy does not permit what the entries need.
-/

namespace KvmHypervisor

open PosixFiles Transitions

variable (sys : HostSystem) (context : GuestContext)

/-! ### Entries and descriptions -/

/-- What a shared entry stands on: the original of its name, opened for reading. -/
structure SharedBacking (file : OpenFile) (e : Description) (h : Host HostPath) : Prop where
  original : context.sharedFiles.lookup file.name = some file.hostPath
  absent : h.names (sys.localPathOf context file.name) = none
  named : h.names file.hostPath = some e.ino
  legible : (h.files e.ino).readable = true
  readable : e.readable = true
  writable : e.writable = false

/-- What any other entry stands on: the VM's own file of its name, with the access its
flags ask for. -/
structure OwnBacking (file : OpenFile) (e : Description) (h : Host HostPath) : Prop where
  named : h.names (sys.localPathOf context file.name) = some e.ino
  readable : e.readable = (toHostOpenFlags file.flags).readable
  writable : e.writable = (toHostOpenFlags file.flags).writable

/-- What an entry stands on. -/
structure Backing (file : OpenFile) (e : Description) (h : Host HostPath) : Prop where
  shared : file.shared = true → SharedBacking sys context file e h
  own : file.shared = false → OwnBacking sys context file e h

/-- Every entry of the table has an open descriptor that backs it. -/
def Backed (s : FileState) (h : Host HostPath) : Prop :=
  ∀ d file, s.openFiles.lookup d = some file →
    ∃ e, h.descriptors.lookup file.hostDescriptor = some e ∧ Backing sys context file e h

variable {sys context}
variable {s s' : FileState} {h h' : Host HostPath} {file : OpenFile} {e : Description}

/-- An entry keeps its backing while the host grows, as long as no file takes the place of
a shared one. -/
theorem Backing.grows (hb : Backing sys context file e h) (hg : h.Grows h')
    (habsent : file.shared = true →
      h.names (sys.localPathOf context file.name) = none →
      h'.names (sys.localPathOf context file.name) = none) :
    Backing sys context file e h' where
  shared hshared := by
    obtain ⟨horiginal, hnone, hnamed, hlegible, hread, hwrite⟩ := hb.shared hshared
    refine ⟨horiginal, habsent hshared hnone, hg.names _ _ hnamed, ?_, hread, hwrite⟩
    rw [hg.readable _ (h.named_lt _ _ hnamed), hlegible]
  own hown := by
    obtain ⟨hnamed, hread, hwrite⟩ := hb.own hown
    exact ⟨hg.names _ _ hnamed, hread, hwrite⟩

/-- The offset of a description does not matter. -/
theorem Backing.reposition (hb : Backing sys context file e h) (offset : ℕ) :
    Backing sys context file { e with offset := offset } h where
  shared hshared := by
    obtain ⟨horiginal, hnone, hnamed, hlegible, hread, hwrite⟩ := hb.shared hshared
    exact ⟨horiginal, hnone, hnamed, hlegible, hread, hwrite⟩
  own hown := by
    obtain ⟨hnamed, hread, hwrite⟩ := hb.own hown
    exact ⟨hnamed, hread, hwrite⟩

/-- The descriptors of a backed table are open. -/
theorem Backed.entriesOpen (hb : Backed sys context s h) : EntriesOpen s h := by
  intro d file hfile
  obtain ⟨e, he, -⟩ := hb d file hfile
  exact ⟨e, he⟩

/-- A table without entries. -/
theorem Backed.of_empty (hs : s.openFiles = ∅) : Backed sys context s h := by
  intro d file hfile
  rw [hs, Finmap.lookup_empty] at hfile
  cases hfile

/-- A table stays backed while the host grows and its descriptions only move. -/
theorem Backed.grows (hb : Backed sys context s h) (hg : h.Grows h')
    (hentries : ∀ d file, s'.openFiles.lookup d = some file →
      s.openFiles.lookup d = some file)
    (hdescriptors : ∀ d file e, s'.openFiles.lookup d = some file →
      h.descriptors.lookup file.hostDescriptor = some e →
      ∃ offset, h'.descriptors.lookup file.hostDescriptor = some { e with offset := offset })
    (habsent : ∀ name, (context.sharedFiles.lookup name).isSome →
      h.names (sys.localPathOf context name) = none →
      h'.names (sys.localPathOf context name) = none) :
    Backed sys context s' h' := by
  intro d file hfile
  obtain ⟨e, he, hback⟩ := hb d file (hentries d file hfile)
  obtain ⟨offset, he'⟩ := hdescriptors d file e hfile he
  refine ⟨_, he', (hback.reposition offset).grows hg fun hshared hnone => ?_⟩
  refine habsent file.name ?_ hnone
  rw [(hback.shared hshared).original]
  rfl

/-! ### Open -/

/-- An open at most creates a file. -/
theorem OpensAt.grows {path : HostPath} {mode : OpenMode} {fd : ℕ}
    (ho : OpensAt path mode fd h h') : h.Grows h' := by
  rcases ho with ⟨_, -, -, rfl⟩ | ⟨hnone, -, rfl⟩
  · exact .of_eq rfl rfl rfl
  · have hlink : h.Grows (h.link path (.made [])) := .link hnone _
    refine hlink.trans (.of_eq ?_ ?_ ?_)
    all_goals rfl

/-- A successful open under a resolution, when the probe told the truth. -/
theorem Backed.open {request : FileRequest} (hκ : sys.kernel.Faultless)
    (hb : Backed sys context s h) {name : String} {resolved : ResolvedFile} {fd : ℕ}
    {h₁ : Host HostPath} (hu : h.Unchanged h₁)
    (hresolves : Resolves sys context name h resolved)
    (hfresh : h₁.descriptors.lookup fd = none)
    (ho : OpensAt resolved.path (openModeOf resolved request.flags) fd h₁ h') :
    Backed sys context (s.emplace ⟨fd, request.flags, name, resolved.path, resolved.shared⟩) h' ∧
      h.Grows h' := by
  have hg₁ : h.Grows h₁ := .of_eq hu.names hu.files hu.nextIno
  obtain ⟨m, hm, hlookup⟩ := ho.lookup
  have hg : h₁.Grows h' := ho.grows
  -- no shared name gets a file
  have habsent : ∀ name', (context.sharedFiles.lookup name').isSome →
      h.names (sys.localPathOf context name') = none →
      h'.names (sys.localPathOf context name') = none := fun _ =>
    names_of_opensAt_shared h hresolves hu ho
  refine ⟨fun d file hfile => ?_, hg₁.trans hg⟩
  rw [FileState.lookup_emplace] at hfile
  split_ifs at hfile with hd
  · obtain rfl := Option.some.inj hfile
    refine ⟨_, by rw [hlookup, if_pos rfl], fun hshared => ?_, fun hown => ?_⟩
    · dsimp only at hshared ⊢
      obtain ⟨horiginal, hmiss⟩ := hresolves.original hshared
      have hnone : h.names (sys.localPathOf context name) = none := by
        refine hmiss.elim id fun hfail => ?_
        rw [hκ] at hfail
        cases hfail
      have hmode : openModeOf resolved request.flags = readOnly := by simp [openModeOf, hshared]
      refine ⟨horiginal, habsent name (by simp [horiginal]) hnone, hm, ?_,
        by simp [hmode, readOnly],
        by simp [hmode, readOnly]⟩
      rcases ho with ⟨m', hm', hpermits, rfl⟩ | ⟨-, hcreate, -⟩
      · obtain rfl : m = m' := Option.some.inj (hm.symm.trans hm')
        simpa [File.permits, hmode, readOnly] using hpermits
      · simp [hmode, readOnly] at hcreate
    · dsimp only at hown ⊢
      have hmode : openModeOf resolved request.flags = toHostOpenFlags request.flags := by
        simp [openModeOf, hown]
      exact ⟨(hresolves.own hown).1 ▸ hm, by rw [hmode], by rw [hmode]⟩
  · obtain ⟨e, he, hback⟩ := hb d file hfile
    have hne : file.hostDescriptor ≠ fd := by
      rintro rfl
      rw [hu.descriptors, he] at hfresh
      cases hfresh
    refine ⟨e, by rw [hlookup, if_neg hne, hu.descriptors, he],
      hback.grows (hg₁.trans hg) fun hshared => habsent file.name ?_⟩
    rw [(hback.shared hshared).original]
    rfl

/-! ### The switch -/

/-- In a backed table nothing but the permissions of the copy keeps a switch from succeeding. -/
theorem canSwitch_of_backed (hκ : sys.kernel.Faultless) (hb : Backed sys context s h) {d : ℤ}
    (hfile : s.openFiles.lookup d = some file) (hshared : file.shared = true) {src : ℕ}
    (hsrc : h.names file.hostPath = some src) (hpermits : CopyPermits (h.files src) file.name s) :
    CanSwitch sys context file s h := by
  obtain ⟨e, -, hback⟩ := hb d file hfile
  obtain ⟨-, habsent, hnamed, hlegible, -, -⟩ := hback.shared hshared
  obtain rfl := Option.some.inj (hnamed.symm.trans hsrc)
  exact ⟨hκ, habsent, ⟨_, hnamed, hlegible, hpermits⟩, hb.entriesOpen,
    ⟨d, isSharedEntry_iff.mpr ⟨file, hfile, hshared, rfl⟩⟩⟩

/-- A switch that was refused: a copy does not permit what an entry of the name needs, and
everything is as before. -/
structure Refused (file : OpenFile) (s : FileState) (h : Host HostPath) (s' : FileState)
    (h' : Host HostPath) : Prop where
  shared : file.shared = true
  forbidden : ∃ src, h.names file.hostPath = some src ∧ ¬ CopyPermits (h.files src) file.name s
  state : s' = s
  names : h'.names = h.names
  files : ∀ n < h.nextIno, h'.files n = h.files n
  nextIno : h.nextIno ≤ h'.nextIno
  descriptors : ∀ fd, h'.descriptors.lookup fd = h.descriptors.lookup fd

/-- A refused switch leaves a backed table. -/
theorem Refused.backed (hr : Refused file s h s' h') (hb : Backed sys context s h) :
    Backed sys context s' h' ∧ h.Grows h' := by
  have hg : h.Grows h' :=
    ⟨fun p n hp => by rw [hr.names, hp], fun n hn => by rw [hr.files n hn], hr.nextIno⟩
  rw [hr.state]
  refine ⟨hb.grows hg (fun _ _ hfile => hfile) (fun d file e _ he => ?_) fun name _ hnone => ?_, hg⟩
  · exact ⟨e.offset, by rw [hr.descriptors, he]⟩
  · rw [hr.names, hnone]

/-- After a switch, every entry of the name stands on the private copy. -/
theorem Backed.move (hb : Backed sys context s h) (ho : Owned s h) {name : String} {src : ℕ}
    {fd : ℤ → ℕ} {h₁ : Host HostPath}
    (hc : CopiedTo (sys.localPathOf context name) src h h₁)
    (hm : Moved s s' name (sys.localPathOf context name) h.nextIno fd h₁ h') :
    Backed sys context s' h' ∧ h.Grows h' := by
  have hg : h.Grows h' := by
    refine ⟨fun p m hp => ?_, fun m hlt => ?_, ?_⟩
    · have hne : p ≠ sys.localPathOf context name := by
        rintro rfl
        rw [hc.absent] at hp
        cases hp
      rw [hm.names, hc.names, Function.update_of_ne hne, hp]
    · rw [hm.files, hc.files, Function.update_of_ne hlt.ne]
    · rw [hm.nextIno, hc.nextIno]
      exact Nat.le_succ _
  have hopen : EntriesOpen s h₁ := by
    intro d file hfile
    obtain ⟨e, he⟩ := hb.entriesOpen d file hfile
    exact ⟨e, by rw [hc.descriptors, he]⟩
  refine ⟨fun d file' hfile' => ?_, hg⟩
  rw [hm.table] at hfile'
  split_ifs at hfile' with hentry
  · obtain ⟨file, hfile, rfl⟩ := Option.map_eq_some_iff.mp hfile'
    obtain ⟨file₀, hfile₀, -, hname⟩ := isSharedEntry_iff.mp hentry
    obtain rfl : file = file₀ := Option.some.inj (hfile.symm.trans hfile₀)
    obtain ⟨e, he⟩ := hopen d file hfile
    refine ⟨_, hm.moved hopen d file e hentry hfile he, nofun, fun _ => ⟨?_, rfl, rfl⟩⟩
    rw [hm.names, hc.names, OpenFile.moved, hname, Function.update_self]
    rfl
  · obtain ⟨e, he, hback⟩ := hb d file' hfile'
    have hkept : h'.descriptors.lookup file'.hostDescriptor = some e := by
      refine hm.kept _ e (by rw [hc.descriptors, he]) fun d' file₀ hd' hfile₀ heq => ?_
      obtain rfl := ho.inj d' d file₀ file' hfile₀ hfile' heq
      exact hentry hd'
    refine ⟨e, hkept, hback.grows hg fun hshared hnone => ?_⟩
    have hne : sys.localPathOf context file'.name ≠ sys.localPathOf context name := by
      intro heq
      exact hentry (isSharedEntry_iff.mpr ⟨file', hfile', hshared, (localPath_inj.mp heq).2⟩)
    rw [hm.names, hc.names, Function.update_of_ne hne, hnone]

/-- **Preparing a write succeeds** in a backed table or is refused, and leaves a backed one. -/
theorem prepared_of_backed (hκ : sys.kernel.Faultless) (hb : Backed sys context s h)
    (ho : Owned s h) {d : ℤ} (hfile : s.openFiles.lookup d = some file) {ok : Bool}
    (hp : Prepared sys context file s h ok s' h') :
    (ok = false → Refused file s h s' h') ∧ Backed sys context s' h' ∧ h.Grows h' := by
  cases hp with
  | own _ => exact ⟨nofun, hb, .of_eq rfl rfl rfl⟩
  | noDirectory _ hfail =>
      rw [hκ] at hfail
      cases hfail
  | discarded hshared _ hd hno =>
      obtain ⟨e, -, hback⟩ := hb d file hfile
      obtain ⟨-, habsent, hnamed, -, -, -⟩ := hback.shared hshared
      have hrefused : Refused file s h s h' :=
        { shared := hshared
          forbidden := ⟨_, hnamed, fun hpermits =>
            hno (canSwitch_of_backed hκ hb hfile hshared hnamed hpermits)⟩
          state := rfl
          names := by rw [hd.names, ← habsent, Function.update_eq_self]
          files := hd.files
          nextIno := hd.nextIno
          descriptors := hd.descriptors }
      exact ⟨fun _ => hrefused, hrefused.backed hb⟩
  | copied _ _ hc hm => exact ⟨nofun, hb.move ho hc hm⟩

/-! ### One request -/

/-- A description of the table moves and perhaps a file changes its bytes. -/
theorem Backed.reposition (hb : Backed sys context s h) (hg : h.Grows h') (fd offset : ℕ)
    (hnames : h'.names = h.names) (hdescriptors : h'.descriptors = h.descriptors)
    (hfd : h.descriptors.lookup fd = some e) :
    Backed sys context s (h'.reposition fd offset) ∧ h.Grows (h'.reposition fd offset) := by
  have hg' : h.Grows (h'.reposition fd offset) := hg.trans (.of_eq rfl rfl rfl)
  have hfd' : h'.descriptors.lookup fd = some e := by rw [hdescriptors, hfd]
  refine ⟨hb.grows hg' (fun _ _ hfile => hfile) (fun d file e' _ he' => ?_) fun name _ hnone => ?_,
    hg'⟩
  · rw [Host.lookup_reposition hfd', hdescriptors, he']
    split_ifs with heq
    · rw [heq, hfd] at he'
      obtain rfl := Option.some.inj he'
      exact ⟨offset, rfl⟩
    · exact ⟨e'.offset, rfl⟩
  · rw [Host.names_reposition, hnames, hnone]

/-- **One request** of a VM keeps its table backed, and the host only grows. -/
theorem Backed.processFileRequest (memory : GuestMemory) (request : FileRequest)
    (hκ : sys.kernel.Faultless) (hb : Backed sys context s h) (ho : Owned s h) :
    Backed sys context (processFileRequest sys context memory request s h).state
        (processFileRequest sys context memory request s h).host ∧
      h.Grows (processFileRequest sys context memory request s h).host := by
  have heffect := processFileRequest_effect sys context memory request s h
  generalize KvmHypervisor.processFileRequest sys context memory request s h = reply
    at heffect ⊢
  have unchanged : ∀ {s₁ : FileState} {h₁ h₂ : Host HostPath}, Backed sys context s₁ h₁ →
      h₁.Unchanged h₂ → Backed sys context s₁ h₂ ∧ h₁.Grows h₂ := by
    intro s₁ h₁ h₂ hb₁ hu
    have hg : h₁.Grows h₂ := .of_eq hu.names hu.files hu.nextIno
    refine ⟨hb₁.grows hg (fun _ _ hfile => hfile) (fun d file e _ he => ?_) fun name _ hnone => ?_,
      hg⟩
    · exact ⟨e.offset, by rw [hu.descriptors, he]⟩
    · rw [hu.names, hnone]
  cases heffect with
  | nothing _ hu => exact unchanged hb hu
  | opens _ _ hres hu hfd hopens => exact hb.open hκ hu hres hfd hopens
  | @closes file _ _ hfile =>
      have hg : h.Grows (h.release file.hostDescriptor) := .of_eq rfl rfl rfl
      refine ⟨hb.grows hg (fun d file' hfile' => ?_) (fun d file' e hfile' he => ?_)
        fun name _ hnone => hnone, hg⟩
      · rw [lookup_erase_eq] at hfile'
        split_ifs at hfile'
        exact hfile'
      · rw [lookup_erase_eq] at hfile'
        split_ifs at hfile' with hd
        have hne : file'.hostDescriptor ≠ file.hostDescriptor :=
          fun heq => hd (ho.inj d request.descriptor file' file hfile' hfile heq)
        exact ⟨e.offset, by rw [Host.lookup_release, if_neg hne, he]⟩
  | moves _ _ hd =>
      have htick : h.Grows h.tick := .of_eq rfl rfl rfl
      exact hb.reposition htick _ _ rfl rfl hd
  | prepares _ hw hp hu =>
      obtain ⟨-, hb', hg'⟩ := prepared_of_backed hκ hb ho hw.1 hp
      obtain ⟨hb'', hg''⟩ := unchanged hb' hu
      exact ⟨hb'', hg'.trans hg''⟩
  | @writes file file' s' h' d data _ hw hp hfile' hd _ =>
      obtain ⟨-, hb', hg'⟩ := prepared_of_backed hκ hb ho hw.1 hp
      have hset : h'.tick.Grows (h'.tick.setFile d.ino { h'.files d.ino with
          bytes := overwrite (h'.files d.ino).bytes d.offset data }) := .setFile rfl
      have htick : h'.Grows h'.tick := .of_eq rfl rfl rfl
      obtain ⟨hb'', hg''⟩ := hb'.reposition (htick.trans hset) file'.hostDescriptor
        (d.offset + data.length) rfl rfl hd
      exact ⟨hb'', hg'.trans hg''⟩

/-! ### All VMs -/

section World

variable {n : ℕ} (sys) (sharedFiles : List (String × HostPath))

/-- The tables of all VMs are apart and backed. -/
structure Sound (w : FileWorld n) : Prop where
  apart : EntriesApart w
  backed : ∀ vm, Backed sys (contextOf sharedFiles vm) (w.states vm) w.host

variable {sys sharedFiles}

/-- A step of one VM that grows the host keeps the tables of the others backed. -/
theorem Sound.update {w : FileWorld n} (hS : Sound sys sharedFiles w) {vm : Fin n}
    {s' : FileState} {h' : Host HostPath} (hh : Handover (w.states vm) w.host s' h')
    (hb : Backed sys (contextOf sharedFiles vm) s' h') (hg : w.host.Grows h')
    (hnames : ∀ vm' name, vm' ≠ vm →
      h'.names (sys.localPathAt vm' name) = w.host.names (sys.localPathAt vm' name)) :
    Sound sys sharedFiles (w.update vm s' h') := by
  refine ⟨hS.apart.update hh, fun vm' => ?_⟩
  by_cases hvm : vm' = vm
  · subst hvm
    simpa [FileWorld.update] using hb
  · simp only [FileWorld.update, Function.update_of_ne hvm]
    refine (hS.backed vm').grows hg (fun _ _ hfile => hfile) (fun d file e hfile he => ?_) ?_
    · refine ⟨e.offset, hh.others _ e (fun hheld => ?_) he⟩
      exact hvm (hS.apart.apart vm' vm _ ⟨d, file, hfile, rfl⟩ hheld)
    · intro name _ hnone
      exact (hnames vm' name hvm).trans hnone

/-- One request of any VM keeps all tables sound. -/
theorem Sound.serve (hκ : sys.kernel.Faultless) {w : FileWorld n}
    (hS : Sound sys sharedFiles w) (call : GuestCall n) :
    Sound sys sharedFiles ((fileServer sys sharedFiles).step w call).2 ∧
      w.host.Grows ((fileServer sys sharedFiles).step w call).2.host := by
  obtain ⟨hb, hg⟩ := (hS.backed call.vm).processFileRequest call.memory call.request hκ
    (hS.apart.owned call.vm)
  refine ⟨hS.update (processFileRequest_handover (hS.apart.owned call.vm)).1 hb hg ?_, hg⟩
  intro vm' name hvm
  exact names_processFileRequest _ _ _ _ fun name' => localPathAt_ne hvm name' name

/-- One step of the file layer keeps all tables sound. -/
theorem Sound.step (hκ : sys.kernel.Faultless) {w : FileWorld n}
    (hS : Sound sys sharedFiles w) (input : FileInput n) :
    Sound sys sharedFiles ((fileLayer sys sharedFiles).step w input).2 ∧
      w.host.Grows ((fileLayer sys sharedFiles).step w input).2.host := by
  cases input with
  | request call => exact hS.serve hκ call
  | finish vm =>
      obtain ⟨hnames, hfiles, hnext⟩ := closeGuestFiles_frame sys (w.states vm) w.host
      have hg : w.host.Grows (closeGuestFiles sys (w.states vm) w.host).2 :=
        .of_eq hnames hfiles hnext
      exact ⟨hS.update (closeGuestFiles_handover sys (hS.apart.owned vm)).1 (.of_empty rfl) hg
        fun vm' name _ => congrFun hnames _, hg⟩

/-- No VM has an entry at start-up. -/
theorem Sound.start (h : Host HostPath) :
    Sound sys sharedFiles (FileWorld.start h : FileWorld n) := by
  refine ⟨⟨fun vm => ⟨?_, ?_⟩, ?_⟩, fun vm => .of_empty rfl⟩
  · intro d file hfile
    cases hfile
  · intro d d' file file' hfile
    cases hfile
  · rintro vm vm' fd ⟨d, file, hfile, -⟩
    cases hfile

/-- **Runs.** In every run of requests and clean-ups of any number of VMs in which no host
call fails without cause, all tables are sound and the host has grown since the start. -/
theorem sound_of_run (hκ : sys.kernel.Faultless) {h : Host HostPath}
    {tr : List (FileInput n × Option Answer)} {w : FileWorld n}
    (hrun : ((fileLayer sys sharedFiles).machine (FileWorld.start h)).Run
      (fun _ _ => True) tr w) : Sound sys sharedFiles w ∧ h.Grows w.host := by
  refine Transducer.invariant (I := fun w => Sound sys sharedFiles w ∧ h.Grows w.host)
    ⟨.start h, .of_eq rfl rfl rfl⟩ (fun w input hI _ => ?_) hrun
  obtain ⟨hS, hg⟩ := hI.1.step hκ input
  exact ⟨hS, hI.2.trans hg⟩

/-- The path of an original keeps naming it, if no host call fails without cause or the path
lies outside the VMs' directories. -/
theorem names_original_of_run {h : Host HostPath} {path : HostPath} {o : ℕ}
    (hnamed : h.names path = some o)
    (hstays : sys.kernel.Faultless ∨ ∀ (vm : Fin n) name, path ≠ sys.localPathAt vm name)
    {ok : FileWorld n → FileInput n → Prop} {tr : List (FileInput n × Option Answer)}
    {w : FileWorld n}
    (hrun : ((fileLayer sys sharedFiles).machine (FileWorld.start h)).Run ok tr w) :
    w.host.names path = some o := by
  rcases hstays with hκ | houtside
  · obtain ⟨-, hg⟩ := sound_of_run hκ (hrun.mono fun _ _ _ => trivial)
    exact hg.names path o hnamed
  · refine Transducer.invariant (I := fun w => w.host.names path = some o) hnamed
      (fun w input hI _ => ?_) hrun
    cases input with
    | request call =>
        have hnames : (replyTo sys sharedFiles w call).host.names path = w.host.names path :=
          names_processFileRequest _ _ _ _ fun name' => houtside call.vm name'
        exact hnames.trans hI
    | finish vm' =>
        have hnames := (closeGuestFiles_frame sys (w.states vm') w.host).1
        exact (congrFun hnames path).trans hI

end World

end KvmHypervisor
