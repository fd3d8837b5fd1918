import KvmHypervisor.FaultlessRequests

/-!
# Rejected Requests

When a request that returns `-1` leaves the file layer as it was. No host call fails
without cause here, so every rejection comes from what the request asks for. Three kinds of
rejected requests have effects all the same: the guest buffer of a write is checked after
the switch to a private copy, the limit on positions after the host has moved, and an open
whose descriptor number is `-1` cannot be told from a failed one.

## Main results

* `rejected_unaffected_iff`: in every reachable state, exactly the requests of these three
  kinds break the rule.
* `rejected_unaffected_false`: a write that is rejected and leaves a private copy.
-/

namespace KvmHypervisor

open PosixFiles Transitions

variable {n : ℕ} (sys : HostSystem) (sharedFiles : List (String × HostPath))

/-! ### The property -/

/-- The table with its paths and shared flags, the names and bytes of all files and the
position of every open descriptor are as before. -/
structure Unaffected (s : FileState) (h : Host HostPath) (s' : FileState)
    (h' : Host HostPath) : Prop where
  state : s' = s
  names : h'.names = h.names
  files : ∀ m < h.nextIno, h'.files m = h.files m
  descriptors : ∀ fd, h'.descriptors.lookup fd = h.descriptors.lookup fd

/-- If the request is rejected, it changes nothing. -/
def RejectedUnaffected (w : FileWorld n) (call : GuestCall n) : Prop :=
  (replyTo sys sharedFiles w call).result = -1 →
    Unaffected (w.states call.vm) w.host (replyTo sys sharedFiles w call).state
      (replyTo sys sharedFiles w call).host

/-- A write through a shared entry whose buffer is not in guest memory, when the copy permits
what the entries of the name need. -/
def CopiesInVain (w : FileWorld n) (call : GuestCall n) : Prop :=
  FileOperation.ofCode call.request.operation = some .write ∧
    ∃ file src, Writes call.request (w.states call.vm) file ∧ file.shared = true ∧
      w.host.names file.hostPath = some src ∧
      CopyPermits (w.host.files src) file.name (w.states call.vm) ∧ call.request.count ≠ 0 ∧
      getGuestMemory call.memory call.request.buffer call.request.count.toNat = none

/-- A seek to a position that is too large for a result, away from the current one. -/
def SeeksTooFar (w : FileWorld n) (call : GuestCall n) : Prop :=
  FileOperation.ofCode call.request.operation = some .lseek ∧
    ∃ file e whence offset,
      (w.states call.vm).openFiles.lookup call.request.descriptor = some file ∧
      w.host.descriptors.lookup file.hostDescriptor = some e ∧
      seekTarget call.request = some (whence, offset) ∧
      intMax < w.host.target offset whence e ∧ w.host.target offset whence e ≠ e.offset

/-- An open that succeeds when the next descriptor number is `-1`. -/
def OpensMinusOne (w : FileWorld n) (call : GuestCall n) : Prop :=
  FileOperation.ofCode call.request.operation = some .openFile ∧
    (w.states call.vm).nextDescriptor = -1 ∧ areValidOpenFlags call.request.flags = true ∧
    ∃ name resolved, readGuestFileName call.memory call.request.buffer = some name ∧
      resolved = (resolveFile sys (contextOf sharedFiles call.vm) name w.host).1 ∧
      w.host.canOpen resolved.path (openModeOf resolved call.request.flags) = true

variable {sys sharedFiles}

/-! ### Rejections without effect -/

section Request

variable {s s' : FileState} {h h' : Host HostPath}

/-- Calls without effect. -/
theorem Unaffected.of_unchanged (hu : h.Unchanged h') : Unaffected s h s h' where
  state := rfl
  names := hu.names
  files m _ := congrFun hu.files m
  descriptors := hu.descriptors

/-- A seek to the current position. -/
theorem Unaffected.reposition {fd : ℕ} {e : Description}
    (he : h.descriptors.lookup fd = some e) : Unaffected s h s (h.tick.reposition fd e.offset) where
  state := rfl
  names := rfl
  files _ _ := rfl
  descriptors x := by
    rw [Host.lookup_reposition (h := h.tick) he]
    split_ifs with hx
    · rw [hx, he]
    · rfl

end Request

/-- A rejected open changes nothing, unless it got the number `-1`. -/
theorem openFile_unaffected (hκ : sys.kernel.Faultless) {w : FileWorld n} {call : GuestCall n}
    (hop : FileOperation.ofCode call.request.operation = some .openFile)
    (hno : ¬ OpensMinusOne sys sharedFiles w call) : RejectedUnaffected sys sharedFiles w call := by
  rw [RejectedUnaffected, replyTo, processFileRequest, hop]
  dsimp only
  intro hresult
  rcases openFile_cases sys (contextOf sharedFiles call.vm) call.memory call.request
      (w.states call.vm) w.host with
    ⟨h', hr, hu⟩ | ⟨name, resolved, fd, h₁, h', hflags, hname, -, -, -, -, hr⟩
  · rw [hr]
    exact .of_unchanged hu
  · obtain ⟨resolved', hresolved', -, hopen⟩ :=
      openFile_of_faultless (contextOf sharedFiles call.vm) (w.states call.vm) w.host hκ hflags
        hname
    rcases hopen with ⟨-, h'', hu, hr'⟩ | ⟨hcan, fd', h₂, h'', -, -, -, hr'⟩
    · rw [hr']
      exact .of_unchanged hu
    · rw [hr'] at hresult
      exact absurd ⟨hop, hresult, hflags, name, resolved', hname, hresolved', hcan⟩ hno

/-- A rejected write changes nothing, unless it made a private copy first. -/
theorem writeFile_unaffected (hκ : sys.kernel.Faultless) {w : FileWorld n}
    (hS : Sound sys sharedFiles w) {call : GuestCall n}
    (hop : FileOperation.ofCode call.request.operation = some .write)
    (hno : ¬ CopiesInVain w call) : RejectedUnaffected sys sharedFiles w call := by
  rw [RejectedUnaffected, replyTo, processFileRequest, hop]
  dsimp only
  intro hresult
  by_cases hw : ∃ file, Writes call.request (w.states call.vm) file
  · obtain ⟨file, hw⟩ := hw
    obtain ⟨h', hrefused, hr⟩ | ⟨s', h', file', e', hp, hfile', -, he', hwrite, hr⟩ :=
      writeFile_of_backed call.memory hκ (hS.backed call.vm) (hS.apart.owned call.vm) hw
    · rw [hr]
      exact ⟨rfl, hrefused.names, hrefused.files, hrefused.descriptors⟩
    rw [hr] at hresult ⊢
    have hcount : 0 ≤ call.request.count := hw.2.2
    by_cases hzero : call.request.count = 0
    · simp [writePrepared, hzero] at hresult
    cases hbuffer : getGuestMemory call.memory call.request.buffer call.request.count.toNat with
    | some buffer =>
        rw [writePrepared_of_faultless hκ he' hwrite (by omega) hbuffer] at hresult
        dsimp only at hresult
        omega
    | none =>
        cases hp with
        | own _ =>
            simp only [writePrepared, hzero, if_false, hbuffer]
            exact .of_unchanged (.refl _)
        | @copied src _ _ _ _ hshared hsrc hc hm =>
            have hpermits : CopyPermits (w.host.files src) file.name (w.states call.vm) := by
              intro d file₀ hd hfile₀
              have hcopy := hm.permits d file₀ hd hfile₀
              rwa [hc.files, Function.update_self] at hcopy
            exact absurd ⟨hop, file, src, hw, hshared, hsrc, hpermits, hzero, hbuffer⟩ hno
  · rcases writeFile_cases sys (contextOf sharedFiles call.vm) call.memory call.request
        (w.states call.vm) w.host with ⟨-, hr⟩ | ⟨file, s', h', hw', -⟩
    · rw [hr]
      exact .of_unchanged (.refl _)
    · exact absurd ⟨file, hw'⟩ hw

/-- A rejected seek changes nothing, unless the host has moved. -/
theorem seekFile_unaffected {w : FileWorld n} {call : GuestCall n}
    (hop : FileOperation.ofCode call.request.operation = some .lseek)
    (hno : ¬ SeeksTooFar w call) : RejectedUnaffected sys sharedFiles w call := by
  rw [RejectedUnaffected, replyTo, processFileRequest, hop]
  dsimp only
  intro hresult
  rcases seekFile_cases sys call.memory call.request (w.states call.vm) w.host with
    ⟨h', hr, hu⟩ | ⟨file, e, whence, offset, position, hfile, he, htarget, hposition, hr⟩
  · rw [hr]
    exact .of_unchanged hu
  · rw [hr] at hresult ⊢
    dsimp only at hresult ⊢
    have hlarge : intMax < (position : ℤ) := by
      by_contra hsmall
      rw [if_neg hsmall] at hresult
      omega
    have hsame : position = e.offset := by
      by_contra hmoves
      refine hno ⟨hop, file, e, whence, offset, hfile, he, htarget, hposition ▸ hlarge, ?_⟩
      rw [← hposition]
      exact_mod_cast hmoves
    rw [hsame]
    exact .reposition he

/-! ### Rejections with an effect -/

/-- An open that got the number `-1` is in the table. -/
theorem OpensMinusOne.affects (hκ : sys.kernel.Faultless) {w : FileWorld n} {call : GuestCall n}
    (hd : OpensMinusOne sys sharedFiles w call) : ¬ RejectedUnaffected sys sharedFiles w call := by
  obtain ⟨hop, hnext, hflags, name, resolved, hname, rfl, hcan⟩ := hd
  obtain ⟨resolved', rfl, -, hopen⟩ :=
    openFile_of_faultless (contextOf sharedFiles call.vm) (w.states call.vm) w.host hκ hflags
      hname
  rw [RejectedUnaffected, replyTo, processFileRequest, hop]
  dsimp only
  rcases hopen with ⟨hno, -⟩ | ⟨-, fd, h₁, h', -, -, -, hr⟩
  · rw [hcan] at hno
    cases hno
  · rw [hr]
    intro hun
    have hstate : (w.states call.vm).increment = (w.states call.vm).nextDescriptor :=
      congrArg FileState.nextDescriptor (hun hnext).state
    rw [FileState.increment, hnext] at hstate
    exact absurd hstate (by decide)

/-- The entry of a write with an invalid buffer has moved to a private copy. -/
theorem CopiesInVain.affects (hκ : sys.kernel.Faultless) {w : FileWorld n}
    (hS : Sound sys sharedFiles w) {call : GuestCall n} (hd : CopiesInVain w call) :
    ¬ RejectedUnaffected sys sharedFiles w call := by
  obtain ⟨hop, file, src, hw, hshared, hsrc, hpermits, hzero, hbuffer⟩ := hd
  obtain ⟨h', hrefused, -⟩ | ⟨s', h', file', e', hp, hfile', hown, -, -, hr⟩ :=
    writeFile_of_backed call.memory hκ (hS.backed call.vm) (hS.apart.owned call.vm) hw
  · obtain ⟨src', hsrc', hforbidden⟩ := hrefused.forbidden
    obtain rfl := Option.some.inj (hsrc.symm.trans hsrc')
    exact absurd hpermits hforbidden
  rw [RejectedUnaffected, replyTo, processFileRequest, hop]
  dsimp only
  rw [hr]
  simp only [writePrepared, hzero, if_false, hbuffer]
  intro hun
  have hstate : s' = w.states call.vm := (hun rfl).state
  rw [hstate, hw.1] at hfile'
  obtain rfl := Option.some.inj hfile'
  rw [hshared] at hown
  cases hown

/-- The descriptor of a seek too far has moved. -/
theorem SeeksTooFar.affects (hκ : sys.kernel.Faultless) {w : FileWorld n} {call : GuestCall n}
    (hd : SeeksTooFar w call) : ¬ RejectedUnaffected sys sharedFiles w call := by
  obtain ⟨hop, file, e, whence, offset, hfile, he, htarget, hlarge, hmoves⟩ := hd
  have hnonneg : ¬ w.host.target offset whence e < 0 := by
    rw [intMax] at hlarge
    omega
  rw [RejectedUnaffected, replyTo, processFileRequest, hop]
  dsimp only
  rw [seekFile_of_faultless hκ hfile he htarget, if_neg hnonneg, if_pos hlarge]
  intro hun
  have hfd := (hun rfl).descriptors file.hostDescriptor
  dsimp only at hfd
  rw [Host.lookup_reposition (h := w.host.tick) he, if_pos rfl, he, Option.some.injEq] at hfd
  have hoffset : (w.host.target offset whence e).toNat = e.offset :=
    congrArg Description.offset hfd
  exact hmoves (by omega)

/-! ### Main results -/

/-- **Exactly which rejected requests have effects.** In every state that requests and
clean-ups of any number of VMs reach while no host call fails without cause, a request that
returns `-1` changes nothing, unless it is a write through a shared entry that can be switched,
with a buffer outside guest memory, a seek that moves past the largest result, or an open whose
descriptor number is `-1`; and each of these does change something. -/
theorem rejected_unaffected_iff (sys : HostSystem) (hκ : sys.kernel.Faultless)
    (sharedFiles : List (String × HostPath)) (h : Host HostPath)
    (tr : List (FileInput n × Option Answer)) (w : FileWorld n)
    (hrun : ((fileLayer sys sharedFiles).machine (FileWorld.start h)).Run
      (fun _ _ => True) tr w) (call : GuestCall n) :
    RejectedUnaffected sys sharedFiles w call ↔
      ¬ (CopiesInVain w call ∨ SeeksTooFar w call ∨ OpensMinusOne sys sharedFiles w call) := by
  obtain ⟨hS, -⟩ := sound_of_run hκ hrun
  constructor
  · rintro hun (hd | hd | hd)
    · exact hd.affects hκ hS hun
    · exact hd.affects hκ hun
    · exact hd.affects hκ hun
  · intro hno
    rw [not_or, not_or] at hno
    obtain ⟨hcopies, hseeks, hopens⟩ := hno
    rcases hop : FileOperation.ofCode call.request.operation with _ | op
    · rw [RejectedUnaffected, replyTo, processFileRequest, hop]
      exact fun _ => .of_unchanged (.refl _)
    cases op with
    | openFile => exact openFile_unaffected hκ hop hopens
    | write => exact writeFile_unaffected hκ hS hop hcopies
    | lseek => exact seekFile_unaffected hop hseeks
    | close =>
        rw [RejectedUnaffected, replyTo, processFileRequest, hop]
        dsimp only
        intro hresult
        rcases closeFile_cases call.memory (w.states call.vm) w.host call.request.descriptor with
          ⟨-, hr⟩ | ⟨file, hfile, hr⟩
        · rw [hr]
          exact .of_unchanged (.refl _)
        · obtain ⟨e, he⟩ := (hS.apart.owned call.vm).isOpen _ file hfile
          simp [hr, he] at hresult
    | read =>
        rw [RejectedUnaffected, replyTo, processFileRequest, hop]
        dsimp only
        intro hresult
        rcases readFile_cases sys call.memory call.request (w.states call.vm) w.host with
          ⟨result, h', hr, hu, -⟩ | ⟨file, e, buffer, data, -, -, -, hr⟩
        · rw [hr]
          exact .of_unchanged hu
        · rw [hr] at hresult
          dsimp only at hresult
          omega

/-- The result applies after a private copy was made: a write to an unknown descriptor is
rejected and changes nothing. -/
theorem rejected_unaffected_iff_unknownDescriptor :
    ∃ tr, ∃ w : FileWorld 1,
      ((fileLayer (plainSystem fun _ => .completes) [("a", ["srv", "a"])]).machine
        (FileWorld.start sharedA)).Run (fun _ _ => True) tr w ∧
      (replyTo (plainSystem fun _ => .completes) [("a", ["srv", "a"])] w
        ⟨0, memoryA, writeFromEnd 9⟩).result = -1 ∧
      RejectedUnaffected (plainSystem fun _ => .completes) [("a", ["srv", "a"])] w
        ⟨0, memoryA, writeFromEnd 9⟩ := by
  have hexec : (((fileLayer (plainSystem fun _ => .completes) [("a", ["srv", "a"])]).machine
      (FileWorld.start sharedA)).exec (fun _ _ => True) (FileWorld.start sharedA)
      (copyThenReopen.map .request)).map
      (fun p => ((replyTo (plainSystem fun _ => .completes) [("a", ["srv", "a"])] p.2
        ⟨0, memoryA, writeFromEnd 9⟩).result, (p.2.states 0).openFiles.lookup 9)) =
          some (-1, none) := by
    decide +kernel
  obtain ⟨tr, w, hrun, hobs⟩ := Machine.exists_of_exec hexec
  rw [Prod.mk.injEq] at hobs
  refine ⟨tr, w, hrun, hobs.1,
    (rejected_unaffected_iff _ (fun _ => rfl) _ sharedA tr w hrun _).mpr ?_⟩
  rintro (⟨-, file, -, hw, -⟩ | ⟨hop, -⟩ | ⟨hop, -⟩)
  · have hnone := hobs.2
    rw [show (9 : ℤ) = (writeFromEnd 9).descriptor from rfl, hw.1] at hnone
    cases hnone
  · cases hop
  · cases hop

/-- **A rejected write leaves a private copy behind.** The VM opens the shared `a` for
reading and writing and writes from outside its memory: the request returns `-1`, but the
VM now has a file `a` of its own. -/
theorem rejected_unaffected_false :
    ¬ ∀ (sys : HostSystem), sys.kernel.Faultless →
      ∀ (sharedFiles : List (String × HostPath)) (h : Host HostPath)
        (tr : List (FileInput 1 × Option Answer)) (w : FileWorld 1),
        ((fileLayer sys sharedFiles).machine (FileWorld.start h)).Run (fun _ _ => True) tr w →
        ∀ call, RejectedUnaffected sys sharedFiles w call := by
  intro hall
  have hexec : (((fileLayer (plainSystem fun _ => .completes) [("a", ["srv", "a"])]).machine
      (FileWorld.start sharedA)).exec (fun _ _ => True) (FileWorld.start sharedA)
      [.request ⟨(0 : Fin 1), memoryA, openRequest fileOpenReadWrite⟩]).map
      (fun p =>
        let reply := replyTo (plainSystem fun _ => .completes) [("a", ["srv", "a"])] p.2
          ⟨0, memoryA, writeFromEnd 3⟩
        (reply.result, p.2.host.names (localPath ["root"] 0 "a"),
          reply.host.names (localPath ["root"] 0 "a"))) = some (-1, none, some 1) := by
    decide +kernel
  obtain ⟨tr, w, hrun, hobs⟩ := Machine.exists_of_exec hexec
  simp only [Prod.mk.injEq] at hobs
  obtain ⟨hresult, hbefore, hafter⟩ := hobs
  have hun := hall _ (fun _ => rfl) _ sharedA tr w hrun ⟨0, memoryA, writeFromEnd 3⟩ hresult
  rw [hun.names, hbefore] at hafter
  cases hafter

end KvmHypervisor
