import KvmHypervisor.FileExits
import KvmHypervisor.FileRuns
import KvmHypervisor.NestedCalls
import KvmHypervisor.PortIo

/-!
# Requests Under Interrupts

The exits of one VM on the file port, one after the other. `submit_file_request` is an OUT and
an IN, and an interrupt handler that runs between the two may make requests of its own. The
host keeps the results of a VM on a stack, `pendingResults`, and knows nothing of its callers.

Whatever happens between two exits is not part of this machine: every exit finds a guest memory
and a host of its own.
-/

open Transitions NestedCalls

namespace KvmHypervisor

open PosixFiles

/-- An exit of a VM, with the guest memory and the host it finds. -/
structure FileExit where
  run : KvmRun
  memory : GuestMemory
  host : Host HostPath

variable (sys : HostSystem) (context : GuestContext)

/-- What an exit that was handled tells: the result of the request that an OUT has submitted, or
the value that the guest of an IN finds. -/
def FileExit.event (x : FileExit) (s : FileState) (frame : FileIoFrame) : CallEvent ℤ :=
  if x.run.io.direction = kvmExitIoOut then
    .call (submitRequest sys context x.memory (readUint32 x.run.bytes x.run.io.dataOffset) s
      x.host).result
  else .ret (readInt32 frame.bytes x.run.io.dataOffset)

/-- The file port of one VM. -/
def filePort : Machine FileState FileExit (CallEvent ℤ) where
  init := .initial
  step s x :=
    match handleFileIo sys context x.run x.memory s x.host with
    | none => none
    | some frame => some (x.event sys context s frame, frame.state)

/-- All values of a file state are 32-bit integers. -/
structure FileState.Int32 (s : FileState) : Prop where
  nextDescriptor : IsInt32 s.nextDescriptor
  pendingResults : ∀ result ∈ s.pendingResults, IsInt32 result

variable {sys context} {s t : FileState} {x : FileExit} {e : CallEvent ℤ}

theorem FileState.Int32.initial : FileState.initial.Int32 where
  nextDescriptor := by constructor <;> decide
  pendingResults _ h := by cases h

/-- What an IN fetches is a 32-bit integer. -/
theorem FileState.Int32.fetch (hs : s.Int32) : IsInt32 s.fetch := by
  rw [FileState.fetch]
  cases hlast : s.pendingResults.getLast? with
  | none => exact isInt32_neg_one
  | some result => exact hs.pendingResults result (List.mem_of_getLast? hlast)

/-- A switch to a private copy keeps the results. -/
theorem Prepared.pendingResults {file : OpenFile} {ok : Bool} {s' : FileState}
    {h h' : Host HostPath} (hp : Prepared sys context file s h ok s' h') :
    s'.pendingResults = s.pendingResults := by
  cases hp with
  | own | noDirectory | discarded => rfl
  | copied _ _ _ hm => exact hm.pendingResults

/-- A request does not look at the results that are kept, and keeps them. -/
theorem pendingResults_processFileRequest (memory : GuestMemory) (request : FileRequest)
    (h : Host HostPath) :
    (processFileRequest sys context memory request s h).state.pendingResults =
      s.pendingResults := by
  have heffect := processFileRequest_effect sys context memory request s h
  generalize processFileRequest sys context memory request s h = reply at heffect ⊢
  cases heffect with
  | nothing | opens | closes | moves => rfl
  | prepares _ _ hp _ => exact hp.pendingResults
  | writes _ _ hp _ _ _ => exact hp.pendingResults

variable (sys context) in
/-- The results kept by a request, whether it could be decoded or not. -/
theorem pendingResults_submitRequest (memory : GuestMemory) (requestAddress : ℕ)
    (h : Host HostPath) :
    (submitRequest sys context memory requestAddress s h).state.pendingResults =
      s.pendingResults := by
  rw [submitRequest]
  cases getGuestMemory memory requestAddress fileRequestSize with
  | none => rfl
  | some start => exact pendingResults_processFileRequest _ _ _

/-- **One exit**: an OUT pushes the result of its request, an IN pops a result and finds it in
the run mapping. -/
theorem filePort_step (hs : s.Int32) (hstep : (filePort sys context).step s x = some (e, t)) :
    t.Int32 ∧
      ((e = .call (submitRequest sys context x.memory
            (readUint32 x.run.bytes x.run.io.dataOffset) s x.host).result ∧
          t.pendingResults = s.pendingResults ++ [(submitRequest sys context x.memory
            (readUint32 x.run.bytes x.run.io.dataOffset) s x.host).result]) ∨
        (e = .ret s.fetch ∧ t.pendingResults = s.pendingResults.dropLast)) := by
  simp only [filePort] at hstep
  cases hframe : handleFileIo sys context x.run x.memory s x.host with
  | none =>
      rw [hframe] at hstep
      cases hstep
  | some frame =>
      rw [hframe] at hstep
      obtain ⟨rfl, rfl⟩ := Prod.mk.inj (Option.some.inj hstep)
      obtain ⟨data, hdata, ⟨hout, reply, hreply, rfl⟩ | ⟨hin, rfl⟩⟩ := handleFileIo_cases hframe
      · obtain rfl := getFileIoData_eq_some hdata
        have hkept := pendingResults_submitRequest sys context (s := s)
          x.memory (readUint32 x.run.bytes x.run.io.dataOffset) x.host
        have hint := submitRequest_int32 sys context x.memory x.host hs.nextDescriptor
          (readUint32 x.run.bytes x.run.io.dataOffset)
        rw [hreply] at hkept hint
        refine ⟨⟨hint.2, fun result hresult => ?_⟩, .inl ⟨?_, ?_⟩⟩
        · rw [pendingResults_push, hkept, List.mem_append, List.mem_singleton] at hresult
          obtain hold | rfl := hresult
          · exact hs.pendingResults result hold
          · exact hint.1
        · rw [FileExit.event, if_pos hout]
        · rw [pendingResults_push, hkept, hreply]
      · obtain rfl := getFileIoData_eq_some hdata
        refine ⟨⟨hs.nextDescriptor, fun result hresult => ?_⟩, .inr ⟨?_, rfl⟩⟩
        · exact hs.pendingResults result (List.dropLast_subset _ hresult)
        · rw [FileExit.event, if_neg (by rw [hin]; decide), readInt32_writeUint32 _ _ hs.fetch]

/-- The file port keeps results on its stack. -/
theorem keepsResults_filePort :
    KeepsResults (filePort sys context) FileState.Int32 FileState.pendingResults (-1) where
  step _ _ _ _ hs hstep := (filePort_step hs hstep).1
  call s x computed t hs hstep := by
    obtain ⟨-, ⟨he, hpushed⟩ | ⟨he, -⟩⟩ := filePort_step hs hstep
    · cases he
      exact hpushed
    · cases he
  ret s x returned t hs hstep := by
    obtain ⟨-, ⟨he, -⟩ | ⟨he, hpopped⟩⟩ := filePort_step hs hstep
    · cases he
    · cases he
      exact ⟨rfl, hpopped⟩

/-! ### Main result -/

/-- **Results reach the caller that asked.** After any accepted exits of a VM: if the next exits
are properly nested, every IN returns the result of its OUT, and in the end the stack of results
is what it was. An IN with no result kept returns `-1`. -/
theorem results_matched (sys : HostSystem) (context : GuestContext) {tr : List (CallEvent ℤ)}
    {s : FileState} (hrun : (filePort sys context).Run (fun _ _ => True) tr s) :
    (∀ tr' t, (filePort sys context).Path (fun _ _ => True) s tr' t → Nested tr' →
        Matched tr' ∧ t.pendingResults = s.pendingResults) ∧
      ∀ x v t, s.pendingResults = [] → (filePort sys context).step s x = some (.ret v, t) →
        v = -1 ∧ t.pendingResults = [] := by
  have hs := keepsResults_filePort.along FileState.Int32.initial hrun
  exact ⟨fun tr' t hpath hnested => keepsResults_filePort.matched hs hpath hnested,
    fun x v t hempty hstep => keepsResults_filePort.fallback_of_empty hs hempty hstep⟩

/-- The request `open("a", O_RD)` at address 2, behind its path at address 0. -/
def memoryOpenA : GuestMemory :=
  memoryOf 64 [97, 0, 1, 0, 0, 0, 0, 0, 0, 0, 0, 0, 0, 0, 0, 0, 0, 0, 0, 0, 0, 0, 1, 0, 0, 0]

/-- A host on which VM 0 has a file `a`. -/
def hostOwnA : Host HostPath :=
  oneFileHost ["root", "vm_files", "vm_0", "a"] (.made [65])

/-- `outl(FILE_IO_PORT, address)`. -/
def submitAt (address : ℕ) : FileExit :=
  ⟨(PortCommand.outl fileIoPort address).exit .smallest, memoryOpenA, hostOwnA⟩

/-- `inl(FILE_IO_PORT)`. -/
def fetchResult : FileExit :=
  ⟨(PortCommand.inl fileIoPort).exit .smallest, memoryOpenA, hostOwnA⟩

/-- The result applies to a request that is interrupted by one whose address is invalid. -/
theorem results_matched_interrupted :
    ∃ t, (filePort (plainSystem fun _ => .completes) ⟨0, []⟩).Run (fun _ _ => True)
        [.ret 3, .ret (-1), .call (-1), .call 3] t ∧
      Matched [CallEvent.ret (3 : ℤ), .ret (-1), .call (-1), .call 3] ∧ t.pendingResults = [] := by
  have hexec : (((filePort (plainSystem fun _ => .completes) ⟨0, []⟩).exec (fun _ _ => True)
      FileState.initial [submitAt 2, submitAt 63, fetchResult, fetchResult]).map fun p => p.1) =
        some [.ret 3, .ret (-1), .call (-1), .call 3] := by
    decide +kernel
  obtain ⟨tr, t, hrun, htr⟩ := Machine.exists_of_exec hexec
  obtain rfl : tr = [.ret 3, .ret (-1), .call (-1), .call 3] := htr
  have hinner : Nested [CallEvent.ret (-1 : ℤ), .call (-1)] := .pair .nil .nil
  have hnested : Nested [CallEvent.ret (3 : ℤ), .ret (-1), .call (-1), .call 3] :=
    .pair .nil hinner
  obtain ⟨hmatched, hstack⟩ :=
    (results_matched (plainSystem fun _ => .completes) ⟨0, []⟩ .refl).1 _ t hrun hnested
  exact ⟨t, hrun, hmatched, hstack⟩

end KvmHypervisor
