import KvmHypervisor.GuestRefinement
import KvmHypervisor.ReaderFiles

/-!
# The Read of the Writer

`write_shared_buffer` sends what one read of `guest.txt` returns: the request of VM 0 for one byte
more than the shared buffer can hold. In a run that never stops the shared buffer, a writer that
is past this read has made it, and the default guests read where the program reads.

## Main results

* `exists_sourceRead`: a writer past its read has read.
* `SourceRead.writerReads`: the read of the program is that of the default guests.
-/

open Transitions

namespace KvmHypervisor

open PosixFiles

variable {n : ℕ}

/-- The event is the read of `write_shared_buffer`, served. -/
def BootedEvent.ReadsSource : BootedEvent n → Prop
  | .program (.requested i call _) =>
    i = ⟨0, n.succ_pos⟩ ∧ call.request.operation = 3 ∧ call.request.count = bufferSize + 1
  | _ => False

instance (x : BootedEvent n) : Decidable x.ReadsSource := by
  unfold BootedEvent.ReadsSource
  split <;> infer_instance

/-- In a run with the events `tr` to `s`, the writer makes its read in `t`. -/
def SourceRead (M : Machine (BootedProgram n) (BootedAction n) (BootedEvent n))
    (ok : BootedProgram n → BootedAction n → Prop) (tr : List (BootedEvent n))
    (s t : BootedProgram n) : Prop :=
  ∃ tr₁ tr₂ a x u, M.Run ok tr₁ t ∧ ok t a ∧ M.step t a = some (x, u) ∧ x.ReadsSource ∧
    M.Path ok u tr₂ s ∧ tr = tr₂ ++ x :: tr₁

/-! ### Requests -/

/-- A program that reads one byte more than the shared buffer can hold is a writer's. -/
theorem DefaultProgram.eq_readSource {p : DefaultProgram} {call : FileCall} {buffer : ℕ}
    (hcall : p.fileCall = some call) (hread : (call.request buffer).operation = 3)
    (hcount : (call.request buffer).count = bufferSize + 1) : ∃ fd, p = .readSource fd := by
  cases p <;> cases hcall <;> simp [FileCall.request] at hread
  · simp [FileCall.request, testMessage, bufferSize] at hcount
  · exact ⟨_, rfl⟩

namespace WholeProgram

variable {sys : HostSystem} {sharedFiles : List (String × HostPath)} {config : Config}
variable {s s' : WholeProgram n} {a : ProgramAction n} {i : Fin (n + 1)}

/-- Whose request is served is in its loop, at an exit of the file port. -/
theorem asker_of_advance (hs : Coherent config s) {request : GuestCall (n + 1)} {answer : Answer}
    (h : Advance sys sharedFiles config s a (.requested i request answer) s') :
    s.Attends i .handleFileIo ∧ requestOf i (s.threads i) = some request := by
  generalize hx : ProgramEvent.requested i request answer = x at h
  cases h with
  | @loop _ k w t input event e vm hin hw hstep =>
      cases hw with
      | fileHandled =>
          rw [fileEvent] at hx
          split at hx
          · rename_i call hrequest
            cases hx
            obtain ⟨hresult, ⟨-, result, hinput, -⟩ | ⟨task, tasks, htasks, hperform⟩⟩ :=
              LoopVm.step_eq_some hstep
            · cases hinput
            cases task <;> simp only [LoopVm.perform, reduceCtorEq] at hperform
            obtain rfl := (hs.threads i).orderly.eq_nil hresult htasks (.inl rfl)
            exact ⟨⟨hin, hresult, htasks⟩, hrequest⟩
          · cases hx
      | port => split_ifs at hx
      | proceed => split_ifs at hx
      | _ => cases hx
  | _ => cases hx

end WholeProgram

section Reads

variable {sys : HostSystem} {sharedFiles : List (String × HostPath)} {config : Config}
variable {layout : Fin (n + 1) → RunLayout} {host : Host HostPath} {stdin : List UInt8}
variable {ok : BootedProgram n → BootedAction n → Prop} {tr : List (BootedEvent n)}
variable {s s' t : BootedProgram n} {a : BootedAction n}

/-- **Every request that is served is the next call of its guest.** -/
theorem request_of_step {i : Fin (n + 1)} {request : GuestCall (n + 1)} {answer : Answer}
    (hrun : (bootedProgram sys sharedFiles n config layout host stdin).Run ok tr s)
    (h : (bootedProgram sys sharedFiles n config layout host stdin).step s a =
      some (.program (.requested i request answer), s')) :
    ∃ call buffer, (programOf i (BootedProgram.programEvents tr)).fileCall = some call ∧
      request.request = call.request buffer := by
  obtain ⟨hs, hA⟩ := aligned_of_run hrun
  generalize hx : BootedEvent.program (.requested i request answer) = x at h
  cases BootedProgram.step_cases h with
  | guest =>
      rw [BootedEvent.ofMove] at hx
      split_ifs at hx
  | program _ hstep | kvmRun _ _ hstep =>
      obtain rfl := BootedEvent.program.inj hx
      obtain ⟨hattends, hrequest⟩ :=
        WholeProgram.asker_of_advance hs (WholeProgram.step_cases hstep).2
      obtain ⟨call, buffer, hcall, -, rfl⟩ :=
        (hA i).requests hattends.life hattends.result hattends.tasks hrequest
      exact ⟨call, buffer, hcall, rfl⟩

/-- The read of the writer comes when it is next. -/
theorem readSource_of_readsSource {x : BootedEvent n}
    (hrun : (bootedProgram sys sharedFiles n config layout host stdin).Run ok tr s)
    (h : (bootedProgram sys sharedFiles n config layout host stdin).step s a = some (x, s'))
    (hreads : x.ReadsSource) :
    (∃ fd, programOf 0 (BootedProgram.programEvents tr) = .readSource fd) ∧
      ∃ answer, x.defaultEvent = some (.file 0 answer) := by
  unfold BootedEvent.ReadsSource at hreads
  split at hreads
  · rename_i i request answer
    obtain ⟨rfl, hread, hcount⟩ := hreads
    obtain ⟨call, buffer, hcall, heq⟩ := request_of_step hrun h
    rw [heq] at hread hcount
    exact ⟨DefaultProgram.eq_readSource hcall hread hcount, answer, rfl⟩
  · exact hreads.elim

/-- A file call of the default guests is a request of the program. -/
theorem BootedEvent.requested_of_defaultEvent {x : BootedEvent n} {i : Fin (n + 1)}
    {answer : Answer} (h : x.defaultEvent = some (.file i answer)) :
    ∃ request, x = .program (.requested i request answer) := by
  cases x with
  | program y =>
      cases y with
      | requested j request answer' =>
          cases h
          exact ⟨request, rfl⟩
      | _ => cases h
  | _ => cases h

/-- The next call of a writer before its read. -/
theorem readsSource_of_defaultEvent {x : BootedEvent n} {fd : ℤ} {answer : Answer}
    (hrun : (bootedProgram sys sharedFiles n config layout host stdin).Run ok tr s)
    (h : (bootedProgram sys sharedFiles n config layout host stdin).step s a = some (x, s'))
    (hp : programOf 0 (BootedProgram.programEvents tr) = .readSource fd)
    (hx : x.defaultEvent = some (.file 0 answer)) : x.ReadsSource := by
  obtain ⟨request, rfl⟩ := BootedEvent.requested_of_defaultEvent hx
  obtain ⟨call, buffer, hcall, heq⟩ := request_of_step hrun h
  rw [hp] at hcall
  cases hcall
  refine ⟨rfl, ?_, ?_⟩ <;> rw [heq] <;> rfl

/-! ### The default guests read -/

/-- **The read of the program is that of the default guests**, in a run that does not stop the
shared buffer. -/
theorem SourceRead.writerReads
    (hread : SourceRead (bootedProgram sys sharedFiles n config layout host stdin) ok tr s t)
    (hstopped : s.program.shared.stopped = false) :
    ∃ tr₁ tr', (bootedProgram sys sharedFiles n config layout host stdin).Run ok tr₁ t ∧
      WriterReads (fileLayer sys sharedFiles) layout (FileWorld.start host) tr'
        (BootedProgram.asDefault tr s) (BootedProgram.asDefault tr₁ t) := by
  obtain ⟨tr₁, tr₂, a, x, u, hrun, hok, hs, hreads, hpath, rfl⟩ := hread
  have hsim := BootedProgram.defaultGuests_simulation sys sharedFiles config layout host stdin ok
  have hrun' := hrun.step hok hs
  have hu := hsim.keep_of_path hrun' hpath hstopped
  have ht := hsim.keep_of_step tr₁ t a x u hrun hs hu
  obtain ⟨tr₁', hbefore, -⟩ := hsim.run hrun ht
  obtain ⟨tr₂', hafter, -⟩ := hsim.path hrun' hpath hstopped
  obtain ⟨⟨fd, hp⟩, answer, hx⟩ := readSource_of_readsSource hrun hs hreads
  rcases hsim.step tr₁ t a x u hrun hok hs ht hu with ⟨hnone, -⟩ | ⟨m, e, hstep, hshown⟩
  · rw [hx] at hnone
    cases hnone
  · obtain rfl : e = .file 0 answer := by
      rw [hx] at hshown
      split_ifs at hshown
      exact (Option.some.inj hshown).symm
    obtain ⟨memory, address, rfl⟩ := DefaultGuests.file_of_step hstep
    exact ⟨tr₁, _, hrun, tr₁', tr₂', fd, memory, address, _, _, hbefore, hp, hstep, hafter, rfl⟩

/-- **A writer past its read has read**, in a run that neither fails nor stops the shared
buffer. -/
theorem exists_sourceRead
    (hrun : (bootedProgram sys sharedFiles n config layout host stdin).Run ok tr s)
    (hstopped : s.program.shared.stopped = false)
    (hok : (BootedProgram.asDefault tr s).NoFailure) :
    (programOf 0 (BootedProgram.programEvents tr)).early = true ∨
      ∃ t, SourceRead (bootedProgram sys sharedFiles n config layout host stdin) ok tr s t := by
  have hsim := BootedProgram.defaultGuests_simulation sys sharedFiles config layout host stdin ok
  induction hrun with
  | refl => exact .inl rfl
  | @step tr t u a x hprev hadmits hs ih =>
      have ht := hsim.keep_of_step tr t a x u hprev hs hstopped
      have hfollows := hsim.step tr t a x u hprev hadmits hs ht hstopped
      have hbefore : (BootedProgram.asDefault tr t).NoFailure := by
        rcases hfollows with ⟨-, hsame⟩ | ⟨m, e, hstep, -⟩
        · rwa [hsame] at hok
        · exact hok.of_step hstep
      obtain hearly | ⟨r, tr₁, tr₂, b, y, v, hfirst, hadmits', hs', hreads, hpath, rfl⟩ :=
        ih ht hbefore
      · rcases hfollows with ⟨-, hsame⟩ | ⟨m, e, hstep, hshown⟩
        · left
          have hprograms := congrFun (congrArg DefaultGuests.programs hsame) 0
          exact (congrArg DefaultProgram.early hprograms).trans hearly
        · obtain ⟨tr', hdefault, -⟩ := hsim.run hprev ht
          obtain hearly' | ⟨fd, memory, address, hp, hm⟩ :=
            early_or_reading hdefault hearly hstep hok
          · exact .inl hearly'
          · obtain ⟨answer, rfl⟩ := DefaultGuests.event_of_file hstep hm
            exact .inr ⟨t, tr, [], a, x, u, hprev, hadmits, hs,
              readsSource_of_defaultEvent hprev hs hp hshown, .refl, rfl⟩
      · exact .inr ⟨r, tr₁, x :: tr₂, b, y, v, hfirst, hadmits', hs', hreads,
          .step hpath hadmits hs, rfl⟩

end Reads

end KvmHypervisor
