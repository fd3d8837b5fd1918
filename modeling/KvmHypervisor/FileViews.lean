import KvmHypervisor.FileRuns
import KvmHypervisor.NestedRequests
import KvmHypervisor.ProgramThreads
import KvmHypervisor.Simulations

/-!
# The Files of the Program

Whoever watches only the files sees `fileLayer`: the requests the exits of the file port carry
and the clean-ups at the ends of the VMs, with the answers the guests get. The results a VM
keeps for its guest are not among what the file layer knows, and no request depends on them.

## Main results

* `processFileRequest_forget`: a request is served alike whatever results are kept.
* `fileLayer_of_run`: every run of the program is a run of the file layer.
-/

open Transitions

namespace KvmHypervisor

open PosixFiles

/-! ### Results that are kept -/

/-- The state without the results kept for the guest. -/
def FileState.forget (s : FileState) : FileState :=
  { s with pendingResults := [] }

/-- The reply without the results kept for the guest. -/
def Reply.forget (reply : Reply) : Reply :=
  { reply with state := reply.state.forget }

section Requests

variable (sys : HostSystem) (context : GuestContext) (memory : GuestMemory)
variable (request : FileRequest) (s : FileState) (h : Host HostPath)

theorem openFile_forget : openFile sys context memory request s.forget h =
    (openFile sys context memory request s h).forget := by
  unfold openFile openInDirectory openResolved
  split_ifs
  · rfl
  · cases readGuestFileName memory request.buffer with
    | none => rfl
    | some name =>
        dsimp only
        split_ifs <;> first | rfl | (split <;> first | rfl | (split <;> rfl))

theorem closeFile_forget : closeFile memory request.descriptor s.forget h =
    (closeFile memory request.descriptor s h).forget := by
  unfold closeFile
  rw [show s.forget.openFiles = s.openFiles from rfl]
  cases s.openFiles.lookup request.descriptor <;> rfl

theorem readFile_forget : readFile sys memory request s.forget h =
    (readFile sys memory request s h).forget := by
  unfold readFile
  rw [show s.forget.openFiles = s.openFiles from rfl]
  cases s.openFiles.lookup request.descriptor with
  | none => rfl
  | some file =>
      dsimp only
      split_ifs
      · rfl
      · rfl
      · cases getGuestMemory memory request.buffer request.count.toNat with
        | none => rfl
        | some buffer =>
            dsimp only
            split <;> rfl

theorem writePrepared_forget (file : OpenFile) :
    writePrepared sys memory request file s.forget h =
      (writePrepared sys memory request file s h).forget := by
  unfold writePrepared
  split_ifs
  · rfl
  · cases getGuestMemory memory request.buffer request.count.toNat with
    | none => rfl
    | some buffer =>
        dsimp only
        split <;> rfl

theorem reopenSharedFiles_forget (name : String) (path : HostPath) :
    reopenSharedFiles sys name path s.forget h =
      let (ok, s, h) := reopenSharedFiles sys name path s h
      (ok, s.forget, h) := by
  unfold reopenSharedFiles
  rw [show s.forget.openFiles = s.openFiles from rfl]
  split <;> rfl

theorem prepareFileForWrite_forget (file : OpenFile) :
    prepareFileForWrite sys context file s.forget h =
      let (ok, s, h) := prepareFileForWrite sys context file s h
      (ok, s.forget, h) := by
  unfold prepareFileForWrite
  split_ifs
  · rfl
  · dsimp only
    split
    · rfl
    · split
      · rfl
      · split
        · rfl
        · rw [reopenSharedFiles_forget]
          rcases reopenSharedFiles sys file.name (sys.localPathOf context file.name) s _ with
            ⟨_ | _, s', h'⟩ <;> rfl

theorem writeFile_forget : writeFile sys context memory request s.forget h =
    (writeFile sys context memory request s h).forget := by
  unfold writeFile
  rw [show s.forget.openFiles = s.openFiles from rfl]
  cases s.openFiles.lookup request.descriptor with
  | none => rfl
  | some file =>
      dsimp only
      split_ifs
      · rfl
      · rw [prepareFileForWrite_forget]
        rcases prepareFileForWrite sys context file s h with ⟨_ | _, s', h'⟩
        · rfl
        · dsimp only
          rw [show s'.forget.openFiles = s'.openFiles from rfl]
          cases s'.openFiles.lookup request.descriptor with
          | none => rfl
          | some file' => exact writePrepared_forget ..

theorem seekFile_forget : seekFile sys memory request s.forget h =
    (seekFile sys memory request s h).forget := by
  unfold seekFile
  rw [show s.forget.openFiles = s.openFiles from rfl]
  cases s.openFiles.lookup request.descriptor with
  | none => rfl
  | some file =>
      dsimp only
      split
      · rfl
      · split
        · rfl
        · split_ifs <;> rfl

/-- **A request is served alike** whatever results are kept. -/
theorem processFileRequest_forget : processFileRequest sys context memory request s.forget h =
    (processFileRequest sys context memory request s h).forget := by
  unfold processFileRequest
  cases FileOperation.ofCode request.operation with
  | none => rfl
  | some op =>
      cases op with
      | openFile => exact openFile_forget ..
      | close => exact closeFile_forget ..
      | read => exact readFile_forget ..
      | write => exact writeFile_forget ..
      | lseek => exact seekFile_forget ..

end Requests

/-! ### The view -/

variable {n : ℕ}

/-- The program as the file layer. -/
def WholeProgram.files (s : WholeProgram n) : FileWorld (n + 1) where
  host := s.host
  states i := (s.threads i).fileState.forget

/-- What the file layer sees of a step. -/
def ProgramEvent.fileEvent :
    ProgramEvent n → Option (FileInput (n + 1) × Option Answer)
  | .requested _ call answer => some (.request call, some answer)
  | .closed i => some (.finish i, none)
  | _ => none

namespace WholeProgram

variable {sys : HostSystem} {sharedFiles : List (String × HostPath)} {config : Config}
variable {s s' w : WholeProgram n} {a : ProgramAction n}
variable {x : ProgramEvent n} {i : Fin (n + 1)} {t : GuestThread}

/-- The files after a step of one thread. -/
theorem files_of_update (hthreads : s'.threads = Function.update s.threads i t) :
    s'.files = { host := s'.host,
                 states := Function.update s.files.states i t.fileState.forget } := by
  simp only [files, hthreads, FileWorld.mk.injEq, true_and]
  funext j
  by_cases hj : j = i
  · subst hj
    simp only [Function.update_self]
  · simp only [Function.update_of_ne hj]

/-- A step that touches no file. -/
theorem files_of_keep (hhost : s'.host = s.host)
    (hthreads : s'.threads = Function.update s.threads i t)
    (hstate : t.fileState.forget = (s.threads i).fileState.forget) : s'.files = s.files := by
  rw [files_of_update hthreads, hhost, hstate]
  exact congrArg (FileWorld.mk s.host) (Function.update_eq_self i s.files.states)

/-- What an exit of the file port does to the files: it serves the request it carries, if it
carries one. -/
theorem handled_cases {frame : FileIoFrame}
    (h : handleFileIo sys (contextOf sharedFiles i) t.run t.memory t.fileState s.host =
      some frame) :
    (requestOf i t = none ∧ frame.state.forget = t.fileState.forget ∧ frame.host = s.host) ∨
      ∃ call reply, requestOf i t = some call ∧ call.vm = i ∧
        processFileRequest sys (contextOf sharedFiles i) call.memory call.request t.fileState
          s.host = reply ∧
        frame.state = reply.state.push reply.result ∧ frame.memory = reply.memory ∧
        frame.host = reply.host := by
  obtain ⟨data, hdata, ⟨hout, reply, hreply, rfl⟩ | ⟨hin, rfl⟩⟩ := handleFileIo_cases h
  · rw [requestOf, if_pos hout, hdata]
    dsimp only
    rw [submitRequest] at hreply
    cases hstart : getGuestMemory t.memory (readUint32 t.run.bytes data) fileRequestSize with
    | none =>
        rw [hstart] at hreply
        subst hreply
        exact .inl ⟨rfl, rfl, rfl⟩
    | some start =>
        rw [hstart] at hreply
        exact .inr ⟨_, reply, rfl, rfl, hreply, rfl, rfl, rfl⟩
  · refine .inl ⟨?_, rfl, rfl⟩
    rw [requestOf, if_neg (by rw [hin]; decide)]

/-- The result kept last is the one fetched. -/
theorem fetch_push (fileState : FileState) (result : ℤ) :
    (fileState.push result).fetch = result := by
  simp [FileState.fetch]

/-- **A step seen from the files.** -/
theorem files_advance (h : Advance sys sharedFiles config s a x s') :
    (x.fileEvent = none ∧ s'.files = s.files) ∨
      ∃ input, ((fileLayer sys sharedFiles).step s.files input).2 = s'.files ∧
        x.fileEvent = some (input, ((fileLayer sys sharedFiles).step s.files input).1) := by
  cases h with
  | @create started hlt hmain =>
      exact .inl ⟨rfl, files_of_keep (i := ⟨started, hlt⟩) rfl rfl rfl⟩
  | createFails | join | joinFails | exit | print => exact .inl ⟨rfl, rfl⟩
  | @life _ i | @park i | @conclude i | @abort i =>
      exact .inl ⟨rfl, files_of_keep (i := i) rfl rfl rfl⟩
  | @close i hstage =>
      refine .inr ⟨.finish i, Eq.trans ?_ (files_of_update (i := i) rfl).symm, rfl⟩
      rfl
  | @loop a i w t input event e vm hin hw hstep =>
      cases hw with
      | @fileHandled frame hframe =>
          rcases handled_cases hframe with
            ⟨hrequest, hstate, hhost⟩ | ⟨call, reply, hrequest, hvm, hreply, hstate, hmem, hhost⟩
          · refine .inl ⟨?_, files_of_keep (i := i) hhost rfl hstate⟩
            rw [WholeProgram.fileEvent, hrequest]
            rfl
          · have hserved : replyTo sys sharedFiles s.files call = reply.forget := by
              rw [replyTo, hvm, ← hreply]
              exact processFileRequest_forget ..
            refine .inr ⟨.request call, ?_, ?_⟩
            · refine Eq.trans ?_ (files_of_update (i := i) rfl).symm
              simp only [fileLayer, fileServer, hserved, hvm, Reply.forget, setThread, hhost,
                hstate]
              rfl
            · rw [WholeProgram.fileEvent, hrequest]
              simp only [ProgramEvent.fileEvent, fileLayer, fileServer, hserved, hstate,
                fetch_push, hmem, Reply.forget]
      | proceed =>
          refine .inl ⟨?_, files_of_keep (i := i) rfl rfl rfl⟩
          split_ifs <;> rfl
      | _ => exact .inl ⟨rfl, files_of_keep (i := i) rfl rfl rfl⟩

end WholeProgram

section Simulations

variable (sys : HostSystem) (sharedFiles : List (String × HostPath)) (n : ℕ) (config : Config)
variable (host : Host HostPath) (stdin : List UInt8)
variable (ok : WholeProgram n → ProgramAction n → Prop)

/-- **The program looks like `fileLayer`** to whoever watches the files. -/
theorem fileLayer_simulation : (wholeProgram sys sharedFiles n config host stdin).Simulation
    ((fileLayer sys sharedFiles).machine (FileWorld.start host)) ok (fun _ _ => True)
    WholeProgram.files ProgramEvent.fileEvent fun _ => true where
  init := rfl
  step _ s _ _ _ _ _ h := by
    rcases WholeProgram.files_advance (WholeProgram.step_cases h).2 with
      hquiet | ⟨input, hafter, hshown⟩
    · exact .inl hquiet
    · refine .inr ⟨input, (input, ((fileLayer sys sharedFiles).step s.files input).1), ?_, hshown⟩
      rw [Transducer.machine_step, hafter]

/-- **Every run of the program is a run of `fileLayer`** with the requests its exits carry and
the answers its guests get. -/
theorem fileLayer_of_run {tr : List (ProgramEvent n)} {s : WholeProgram n}
    (hrun : (wholeProgram sys sharedFiles n config host stdin).Run ok tr s) :
    ((fileLayer sys sharedFiles).machine (FileWorld.start host)).Run (fun _ _ => True)
      (tr.filterMap ProgramEvent.fileEvent) s.files :=
  (fileLayer_simulation sys sharedFiles n config host stdin ok).run_of_visible
    (fun _ _ _ => trivial) hrun

/-- The run that transfers a byte is one. -/
theorem fileLayer_of_run_returnsAfterByte : ∃ (tr : List (ProgramEvent 1)) (s : WholeProgram 1),
    s.main = .returned true ∧ ((fileLayer (plainSystem fun _ => .completes) []).machine
      (FileWorld.start sharedA)).Run (fun _ _ => True) (tr.filterMap ProgramEvent.fileEvent)
      s.files := by
  obtain ⟨tr, s, hrun, hmain, -⟩ := WholeProgram.exists_returnsAfterByte
  exact ⟨tr, s, hmain, fileLayer_of_run _ _ _ _ _ _ _ hrun⟩

end Simulations

end KvmHypervisor
