import KvmHypervisor.GuestRoles
import KvmHypervisor.ProgramConsole
import KvmHypervisor.ProgramResults

/-!
# What a Successful Run Prints

When `main` returns success, every guest has halted, and standard output holds what all of them
have printed, in whole lines: the result of the boot test, the mode of the VM, and the texts after
the transfer. Besides, every VM has its line `KVM_EXIT_HLT`.

## Main results

* `stdout_of_success`: standard output is what the exit loops have printed.
* `isGuestOutput_of_result`: what a guest has printed when its VM ends with success.
-/

open Transitions

namespace KvmHypervisor

open PosixFiles

variable {n : ℕ}

/-! ### Lines -/

/-- The messages of the hypervisor in the lines of VM `i`. -/
def messagesOf (i : Fin n) (lines : List (ConsoleLine n)) : List (List UInt8) :=
  (lines.filter fun line => line.vm = i ∧ line.kind = .message).map ConsoleLine.text

/-- The text of a message. -/
def Word.text? : Word → Option (List UInt8)
  | .message text => some text
  | .report _ => none

/-- They are what the VM has said, apart from its reports. -/
theorem messagesOf_consoleLines (i : Fin n) (tr : List (Fin n × LoopEvent)) :
    messagesOf i (consoleLines tr) =
      ((eventsOf i tr).reverse.flatMap LoopEvent.words).filterMap Word.text? := by
  induction tr with
  | nil => rfl
  | cons x tr ih =>
      obtain ⟨j, e⟩ := x
      have hline : messagesOf i (consoleLine? (j, e)).toList =
          if j = i then e.words.filterMap Word.text? else [] := by
        cases e with
        | printedSerial serialOutputBuffer finishLine =>
            rw [consoleLine?]
            split_ifs <;> simp [messagesOf, LoopEvent.words]
        | printedMessage text =>
            by_cases hj : j = i
            · simp [messagesOf, consoleLine?, LoopEvent.words, Word.text?, hj]
            · simp [messagesOf, consoleLine?, hj]
        | reported report => simp [messagesOf, consoleLine?, LoopEvent.words, Word.text?]
        | _ => simp [messagesOf, consoleLine?, LoopEvent.words]
      have hsplit : messagesOf i (consoleLines ((j, e) :: tr)) =
          messagesOf i (consoleLines tr) ++ messagesOf i (consoleLine? (j, e)).toList := by
        rw [consoleLines, messagesOf, List.filter_append, List.map_append]
        rfl
      rw [hsplit, hline, ih]
      by_cases hj : j = i
      · simp [eventsOf, hj]
      · simp [eventsOf, hj]

/-- What a VM has written, event by event. -/
theorem writtenBytes_eq_flatMap (i : Fin n) (tr : List (Fin n × LoopEvent)) :
    writtenBytes i tr = (eventsOf i tr).reverse.flatMap LoopEvent.written := by
  induction tr with
  | nil => rfl
  | cons x tr ih =>
      obtain ⟨j, e⟩ := x
      rw [writtenBytes_cons, ih]
      by_cases hj : j = i
      · simp [eventsOf, hj]
      · simp [eventsOf, hj]

/-! ### The program -/

namespace WholeProgram

variable {sys : HostSystem} {sharedFiles : List (String × HostPath)} {config : Config}
variable {host : Host HostPath} {stdin : List UInt8}
variable {ok : WholeProgram n → ProgramAction n → Prop} {tr : List (ProgramEvent n)}
variable {s : WholeProgram n}

/-- Nobody holds the console when `main` has returned success. -/
theorem console_of_success
    (hrun : (wholeProgram sys sharedFiles n config host stdin).Run ok tr s)
    (hreturned : s.main = .returned true) : s.console = none := by
  refine Option.eq_none_iff_forall_ne_some.mpr fun ⟨holder, text⟩ hheld => ?_
  obtain ⟨-, hstage, -⟩ := (coherent_of_run hrun).console holder text hheld
  rw [(finished_of_success hrun hreturned holder).ended] at hstage
  cases hstage

/-- No set-up has printed anything then. -/
theorem lockedBytes_of_success
    (hrun : (wholeProgram sys sharedFiles n config host stdin).Run ok tr s)
    (hreturned : s.main = .returned true) {x : ProgramEvent n} (hx : x ∈ tr) :
    x.writes.flatMap OutputWrite.bytes = x.writes.flatMap OutputWrite.lockedBytes := by
  cases x with
  | life i e =>
      cases e with
      | reported report =>
          have hmem : (i, LifeEvent.reported report) ∈ tr.filterMap ProgramEvent.lifeEvent :=
            List.mem_filterMap.mpr ⟨_, hx, rfl⟩
          have hreported := reported_of_life hmem
          rw [unreported_of_success hrun hreturned i] at hreported
          exact absurd hreported List.not_mem_nil
      | _ => rfl
  | _ => rfl

/-- **Standard output of a successful run** is what the exit loops have printed. -/
theorem stdout_of_success
    (hrun : (wholeProgram sys sharedFiles n config host stdin).Run ok tr s)
    (hreturned : s.main = .returned true) :
    s.stdout = (consoleLines (tr.filterMap ProgramEvent.loopEvent)).flatMap
      ConsoleLine.render := by
  have hloops := console_of_run ((exitLoops_simulation sys sharedFiles n config host stdin
    ok).run_of_visible (fun _ _ _ => trivial) hrun)
  have hout := (streams_of_run sys sharedFiles n config host stdin ok hrun).1
  rw [← hloops.output, loops, unwritten, console_of_success hrun hreturned, List.append_nil,
    stdout, hout, List.flatMap_assoc, List.flatMap_assoc]
  exact List.flatMap_congr fun x hx =>
    lockedBytes_of_success hrun hreturned (List.mem_reverse.mp hx)

end WholeProgram

/-! ### The guests -/

/-- A text of the mode says whether it is the writer's. -/
theorem modeText_modeOf {vmMode : UInt8} {i : Fin (n + 1)}
    (h : decide (vmMode = vmModeWriter) = decide (i = 0)) :
    modeText vmMode = modeText (modeOf i) := by
  rw [decide_eq_decide, ← modeOf_eq_writer_iff] at h
  rw [modeText, modeText, if_congr h rfl rfl]

section Runs

variable {sys : HostSystem} {sharedFiles : List (String × HostPath)} {config : Config}
variable {layout : Fin (n + 1) → RunLayout} {host : Host HostPath} {stdin : List UInt8}
variable {ok : BootedProgram n → BootedAction n → Prop} {tr : List (BootedEvent n)}
variable {s : BootedProgram n}

/-- **What a guest has printed** when its `runVirtualMachine` has returned success. -/
theorem isGuestOutput_of_result
    (hrun : (bootedProgram sys sharedFiles n config layout host stdin).Run ok tr s)
    {i : Fin (n + 1)} (hresult : (s.program.threads i).life.stage.result = some true) :
    IsGuestOutput (modeOf i) (outputOf i (BootedProgram.programEvents tr)) := by
  have hA : Aligned (layout i) (s.program.threads i) (s.guests i)
      (programOf i (BootedProgram.programEvents tr))
      (outputOf i (BootedProgram.programEvents tr)) := (aligned_of_run hrun).2 i
  cases hA with
  | running hnone =>
      rw [hresult] at hnone
      cases hnone
  | departed success hdeparture hhalts =>
      rw [hresult, Option.some_or] at hdeparture
      obtain ⟨-, -, vmMode, hprogram, text, input, htext, houtput⟩ :=
        hhalts (Option.some.inj hdeparture).symm
      have hrole := (roles_of_run hrun i).role (decide (vmMode = vmModeWriter))
        (by rw [hprogram]; rfl)
      exact ⟨text, input, htext, by rw [houtput, modeText_modeOf hrole]⟩

end Runs

end KvmHypervisor
