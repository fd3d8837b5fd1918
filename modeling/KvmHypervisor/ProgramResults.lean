import KvmHypervisor.Descriptors
import KvmHypervisor.ExitStatus
import KvmHypervisor.FileViews
import KvmHypervisor.LastWords
import KvmHypervisor.ProgramViews
import KvmHypervisor.Stopping
import KvmHypervisor.VmSetup

/-!
# What the Program Achieves

The results on the parts, put together for the program: what an exit with success means for
all VMs at once, and when the program can be kept from exiting.

## Main results

* `success_of_run`: after an exit with success nothing is pending, open, or left to report.
* `stuck_iff`: the program is only ever kept from exiting by threads that wait for the shared
  buffer.
* `returned_of_stopped`: a failure of any VM releases them all.
-/

open Transitions

namespace KvmHypervisor

open PosixFiles

variable {n : ℕ}

/-! ### The error stream -/

/-- What a VM has reported is among its words. -/
theorem said_of_reported {tr : List (Fin n × LoopEvent)} {i : Fin n} {report : ErrorReport}
    (hmem : (i, .reported report) ∈ tr) :
    Word.report report ∈ (eventsOf i tr).reverse.flatMap LoopEvent.words := by
  refine List.mem_flatMap.mpr ⟨.reported report, ?_, List.mem_singleton_self _⟩
  rw [List.mem_reverse, eventsOf, List.mem_map]
  exact ⟨(i, .reported report), List.mem_filter.mpr ⟨hmem, by simp⟩, rfl⟩

/-- What a set-up has reported is among its reports. -/
theorem reported_of_life {tr : List (Fin n × LifeEvent)} {i : Fin n} {report : SetupReport}
    (hmem : (i, .reported report) ∈ tr) : report ∈ reportsOf i tr :=
  List.mem_flatMap.mpr ⟨_, hmem, by rw [if_pos rfl]; exact List.mem_singleton_self _⟩

/-- A VM that is leaving with a failure does so whatever it does. -/
theorem LoopVm.departure_step {vm vm' : LoopVm} {input : LoopInput} {e : LoopEvent}
    {success : Bool} (ho : vm.Orderly) (hdeparture : vm.departure = some success)
    (h : vm.step input = some (e, vm')) : vm'.departure = some success := by
  cases (ho.step h).2 with
  | keep hkeep => rw [hkeep, hdeparture]
  | fail hnone | halt hnone =>
      rw [hdeparture] at hnone
      cases hnone

/-- A failed injection is the end. -/
theorem LoopVm.departure_injected {vm vm' : LoopVm} {e : LoopEvent}
    (h : vm.step (.injected false) = some (e, vm')) : vm'.departure = some false := by
  obtain ⟨hresult, ⟨-, result, hinput, -⟩ | ⟨task, tasks, htasks, hperform⟩⟩ :=
    LoopVm.step_eq_some h
  · cases hinput
  · cases task <;> simp only [LoopVm.perform, reduceCtorEq] at hperform
    cases hperform
    exact LoopVm.departure_of_running hresult

namespace WholeProgram

variable {sys : HostSystem} {sharedFiles : List (String × HostPath)} {config : Config}
variable {host : Host HostPath} {stdin : List UInt8}
variable {ok : WholeProgram n → ProgramAction n → Prop} {tr : List (ProgramEvent n)}
variable {s s' : WholeProgram n} {i : Fin (n + 1)}

/-! ### Failed injections -/

/-- The step behind the end of an injection. -/
theorem injected_advance {a : ProgramAction n} {success : Bool}
    (h : Advance sys sharedFiles config s a (.injected i success) s') :
    ∃ e, (s.threads i).loop.step (.injected success) = some (e, (s'.threads i).loop) := by
  generalize hx : ProgramEvent.injected i success = x at h
  cases h with
  | @loop _ i w t input event e vm hin hw hstep =>
      cases hw with
      | injected success' =>
          cases hx
          refine ⟨e, ?_⟩
          rw [speaks_threads, setThread_threads, Function.update_self]
          exact hstep
      | fileHandled =>
          rw [fileEvent] at hx
          split at hx <;> cases hx
      | proceed => split_ifs at hx
      | _ => cases hx
  | _ => cases hx

/-- A VM whose injection has failed leaves with `false`. -/
theorem departure_of_injected
    (hrun : (wholeProgram sys sharedFiles n config host stdin).Run ok tr s)
    (hinjected : .injected i false ∈ tr) : (s.threads i).loop.departure = some false := by
  suffices hall : Coherent config s ∧
      (.injected i false ∈ tr → (s.threads i).loop.departure = some false) from hall.2 hinjected
  refine hrun.invariant (I := fun tr s => Coherent config s ∧
    (.injected i false ∈ tr → (s.threads i).loop.departure = some false))
    ⟨coherent_initial n config host stdin, fun h => absurd h List.not_mem_nil⟩ ?_
  rintro tr s a x s' ⟨hs, hI⟩ - h
  obtain ⟨-, hadvance⟩ := step_cases h
  refine ⟨hs.advance hadvance, fun hmem => ?_⟩
  have ho := (hs.threads i).orderly
  rcases List.mem_cons.mp hmem with rfl | hmem
  · obtain ⟨e, hstep⟩ := injected_advance hadvance
    exact LoopVm.departure_injected hstep
  · -- earlier: the loop stands as it stood, or its departure is final
    rcases loops_advance hadvance with ⟨-, -, hsame⟩ | ⟨input, e, -, -, hstep⟩
    · have hloop : (s'.threads i).loop = (s.threads i).loop := congrFun (congrArg (·.vms) hsame) i
      rw [hloop]
      exact hI hmem
    · obtain ⟨j, input, event, vm, rfl, rfl, hvm, -, hvms⟩ := ExitLoops.step_eq_some hstep
      have hloop : (s'.threads i).loop = Function.update s.loops.vms j vm i := congrFun hvms i
      rw [hloop]
      by_cases hij : i = j
      · subst hij
        rw [Function.update_self]
        exact LoopVm.departure_step ho (hI hmem) hvm
      · rw [Function.update_of_ne hij]
        exact hI hmem

/-! ### Success -/

/-- What an exit with success means for a VM. -/
structure Served (tr : List (ProgramEvent n)) (s : WholeProgram n) (i : Fin (n + 1)) : Prop where
  transferCompleted : (s.threads i).sharedBuffer.transferCompleted = true
  closed : (s.threads i).fileState.openFiles = ∅
  farewell : ExitLoops.Farewell (eventsOf i (tr.filterMap ProgramEvent.loopEvent)) true
  unreported : reportsOf i (tr.filterMap ProgramEvent.lifeEvent) = []

/-- What the threads have come to when `main` has returned success. -/
structure Finished (s : WholeProgram n) (i : Fin (n + 1)) : Prop where
  ended : (s.threads i).stage = .ended
  completed : (s.threads i).completedSuccessfully = true
  life : (s.threads i).life.stage = .returned true
  result : (s.threads i).loop.result = some true
  closed : (s.threads i).fileState.openFiles = ∅

/-- All of them have finished. -/
theorem finished_of_success
    (hrun : (wholeProgram sys sharedFiles n config host stdin).Run ok tr s)
    (hreturned : s.main = .returned true) (i : Fin (n + 1)) : Finished s i := by
  obtain ⟨hs, hK⟩ := known_of_run hrun
  obtain ⟨hended, hcompleted⟩ := ((hK.returned true hreturned).1 rfl).2 i
  have hlife : (s.threads i).life.stage = .returned true := by
    rw [(hs.threads i).returned (by simp [hended]) (by simp [hended]), hcompleted]
  exact ⟨hended, hcompleted, hlife, (hs.threads i).success (by rw [hlife]; rfl),
    hK.closed i hended⟩

/-- None of them has stopped the shared buffer, and neither has `main`. -/
theorem stopped_of_success
    (hrun : (wholeProgram sys sharedFiles n config host stdin).Run ok tr s)
    (hreturned : s.main = .returned true) : s.shared.stopped = false := by
  obtain ⟨-, hK⟩ := known_of_run hrun
  rw [← Bool.not_eq_true]
  intro hstop
  rcases hK.stopped hstop with hnot | ⟨i, -, hfailed⟩
  · exact hnot ((hK.returned true hreturned).1 rfl).1
  · rw [(finished_of_success hrun hreturned i).completed] at hfailed
    cases hfailed

/-- No set-up has reported anything. -/
theorem unreported_of_success
    (hrun : (wholeProgram sys sharedFiles n config host stdin).Run ok tr s)
    (hreturned : s.main = .returned true) (i : Fin (n + 1)) :
    reportsOf i (tr.filterMap ProgramEvent.lifeEvent) = [] := by
  have hlives := (lifecycles_simulation sys sharedFiles n config host stdin ok).run_of_visible
    (fun _ _ _ => trivial) hrun
  have hspoken := Lifecycles.spoken_of_run hlives i
  have hlife : (s.lives.vms i).stage = .returned true := (finished_of_success hrun hreturned i).life
  simp only [VmLife.Spoken, hlife] at hspoken
  rcases hspoken with ⟨-, hfalse, -⟩ | ⟨-, hnone⟩
  · cases hfalse
  · exact hnone

/-- Each VM has left its loop with success. -/
theorem farewell_of_success
    (hrun : (wholeProgram sys sharedFiles n config host stdin).Run ok tr s)
    (hreturned : s.main = .returned true) (i : Fin (n + 1)) :
    ExitLoops.Farewell (eventsOf i (tr.filterMap ProgramEvent.loopEvent)) true :=
  ExitLoops.farewell_of_run ((exitLoops_simulation sys sharedFiles n config host stdin
    ok).run_of_visible (fun _ _ _ => trivial) hrun) (finished_of_success hrun hreturned i).result

/-- No step has said anything on the error stream. -/
theorem errorLines_of_success
    (hrun : (wholeProgram sys sharedFiles n config host stdin).Run ok tr s)
    (hreturned : s.main = .returned true) {x : ProgramEvent n} (hx : x ∈ tr) :
    x.errorLines = [] := by
  obtain ⟨-, hK⟩ := known_of_run hrun
  obtain ⟨hcreated, hjoined⟩ := ((hK.returned true hreturned).1 rfl).1
  cases x with
  | created success =>
      cases success
      · exact absurd hx hcreated
      · rfl
  | joined success =>
      cases success
      · exact absurd hx hjoined
      · rfl
  | life i e =>
      cases e with
      | reported report =>
          have hmem : (i, LifeEvent.reported report) ∈ tr.filterMap ProgramEvent.lifeEvent :=
            List.mem_filterMap.mpr ⟨_, hx, rfl⟩
          have hreported := reported_of_life hmem
          rw [unreported_of_success hrun hreturned i] at hreported
          exact absurd hreported List.not_mem_nil
      | _ => rfl
  | looped i e =>
      cases e with
      | reported report =>
          have hmem : (i, LoopEvent.reported report) ∈ tr.filterMap ProgramEvent.loopEvent :=
            List.mem_filterMap.mpr ⟨_, hx, rfl⟩
          have hsaid := said_of_reported hmem
          rw [(farewell_of_success hrun hreturned i).2] at hsaid
          simp at hsaid
      | _ => rfl
  | injected i success =>
      cases success
      · have hdeparture := departure_of_injected hrun hx
        rw [LoopVm.departure, (finished_of_success hrun hreturned i).result] at hdeparture
        cases hdeparture
      · rfl
  | _ => rfl

/-- **Success.** If the program exits with success, the shared buffer has not been stopped, no
resource of the set-up is live, nothing has been reported on the error stream, and every VM has
been served. -/
theorem success_of_run
    (hrun : (wholeProgram sys sharedFiles n config host stdin).Run ok tr s)
    (hreturned : s.main = .returned true) :
    s.shared.stopped = false ∧ s.live = ∅ ∧ s.err = [] ∧ ∀ i, Served tr s i := by
  have hfinished := finished_of_success hrun hreturned
  have hlives := (lifecycles_simulation sys sharedFiles n config host stdin ok).run_of_visible
    (fun _ _ _ => trivial) hrun
  refine ⟨stopped_of_success hrun hreturned, ?_, ?_, fun i => ?_⟩
  · exact Lifecycles.live_eq_empty_of_returned hlives fun i => ⟨true, (hfinished i).life⟩
  · rw [(streams_of_run sys sharedFiles n config host stdin ok hrun).2,
      List.flatMap_eq_nil_iff]
    exact fun x hx => errorLines_of_success hrun hreturned (List.mem_reverse.mp hx)
  · refine ⟨?_, (hfinished i).closed, farewell_of_success hrun hreturned i,
      unreported_of_success hrun hreturned i⟩
    · obtain ⟨tr', hsystem, -⟩ :=
        (hypervisor_simulation sys sharedFiles n config host stdin ok).run
          (fun _ _ h => coherent_of_run h) hrun
      refine (parked_success_of_run hsystem).2 i (.inr ?_)
      simp only [system, GuestThread.status, (hfinished i).ended, (hfinished i).completed]

/-- The program that transfers a byte exits with success. -/
theorem success_of_run_returnsAfterByte : ∃ (tr : List (ProgramEvent 1)) (s : WholeProgram 1),
    s.shared.stopped = false ∧ s.live = ∅ ∧ s.err = [] ∧ ∀ i, Served tr s i := by
  obtain ⟨tr, s, hrun, hmain, -⟩ := exists_returnsAfterByte
  exact ⟨tr, s, success_of_run hrun hmain⟩

/-- If moreover no VM has used up its descriptors, no host descriptor is open. -/
theorem closed_of_success
    (hrun : (wholeProgram sys sharedFiles n config host stdin).Run ok tr s)
    (hreturned : s.main = .returned true)
    (hlimit : ∀ i, successfulOpens i (tr.filterMap ProgramEvent.fileEvent) < openLimit) (fd : ℕ) :
    s.host.descriptors.lookup fd = none := by
  have hfiles := accounted_of_run sys sharedFiles
    ((fileLayer_simulation sys sharedFiles n config host stdin ok).run_of_visible
      (fun _ _ _ => trivial) hrun)
  refine Option.eq_none_iff_forall_ne_some.mpr fun e he => ?_
  obtain ⟨i, d, file, hfile, -⟩ := hfiles.held hlimit fd e he
  have hempty : (s.files.states i).openFiles = ∅ := (finished_of_success hrun hreturned i).closed
  rw [hempty] at hfile
  cases hfile

/-- No file is open when the program that transfers a byte has returned. -/
theorem closed_of_success_returnsAfterByte : ∃ s : WholeProgram 1, s.main = .returned true ∧
    ∀ fd, s.host.descriptors.lookup fd = none := by
  have hexec : (smallProgram.exec (fun _ _ => True) smallProgram.init returnsAfterByte).map
      (fun p => (p.2.main, successfulOpens writerVm (p.1.filterMap ProgramEvent.fileEvent),
        successfulOpens readerVm (p.1.filterMap ProgramEvent.fileEvent))) =
      some (.returned true, 0, 0) := by
    decide +kernel
  obtain ⟨tr, s, hrun, hobs⟩ := Machine.exists_of_exec hexec
  simp only [Prod.mk.injEq] at hobs
  obtain ⟨hmain, hwriter, hreader⟩ := hobs
  refine ⟨s, hmain, closed_of_success hrun hmain (Fin.forall_fin_two.mpr ⟨?_, ?_⟩)⟩
  · exact hwriter.trans_lt (by decide)
  · exact hreader.trans_lt (by decide)

/-! ### Progress -/

/-- `pthread_create` and `pthread_join` do what they are asked. -/
def ThreadsWork (_ : WholeProgram n) (a : ProgramAction n) : Prop :=
  a ≠ .create false ∧ a ≠ .join false

/-- The thread of VM `i` waits for the shared buffer. -/
def Hangs (s : WholeProgram n) (i : Fin (n + 1)) : Prop :=
  (s.threads i).waiting = true ∧
    handleSharedBufferIo s.shared (s.threads i).sharedBuffer (s.threads i).run = .wait

end WholeProgram

/-- Outside the loop and before the return there is always an answer, and one that needs nothing
from the kernel. -/
theorem VmLife.exists_step (pageSize : ℕ) (v : VmLife) (hloop : v.stage ≠ .loop)
    (hreturned : ∀ success, v.stage ≠ .returned success) :
    ∃ answer e v', v.step pageSize answer = some (e, v') ∧ ∀ live, e.fresh live = true := by
  have hrelease : ∀ k stage live, (v.release k stage).1.fresh live = true := by
    intro k stage live
    rw [release]
    cases v.handles k <;> rfl
  have hgo : ∀ answer p, v.step pageSize answer = some p → (∀ live, p.1.fresh live = true) →
      ∃ answer e v', v.step pageSize answer = some (e, v') ∧ ∀ live, e.fresh live = true :=
    fun answer p h hp => ⟨answer, p.1, p.2, h, hp⟩
  cases hstage : v.stage with
  | loop => exact absurd hstage hloop
  | returned success => exact absurd hstage (hreturned success)
  | getApiVersion | getVcpuMmapSize =>
      exact hgo (.value 0) _ (by simp only [step, hstage, vmInit]; rfl) (by exact fun _ => rfl)
  | tellImage =>
      exact hgo (.value (-1)) _ (by simp only [step, hstage, vmInit, loadImage]; rfl)
        (by exact fun _ => rfl)
  | readImage size =>
      cases size with
      | zero =>
          exact hgo (.content []) _ (by simp only [step, hstage, vmInit, loadImage]; rfl)
            (by exact fun _ => rfl)
      | succ size =>
          exact hgo (.content []) _ (by simp only [step, hstage, vmInit, loadImage]; rfl)
            (by exact fun _ => rfl)
  | report reports =>
      cases reports <;> exact hgo .proceed _ (by simp only [step, hstage]; rfl)
        (by exact fun _ => rfl)
  | reportImage report =>
      exact hgo .proceed _ (by simp only [step, hstage, vmInit, loadImage]; rfl)
        (by exact fun _ => rfl)
  | closeImage loaded =>
      cases loaded <;> exact hgo .proceed _
        (by simp only [step, hstage, vmInit, loadImage]; rfl) (by exact hrelease _ _)
  | unmapRun success | unmapMem success | closeVcpu success | closeVm success
  | closeKvm success =>
      exact hgo .proceed _ (by simp only [step, hstage, vmInit, loadImage, vmDestroy]; rfl)
        (by exact hrelease _ _)
  | _ =>
      exact hgo (.failed 0) _ (by simp only [step, hstage, vmInit, loadImage]; rfl)
        (by exact fun _ => rfl)

namespace WholeProgram

variable {sys : HostSystem} {sharedFiles : List (String × HostPath)} {config : Config}
variable {host : Host HostPath} {stdin : List UInt8}
variable {ok : WholeProgram n → ProgramAction n → Prop} {tr : List (ProgramEvent n)}
variable {s : WholeProgram n} {i : Fin (n + 1)}

/-- As long as `main` has not returned, a step is a move. -/
theorem step_eq_move (hmain : ∀ success, s.main ≠ .returned success) (a : ProgramAction n) :
    s.step sys sharedFiles config a = s.move sys sharedFiles config a := by
  unfold step
  cases h : s.main with
  | returned success => exact absurd h (hmain success)
  | _ => rfl

/-- Everybody may go on while nobody holds the console. -/
theorem allows_of_free (hfree : s.console = none) (i : Fin (n + 1)) (locks : Bool) :
    s.allows i locks = true := by
  rw [allows, hfree]

/-- A step of the loop of a thread is a step of the program. -/
theorem loop_ne_none (hfree : s.console = none) {t : GuestThread} {input : LoopInput}
    {event : LoopEvent → ProgramEvent n} {p : LoopEvent × LoopVm}
    (h : t.loop.step input = some p) : s.loop i t input event ≠ none := by
  rw [loop, h]
  dsimp only
  rw [if_pos (allows_of_free hfree ..)]
  exact Option.some_ne_none _

/-- A thread in its exit loop can go on, unless it hangs. -/
theorem exists_move_loop (hfree : s.console = none) (hin : s.inLoop i = true)
    (hhang : ¬Hangs s i) :
    ∃ a, ThreadsWork s a ∧ s.move sys sharedFiles config a ≠ none := by
  obtain ⟨hstage, hloop⟩ := inLoop_iff.mp hin
  cases hresult : (s.threads i).loop.result with
  | some success =>
      refine ⟨.leave i, by simp [ThreadsWork], ?_⟩
      rw [move, if_pos hin, leave, hresult]
      simp only [life, VmLife.step, hloop]
      rw [if_pos ⟨rfl, allows_of_free hfree ..⟩]
      exact Option.some_ne_none _
  | none =>
      cases htasks : (s.threads i).loop.tasks with
      | nil =>
          refine ⟨.kvmRun i (.failed eintr) fun _ => 0, by simp [ThreadsWork], ?_⟩
          rw [move, if_pos hin, kvmRun]
          exact loop_ne_none hfree (by simp only [LoopVm.step, hresult, htasks]; rfl)
      | cons task tasks =>
          have hperform : ∀ {t : GuestThread} {input : LoopInput}
              {event : LoopEvent → ProgramEvent n} {w : WholeProgram n}
              {p : LoopEvent × LoopVm}, w.console = none → t.loop = (s.threads i).loop →
              (s.threads i).loop.perform tasks task input = some p →
              w.loop i t input event ≠ none := by
            intro t input event w p hw ht hp
            refine loop_ne_none (p := p) hw ?_
            simp only [LoopVm.step, ht, hresult, htasks]
            exact hp
          cases task with
          | handleFileIo =>
              refine ⟨.fileIo i, by simp [ThreadsWork], ?_⟩
              rw [move, if_pos hin, fileIo]
              dsimp only
              split
              · exact hperform hfree rfl rfl
              · exact hperform hfree rfl rfl
          | handleSharedBufferIo =>
              refine ⟨.sharedBufferIo i, by simp [ThreadsWork], ?_⟩
              rw [move, if_pos hin, sharedBufferIo]
              dsimp only
              split
              · rename_i hwait
                have hawake : (s.threads i).waiting = false := by
                  rw [← Bool.not_eq_true]
                  exact fun hwaiting => hhang ⟨hwaiting, hwait⟩
                rw [if_pos ⟨hresult, congrArg List.head? htasks, hawake, allows_of_free hfree ..⟩]
                exact Option.some_ne_none _
              · exact hperform hfree rfl rfl
          | readSerialInput =>
              refine ⟨.serialInput i, by simp [ThreadsWork], ?_⟩
              rw [move, if_pos hin, serialInput]
              dsimp only
              split
              · exact hperform hfree rfl rfl
              · exact hperform hfree rfl rfl
          | injectIrq =>
              refine ⟨.injected i true, by simp [ThreadsWork], ?_⟩
              rw [move, if_pos hin, injected]
              exact hperform hfree rfl rfl
          | requireTransfer =>
              refine ⟨.proceed i, by simp [ThreadsWork], ?_⟩
              rw [move, if_pos hin, proceed]
              cases hcompleted : (s.threads i).loop.transferCompleted with
              | true => exact hperform hfree rfl (by simp only [LoopVm.perform, hcompleted]; rfl)
              | false => exact hperform hfree rfl (by simp only [LoopVm.perform, hcompleted]; rfl)
          | flushSerialOutput finishLine =>
              refine ⟨.proceed i, by simp [ThreadsWork], ?_⟩
              rw [move, if_pos hin, proceed]
              cases hempty : (s.threads i).loop.serialOutputBuffer.isEmpty with
              | true => exact hperform hfree rfl (by simp only [LoopVm.perform, hempty]; rfl)
              | false => exact hperform hfree rfl (by simp only [LoopVm.perform, hempty]; rfl)
          | printError | printHalt | printUnexpectedExit | leave =>
              refine ⟨.proceed i, by simp [ThreadsWork], ?_⟩
              rw [move, if_pos hin, proceed]
              exact hperform hfree rfl rfl

/-- A thread that has been created and has not ended can go on, unless it hangs. -/
theorem exists_move_thread (hfree : s.console = none)
    (hcreated : (s.threads i).stage ≠ .notCreated)
    (hended : (s.threads i).stage ≠ .ended) (hhang : ¬Hangs s i) :
    ∃ a, ThreadsWork s a ∧ s.move sys sharedFiles config a ≠ none := by
  cases hstage : (s.threads i).stage with
  | notCreated => exact absurd hstage hcreated
  | ended => exact absurd hstage hended
  | abortSharedBuffer =>
      refine ⟨.abort i, by simp [ThreadsWork], ?_⟩
      rw [move, if_pos hstage]
      exact Option.some_ne_none _
  | closeGuestFiles =>
      refine ⟨.close i, by simp [ThreadsWork], ?_⟩
      rw [move, if_pos hstage]
      exact Option.some_ne_none _
  | runVirtualMachine =>
      by_cases hloop : (s.threads i).life.stage = .loop
      · exact exists_move_loop hfree (inLoop_iff.mpr ⟨hstage, hloop⟩) hhang
      · by_cases hreturned : ∃ success, (s.threads i).life.stage = .returned success
        · obtain ⟨success, hreturned⟩ := hreturned
          refine ⟨.conclude i, by simp [ThreadsWork], ?_⟩
          rw [move, if_pos hstage, conclude, hreturned]
          exact Option.some_ne_none _
        · obtain ⟨answer, e, v', hstep, hfresh⟩ := VmLife.exists_step config.pageSize
            (s.threads i).life hloop fun success h => hreturned ⟨success, h⟩
          refine ⟨.life i answer, by simp [ThreadsWork], ?_⟩
          rw [move, if_pos ⟨hstage, hloop⟩, life, hstep]
          dsimp only
          rw [if_pos ⟨hfresh s.live, allows_of_free hfree ..⟩]
          exact Option.some_ne_none _

/-- A thread that hangs is in its exit loop, with nothing else to do. -/
theorem Hangs.stage (hhang : Hangs s i) (hs : Coherent config s) :
    (s.threads i).stage = .runVirtualMachine ∧ (s.threads i).life.stage = .loop ∧
      (s.threads i).loop.result = none :=
  let ⟨hstage, hloop, hresult, _⟩ := (hs.threads i).waiting hhang.1
  ⟨hstage, hloop, hresult⟩

/-- Its loop takes no step but one the shared buffer allows. -/
theorem Hangs.loop_eq_none (hhang : Hangs s i) (hs : Coherent config s) {w : WholeProgram n}
    {t : GuestThread} {input : LoopInput} {event : LoopEvent → ProgramEvent n}
    (ht : t.loop = (s.threads i).loop)
    (hinput : ∀ handled completed, input ≠ .sharedBufferIo handled completed) :
    w.loop i t input event = none := by
  rw [loop, ht]
  cases h : (s.threads i).loop.step input with
  | none => rfl
  | some p =>
      have hawake := (hs.threads i).waiting_eq_false h hinput
      rw [hhang.1] at hawake
      cases hawake

/-- Nothing a thread could do is possible while it hangs, and nothing before it is created or
after it has ended. -/
theorem move_eq_none (hs : Coherent config s)
    (hthread : ∀ i, Hangs s i ∨ (s.threads i).stage = .notCreated ∨ (s.threads i).stage = .ended)
    {a : ProgramAction n} (hcreate : ∀ success, a ≠ .create success)
    (hjoin : ∀ success, a ≠ .join success) (hexit : a ≠ .exit) :
    s.move sys sharedFiles config a = none := by
  have hstage : ∀ i, (s.threads i).stage = .runVirtualMachine ∨
      (s.threads i).stage = .notCreated ∨ (s.threads i).stage = .ended :=
    fun i => (hthread i).imp_left fun hhang => (hhang.stage hs).1
  have hhangs : ∀ i, (s.threads i).stage = .runVirtualMachine → Hangs s i := by
    intro i h
    rcases hthread i with hhang | hout | hout
    · exact hhang
    · rw [hout] at h
      cases h
    · rw [hout] at h
      cases h
  have hinLoop : ∀ {i : Fin (n + 1)}, s.inLoop i = true → Hangs s i :=
    fun h => hhangs _ (inLoop_iff.mp h).1
  cases a with
  | create success => exact absurd rfl (hcreate success)
  | join success => exact absurd rfl (hjoin success)
  | exit => exact absurd rfl hexit
  | print count =>
      -- who holds the console is in its exit loop, and does not hang
      rw [move, print]
      cases hconsole : s.console with
      | none => rfl
      | some p =>
          obtain ⟨holder, text⟩ := p
          obtain ⟨-, hrunning, -, hawake⟩ := hs.console holder text hconsole
          rw [(hhangs holder hrunning).1] at hawake
          cases hawake
  | life i answer =>
      rw [move, if_neg]
      rintro ⟨hrunning, hloop⟩
      exact hloop ((hhangs i hrunning).stage hs).2.1
  | leave i =>
      rw [move, ite_eq_right_iff]
      intro hin
      rw [leave, ((hinLoop hin).stage hs).2.2]
  | kvmRun i result memory =>
      rw [move, ite_eq_right_iff]
      exact fun hin => (hinLoop hin).loop_eq_none hs rfl fun _ _ h => by cases h
  | fileIo i =>
      rw [move, ite_eq_right_iff]
      intro hin
      rw [fileIo]
      dsimp only
      split
      · exact (hinLoop hin).loop_eq_none hs rfl fun _ _ h => by cases h
      · exact (hinLoop hin).loop_eq_none hs rfl fun _ _ h => by cases h
  | sharedBufferIo i =>
      rw [move, ite_eq_right_iff]
      intro hin
      rw [sharedBufferIo, (hinLoop hin).2]
      dsimp only
      rw [if_neg]
      rintro ⟨-, -, hawake, -⟩
      rw [(hinLoop hin).1] at hawake
      cases hawake
  | serialInput i =>
      rw [move, ite_eq_right_iff]
      intro hin
      rw [serialInput]
      dsimp only
      split
      · exact (hinLoop hin).loop_eq_none hs rfl fun _ _ h => by cases h
      · exact (hinLoop hin).loop_eq_none hs rfl fun _ _ h => by cases h
  | injected i success =>
      rw [move, ite_eq_right_iff]
      exact fun hin => (hinLoop hin).loop_eq_none hs rfl fun _ _ h => by cases h
  | proceed i =>
      rw [move, ite_eq_right_iff]
      exact fun hin => (hinLoop hin).loop_eq_none hs rfl fun _ _ h => by cases h
  | conclude i =>
      rw [move, ite_eq_right_iff]
      intro hrunning
      rw [conclude, ((hhangs i hrunning).stage hs).2.1]
  | abort i =>
      rw [move, if_neg]
      intro h
      rcases hstage i with hi | hi | hi <;> rw [hi] at h <;> cases h
  | close i =>
      rw [move, if_neg]
      intro h
      rcases hstage i with hi | hi | hi <;> rw [hi] at h <;> cases h

/-- `main` waits for a thread that waits for the shared buffer, and so do all threads that have
been created and have not ended. -/
structure Deadlocked (s : WholeProgram n) : Prop where
  joins : ∃ joined started success, s.main = .joining joined started success ∧
    joined < started ∧ ∃ i : Fin (n + 1), i = joined ∧ Hangs s i
  threads : ∀ i, Hangs s i ∨ (s.threads i).stage = .notCreated ∨ (s.threads i).stage = .ended

/-- The shared buffer is not stopped then. -/
theorem Deadlocked.stopped (hdead : Deadlocked s) : s.shared.stopped = false := by
  obtain ⟨-, -, -, -, -, i, -, hhang⟩ := hdead.joins
  rw [← Bool.not_eq_true]
  exact fun hstop => handle_not_wait hstop hhang.2

/-- Where nothing can happen any more, the program has returned or is deadlocked. -/
theorem returned_or_deadlocked_of_stuck
    (hrun : (wholeProgram sys sharedFiles n config host stdin).Run ok tr s)
    (hstuck : (wholeProgram sys sharedFiles n config host stdin).Stuck ThreadsWork s) :
    (∃ success, s.main = .returned success) ∨ Deadlocked s := by
  obtain ⟨-, hK⟩ := known_of_run hrun
  by_cases hmain : ∃ success, s.main = .returned success
  · exact .inl hmain
  right
  have hnone : ∀ a, ThreadsWork s a → s.move sys sharedFiles config a = none := fun a ha => by
    rw [← step_eq_move fun success h => hmain ⟨success, h⟩]
    exact hstuck a ha
  have hfree : s.console = none := by
    refine Option.eq_none_iff_forall_ne_some.mpr fun ⟨holder, text⟩ hheld => ?_
    have hmove := hnone (.print 1) (by simp [ThreadsWork])
    rw [move, print, hheld] at hmove
    cases hmove
  have hthread : ∀ i, Hangs s i ∨ (s.threads i).stage = .notCreated ∨
      (s.threads i).stage = .ended := by
    intro i
    by_contra hnot
    rw [not_or, not_or] at hnot
    obtain ⟨a, ha, hmove⟩ := exists_move_thread hfree hnot.2.1 hnot.2.2 hnot.1
    exact hmove (hnone a ha)
  refine ⟨?_, hthread⟩
  cases hm : s.main with
  | returned success => exact absurd ⟨success, hm⟩ hmain
  | creating started =>
      have hmove := hnone (.create true) (by simp [ThreadsWork])
      rw [move, create, hm] at hmove
      dsimp only at hmove
      rw [dif_pos (hK.creating started hm).1] at hmove
      cases hmove
  | joining joined started success =>
      obtain ⟨hle, hle', -⟩ := hK.joining joined started success hm
      have hlt : joined < started := by
        refine lt_of_le_of_ne hle fun heq => ?_
        have hmove := hnone .exit (by simp [ThreadsWork])
        rw [move, exit, hm] at hmove
        dsimp only at hmove
        rw [if_pos heq] at hmove
        cases hmove
      have hlt' : joined < n + 1 := lt_of_lt_of_le hlt hle'
      refine ⟨joined, started, success, rfl, hlt, ⟨joined, hlt'⟩, rfl, ?_⟩
      rcases hthread ⟨joined, hlt'⟩ with hhang | hnot | hended
      · exact hhang
      · exact absurd hnot (hK.created started (.inr ⟨_, _, hm⟩) _ hlt)
      · have hmove := hnone (.join true) (by simp [ThreadsWork])
        rw [move, join, hm] at hmove
        dsimp only at hmove
        rw [dif_pos ⟨hlt, hlt'⟩, if_pos rfl, if_pos hended] at hmove
        cases hmove

/-- Once `main` has returned nothing happens. -/
theorem stuck_of_returned {success : Bool} (hmain : s.main = .returned success) :
    (wholeProgram sys sharedFiles n config host stdin).Stuck ThreadsWork s := by
  intro a _
  change s.step sys sharedFiles config a = none
  rw [step, hmain]

/-- **What can keep the program from exiting.** Nothing can happen any more exactly when `main`
has returned or the threads are deadlocked in the shared buffer. -/
theorem stuck_iff (hrun : (wholeProgram sys sharedFiles n config host stdin).Run ok tr s) :
    (wholeProgram sys sharedFiles n config host stdin).Stuck ThreadsWork s ↔
      (∃ success, s.main = .returned success) ∨ Deadlocked s := by
  refine ⟨returned_or_deadlocked_of_stuck hrun, ?_⟩
  rintro (⟨success, hmain⟩ | hdead)
  · exact stuck_of_returned hmain
  · have hs := coherent_of_run hrun
    intro a ha
    obtain ⟨joined, started, success, hmain, hlt, i, hi, hhang⟩ := hdead.joins
    change s.step sys sharedFiles config a = none
    rw [step_eq_move fun success' h => by rw [hmain] at h; cases h]
    cases a with
    | create success => rw [move, create, hmain]
    | join success =>
        cases success with
        | false => exact absurd rfl ha.2
        | true =>
            rw [move, join, hmain]
            dsimp only
            rw [dite_eq_right_iff]
            intro hbounds
            rw [if_pos rfl, if_neg]
            obtain rfl : i = ⟨joined, hbounds.2⟩ := Fin.ext hi
            rw [(hhang.stage hs).1]
            exact fun h => by cases h
    | exit =>
        rw [move, exit, hmain]
        exact if_neg hlt.ne
    | _ =>
        exact move_eq_none hs hdead.threads (fun _ h => by cases h) (fun _ h => by cases h)
          (fun h => by cases h)

/-- After a transfer the reader ends, and the writer begins a second one. -/
def writesForNobody : List (ProgramAction 1) :=
  transfersByte ++ exchanges writerVm (.outl 0x510 1) ++ exchanges writerVm (.outb 0x510 8) ++
    exchanges writerVm (.inl 0x520)

/-- Then nothing can happen any more. -/
theorem stuck_iff_writesForNobody : ∃ s : WholeProgram 1, Deadlocked s ∧
    smallProgram.Stuck ThreadsWork s := by
  have hexec : (smallProgram.exec (fun _ _ => True) smallProgram.init writesForNobody).map
      (fun p => (p.2.main, (p.2.threads writerVm).waiting,
        (handleSharedBufferIo p.2.shared (p.2.threads writerVm).sharedBuffer
          (p.2.threads writerVm).run).isWait, (p.2.threads readerVm).stage)) =
      some (.joining 0 2 true, true, true, .ended) := by
    decide +kernel
  obtain ⟨tr, s, hrun, hobs⟩ := Machine.exists_of_exec hexec
  simp only [Prod.mk.injEq] at hobs
  obtain ⟨hmain, hwaiting, hwait, hended⟩ := hobs
  have hhang : Hangs s writerVm := by
    refine ⟨hwaiting, ?_⟩
    revert hwait
    cases handleSharedBufferIo s.shared (s.threads writerVm).sharedBuffer
      (s.threads writerVm).run <;> simp [Outcome.isWait]
  have hdead : Deadlocked s := by
    refine ⟨⟨0, 2, true, hmain, Nat.two_pos, writerVm, rfl, hhang⟩,
      Fin.forall_fin_two.mpr ⟨?_, ?_⟩⟩
    · exact .inl hhang
    · exact .inr (.inr hended)
  exact ⟨s, hdead, (stuck_iff hrun).mpr (.inr hdead)⟩

/-- **A failure releases everybody**: once the shared buffer is stopped, the program can go on
until `main` returns. -/
theorem returned_of_stopped
    (hrun : (wholeProgram sys sharedFiles n config host stdin).Run ok tr s)
    (hstop : s.shared.stopped = true)
    (hstuck : (wholeProgram sys sharedFiles n config host stdin).Stuck ThreadsWork s) :
    ∃ success, s.main = .returned success := by
  rcases returned_or_deadlocked_of_stuck hrun hstuck with hreturned | hdead
  · exact hreturned
  · have hnot := hdead.stopped
    rw [hstop] at hnot
    cases hnot

/-- The set-up of a VM fails at its first step, and its thread ends. -/
def givesUp (i : Fin 2) : List (ProgramAction 1) :=
  [.life i (.failed 2), .life i .proceed, .life i .proceed, .life i .proceed, .life i .proceed,
    .life i .proceed, .life i .proceed, .life i .proceed, .life i .proceed, .conclude i, .abort i,
    .close i]

/-- A VM is woken by the abort and turned away, and its thread ends. -/
def isReleased (i : Fin 2) : List (ProgramAction 1) :=
  [.sharedBufferIo i, .proceed i, .proceed i, .proceed i, .leave i, .life i .proceed,
    .life i .proceed, .life i .proceed, .life i .proceed, .life i .proceed, .conclude i, .abort i,
    .close i]

/-- The reader waits for a transfer, and the writer fails in its set-up. -/
def releasesReader : List (ProgramAction 1) :=
  [.create true, .create true] ++ boots readerVm 3 ++ exchanges readerVm (.inb 0x510) ++
    exchanges readerVm (.inl 0x510) ++ givesUp writerVm ++ isReleased readerVm ++
    [.join true, .join true, .exit]

/-- The program returns all the same. -/
theorem returned_of_stopped_releasesReader : ∃ s : WholeProgram 1, s.shared.stopped = true ∧
    ∃ success, s.main = .returned success := by
  have hexec : (smallProgram.exec (fun _ _ => True) smallProgram.init releasesReader).map
      (fun p => (p.2.main, p.2.shared.stopped)) = some (.returned false, true) := by
    decide +kernel
  obtain ⟨tr, s, hrun, hobs⟩ := Machine.exists_of_exec hexec
  obtain ⟨hmain, hstop⟩ := Prod.mk.inj hobs
  exact ⟨s, hstop, returned_of_stopped hrun hstop (stuck_of_returned hmain)⟩

end WholeProgram

end KvmHypervisor
