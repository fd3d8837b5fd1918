import KvmHypervisor.ConsoleOutput
import KvmHypervisor.LoopTasks

/-!
# The Last Words of a VM

What a VM says besides the output of its guest: reports on the error stream and messages. It
says nothing while its guest runs. When it sets out to leave, its tasks say why: `KVM_EXIT_HLT`
and nothing else if it leaves with `true`, and a report or an unexpected exit if it leaves with
`false`.

## Main results

* `Explained.step`: what a VM has said and is about to say fits where it is headed.
* `lastWords_of_run`: what a VM has said when it has returned.
-/

open Transitions

namespace KvmHypervisor

variable {n : ℕ}

/-- What a VM says besides the output of its guest. -/
inductive Word where
  | report (report : ErrorReport)
  | message (text : List UInt8)
deriving DecidableEq

/-- What a step says. -/
def LoopEvent.words : LoopEvent → List Word
  | .reported report => [.report report]
  | .printedMessage text => [.message text]
  | _ => []

/-- The bytes of the guest a step has printed. -/
def LoopEvent.delivered : LoopEvent → List UInt8
  | .printedSerial serialOutputBuffer _ => serialOutputBuffer
  | _ => []

/-- What a task will say. -/
def Task.words : Task → List Word
  | .printError report => [.report report]
  | .printHalt => [.message haltText]
  | .printUnexpectedExit exitReason => [.message (unexpectedExitText exitReason)]
  | _ => []

/-- What a failure says: it does say something, and its messages are of unexpected exits. -/
structure Failure (words : List Word) : Prop where
  nonempty : words ≠ []
  unexpected : ∀ text, .message text ∈ words → ∃ exitReason, text = unexpectedExitText exitReason

/-- An unexpected exit is not a halt. -/
theorem haltText_ne (exitReason : ℕ) : haltText ≠ unexpectedExitText exitReason := by
  intro h
  have hletter : haltText.head? = some 75 := by decide
  have hletter' : (bytesOf "Unexpected VM exit. Exit code: ").head? = some 85 := by decide
  rw [h, unexpectedExitText, List.head?_append, hletter'] at hletter
  cases hletter

/-- A failure does not look like a halt. -/
theorem Failure.not_halt {words : List Word} (h : Failure words) :
    Word.message haltText ∉ words := fun hmem =>
  let ⟨exitReason, htext⟩ := h.unexpected _ hmem
  haltText_ne exitReason htext

/-- What fits a departure. -/
def Explains (words : List Word) : Option Bool → Prop
  | none => words = []
  | some true => words = [.message haltText]
  | some false => Failure words

namespace LoopVm

/-- What a VM has said, in order, and is about to say. -/
def words (vm : LoopVm) (events : List LoopEvent) : List Word :=
  events.reverse.flatMap LoopEvent.words ++ vm.tasks.flatMap Task.words

/-- What a VM has said and is about to say fits where it is headed. -/
def Explained (vm : LoopVm) (events : List LoopEvent) : Prop :=
  Explains (vm.words events) vm.departure

variable {vm vm' : LoopVm} {input : LoopInput} {e : LoopEvent} {events : List LoopEvent}

/-- After a step that says `e.words`. -/
theorem words_cons (vm : LoopVm) (e : LoopEvent) (events : List LoopEvent) :
    vm.words (e :: events) =
      events.reverse.flatMap LoopEvent.words ++ (e.words ++ vm.tasks.flatMap Task.words) := by
  simp [words]

/-- Who has no words left and is to say none has said none. -/
theorem Explained.none_said (hE : Explained vm events) (hnone : vm.departure = none) :
    events.reverse.flatMap LoopEvent.words = [] := by
  rw [Explained, hnone] at hE
  exact (List.append_eq_nil_iff.mp hE).1

/-- A step that moves the words of a task, or none, to those that have been said. -/
theorem Explained.keep (hE : Explained vm events) (hdeparture : vm'.departure = vm.departure)
    (hwords : e.words ++ vm'.tasks.flatMap Task.words = vm.tasks.flatMap Task.words) :
    Explained vm' (e :: events) := by
  rw [Explained, words_cons, hwords, hdeparture]
  exact hE

/-- A step that sets out to leave. -/
theorem Explained.depart (hE : Explained vm events) (hnone : vm.departure = none)
    {departure : Option Bool} (hdeparture : vm'.departure = departure)
    (hwords : Explains (e.words ++ vm'.tasks.flatMap Task.words) departure) :
    Explained vm' (e :: events) := by
  rw [Explained, words_cons, hE.none_said hnone, hdeparture]
  exact hwords

theorem failure_report (report : ErrorReport) : Failure [.report report] where
  nonempty := by simp
  unexpected := by simp

theorem failure_reports (report report' : ErrorReport) :
    Failure [.report report, .report report'] where
  nonempty := by simp
  unexpected := by simp

theorem failure_unexpectedExit (exitReason : ℕ) :
    Failure [.message (unexpectedExitText exitReason)] where
  nonempty := by simp
  unexpected text h := ⟨exitReason, by simpa using h⟩

/-- The tasks an iteration leaves say nothing, or what fits a failure. -/
theorem words_of_begins (htasks : vm.tasks = []) (result : KvmRunResult) :
    (vm.runVirtualMachine result).1.words = [] ∧
      Explains ((vm.runVirtualMachine result).2.tasks.flatMap Task.words)
        (departs (vm.runVirtualMachine result).2.tasks) := by
  have hidle : Explains (vm.tasks.flatMap Task.words) (departs vm.tasks) := by
    rw [htasks]
    rfl
  cases result with
  | failed errorNumber =>
      rw [runVirtualMachine]
      split_ifs
      · exact ⟨rfl, hidle⟩
      · exact ⟨rfl, failure_report _⟩
  | exited exitReason run =>
      rw [runVirtualMachine]
      split_ifs
      · exact ⟨rfl, rfl⟩
      · exact ⟨rfl, rfl⟩
      · unfold handleSerialIo
        split_ifs
        · exact ⟨rfl, failure_reports _ _⟩
        · exact ⟨rfl, failure_reports _ _⟩
        · refine ⟨rfl, ?_⟩
          dsimp only
          split_ifs <;> rfl
        · exact ⟨rfl, rfl⟩
        · exact ⟨rfl, failure_reports _ _⟩
      · exact ⟨rfl, rfl⟩
      · exact ⟨rfl, hidle⟩
      · exact ⟨rfl, rfl⟩
      · exact ⟨rfl, failure_unexpectedExit _⟩
      · exact ⟨rfl, failure_unexpectedExit _⟩

/-- What the guest has written has been printed or is pending. -/
def Complete (vm : LoopVm) (events : List LoopEvent) : Prop :=
  events.reverse.flatMap LoopEvent.delivered ++ vm.serialOutputBuffer =
    events.reverse.flatMap LoopEvent.written

/-- **A step loses no byte** of the guest. -/
theorem Complete.step (hC : Complete vm events) (h : vm.step input = some (e, vm')) :
    Complete vm' (e :: events) := by
  rw [Complete, List.reverse_cons, List.flatMap_append, List.flatMap_append, List.append_assoc,
    ← hC, List.append_assoc]
  congr 1
  rcases LoopVm.step_cases h with ⟨b, rfl, -, hbuffer, -⟩ | ⟨finishLine, rfl, -, -, hbuffer⟩ |
    hleaves
  · rw [hbuffer]
    rfl
  · rw [hbuffer]
    simp [LoopEvent.delivered, LoopEvent.written]
  · rw [hleaves.buffer]
    rcases hleaves.event with rfl | ⟨report, rfl⟩ | ⟨success, rfl⟩ | ⟨text, rfl, -⟩ <;>
      simp [LoopEvent.delivered, LoopEvent.written]

/-- **A step keeps the words fitting.** -/
theorem Explained.step (hE : Explained vm events) (ho : Orderly vm)
    (h : vm.step input = some (e, vm')) : Explained vm' (e :: events) := by
  obtain ⟨hresult, ⟨htasks, result, rfl, hrun⟩ | ⟨task, tasks, htasks, hperform⟩⟩ :=
    step_eq_some h
  · obtain ⟨hquiet, hwords⟩ := words_of_begins htasks result
    have hb := begins_runVirtualMachine htasks result
    rw [hrun] at hquiet hwords hb
    refine hE.depart (by rw [departure_of_running hresult, htasks]; rfl)
      (departure_of_running (hb.result.trans hresult)) ?_
    rw [hquiet]
    exact hwords
  · have hask : ∀ {task : Task}, vm.tasks = [task] → departs [task] = none →
        vm.departure = none := by
      intro task htasks hnone
      rw [departure_of_running hresult, htasks, hnone]
    cases task with
    | handleFileIo | handleSharedBufferIo =>
        have hnil : tasks = [] := ho.eq_nil hresult htasks (by simp)
        subst hnil
        cases input <;> simp only [perform, reduceCtorEq] at hperform
        cases hperform
        refine hE.depart (hask htasks rfl) (departure_of_running hresult) ?_
        dsimp only
        split_ifs
        · rfl
        · exact failure_report _
    | readSerialInput =>
        have hnil : tasks = [] := ho.eq_nil hresult htasks (by simp)
        subst hnil
        cases input with
        | serialInput input =>
            cases input <;> cases hperform
            · exact hE.depart (hask htasks rfl) (departure_of_running hresult)
                (failure_reports _ _)
            · exact hE.depart (hask htasks rfl) (departure_of_running hresult) rfl
        | _ => cases hperform
    | injectIrq =>
        have hnil : tasks = [] := ho.eq_nil hresult htasks (by simp)
        subst hnil
        cases input with
        | injected success =>
            cases success <;> cases hperform
            · exact hE.depart (hask htasks rfl) (departure_of_running hresult) (failure_report _)
            · exact hE.depart (hask htasks rfl) (departure_of_running hresult) rfl
        | _ => cases hperform
    | requireTransfer =>
        have hnil : tasks = [] := ho.eq_nil hresult htasks (by simp)
        subst hnil
        cases input <;> simp only [perform, reduceCtorEq] at hperform
        split_ifs at hperform <;> cases hperform
        · exact hE.depart (hask htasks rfl) (departure_of_running hresult) rfl
        · exact hE.depart (hask htasks rfl) (departure_of_running hresult) (failure_report _)
    | flushSerialOutput finishLine =>
        cases input <;> simp only [perform, reduceCtorEq] at hperform
        have hdeparture : ∀ {w : LoopVm}, w.result = none → w.tasks = tasks →
            w.departure = vm.departure := by
          intro w hw hwt
          rw [departure_of_running hw, departure_of_running hresult, hwt, htasks]
          rfl
        split_ifs at hperform <;> cases hperform
        · exact hE.keep (hdeparture hresult rfl) (by rw [htasks]; rfl)
        · exact hE.keep (hdeparture hresult rfl) (by rw [htasks]; rfl)
    | printError report | printHalt | printUnexpectedExit exitReason =>
        cases input <;> simp only [perform, reduceCtorEq] at hperform
        cases hperform
        refine hE.keep ?_ (by rw [htasks]; rfl)
        rw [departure_of_running hresult, htasks]
        exact departure_of_running hresult
    | leave success =>
        cases input <;> simp only [perform, reduceCtorEq] at hperform
        cases hperform
        have hnil : tasks = [] := by
          cases tasks with
          | nil => rfl
          | cons task tasks =>
              have hcalm := ho.calm hresult
              rw [htasks] at hcalm
              exact (hcalm rfl).elim
        subst hnil
        refine hE.keep ?_ (by rw [htasks]; rfl)
        rw [departure_of_running hresult, htasks]
        rfl

end LoopVm

/-! ### Runs -/

/-- What VM `i` has done, newest first. -/
def eventsOf (i : Fin n) (tr : List (Fin n × LoopEvent)) : List LoopEvent :=
  (tr.filter (·.1 = i)).map Prod.snd

namespace ExitLoops

variable {ok : ExitLoops n → Fin n × LoopInput → Prop} {tr : List (Fin n × LoopEvent)}
variable {s : ExitLoops n} {i : Fin n} {success : Bool}

/-- The invariant rule for one VM, with what it has done. -/
theorem invariant_vm {I : LoopVm → List LoopEvent → Prop} (h₀ : I .initial [])
    (hstep : ∀ vm events input e vm', I vm events → vm.step input = some (e, vm') →
      I vm' (e :: events)) (hrun : (exitLoops n).Run ok tr s) (i : Fin n) :
    I (s.vms i) (eventsOf i tr) := by
  refine hrun.invariant (I := fun tr s => I (s.vms i) (eventsOf i tr)) h₀ ?_
  intro tr s a x s' hI _ hs
  obtain ⟨j, input, event, vm, -, rfl, hvm, -, hvms⟩ := ExitLoops.step_eq_some hs
  rw [hvms]
  by_cases hij : i = j
  · subst hij
    rw [Function.update_self]
    simpa [eventsOf] using hstep _ _ _ _ _ hI hvm
  · rw [Function.update_of_ne hij]
    simpa [eventsOf, Ne.symm hij] using hI

/-- What a VM that returns leaves behind: with `true`, all its guest wrote and the message of the
halt; with `false`, the reason. -/
def Farewell (events : List LoopEvent) : Bool → Prop
  | true => events.reverse.flatMap LoopEvent.delivered =
        events.reverse.flatMap LoopEvent.written ∧
      events.reverse.flatMap LoopEvent.words = [.message haltText]
  | false => Failure (events.reverse.flatMap LoopEvent.words) ∧
      .message haltText ∉ events.reverse.flatMap LoopEvent.words

/-- What a VM has done by the time it has returned. -/
theorem farewell_of_run (hrun : (exitLoops n).Run ok tr s)
    (hreturned : (s.vms i).result = some success) : Farewell (eventsOf i tr) success := by
  obtain ⟨ho, hs, hE, hC⟩ : (s.vms i).Orderly ∧ (s.vms i).Silent ∧
      (s.vms i).Explained (eventsOf i tr) ∧ (s.vms i).Complete (eventsOf i tr) := by
    refine invariant_vm (I := fun vm events => vm.Orderly ∧ vm.Silent ∧ vm.Explained events ∧
      vm.Complete events) ⟨LoopVm.orderly_initial, LoopVm.silent_initial, rfl, rfl⟩ ?_ hrun i
    rintro vm events input e vm' ⟨ho, hs, hE, hC⟩ h
    exact ⟨(ho.step h).1, hs.step ho h, hE.step ho h, hC.step h⟩
  have hdeparture : (s.vms i).departure = some success := by
    rw [LoopVm.departure, hreturned]
    rfl
  rw [LoopVm.Explained, hdeparture, LoopVm.words, ho.left success hreturned, List.flatMap_nil,
    List.append_nil] at hE
  cases success with
  | true =>
      rw [LoopVm.Complete, hs.leaving hdeparture, List.append_nil] at hC
      exact ⟨hC, hE⟩
  | false => exact ⟨hE, hE.not_halt⟩

/-- **The last words.** A VM that has returned `true` has printed everything its guest wrote, in
order, and has said `KVM_EXIT_HLT` and nothing else; one that has returned `false` has said why,
and not that. -/
theorem lastWords_of_run (hrun : (exitLoops n).Run ok tr s) :
    ∀ i success, (s.vms i).result = some success → Farewell (eventsOf i tr) success :=
  fun _ _ => farewell_of_run hrun

/-- The only VM there is. -/
def onlyVm : Fin 1 :=
  ⟨0, Nat.one_pos⟩

/-- It writes a letter, completes a transfer and halts. -/
def letterThenHalt : List (Fin 1 × LoopInput) :=
  [serialOut 65, .kvmRun (.exited kvmExitIo
      ((PortCommand.outb sharedBufferPort 0).exit .smallest)), .sharedBufferIo true true,
    .kvmRun (.exited kvmExitHlt ⟨⟨0, 0, 0, 0, 0⟩, fun _ => 0, 0⟩), .proceed, .proceed,
    .proceed, .proceed].map fun input => (onlyVm, input)

/-- It has delivered its letter, and then said that it halts. -/
theorem lastWords_of_run_letterThenHalt : ∃ (tr : List (Fin 1 × LoopEvent)) (s : ExitLoops 1),
    s.out = bytesOf "[VM 0] A\n[VM 0] KVM_EXIT_HLT\n" ∧ Farewell (eventsOf onlyVm tr) true := by
  have hexec : ((exitLoops 1).exec (fun _ _ => True) (exitLoops 1).init letterThenHalt).map
      (fun p => (p.2.out, (p.2.vms onlyVm).result)) =
        some (bytesOf "[VM 0] A\n[VM 0] KVM_EXIT_HLT\n", some true) := by decide +kernel
  obtain ⟨tr, s, hrun, hobs⟩ := Machine.exists_of_exec hexec
  obtain ⟨hout, hreturned⟩ := Prod.mk.inj hobs
  exact ⟨tr, s, hout, lastWords_of_run hrun onlyVm true hreturned⟩

end ExitLoops

end KvmHypervisor
