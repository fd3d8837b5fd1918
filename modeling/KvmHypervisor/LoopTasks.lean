import KvmHypervisor.ExitLoop

/-!
# Where an Exit Loop Is Headed

The tasks of an exit loop are of two kinds. Either they end the handling of an exit and the
loop goes on (`Calm`), or they are the last words of a VM and the loop will return (`departs`).
The second kind asks nothing any more, so a VM that is departing has its result already.

## Main results

* `LoopVm.Orderly.step`: the tasks always are of one of the two kinds, and a departure is final;
  a VM that sets out to leave does so with `false`, except at the check of `KVM_EXIT_HLT`.
* `LoopVm.Silent.step`: a VM that leaves with `true` has nothing pending.
-/

namespace KvmHypervisor

/-- The result the tasks lead to, if they are the last ones. -/
def departs : List Task → Option Bool
  | [.leave success] => some success
  | .flushSerialOutput _ :: tasks => departs tasks
  | .printError _ :: tasks => departs tasks
  | .printHalt :: tasks => departs tasks
  | .printUnexpectedExit _ :: tasks => departs tasks
  | _ => none

/-- The loop goes on after the tasks, or a check decides. -/
def Calm : List Task → Prop
  | [] => True
  | .flushSerialOutput _ :: tasks => Calm tasks
  | [.handleFileIo] | [.handleSharedBufferIo] | [.readSerialInput] | [.injectIrq]
  | [.requireTransfer] => True
  | _ => False

/-- Such tasks are not the last ones. -/
theorem Calm.departs {tasks : List Task} (h : Calm tasks) : departs tasks = none := by
  induction tasks with
  | nil => rfl
  | cons task tasks ih =>
      cases task with
      | flushSerialOutput finishLine => exact ih h
      | handleFileIo | handleSharedBufferIo | readSerialInput | injectIrq | requireTransfer => rfl
      | leave success => cases tasks <;> exact h.elim
      | printError | printHalt | printUnexpectedExit => cases tasks <;> exact h.elim

/-- A task that asks something stands alone. -/
theorem Calm.eq_nil {task : Task} {tasks : List Task} (h : Calm (task :: tasks))
    (hask : task = .handleFileIo ∨ task = .handleSharedBufferIo ∨ task = .readSerialInput ∨
      task = .injectIrq ∨ task = .requireTransfer) : tasks = [] := by
  cases tasks with
  | nil => rfl
  | cons task' tasks' => rcases hask with rfl | rfl | rfl | rfl | rfl <;> exact h.elim

namespace LoopVm

/-- The result a VM has returned or is about to return. -/
def departure (vm : LoopVm) : Option Bool :=
  vm.result.or (departs vm.tasks)

/-- The tasks of a VM are of one of the two kinds; after the return there are none. -/
structure Orderly (vm : LoopVm) : Prop where
  calm : vm.result = none → departs vm.tasks = none → Calm vm.tasks
  left : ∀ success, vm.result = some success → vm.tasks = []

variable {vm vm' : LoopVm} {input : LoopInput} {e : LoopEvent}

theorem orderly_initial : Orderly .initial :=
  ⟨fun _ _ => trivial, fun _ h => by cases h⟩

/-- What an iteration of the loop leaves to do. -/
structure Begins (vm vm' : LoopVm) : Prop where
  result : vm'.result = vm.result
  transferCompleted : vm'.transferCompleted = vm.transferCompleted
  tasks : Calm vm'.tasks ∨ departs vm'.tasks = some false
  check : vm'.tasks ≠ [.requireTransfer]

/-- `handleSerialIo` only begins. -/
theorem begins_handleSerialIo (vm : LoopVm) (exitReason : ℕ) (run : KvmRun) :
    Begins vm (vm.handleSerialIo exitReason run).2 := by
  unfold handleSerialIo
  split_ifs
  · exact ⟨rfl, rfl, .inr rfl, by simp⟩
  · exact ⟨rfl, rfl, .inr rfl, by simp⟩
  · refine ⟨rfl, rfl, .inl ?_, ?_⟩
    · dsimp only
      split_ifs <;> trivial
    · dsimp only
      split_ifs <;> simp
  · exact ⟨rfl, rfl, .inl trivial, by simp⟩
  · exact ⟨rfl, rfl, .inr rfl, by simp⟩

/-- An iteration only begins. -/
theorem begins_runVirtualMachine (htasks : vm.tasks = []) (result : KvmRunResult) :
    Begins vm (vm.runVirtualMachine result).2 := by
  have hidle : Begins vm vm := ⟨rfl, rfl, .inl (by rw [htasks]; trivial), by simp [htasks]⟩
  cases result with
  | failed errorNumber =>
      rw [runVirtualMachine]
      split_ifs
      · exact hidle
      · exact ⟨rfl, rfl, .inr rfl, by simp⟩
  | exited exitReason run =>
      rw [runVirtualMachine]
      split_ifs
      · exact ⟨rfl, rfl, .inl trivial, by simp⟩
      · exact ⟨rfl, rfl, .inl trivial, by simp⟩
      · exact begins_handleSerialIo ..
      · exact ⟨rfl, rfl, .inl trivial, by simp⟩
      · exact ⟨rfl, rfl, hidle.tasks, hidle.check⟩
      · exact ⟨rfl, rfl, .inl trivial, by simp⟩
      · exact ⟨rfl, rfl, .inr rfl, by simp⟩
      · exact ⟨rfl, rfl, .inr rfl, by simp⟩

/-- The tasks are a question the loop has to answer before it goes on: it stands alone. -/
theorem Orderly.eq_nil (ho : Orderly vm) (hresult : vm.result = none) {task : Task}
    {tasks : List Task} (htasks : vm.tasks = task :: tasks)
    (hask : task = .handleFileIo ∨ task = .handleSharedBufferIo ∨ task = .readSerialInput ∨
      task = .injectIrq ∨ task = .requireTransfer) : tasks = [] := by
  have hcalm := ho.calm hresult
  rw [htasks] at hcalm
  refine Calm.eq_nil (hcalm ?_) hask
  rcases hask with rfl | rfl | rfl | rfl | rfl <;> rfl

/-- The answer of the shared buffer: the exit is handled, or it is the end. -/
theorem Orderly.sharedBufferIo (ho : Orderly vm) {handled transferCompleted : Bool}
    (h : vm.step (.sharedBufferIo handled transferCompleted) = some (e, vm')) :
    vm.result = none ∧ vm.tasks = [.handleSharedBufferIo] ∧ e = .quiet ∧
      vm' = { vm with
        transferCompleted := vm.transferCompleted || transferCompleted
        tasks := if handled then [] else handlingFailed } := by
  obtain ⟨hresult, ⟨-, result, hinput, -⟩ | ⟨task, tasks, htasks, hperform⟩⟩ := step_eq_some h
  · cases hinput
  · cases task <;> simp only [perform, reduceCtorEq] at hperform
    obtain rfl := ho.eq_nil hresult htasks (.inr (.inl rfl))
    cases hperform
    exact ⟨hresult, htasks, rfl, rfl⟩

/-- What a step may do to the departure of a VM. -/
inductive Departs (vm : LoopVm) (input : LoopInput) (vm' : LoopVm) : Prop
  | keep : vm'.departure = vm.departure → Departs vm input vm'
  | fail : vm.departure = none → vm'.departure = some false → Departs vm input vm'
  | halt : vm.departure = none → vm.tasks = [.requireTransfer] → input = .proceed →
      vm'.departure = some vm.transferCompleted → Departs vm input vm'

/-- The tasks of a VM that has not returned decide on its departure. -/
theorem departure_of_running (hresult : vm.result = none) : vm.departure = departs vm.tasks := by
  rw [departure, hresult, Option.none_or]

theorem orderly_of_tasks (hresult : vm.result = none)
    (htasks : Calm vm.tasks ∨ (departs vm.tasks).isSome) : Orderly vm where
  calm _ hnone := by
    rcases htasks with hcalm | hsome
    · exact hcalm
    · rw [hnone] at hsome
      cases hsome
  left success h := by
    rw [hresult] at h
    cases h

/-- An exit handled to its end, or not handled. -/
theorem orderly_of_ask (hresult : vm.result = none) (hask : departs vm.tasks = none)
    (hresult' : vm'.result = none) (htasks : Calm vm'.tasks ∨ departs vm'.tasks = some false) :
    Orderly vm' ∧ Departs vm input vm' := by
  have hbefore : vm.departure = none := by rw [departure_of_running hresult, hask]
  rcases htasks with hcalm | hfailed
  · refine ⟨orderly_of_tasks hresult' (.inl hcalm), .keep ?_⟩
    rw [hbefore, departure_of_running hresult', hcalm.departs]
  · refine ⟨orderly_of_tasks hresult' (.inr (by rw [hfailed]; rfl)), .fail hbefore ?_⟩
    rw [departure_of_running hresult', hfailed]

/-- A task that only prints. -/
theorem Orderly.print (ho : Orderly vm) (hresult : vm.result = none) {task : Task}
    {tasks : List Task} (htasks : vm.tasks = task :: tasks)
    (hdeparts : departs (task :: tasks) = departs tasks)
    (hcalm : Calm (task :: tasks) → Calm tasks) (hresult' : vm'.result = none)
    (htasks' : vm'.tasks = tasks) : Orderly vm' ∧ Departs vm input vm' := by
  refine ⟨⟨fun _ hnone => ?_, fun success h => ?_⟩, .keep ?_⟩
  · rw [htasks'] at hnone ⊢
    have := ho.calm hresult
    rw [htasks] at this
    exact hcalm (this (hdeparts.trans hnone))
  · rw [hresult'] at h
    cases h
  · rw [departure_of_running hresult, departure_of_running hresult', htasks, htasks', hdeparts]

/-- **A departure is final**, and with `true` only after the check of `KVM_EXIT_HLT`. -/
theorem Orderly.step (ho : Orderly vm) (h : vm.step input = some (e, vm')) :
    Orderly vm' ∧ Departs vm input vm' := by
  obtain ⟨hresult, ⟨htasks, result, rfl, hrun⟩ | ⟨task, tasks, htasks, hperform⟩⟩ :=
    step_eq_some h
  · have hb := begins_runVirtualMachine htasks result
    rw [hrun] at hb
    exact orderly_of_ask hresult (by rw [htasks]; rfl) (hb.result.trans hresult) hb.tasks
  · cases task with
    | handleFileIo =>
        cases input <;> simp only [perform, reduceCtorEq] at hperform
        obtain rfl := ho.eq_nil hresult htasks (.inl rfl)
        cases hperform
        refine orderly_of_ask hresult (by rw [htasks]; rfl) hresult ?_
        dsimp only
        split_ifs
        · exact .inl trivial
        · exact .inr rfl
    | handleSharedBufferIo =>
        cases input <;> simp only [perform, reduceCtorEq] at hperform
        obtain rfl := ho.eq_nil hresult htasks (.inr (.inl rfl))
        cases hperform
        refine orderly_of_ask hresult (by rw [htasks]; rfl) hresult ?_
        dsimp only
        split_ifs
        · exact .inl trivial
        · exact .inr rfl
    | readSerialInput =>
        cases input with
        | serialInput input =>
            obtain rfl := ho.eq_nil hresult htasks (.inr (.inr (.inl rfl)))
            cases input <;> cases hperform
            · exact orderly_of_ask hresult (by rw [htasks]; rfl) hresult (.inr rfl)
            · exact orderly_of_ask hresult (by rw [htasks]; rfl) hresult (.inl trivial)
        | _ => cases hperform
    | injectIrq =>
        cases input with
        | injected success =>
            obtain rfl := ho.eq_nil hresult htasks (.inr (.inr (.inr (.inl rfl))))
            cases success <;> cases hperform
            · exact orderly_of_ask hresult (by rw [htasks]; rfl) hresult (.inr rfl)
            · exact orderly_of_ask hresult (by rw [htasks]; rfl) hresult (.inl trivial)
        | _ => cases hperform
    | requireTransfer =>
        cases input <;> simp only [perform, reduceCtorEq] at hperform
        obtain rfl := ho.eq_nil hresult htasks (.inr (.inr (.inr (.inr rfl))))
        have hbefore : vm.departure = none := by
          rw [departure_of_running hresult, htasks]
          rfl
        split_ifs at hperform with hcompleted
        all_goals
          cases hperform
          refine ⟨orderly_of_tasks hresult (.inr rfl), .halt hbefore htasks rfl ?_⟩
          refine Eq.trans (departure_of_running hresult) ?_
        · rw [hcompleted]
          rfl
        · rw [Bool.not_eq_true] at hcompleted
          rw [hcompleted]
          rfl
    | flushSerialOutput finishLine =>
        cases input <;> simp only [perform, reduceCtorEq] at hperform
        split_ifs at hperform <;> cases hperform
        · exact ho.print hresult htasks rfl id hresult rfl
        · exact ho.print hresult htasks rfl id hresult rfl
    | printError report | printHalt | printUnexpectedExit exitReason =>
        cases input <;> simp only [perform, reduceCtorEq] at hperform
        cases hperform
        exact ho.print hresult htasks rfl (fun hcalm => by cases tasks <;> exact hcalm.elim)
          hresult rfl
    | leave success =>
        cases input <;> simp only [perform, reduceCtorEq] at hperform
        cases hperform
        refine ⟨⟨fun h => (by cases h), fun _ _ => rfl⟩, .keep ?_⟩
        have hnil : tasks = [] := by
          cases tasks with
          | nil => rfl
          | cons task tasks =>
              have hcalm := ho.calm hresult
              rw [htasks] at hcalm
              exact (hcalm rfl).elim
        rw [departure_of_running hresult, htasks, hnil]
        rfl

/-- Only the shared buffer completes a transfer. -/
theorem transferCompleted_step (h : vm.step input = some (e, vm')) :
    vm'.transferCompleted = vm.transferCompleted ∨
      ∃ handled transferCompleted, input = .sharedBufferIo handled transferCompleted := by
  obtain ⟨-, ⟨htasks, result, rfl, hrun⟩ | ⟨task, tasks, -, hperform⟩⟩ := step_eq_some h
  · have hb := begins_runVirtualMachine htasks result
    rw [hrun] at hb
    exact .inl hb.transferCompleted
  · unfold perform at hperform
    split at hperform
    case h_2 handled transferCompleted => exact .inr ⟨handled, transferCompleted, rfl⟩
    all_goals first | split at hperform | skip
    all_goals cases hperform
    all_goals exact .inl rfl

/-! ### Leaving with success -/

/-- A VM that checks its transfer at `KVM_EXIT_HLT`, or leaves with `true`, has nothing
pending. -/
structure Silent (vm : LoopVm) : Prop where
  check : vm.tasks = [.requireTransfer] → vm.serialOutputBuffer = []
  leaving : vm.departure = some true → vm.serialOutputBuffer = []

theorem silent_initial : Silent .initial :=
  ⟨fun _ => rfl, fun _ => rfl⟩

/-- Flushing leaves nothing pending. -/
theorem buffer_of_flush {tasks : List Task} {finishLine : Bool}
    (h : vm.perform tasks (.flushSerialOutput finishLine) input = some (e, vm')) :
    vm'.serialOutputBuffer = [] := by
  cases input <;> simp only [perform, reduceCtorEq] at h
  split_ifs at h with hempty
  · cases h
    simpa using hempty
  · cases h
    rfl

/-- Only a flush comes before the check of `KVM_EXIT_HLT`. -/
theorem Orderly.flush_of_check (ho : Orderly vm) (hresult : vm.result = none) {task : Task}
    {tasks : List Task} (htasks : vm.tasks = task :: tasks)
    (h : vm.perform tasks task input = some (e, vm')) (hcheck : vm'.tasks = [.requireTransfer]) :
    ∃ finishLine, task = .flushSerialOutput finishLine := by
  cases task with
  | flushSerialOutput finishLine => exact ⟨finishLine, rfl⟩
  | printError report | printHalt | printUnexpectedExit exitReason =>
      cases input <;> simp only [perform, reduceCtorEq] at h
      cases h
      have hcalm := ho.calm hresult
      rw [htasks, show tasks = _ from hcheck] at hcalm
      exact (hcalm rfl).elim
  | handleFileIo | handleSharedBufferIo =>
      have hnil : tasks = [] := ho.eq_nil hresult htasks (by simp)
      cases input <;> simp only [perform, reduceCtorEq] at h
      cases h
      dsimp only at hcheck
      split_ifs at hcheck
      · rw [hnil] at hcheck
        cases hcheck
      · cases hcheck
  | readSerialInput =>
      have hnil : tasks = [] := ho.eq_nil hresult htasks (by simp)
      cases input with
      | serialInput input =>
          cases input <;> cases h
          · cases hcheck
          · rw [hnil] at hcheck
            cases hcheck
      | _ => cases h
  | injectIrq =>
      have hnil : tasks = [] := ho.eq_nil hresult htasks (by simp)
      cases input with
      | injected success =>
          cases success <;> cases h
          · cases hcheck
          · rw [show tasks = _ from hcheck] at hnil
            cases hnil
      | _ => cases h
  | requireTransfer =>
      cases input <;> simp only [perform, reduceCtorEq] at h
      split_ifs at h <;> cases h <;> cases hcheck
  | leave success =>
      cases input <;> simp only [perform, reduceCtorEq] at h
      cases h
      cases hcheck

/-- **A VM that leaves with `true` has printed everything.** -/
theorem Silent.step (hs : Silent vm) (ho : Orderly vm) (h : vm.step input = some (e, vm')) :
    Silent vm' := by
  obtain ⟨ho', hdeparts⟩ := ho.step h
  obtain ⟨hresult, ⟨htasks, result, rfl, hrun⟩ | ⟨task, tasks, htasks, hperform⟩⟩ :=
    step_eq_some h
  · have hb := begins_runVirtualMachine htasks result
    rw [hrun] at hb
    refine ⟨fun hcheck => absurd hcheck hb.check, fun hleaving => ?_⟩
    rw [departure_of_running (hb.result.trans hresult)] at hleaving
    rcases hb.tasks with hcalm | hfailed
    · rw [hcalm.departs] at hleaving
      cases hleaving
    · rw [hfailed] at hleaving
      cases hleaving
  · refine ⟨fun hcheck => ?_, fun hleaving => ?_⟩
    · obtain ⟨finishLine, rfl⟩ := ho.flush_of_check hresult htasks hperform hcheck
      exact buffer_of_flush hperform
    · cases hdeparts with
      | keep hkeep => exact perform_empty (hs.leaving (hkeep ▸ hleaving)) hperform
      | fail _ hfailed =>
          rw [hfailed] at hleaving
          cases hleaving
      | halt _ htasks => exact perform_empty (hs.check htasks) hperform

end LoopVm

end KvmHypervisor
