import KvmHypervisor.ExitLoop
import KvmHypervisor.PortIo

/-!
# Console Output

What the exit loops print as a sequence of lines. The events of a run say which line each
critical section of `consoleMutex` printed (`consoleLines`) and what each guest wrote to the
serial port (`writtenBytes`, which is what its exits wrote: `writtenBytes_of_recorded`). A
section that prints less or more than one whole line, prints text of another VM, or loses a byte
would break one of the four parts of `ConsoleInv`.

The buffer of a VM holds no newline, except between the moment its guest has written one
and the flush that follows at once (`LineInv`). That is why a flush without `finishLine`
ends in the newline of the guest, and why one with it adds the only newline there is.

## Main results

* `LineInv.step`: a step of a VM keeps its buffer free of newlines.
* `console_of_run`: in every run, between any two critical sections, what the loops have
  printed is a sequence of whole lines that together hold what the guests have written.
* `delivered_of_run`: in a run in which no VM leaves with output pending, every VM that has
  ended has printed all its guest wrote.
-/

open Transitions

namespace KvmHypervisor

variable {n : ℕ}

/-! ### Lines -/

/-- What a line is: output of the guest, with or without a newline the guest wrote itself, or
a message of the hypervisor about the VM. -/
inductive LineKind where
  | serial (newlineByGuest : Bool)
  | message
deriving DecidableEq

/-- A line of the console. -/
structure ConsoleLine (n : ℕ) where
  vm : Fin n
  text : List UInt8
  kind : LineKind

/-- The line as it stands in the output. -/
def ConsoleLine.render (line : ConsoleLine n) : List UInt8 :=
  vmPrefix line.vm ++ line.text ++ [newline]

/-- The bytes of the guest in a line. -/
def ConsoleLine.serialBytes (line : ConsoleLine n) : List UInt8 :=
  match line.kind with
  | .serial true => line.text ++ [newline]
  | .serial false => line.text
  | .message => []

/-- The line an event has printed, if it has. -/
def consoleLine? : Fin n × LoopEvent → Option (ConsoleLine n)
  | (i, .printedSerial serialOutputBuffer _) =>
    if serialOutputBuffer.getLast? = some newline then
      some ⟨i, serialOutputBuffer.dropLast, .serial true⟩
    else some ⟨i, serialOutputBuffer, .serial false⟩
  | (i, .printedMessage text) => some ⟨i, text, .message⟩
  | _ => none

/-- The lines printed in a run, in order. -/
def consoleLines : List (Fin n × LoopEvent) → List (ConsoleLine n)
  | [] => []
  | e :: tr => consoleLines tr ++ (consoleLine? e).toList

/-- What the guest of VM `i` has written to the serial port, in order. -/
def writtenBytes (i : Fin n) : List (Fin n × LoopEvent) → List UInt8
  | [] => []
  | (j, .wrote output) :: tr => if j = i then writtenBytes i tr ++ [output] else writtenBytes i tr
  | _ :: tr => writtenBytes i tr

/-- An event adds what it has taken. -/
theorem writtenBytes_cons (i j : Fin n) (e : LoopEvent) (tr : List (Fin n × LoopEvent)) :
    writtenBytes i ((j, e) :: tr) = writtenBytes i tr ++ if j = i then e.written else [] := by
  by_cases hj : j = i
  · cases e <;> simp [writtenBytes, LoopEvent.written, hj]
  · cases e <;> simp [writtenBytes, hj]

/-- They are what the exits of the VM write. -/
theorem writtenBytes_of_recorded {ok : ExitLoops n → Fin n × LoopInput → Prop}
    {rec : List (ExitLoops n × (Fin n × LoopInput) × Fin n × LoopEvent)} {s : ExitLoops n}
    (hrun : (exitLoops n).recorded.Run ok rec s) (i : Fin n) :
    writtenBytes i (rec.map fun x => x.2.2) =
      rec.reverse.flatMap fun x => if x.2.1.1 = i then x.2.1.2.serialOutput else [] := by
  induction hrun with
  | refl => rfl
  | @step rec t u a x _ _ hs ih =>
      obtain ⟨e, hstep, rfl⟩ := Machine.recorded_step_eq_some.mp hs
      obtain ⟨j, input, event, vm, rfl, rfl, hvm, -⟩ := ExitLoops.step_eq_some hstep
      rw [List.reverse_cons, List.flatMap_append, ← ih, List.map_cons, List.flatMap_singleton,
        writtenBytes_cons, LoopVm.written_step hvm]

/-- What the lines of VM `i` hold of its guest's output. -/
def serialBytes (i : Fin n) (lines : List (ConsoleLine n)) : List UInt8 :=
  (lines.filter (·.vm = i)).flatMap ConsoleLine.serialBytes

@[simp] theorem serialBytes_append (i : Fin n) (lines lines' : List (ConsoleLine n)) :
    serialBytes i (lines ++ lines') = serialBytes i lines ++ serialBytes i lines' := by
  simp [serialBytes]

/-! ### Messages -/

/-- A decimal numeral holds no newline. -/
theorem newline_not_mem_toString (k : ℕ) : newline ∉ bytesOf (toString k) := by
  intro hmem
  obtain ⟨c, hc, heq⟩ := List.mem_map.mp hmem
  have hdigit : c.isDigit = true := by
    refine Nat.isDigit_of_mem_toDigits (b := 10) (n := k) (by decide) (by decide) ?_
    rwa [← Nat.toList_repr]
  have hbounds : 48 ≤ c.toNat ∧ c.toNat ≤ 57 := by
    simpa [Char.isDigit, UInt32.le_iff_toNat_le] using hdigit
  have hcode := congrArg UInt8.toNat heq
  simp only [UInt8.toNat_ofNat', newline, UInt8.reduceToNat] at hcode
  omega

/-- The messages of the hypervisor are single lines. -/
theorem newline_not_mem_message {text : List UInt8}
    (h : text = haltText ∨ ∃ exitReason, text = unexpectedExitText exitReason) :
    newline ∉ text := by
  rcases h with rfl | ⟨exitReason, rfl⟩
  · decide
  · rw [unexpectedExitText, List.mem_append, not_or]
    exact ⟨by decide, newline_not_mem_toString exitReason⟩

/-! ### What a step does to the buffer -/

section Cases

variable {vm vm' : LoopVm} {e : LoopEvent}

/-- What a step that is no output of the guest and prints no buffer does to the buffer. -/
structure LeavesBuffer (vm vm' : LoopVm) (e : LoopEvent) : Prop where
  buffer : vm'.serialOutputBuffer = vm.serialOutputBuffer
  flush : .flushSerialOutput false ∈ vm'.tasks → .flushSerialOutput false ∈ vm.tasks
  empty : .flushSerialOutput false ∈ vm.tasks.head? → vm.serialOutputBuffer = []
  event : e = .quiet ∨ (∃ report, e = .reported report) ∨ (∃ success, e = .returned success) ∨
    ∃ text, e = .printedMessage text ∧
      (text = haltText ∨ ∃ exitReason, text = unexpectedExitText exitReason)

/-- Putting off tasks, none of which prints an unfinished line, from an idle VM. -/
theorem LeavesBuffer.of_idle (htasks : vm.tasks = []) {tasks : List Task}
    (hnot : .flushSerialOutput false ∉ tasks) : LeavesBuffer vm { vm with tasks } .quiet where
  buffer := rfl
  flush := fun hmem => absurd hmem hnot
  empty := by simp [htasks]
  event := .inl rfl

/-- An iteration of the loop: a byte of the guest joins the buffer, or the buffer stays as it
is. -/
theorem runVirtualMachine_cases {result : KvmRunResult} (htasks : vm.tasks = [])
    (h : vm.runVirtualMachine result = (e, vm')) :
    (∃ b, e = .wrote b ∧ vm'.serialOutputBuffer = vm.serialOutputBuffer ++ [b] ∧
      vm'.tasks = if b = newline then [.flushSerialOutput false] else []) ∨
    LeavesBuffer vm vm' e := by
  have hidle : LeavesBuffer vm vm .quiet := ⟨rfl, id, by simp [htasks], .inl rfl⟩
  cases result with
  | failed errorNumber =>
      rw [LoopVm.runVirtualMachine] at h
      split at h <;> cases h
      · exact .inr hidle
      · exact .inr (.of_idle htasks (by simp))
  | exited exitReason run =>
      rw [LoopVm.runVirtualMachine] at h
      split at h
      · split at h
        · cases h
          exact .inr (.of_idle htasks (by simp))
        split at h
        · cases h
          exact .inr (.of_idle htasks (by simp))
        · unfold LoopVm.handleSerialIo at h
          split at h
          · cases h
            exact .inr (.of_idle htasks (by simp [handlingFailed]))
          split at h
          · cases h
            exact .inr (.of_idle htasks (by simp [handlingFailed]))
          split at h
          · cases h
            exact .inl ⟨_, rfl, rfl, rfl⟩
          split at h
          · cases h
            exact .inr (.of_idle htasks (by simp))
          · cases h
            exact .inr (.of_idle htasks (by simp [handlingFailed]))
      split at h
      · split at h <;> cases h
        · exact .inr (.of_idle htasks (by simp))
        · exact .inr ⟨rfl, id, by simp [htasks], .inl rfl⟩
      split at h
      · cases h
        exact .inr (.of_idle htasks (by simp))
      split at h
      · cases h
        exact .inr (.of_idle htasks (by simp))
      · cases h
        exact .inr (.of_idle htasks (by simp))

/-- A task other than a flush, after which `tasks'` are left. -/
theorem LeavesBuffer.of_task {task : Task} {tasks : List Task} (htasks : vm.tasks = task :: tasks)
    (htask : ∀ finishLine, task ≠ .flushSerialOutput finishLine)
    (hbuffer : vm'.serialOutputBuffer = vm.serialOutputBuffer)
    (hflush : .flushSerialOutput false ∈ vm'.tasks → .flushSerialOutput false ∈ tasks)
    (hevent : e = .quiet ∨ (∃ report, e = .reported report) ∨
      (∃ success, e = .returned success) ∨ ∃ text, e = .printedMessage text ∧
        (text = haltText ∨ ∃ exitReason, text = unexpectedExitText exitReason)) :
    LeavesBuffer vm vm' e where
  buffer := hbuffer
  flush := fun hmem => by
    rw [htasks]
    exact List.mem_cons_of_mem _ (hflush hmem)
  empty := fun hmem => by
    rw [htasks] at hmem
    exact absurd (Option.some.inj hmem) (htask false)
  event := hevent

/-- A task: the buffer is printed, or it stays as it is. -/
theorem perform_cases {task : Task} {tasks : List Task} {input : LoopInput}
    (htasks : vm.tasks = task :: tasks) (h : vm.perform tasks task input = some (e, vm')) :
    (∃ finishLine, e = .printedSerial vm.serialOutputBuffer finishLine ∧
      vm.tasks = .flushSerialOutput finishLine :: vm'.tasks ∧ vm.serialOutputBuffer ≠ [] ∧
      vm'.serialOutputBuffer = []) ∨
    LeavesBuffer vm vm' e := by
  cases task with
  | flushSerialOutput finishLine =>
      cases input <;> simp only [LoopVm.perform, reduceCtorEq] at h
      split at h
      · next hempty =>
          cases h
          refine .inr ⟨rfl, fun hmem => ?_, fun _ => by simpa using hempty, .inl rfl⟩
          rw [htasks]
          exact List.mem_cons_of_mem _ hmem
      · next hpending =>
          cases h
          exact .inl ⟨finishLine, rfl, htasks, by simpa using hpending, rfl⟩
  | handleFileIo | handleSharedBufferIo =>
      right
      cases input <;> simp only [LoopVm.perform, reduceCtorEq] at h
      cases h
      refine .of_task htasks (by simp) rfl (fun hmem => ?_) (.inl rfl)
      dsimp only at hmem
      split at hmem
      · exact hmem
      · simp [handlingFailed] at hmem
  | readSerialInput =>
      right
      cases input with
      | serialInput input =>
          cases input <;> cases h
          · exact .of_task htasks (by simp) rfl (fun hmem => by simp [handlingFailed] at hmem)
              (.inl rfl)
          · exact .of_task htasks (by simp) rfl id (.inl rfl)
      | _ => cases h
  | injectIrq =>
      right
      cases input with
      | injected success =>
          cases success <;> cases h
          · exact .of_task htasks (by simp) rfl (fun hmem => by simp at hmem) (.inl rfl)
          · exact .of_task htasks (by simp) rfl id (.inl rfl)
      | _ => cases h
  | requireTransfer =>
      right
      cases input <;> simp only [LoopVm.perform, reduceCtorEq] at h
      split at h <;> cases h
      · exact .of_task htasks (by simp) rfl (fun hmem => by simp at hmem) (.inl rfl)
      · exact .of_task htasks (by simp) rfl (fun hmem => by simp at hmem) (.inl rfl)
  | printError report =>
      right
      cases input <;> cases h
      exact .of_task htasks (by simp) rfl id (.inr (.inl ⟨report, rfl⟩))
  | printHalt =>
      right
      cases input <;> cases h
      exact .of_task htasks (by simp) rfl id (.inr (.inr (.inr ⟨_, rfl, .inl rfl⟩)))
  | printUnexpectedExit exitReason =>
      right
      cases input <;> cases h
      exact .of_task htasks (by simp) rfl id
        (.inr (.inr (.inr ⟨_, rfl, .inr ⟨exitReason, rfl⟩⟩)))
  | leave success =>
      right
      cases input <;> cases h
      exact .of_task htasks (by simp) rfl (fun hmem => by cases hmem)
        (.inr (.inr (.inl ⟨success, rfl⟩)))

end Cases

/-- **A step of a VM seen from the console**: its guest writes a byte, it prints its buffer, it
prints a message, or it prints nothing. -/
theorem LoopVm.step_cases {vm vm' : LoopVm} {input : LoopInput} {e : LoopEvent}
    (h : vm.step input = some (e, vm')) :
    (∃ b, e = .wrote b ∧ vm.tasks = [] ∧ vm'.serialOutputBuffer = vm.serialOutputBuffer ++ [b] ∧
      vm'.tasks = if b = newline then [.flushSerialOutput false] else []) ∨
    (∃ finishLine, e = .printedSerial vm.serialOutputBuffer finishLine ∧
      vm.tasks = .flushSerialOutput finishLine :: vm'.tasks ∧ vm.serialOutputBuffer ≠ [] ∧
      vm'.serialOutputBuffer = []) ∨
    LeavesBuffer vm vm' e := by
  obtain ⟨-, ⟨htasks, result, rfl, hrun⟩ | ⟨task, tasks, htasks, hperform⟩⟩ :=
    LoopVm.step_eq_some h
  · obtain ⟨b, he, hbuffer, htasks'⟩ | hleaves := runVirtualMachine_cases htasks hrun
    · exact .inl ⟨b, he, htasks, hbuffer, htasks'⟩
    · exact .inr (.inr hleaves)
  · exact .inr (perform_cases htasks hperform)

/-! ### The invariant -/

/-- The buffer of a VM holds no newline, unless the guest has just written one; then it is
flushed next. -/
def LineInv (vm : LoopVm) : Prop :=
  (newline ∉ vm.serialOutputBuffer ∧ .flushSerialOutput false ∉ vm.tasks) ∨
    ∃ text, newline ∉ text ∧ vm.serialOutputBuffer = text ++ [newline] ∧
      vm.tasks = [.flushSerialOutput false]

/-- **Every step of a VM keeps its buffer free of newlines.** -/
theorem LineInv.step {vm vm' : LoopVm} {input : LoopInput} {e : LoopEvent}
    (hI : LineInv vm) (h : vm.step input = some (e, vm')) : LineInv vm' := by
  obtain ⟨b, -, htasks, hbuffer, htasks'⟩ | ⟨finishLine, -, htasks, -, hbuffer⟩ |
    ⟨hbuffer, hflush, hempty, -⟩ := LoopVm.step_cases h
  · -- The guest writes while nothing is left to do, so the buffer is free of newlines.
    obtain ⟨hfree, -⟩ | ⟨text, -, -, hpending⟩ := hI
    · by_cases hb : b = newline
      · subst hb
        exact .inr ⟨vm.serialOutputBuffer, hfree, hbuffer, htasks'⟩
      · left
        rw [hbuffer, htasks', if_neg hb]
        simp [hfree, Ne.symm hb]
    · rw [htasks] at hpending
      cases hpending
  · left
    rw [hbuffer]
    refine ⟨List.not_mem_nil, fun hmem => ?_⟩
    obtain ⟨-, hnot⟩ | ⟨text, -, -, hpending⟩ := hI
    · exact hnot (htasks ▸ List.mem_cons_of_mem _ hmem)
    · rw [htasks] at hpending
      obtain ⟨-, hnil⟩ := List.cons.inj hpending
      rw [hnil] at hmem
      cases hmem
  · obtain ⟨hfree, hnot⟩ | ⟨text, -, htext, hpending⟩ := hI
    · left
      rw [hbuffer]
      exact ⟨hfree, fun hmem => hnot (hflush hmem)⟩
    · have := hempty (by rw [hpending]; rfl)
      rw [htext] at this
      exact absurd this (by simp)

/-- The line a flush prints: whole, and free of newlines before its end. -/
theorem LineInv.line {vm vm' : LoopVm} {finishLine : Bool} (hI : LineInv vm)
    (htasks : vm.tasks = .flushSerialOutput finishLine :: vm'.tasks)
    (hpending : vm.serialOutputBuffer ≠ []) (i : Fin n) :
    ∃ line, consoleLine? (i, .printedSerial vm.serialOutputBuffer finishLine) = some line ∧
      line.vm = i ∧ newline ∉ line.text ∧
      flushSerialOutput i vm.serialOutputBuffer finishLine = line.render ∧
      line.kind ≠ .message ∧ line.serialBytes = vm.serialOutputBuffer := by
  obtain ⟨hfree, hnot⟩ | ⟨text, hfree, htext, -⟩ := hI
  · -- Without a newline in the buffer the flush is one that finishes the line.
    have hlast : vm.serialOutputBuffer.getLast? ≠ some newline := fun h =>
      hfree (List.mem_of_getLast? h)
    obtain rfl : finishLine = true := by
      cases finishLine with
      | true => rfl
      | false =>
          rw [htasks] at hnot
          exact absurd (List.mem_cons_self ..) hnot
    refine ⟨⟨i, vm.serialOutputBuffer, .serial false⟩, ?_, rfl, hfree, ?_, by simp, rfl⟩
    · rw [consoleLine?, if_neg hlast]
    · rw [flushSerialOutput, if_neg (by simpa using hpending)]
      simp [ConsoleLine.render, hlast]
  · refine ⟨⟨i, text, .serial true⟩, ?_, rfl, hfree, ?_, by simp, htext.symm⟩
    · rw [consoleLine?, htext, if_pos (by simp)]
      simp
    · rw [flushSerialOutput, if_neg (by simpa using hpending), htext]
      simp [ConsoleLine.render]

/-- **What the console shows**, at a moment when no thread holds `consoleMutex`, in terms of
the events so far. -/
structure ConsoleInv (tr : List (Fin n × LoopEvent)) (s : ExitLoops n) : Prop where
  output : s.out = (consoleLines tr).flatMap ConsoleLine.render
  newlineFree : ∀ line ∈ consoleLines tr, newline ∉ line.text
  messages : ∀ line ∈ consoleLines tr, line.kind = .message →
    line.text = haltText ∨ ∃ exitReason, line.text = unexpectedExitText exitReason
  accounting : ∀ i, serialBytes i (consoleLines tr) ++ (s.vms i).serialOutputBuffer =
    writtenBytes i tr

/-- An event that prints nothing and is no output of a guest leaves the console alone. -/
theorem ConsoleInv.of_silent {tr : List (Fin n × LoopEvent)} {s s' : ExitLoops n}
    {e : Fin n × LoopEvent} (hI : ConsoleInv tr s) (hline : consoleLine? e = none)
    (hwritten : ∀ i, writtenBytes i (e :: tr) = writtenBytes i tr) (hout : s'.out = s.out)
    (hbuffers : ∀ i, (s'.vms i).serialOutputBuffer = (s.vms i).serialOutputBuffer) :
    ConsoleInv (e :: tr) s' := by
  have hlines : consoleLines (e :: tr) = consoleLines tr := by
    rw [consoleLines, hline]
    exact List.append_nil _
  exact
    { output := by rw [hlines, hout, hI.output]
      newlineFree := by rw [hlines]; exact hI.newlineFree
      messages := by rw [hlines]; exact hI.messages
      accounting := fun i => by rw [hlines, hbuffers, hwritten, hI.accounting] }

/-- A printed line joins the others. -/
theorem ConsoleInv.of_line {tr : List (Fin n × LoopEvent)} {s s' : ExitLoops n}
    {e : Fin n × LoopEvent} {line : ConsoleLine n} (hI : ConsoleInv tr s)
    (hline : consoleLine? e = some line)
    (hwritten : ∀ i, writtenBytes i (e :: tr) = writtenBytes i tr)
    (hout : s'.out = s.out ++ line.render) (hfree : newline ∉ line.text)
    (hmessage : line.kind = .message →
      line.text = haltText ∨ ∃ exitReason, line.text = unexpectedExitText exitReason)
    (hbuffers : ∀ i, (if line.vm = i then line.serialBytes else []) ++
      (s'.vms i).serialOutputBuffer = (s.vms i).serialOutputBuffer) :
    ConsoleInv (e :: tr) s' := by
  have hlines : consoleLines (e :: tr) = consoleLines tr ++ [line] := by
    rw [consoleLines, hline]
    rfl
  have hserial : ∀ i, serialBytes i [line] = if line.vm = i then line.serialBytes else [] := by
    intro i
    by_cases hi : line.vm = i <;> simp [serialBytes, hi]
  constructor
  · rw [hlines, hout, hI.output]
    simp
  · rw [hlines]
    intro l hl
    rcases List.mem_append.mp hl with hl | hl
    · exact hI.newlineFree l hl
    · rw [List.mem_singleton.mp hl]
      exact hfree
  · rw [hlines]
    intro l hl
    rcases List.mem_append.mp hl with hl | hl
    · exact hI.messages l hl
    · rw [List.mem_singleton.mp hl]
      exact hmessage
  · intro i
    rw [hlines, hwritten, serialBytes_append, hserial, List.append_assoc, hbuffers,
      hI.accounting]

/-- **Every step of every VM keeps the console in order.** -/
theorem ConsoleInv.step {tr : List (Fin n × LoopEvent)} {s s' : ExitLoops n}
    {a : Fin n × LoopInput} {e : Fin n × LoopEvent} (hI : ConsoleInv tr s)
    (hL : ∀ i, LineInv (s.vms i)) (hs : s.step a = some (e, s')) : ConsoleInv (e :: tr) s' := by
  obtain ⟨i, input, event, vm, rfl, rfl, hvm, hout, hvms⟩ := ExitLoops.step_eq_some hs
  have hother : ∀ j, j ≠ i → (s'.vms j).serialOutputBuffer = (s.vms j).serialOutputBuffer :=
    fun j hj => by rw [hvms, Function.update_of_ne hj]
  have hself : (s'.vms i).serialOutputBuffer = vm.serialOutputBuffer := by
    rw [hvms, Function.update_self]
  obtain ⟨b, rfl, -, hbuffer, -⟩ | ⟨finishLine, rfl, htasks, hpending, hbuffer⟩ |
    ⟨hbuffer, -, -, hevent⟩ := LoopVm.step_cases hvm
  · have hout : s'.out = s.out := hout.trans (List.append_nil _)
    have hlines : consoleLines ((i, .wrote b) :: tr) = consoleLines tr := List.append_nil _
    constructor
    · rw [hlines, hout, hI.output]
    · rw [hlines]
      exact hI.newlineFree
    · rw [hlines]
      exact hI.messages
    · intro j
      by_cases hj : i = j
      · subst hj
        rw [hlines, hself, hbuffer, ← List.append_assoc, hI.accounting]
        simp [writtenBytes]
      · rw [hlines, hother j (Ne.symm hj), hI.accounting]
        simp [writtenBytes, hj]
  · obtain ⟨line, hline, rfl, hfree, hrender, hkind, hbytes⟩ :=
      (hL i).line htasks hpending i
    refine hI.of_line hline (fun _ => rfl) (by rw [hout, ← hrender]; rfl) hfree
      (fun h => absurd h hkind) fun j => ?_
    by_cases hj : line.vm = j
    · subst hj
      rw [if_pos rfl, hself, hbuffer, hbytes, List.append_nil]
    · rw [if_neg hj, hother j (Ne.symm hj), List.nil_append]
  · have hbuffers : ∀ j, (s'.vms j).serialOutputBuffer = (s.vms j).serialOutputBuffer := by
      intro j
      by_cases hj : j = i
      · subst hj
        rw [hself, hbuffer]
      · exact hother j hj
    obtain rfl | ⟨report, rfl⟩ | ⟨success, rfl⟩ | ⟨text, rfl, htext⟩ := hevent
    · exact hI.of_silent rfl (fun _ => rfl) (hout.trans (List.append_nil _)) hbuffers
    · exact hI.of_silent rfl (fun _ => rfl) (hout.trans (List.append_nil _)) hbuffers
    · exact hI.of_silent rfl (fun _ => rfl) (hout.trans (List.append_nil _)) hbuffers
    · refine hI.of_line rfl (fun _ => rfl) hout (newline_not_mem_message htext)
        (fun _ => htext) fun j => ?_
      rw [hbuffers]
      simp [ConsoleLine.serialBytes]

/-- **Lines of different exit loops never mix**: for any number of VMs and any interleaving of
their exits, at every moment when no thread holds `consoleMutex`. -/
theorem console_of_run {tr : List (Fin n × LoopEvent)} {s : ExitLoops n}
    (hrun : (exitLoops n).Run (fun _ _ => True) tr s) : ConsoleInv tr s := by
  suffices hI : ConsoleInv tr s ∧ ∀ i, LineInv (s.vms i) from hI.1
  refine hrun.invariant (I := fun tr s => ConsoleInv tr s ∧ ∀ i, LineInv (s.vms i)) ?_ ?_
  · refine ⟨⟨rfl, ?_, ?_, fun _ => rfl⟩, fun _ => .inl ⟨List.not_mem_nil, List.not_mem_nil⟩⟩
    · exact fun _ h => absurd h List.not_mem_nil
    · exact fun _ h => absurd h List.not_mem_nil
  · rintro tr s a e s' ⟨hI, hL⟩ - hs
    refine ⟨hI.step hL hs, fun j => ?_⟩
    obtain ⟨i, input, event, vm, rfl, rfl, hvm, -, hvms⟩ := ExitLoops.step_eq_some hs
    rw [hvms]
    by_cases hj : j = i
    · subst hj
      rw [Function.update_self]
      exact (hL j).step hvm
    · rw [Function.update_of_ne hj]
      exact hL j

/-- The exit of a guest that writes a byte to the serial port. -/
def serialOut (output : UInt8) : LoopInput :=
  .kvmRun (.exited kvmExitIo ((PortCommand.outb serialPort output).exit .smallest))

/-- Two VMs each write a letter; the first ends its line, the second halts. -/
def twoLetters : List (Fin 2 × LoopInput) :=
  [(0, serialOut 65), (1, serialOut 66), (0, serialOut newline), (0, .proceed),
    (1, .kvmRun (.exited kvmExitHlt ⟨⟨0, 0, 0, 0, 0⟩, fun _ => 0, 0⟩)), (1, .proceed),
    (1, .proceed), (1, .proceed), (1, .proceed)]

/-! ### Delivery -/

/-- **All serial output is delivered before a VM ends**, in every run in which neither
`KVM_RUN` nor an injection fails for a VM with output pending. -/
theorem delivered_of_run {tr : List (Fin n × LoopEvent)} {s : ExitLoops n} {i : Fin n}
    {success : Bool} (hrun : (exitLoops n).Run NeverLeavesUnflushed tr s)
    (hreturned : (s.vms i).result = some success) :
    (s.vms i).serialOutputBuffer = [] ∧ serialBytes i (consoleLines tr) = writtenBytes i tr := by
  have hempty := flushed_of_run hrun hreturned
  have hI := console_of_run (Machine.Path.mono (fun _ _ _ => trivial) hrun)
  refine ⟨hempty, ?_⟩
  have haccount := hI.accounting i
  rwa [hempty, List.append_nil] at haccount

/-- The second VM of `twoLetters` has delivered its letter when it ends. -/
theorem delivered_of_run_twoLetters : ∃ (tr : List (Fin 2 × LoopEvent)) (s : ExitLoops 2),
    (exitLoops 2).Run NeverLeavesUnflushed tr s ∧ (s.vms 1).result = some false ∧
      (s.vms 1).serialOutputBuffer = [] ∧ serialBytes 1 (consoleLines tr) = writtenBytes 1 tr := by
  have hexec : ((exitLoops 2).exec NeverLeavesUnflushed (exitLoops 2).init twoLetters).map
      (fun p => (p.2.vms 1).result) = some (some false) := by decide +kernel
  obtain ⟨tr, s, hrun, hreturned⟩ := Machine.exists_of_exec hexec
  exact ⟨tr, s, hrun, hreturned, delivered_of_run hrun hreturned⟩

/-- A guest writes a letter, and then `KVM_RUN` fails with `EFAULT`. -/
def letterThenFault : List (Fin 1 × LoopInput) :=
  [(0, serialOut 65), (0, .kvmRun (.failed 14)), (0, .proceed), (0, .proceed)]

/-- Not every VM that has left its loop has delivered its output. -/
theorem delivered_of_run_false :
    ¬∀ (n : ℕ) (tr : List (Fin n × LoopEvent)) (s : ExitLoops n) (i : Fin n) (success : Bool),
      (exitLoops n).Run (fun _ _ => True) tr s → (s.vms i).result = some success →
      (s.vms i).serialOutputBuffer = [] := by
  intro hall
  have hexec : ((exitLoops 1).exec (fun _ _ => True) (exitLoops 1).init letterThenFault).map
      (fun p => ((p.2.vms 0).result, (p.2.vms 0).serialOutputBuffer)) =
      some (some false, [65]) := by decide +kernel
  obtain ⟨tr, s, hrun, hobs⟩ := Machine.exists_of_exec hexec
  obtain ⟨hreturned, hbuffer⟩ := Prod.mk.inj hobs
  have hempty := hall 1 tr s 0 false hrun hreturned
  rw [hbuffer] at hempty
  cases hempty

end KvmHypervisor
