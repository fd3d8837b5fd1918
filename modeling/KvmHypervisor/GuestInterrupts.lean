import KvmHypervisor.GuestRuns

/-!
# The Interrupts of the Guests

`runVirtualMachine` asks for the interrupt window as long as there are interrupts left of its
`IRQ_COUNT`, and injects one when the window opens. A guest can take an interrupt only while
`main` waits for the transfer: before, it has interrupts disabled, afterwards there are none left.
So the handler never interrupts itself, and runs at most twice; a guest that has halted has run
it exactly twice.

## Main results

* `accounted_interrupts_of_run`: the account of the interrupts in every run.
-/

open Interactions Transitions

namespace KvmHypervisor

open PosixFiles

variable {n : ℕ}

/-! ### One guest -/

/-- A guest whose handler interrupts nothing but the loop of `main`, and never itself. -/
structure Guest.Steady (g : Guest) : Prop where
  waits : g.injected = true ∨ g.handler.isSome = true → g.main = .waiting
  masked : g.handler.isSome = true → g.interruptFlag = false ∧ g.injected = false

/-- How often a step makes a guest take an interrupt. -/
def BootedEvent.interrupts (i : Fin (n + 1)) : BootedEvent n → ℕ
  | .interrupted j => if j = i then 1 else 0
  | _ => 0

/-- How often the guest of VM `i` has taken an interrupt. -/
def interruptsOf (i : Fin (n + 1)) (tr : List (BootedEvent n)) : ℕ :=
  (tr.map (·.interrupts i)).sum

namespace Guest

variable {g g' : Guest} {layout : RunLayout} {t : GuestThread}

theorem steady_initial : Steady .initial where
  waits h := by rcases h with h | h <;> cases h
  masked h := by cases h

/-- An answer does not interrupt. -/
theorem Steady.resume (hg : g.Steady) (answer : (query : GuestQuery) → query.Reply) :
    (g.resume answer).Steady ∧ (g.resume answer).handler.isSome = g.handler.isSome ∧
      (g.resume answer).injected = g.injected := by
  obtain ⟨hwaits, hmasked⟩ := hg
  unfold Guest.resume
  cases hhandler : g.handler with
  | some code =>
      rw [hhandler] at hwaits hmasked
      exact ⟨⟨fun _ => hwaits (.inr rfl), fun _ => hmasked rfl⟩, rfl, rfl⟩
  | none =>
      rw [hhandler] at hwaits
      have hinjected : g.injected = true → g.main = .waiting := fun h => hwaits (.inl h)
      cases hmain : g.main with
      | waiting => exact ⟨⟨fun _ => rfl, fun h => by cases h⟩, rfl, rfl⟩
      | booting code | finishing code =>
          refine ⟨⟨fun h => ?_, fun h => by cases h⟩, rfl, rfl⟩
          rcases h with h | h
          · rw [hmain] at hinjected
            cases hinjected h
          · cases h

/-- What a guest does by itself: it takes the interrupt that was left for it, or none. -/
theorem Steady.proceed (hg : g.Steady) (h : g.proceed = some g') :
    g'.Steady ∧ ((g.handler = none ∧ g'.handler.isSome = true ∧ g.injected = true ∧
        g'.injected = false) ∨
      ((g.handler.isSome = true ∨ g'.handler = none) ∧ g'.injected = g.injected)) := by
  obtain ⟨hwaits, hmasked⟩ := hg
  unfold Guest.proceed at h
  cases hhandler : g.handler with
  | some code =>
      rw [hhandler] at h hwaits hmasked
      cases code with
      | ask query next => cases h
      | pure globals =>
          cases h
          refine ⟨⟨fun _ => hwaits (.inr rfl), fun h => by cases h⟩, .inr ⟨.inl rfl, rfl⟩⟩
  | none =>
      rw [hhandler] at h hwaits
      dsimp only at h
      by_cases hinjected : g.injected = true
      · rw [if_pos hinjected] at h
        split_ifs at h
        cases h
        exact ⟨⟨fun _ => hwaits (.inl hinjected), fun _ => ⟨rfl, rfl⟩⟩,
          .inl ⟨rfl, rfl, hinjected, rfl⟩⟩
      · rw [if_neg hinjected] at h
        have hnone : ∀ {main : GuestMain} {interruptFlag : Bool},
            ({ g with main, interruptFlag, handler := none } : Guest).Steady :=
          ⟨fun h => by rcases h with h | h <;> [exact absurd h hinjected; cases h],
            fun h => by cases h⟩
        cases hmain : g.main with
        | booting code =>
            rw [hmain] at h
            cases code with
            | ask query next => cases h
            | pure result =>
                cases h
                exact ⟨hnone, .inr ⟨.inr rfl, rfl⟩⟩
        | waiting =>
            rw [hmain] at h
            dsimp only at h
            split_ifs at h
            cases h
            exact ⟨hnone, .inr ⟨.inr rfl, rfl⟩⟩
        | finishing code =>
            rw [hmain] at h
            cases h

/-- **A guest moves**: it takes the interrupt that was left for it, or none. -/
theorem Steady.move (hg : g.Steady) (h : g.move layout t = some g') (i : Fin (n + 1)) :
    g'.Steady ∧ (BootedEvent.ofMove i g g').interrupts i + g'.injected.toNat =
      g.injected.toNat := by
  unfold Guest.move at h
  cases hflight : g.inFlight with
  | none =>
      rw [hflight] at h
      obtain ⟨hg', ⟨hnone, hsome, hbefore, hafter⟩ | ⟨hkeep, hsame⟩⟩ := hg.proceed h
      · refine ⟨hg', ?_⟩
        rw [BootedEvent.ofMove, hnone, hsome, hbefore, hafter]
        simp [BootedEvent.interrupts]
      · refine ⟨hg', ?_⟩
        have hmoved : BootedEvent.ofMove i g g' = .moved i := by
          rw [BootedEvent.ofMove]
          rcases hkeep with hsome | hnone
          · rw [← Option.not_isNone, Bool.not_eq_true'] at hsome
            rw [hsome]
            rfl
          · rw [hnone, Option.isSome_none, Bool.and_false]
            rfl
        rw [hmoved, hsame]
        exact Nat.zero_add _
  | port | result buffer =>
      rw [hflight] at h
      cases h
      obtain ⟨hg', hhandler, hinjected⟩ := hg.resume _
      refine ⟨hg', ?_⟩
      rw [BootedEvent.ofMove, hhandler, hinjected]
      cases g.handler <;> simp [BootedEvent.interrupts]
  | request buffer =>
      rw [hflight] at h
      cases h
      refine ⟨⟨hg.waits, hg.masked⟩, ?_⟩
      rw [BootedEvent.ofMove]
      cases g.handler <;> simp [BootedEvent.interrupts]
  | submitted buffer =>
      rw [hflight] at h
      cases h

/-- The end of `KVM_RUN` is no interrupt. -/
theorem Steady.returns (hg : g.Steady) {result : KvmRunResult} {memory : ℕ → UInt8}
    (h : g.Returns layout t result memory g') : g'.Steady ∧ g'.injected = g.injected := by
  cases h <;> exact ⟨⟨hg.waits, hg.masked⟩, rfl⟩

/-- An injection. -/
theorem Steady.inject {count : ℕ} {p : DefaultProgram} {w : List UInt8}
    (hphase : Phase count g p w) (hopen : g.interruptible = true) (hcount : 0 < count) :
    ({ g with injected := true } : Guest).Steady := by
  obtain ⟨hmain, hhandler, -⟩ := hphase.inject hopen hcount
  refine ⟨fun _ => hmain, fun h => ?_⟩
  rw [hhandler] at h
  cases h

end Guest

/-! ### The threads -/

/-- An iteration of the loop injects nothing. -/
theorem LoopVm.interruptCount_runVirtualMachine (vm : LoopVm) (result : KvmRunResult) :
    (vm.runVirtualMachine result).2.interruptCount = vm.interruptCount := by
  cases result with
  | failed errorNumber =>
      rw [runVirtualMachine]
      split_ifs <;> rfl
  | exited exitReason run =>
      rw [runVirtualMachine, handleSerialIo]
      split_ifs <;> rfl

/-- Only an injection counts. -/
theorem LoopVm.interruptCount_step {vm vm' : LoopVm} {input : LoopInput} {e : LoopEvent}
    (h : vm.step input = some (e, vm')) (hinput : ∀ success, input ≠ .injected success) :
    vm'.interruptCount = vm.interruptCount := by
  obtain ⟨-, ⟨-, result, rfl, hrun⟩ | ⟨task, tasks, -, hperform⟩⟩ := step_eq_some h
  · rw [← interruptCount_runVirtualMachine vm result, hrun]
  · unfold perform at hperform
    split at hperform
    case h_5 success => exact absurd rfl (hinput success)
    all_goals first | split at hperform | skip
    all_goals cases hperform
    all_goals rfl

namespace WholeProgram

variable {sys : HostSystem} {sharedFiles : List (String × HostPath)} {config : Config}
variable {s w : WholeProgram n} {a : ProgramAction n} {x : ProgramEvent n}

/-- A thread whose loop has not moved. -/
theorem interruptCount_update {i : Fin (n + 1)} {t : GuestThread}
    (hthreads : w.threads = Function.update s.threads i t)
    (hloop : t.loop.interruptCount = (s.threads i).loop.interruptCount) (j : Fin (n + 1)) :
    (w.threads j).loop.interruptCount = (s.threads j).loop.interruptCount := by
  rw [hthreads]
  by_cases hj : j = i
  · subst hj
    rw [Function.update_self, hloop]
  · rw [Function.update_of_ne hj]

/-- Only an injection counts, for every thread. -/
theorem interruptCount_advance (h : Advance sys sharedFiles config s a x w)
    (hnot : ∀ i success, a ≠ .injected i success) (j : Fin (n + 1)) :
    (w.threads j).loop.interruptCount = (s.threads j).loop.interruptCount := by
  cases h with
  | @create started hlt =>
      refine interruptCount_update (i := ⟨started, hlt⟩) rfl ?_ j
      rfl
  | createFails | join | joinFails | exit | print => rfl
  | @life _ i | @park i | @conclude i | @abort i | @close i =>
      refine interruptCount_update (i := i) rfl ?_ j
      rfl
  | @loop _ i w t input event e vm hin hw hstep =>
      have hthreads : ((w.setThread i { t with loop := vm }).speaks i e).threads =
          Function.update s.threads i { t with loop := vm } := by
        rw [← hw.threads_eq]
        rfl
      refine interruptCount_update hthreads (LoopVm.interruptCount_step hstep ?_) j
      rintro success rfl
      cases hw
      exact hnot _ _ rfl

end WholeProgram

/-! ### Runs -/

/-- The interrupts of a VM: those its guest has taken, the one that is left for it, and those
still to be injected. -/
structure BootedProgram.Interrupts (tr : List (BootedEvent n)) (s : BootedProgram n)
    (i : Fin (n + 1)) : Prop where
  steady : (s.guests i).Steady
  count : interruptsOf i tr + (s.guests i).injected.toNat +
    (s.program.threads i).loop.interruptCount = irqCount

namespace BootedProgram

variable {sys : HostSystem} {sharedFiles : List (String × HostPath)} {config : Config}
variable {layout : Fin (n + 1) → RunLayout} {s s' : BootedProgram n} {x : BootedEvent n}
variable {tr : List (BootedEvent n)} {i : Fin (n + 1)}

theorem interruptsOf_cons (i : Fin (n + 1)) (x : BootedEvent n) (tr : List (BootedEvent n)) :
    interruptsOf i (x :: tr) = x.interrupts i + interruptsOf i tr :=
  List.sum_cons

/-- An event of the program is no interrupt. -/
theorem Interrupts.of_program {y : ProgramEvent n} (hsteady : (s'.guests i).Steady)
    (hcount : interruptsOf i tr + (s'.guests i).injected.toNat +
      (s'.program.threads i).loop.interruptCount = irqCount) :
    Interrupts (.program y :: tr) s' i := by
  refine ⟨hsteady, ?_⟩
  rw [interruptsOf_cons, show (BootedEvent.program y).interrupts i = 0 from rfl, Nat.zero_add]
  exact hcount

/-- **An injection** takes one from the interrupts that are left, and its guest waits for it. -/
theorem Interrupts.injected (hI : Interrupts tr s i) {layout : RunLayout} {p : DefaultProgram}
    {w : List UInt8} (hA : Aligned layout (s.program.threads i) (s.guests i) p w)
    (hlife : (s.program.threads i).life.stage.result = none) {success : Bool} {e : LoopEvent}
    {vm : LoopVm} (h : (s.program.threads i).loop.step (.injected success) = some (e, vm)) :
    (deliver s.guests (.injected i success) i).Steady ∧
      interruptsOf i tr + (deliver s.guests (.injected i success) i).injected.toNat +
        vm.interruptCount = irqCount := by
  obtain ⟨hresult, -, htasks, -, hphase, hopen, hpos⟩ := hA.injects hlife h
  simp only [LoopVm.step, hresult, htasks, LoopVm.perform] at h
  have hcount := hI.count
  cases success with
  | false =>
      cases h
      exact ⟨hI.steady, hcount⟩
  | true =>
      cases h
      have hnone : (s.guests i).injected = false := by
        simp only [Guest.interruptible, Bool.and_eq_true, Bool.not_eq_true'] at hopen
        exact hopen.1.2
      rw [deliver, Function.update_self]
      refine ⟨.inject hphase hopen hpos, ?_⟩
      rw [hnone] at hcount
      simp only [Bool.toNat_true, Bool.toNat_false] at hcount ⊢
      omega

/-- **A step of the program**, but no return of `KVM_RUN`. -/
theorem Interrupts.program {a : ProgramAction n} {y : ProgramEvent n} {w : WholeProgram n}
    (hI : ∀ i, Interrupts tr s i) (hA : Aligns layout tr s)
    (h : WholeProgram.Advance sys sharedFiles config s.program a y w) (i : Fin (n + 1)) :
    Interrupts (.program y :: tr) ⟨w, deliver s.guests a⟩ i := by
  by_cases hinjected : ∃ j success, a = .injected j success
  · obtain ⟨j, success, rfl⟩ := hinjected
    cases h with
    | life _ _ ha => rcases ha with ha | ⟨ha, -⟩ <;> cases ha
    | loop hin hw hstep =>
        cases hw
        have hlife : (s.program.threads j).life.stage.result = none := by
          rw [(WholeProgram.inLoop_iff.mp hin).2]
          rfl
        by_cases hij : i = j
        · subst hij
          obtain ⟨hsteady, hcount⟩ := (hI i).injected (hA i) hlife hstep
          refine .of_program hsteady ?_
          show _ + _ + (Function.update s.program.threads i _ i).loop.interruptCount = _
          rw [Function.update_self]
          exact hcount
        · have hguest : deliver s.guests (.injected j success) i = s.guests i := by
            cases success with
            | false => rfl
            | true => exact Function.update_of_ne hij ..
          refine .of_program ?_ ?_
          · show (deliver s.guests (.injected j success) i).Steady
            rw [hguest]
            exact (hI i).steady
          · show _ + (deliver s.guests (.injected j success) i).injected.toNat +
              (Function.update s.program.threads j _ i).loop.interruptCount = _
            rw [Function.update_of_ne hij, hguest]
            exact (hI i).count
  · have hguests : deliver s.guests a = s.guests := by
      cases a with
      | injected j success => exact absurd ⟨j, success, rfl⟩ hinjected
      | _ => rfl
    rw [hguests]
    refine .of_program (hI i).steady ?_
    rw [WholeProgram.interruptCount_advance h fun j success h => hinjected ⟨j, success, h⟩]
    exact (hI i).count

/-- **A step** keeps the account of the interrupts. -/
theorem Interrupts.advance (hI : ∀ i, Interrupts tr s i) (hA : Aligns layout tr s)
    (h : Advance sys sharedFiles config layout s x s') (i : Fin (n + 1)) :
    Interrupts (x :: tr) s' i := by
  cases h with
  | program _ hstep => exact .program hI hA (WholeProgram.step_cases hstep).2 i
  | @guest j g _ hmove =>
      by_cases hij : i = j
      · subst hij
        obtain ⟨hsteady, hcount⟩ := (hI i).steady.move hmove i
        have hguest : Function.update s.guests i g i = g := Function.update_self ..
        have hbefore := (hI i).count
        constructor
        · dsimp only
          rw [hguest]
          exact hsteady
        · dsimp only
          rw [interruptsOf_cons, hguest]
          omega
      · have hguest : Function.update s.guests j g i = s.guests i := Function.update_of_ne hij ..
        have hzero : (BootedEvent.ofMove j (s.guests j) g).interrupts i = 0 := by
          rw [BootedEvent.ofMove]
          split_ifs
          · exact if_neg fun h => hij h.symm
          · rfl
        constructor
        · dsimp only
          rw [hguest]
          exact (hI i).steady
        · dsimp only
          rw [interruptsOf_cons, hzero, Nat.zero_add, hguest]
          exact (hI i).count
  | @kvmRun j result memory g y w _ hreturns hstep =>
      obtain ⟨hsteady, hsame⟩ := (hI j).steady.returns hreturns
      have hguest : (Function.update s.guests j g i).Steady ∧
          (Function.update s.guests j g i).injected = (s.guests i).injected := by
        by_cases hij : i = j
        · subst hij
          rw [Function.update_self]
          exact ⟨hsteady, hsame⟩
        · rw [Function.update_of_ne hij]
          exact ⟨(hI i).steady, rfl⟩
      refine .of_program hguest.1 ?_
      dsimp only
      rw [hguest.2, WholeProgram.interruptCount_advance (WholeProgram.step_cases hstep).2
        fun _ _ h => by cases h]
      exact (hI i).count

end BootedProgram

section Runs

variable {sys : HostSystem} {sharedFiles : List (String × HostPath)} {config : Config}
variable {layout : Fin (n + 1) → RunLayout} {host : Host HostPath} {stdin : List UInt8}
variable {ok : BootedProgram n → BootedAction n → Prop} {tr : List (BootedEvent n)}
variable {s : BootedProgram n}

/-- **The interrupts of every VM are accounted for** in every run. -/
theorem accounted_interrupts_of_run
    (hrun : (bootedProgram sys sharedFiles n config layout host stdin).Run ok tr s) :
    ∀ i, BootedProgram.Interrupts tr s i := by
  refine (hrun.invariant (I := fun tr s =>
    (bootedProgram sys sharedFiles n config layout host stdin).Run ok tr s ∧
      ∀ i, BootedProgram.Interrupts tr s i)
    ⟨.refl, fun i => ⟨Guest.steady_initial, rfl⟩⟩ ?_).2
  rintro tr s a x s' ⟨hbefore, hI⟩ hok h
  refine ⟨hbefore.step hok h, ?_⟩
  exact BootedProgram.Interrupts.advance hI (aligned_of_run hbefore).2 (BootedProgram.step_cases h)

end Runs

end KvmHypervisor
