import KvmHypervisor.GuestAlignment

/-!
# Runs with the Guests

Every thread of the program with its guests stays aligned with its guest in every run. The
program of a guest and what it has printed are read off the events: the answers to its calls,
and the bytes its thread has taken.

## Main results

* `aligned_of_run`: every thread is aligned with its guest in every run.
-/

open Interactions Transitions

namespace KvmHypervisor

open PosixFiles

variable {n : ℕ}

/-! ### Alignment without the loop -/

section Keep

variable {layout : RunLayout} {t t' : GuestThread} {g : Guest} {p : DefaultProgram}
variable {b : List UInt8}

/-- A position depends on the loop, the exit, the guest memory and the files. -/
theorem Position.congr (h : Position layout t g p b) (hloop : t'.loop = t.loop)
    (hrun : t'.run = t.run) (hmemory : t'.memory = t.memory)
    (hfiles : t'.fileState = t.fileState) : Position layout t' g p b := by
  cases h with
  | still htasks hpending hphase =>
      rw [← hloop] at htasks hphase
      exact .still htasks (hfiles ▸ hpending) hphase
  | interrupting htasks hpending hphase hopen hcount =>
      rw [← hloop] at htasks hphase hcount
      exact .interrupting htasks (hfiles ▸ hpending) hphase hopen hcount
  | halting htasks hhalts =>
      rw [← hloop] at htasks
      exact .halting htasks ⟨hloop ▸ hhalts.interruptCount, hhalts.injected, hhalts.program⟩
  | console hflight htasks hpending hgoes =>
      rw [← hloop] at htasks hgoes
      exact .console hflight htasks (hfiles ▸ hpending) hgoes
  | asking hflight htasks hpending hrun' hnext hgoes =>
      rw [← hloop] at htasks hgoes
      exact .asking hflight htasks (hfiles ▸ hpending) (hrun.trans hrun') hnext hgoes
  | requesting hflight htasks hpending hrun' hat hcall hgoes =>
      rw [← hloop] at htasks hgoes
      rw [← hmemory] at hat
      exact .requesting hflight htasks (hfiles ▸ hpending) (hrun.trans hrun') hat hcall hgoes
  | served hflight htasks hpending hgets =>
      rw [← hloop, ← hmemory] at hgets
      rw [← hloop] at htasks
      exact .served hflight htasks (hfiles ▸ hpending) hgets
  | fetching hflight htasks hpending hrun' hgets =>
      rw [← hloop, ← hmemory] at hgets
      rw [← hloop] at htasks
      exact .fetching hflight htasks (hfiles ▸ hpending) (hrun.trans hrun') hgets
  | answered query buffer hflight htasks hpending hgets =>
      rw [← hloop, ← hmemory, ← hrun] at hgets
      rw [← hloop] at htasks
      exact .answered query buffer hflight htasks (hfiles ▸ hpending) hgets

/-- What else a thread does keeps it aligned. -/
theorem Aligned.congr (hA : Aligned layout t g p b)
    (hlife : t'.life.stage.result = t.life.stage.result) (hloop : t'.loop = t.loop)
    (hrun : t'.run = t.run) (hmemory : t'.memory = t.memory)
    (hfiles : t'.fileState = t.fileState) : Aligned layout t' g p b := by
  cases hA with
  | running hnone hresult hint hposition =>
      exact .running (hlife.trans hnone) (by rw [hloop, hresult]) (hfiles ▸ hint)
        (hposition.congr hloop hrun hmemory hfiles)
  | departed success hdeparture hhalts =>
      refine .departed success (by rw [hlife, hloop, hdeparture]) fun htrue => ?_
      obtain ⟨hcount, hinjected, hprogram⟩ := hhalts htrue
      exact ⟨hloop ▸ hcount, hinjected, hprogram⟩

/-- The result of `runVirtualMachine` is that of the loop. -/
theorem Aligned.leave (hA : Aligned layout t g p b) {success : Bool}
    (hbefore : t.life.stage.result = some success ∨
      (t.life.stage.result = none ∧ t.loop.result = some success))
    (hlife : t'.life.stage.result = some success) (hloop : t'.loop = t.loop) :
    Aligned layout t' g p b := by
  cases hA with
  | running hnone hresult =>
      rcases hbefore with hsome | ⟨-, hsome⟩
      · rw [hnone] at hsome
        cases hsome
      · rw [hresult] at hsome
        cases hsome
  | departed success' hdeparture hhalts =>
      have heq : success' = success := by
        rcases hbefore with hsome | ⟨hnone, hsome⟩
        · rw [hsome, Option.some_or] at hdeparture
          exact (Option.some.inj hdeparture).symm
        · rw [hnone, Option.none_or, LoopVm.departure, hsome, Option.some_or] at hdeparture
          exact (Option.some.inj hdeparture).symm
      refine .departed success (by rw [hlife, Option.some_or]) fun htrue => ?_
      obtain ⟨hcount, hinjected, hprogram⟩ := hhalts (heq.trans htrue)
      exact ⟨hloop ▸ hcount, hinjected, hprogram⟩

/-- A system call of the set-up or of `vm_destroy`. -/
theorem Aligned.life (hA : Aligned layout t g p b) {pageSize : ℕ} {answer : KernelAnswer}
    {e : LifeEvent} {v : VmLife}
    (hloop : t.life.stage ≠ .loop ∨ ∃ success, t.life.stage = .loop ∧
      t.loop.result = some success ∧ answer = .loopReturned success)
    (h : t.life.step pageSize answer = some (e, v)) :
    Aligned layout { t with life := v } g p b := by
  rcases hloop with hout | ⟨success, hin, hresult, rfl⟩
  · rcases VmLife.result_step hout (VmLife.advance_step h) with hsame | ⟨hnone, hfailed⟩
    · exact hA.congr hsame rfl rfl rfl rfl
    · refine .departed false ?_ fun htrue => by cases htrue
      show v.stage.result.or _ = _
      rw [hfailed, Option.some_or]
  · have hlife : v.stage.result = some success := by
      rw [VmLife.step_loop hin h]
      rfl
    exact hA.leave (.inr ⟨by rw [hin]; rfl, hresult⟩) hlife rfl

end Keep

/-! ### Programs and output -/

/-- What an event has taken from the guest of VM `i`. -/
def ProgramEvent.writtenBy (i : Fin (n + 1)) (x : ProgramEvent n) : List UInt8 :=
  match x.loopEvent with
  | some (j, e) => if j = i then e.written else []
  | none => []

/-- What is left of the program of VM `i` after the events of a run. -/
def programOf (i : Fin (n + 1)) : List (ProgramEvent n) → DefaultProgram
  | [] => .testOpen
  | x :: tr => x.follow i (programOf i tr)

/-- What the guest of VM `i` has written to the serial port. -/
def outputOf (i : Fin (n + 1)) (tr : List (ProgramEvent n)) : List UInt8 :=
  (eventsOf i (tr.filterMap ProgramEvent.loopEvent)).reverse.flatMap LoopEvent.written

theorem outputOf_cons (i : Fin (n + 1)) (x : ProgramEvent n) (tr : List (ProgramEvent n)) :
    outputOf i (x :: tr) = outputOf i tr ++ x.writtenBy i := by
  rw [outputOf, ProgramEvent.writtenBy]
  cases hx : x.loopEvent with
  | none =>
      rw [List.filterMap_cons_none hx, List.append_nil]
      rfl
  | some p =>
      obtain ⟨j, e⟩ := p
      rw [List.filterMap_cons_some hx]
      by_cases hj : j = i
      · simp [eventsOf, hj, outputOf]
      · simp [eventsOf, hj, outputOf]

namespace WholeProgram

variable {sys : HostSystem} {sharedFiles : List (String × HostPath)} {config : Config}
variable {s w : WholeProgram n} {a : ProgramAction n} {i j : Fin (n + 1)} {t : GuestThread}
variable {x : ProgramEvent n} {input : LoopInput} {event : LoopEvent → ProgramEvent n}
variable {e : LoopEvent} {vm : LoopVm}

/-- A step of the loop of VM `i` is no answer to another. -/
theorem Surrounds.follow_of_ne (hw : Surrounds sys sharedFiles s i a w t input event)
    (hij : i ≠ j) (p : DefaultProgram) (e : LoopEvent) : (event e).follow j p = p := by
  cases hw with
  | fileHandled =>
      rw [fileEvent]
      split <;> first | rfl | exact if_neg hij
  | @port result =>
      cases result
      · rfl
      · exact if_neg hij
  | proceed => split_ifs <;> rfl
  | _ => rfl

theorem Surrounds.writtenBy (hw : Surrounds sys sharedFiles s i a w t input event)
    (h : (s.threads i).loop.step input = some (e, vm)) (j : Fin (n + 1)) :
    (event e).writtenBy j = if i = j then e.written else [] := by
  rw [ProgramEvent.writtenBy, (hw.loopEvent h).1]

end WholeProgram

/-! ### The invariant -/

namespace BootedProgram

variable {sys : HostSystem} {sharedFiles : List (String × HostPath)} {config : Config}
variable {layout : Fin (n + 1) → RunLayout} {s : WholeProgram n} {s' : WholeProgram n}
variable {a : ProgramAction n} {x : ProgramEvent n} {guests : Fin (n + 1) → Guest}
variable {programs : Fin (n + 1) → DefaultProgram} {outputs : Fin (n + 1) → List UInt8}

/-- Every thread is aligned with its guest. -/
def AllAligned (layout : Fin (n + 1) → RunLayout) (s : WholeProgram n)
    (guests : Fin (n + 1) → Guest) (programs : Fin (n + 1) → DefaultProgram)
    (outputs : Fin (n + 1) → List UInt8) : Prop :=
  ∀ i, Aligned (layout i) (s.threads i) (guests i) (programs i) (outputs i)

/-- One thread has changed, and perhaps its guest. -/
theorem AllAligned.update (hA : AllAligned layout s guests programs outputs) {i : Fin (n + 1)}
    {t : GuestThread} {g : Guest} (hthreads : s'.threads = Function.update s.threads i t)
    (hself : Aligned (layout i) t g (x.follow i (programs i)) (outputs i ++ x.writtenBy i))
    (hfollow : ∀ j, i ≠ j → ∀ p, x.follow j p = p) (hwritten : ∀ j, i ≠ j → x.writtenBy j = []) :
    AllAligned layout s' (Function.update guests i g) (fun j => x.follow j (programs j))
      fun j => outputs j ++ x.writtenBy j := by
  intro j
  dsimp only
  by_cases hij : i = j
  · subst hij
    rw [hthreads, Function.update_self, Function.update_self]
    exact hself
  · rw [hthreads, Function.update_of_ne (Ne.symm hij), Function.update_of_ne (Ne.symm hij),
      hfollow j hij, hwritten j hij, List.append_nil]
    exact hA j

/-- A step that neither answers a guest nor takes a byte from one. -/
theorem AllAligned.quiet (hA : AllAligned layout s guests programs outputs) {i : Fin (n + 1)}
    {t : GuestThread} (hthreads : s'.threads = Function.update s.threads i t)
    (hself : Aligned (layout i) t (guests i) (programs i) (outputs i))
    (hfollow : ∀ j p, x.follow j p = p) (hwritten : ∀ j, x.writtenBy j = []) :
    AllAligned layout s' guests (fun j => x.follow j (programs j))
      fun j => outputs j ++ x.writtenBy j := by
  have hupdate := hA.update (x := x) (g := guests i) hthreads
    (by rw [hfollow, hwritten, List.append_nil]; exact hself) (fun j _ => hfollow j)
    fun j _ => hwritten j
  rwa [Function.update_eq_self] at hupdate

/-- A step of `main` alone. -/
theorem AllAligned.main (hA : AllAligned layout s guests programs outputs)
    (hthreads : s'.threads = s.threads) (hfollow : ∀ j p, x.follow j p = p)
    (hwritten : ∀ j, x.writtenBy j = []) :
    AllAligned layout s' guests (fun j => x.follow j (programs j))
      fun j => outputs j ++ x.writtenBy j := by
  intro j
  dsimp only
  rw [hthreads, hfollow, hwritten, List.append_nil]
  exact hA j

/-- **A step of the program**, but no return of `KVM_RUN`. -/
theorem AllAligned.program (hA : AllAligned layout s guests programs outputs)
    (hs : s.Coherent config) (hnot : ∀ i result memory, a ≠ .kvmRun i result memory)
    (h : WholeProgram.Advance sys sharedFiles config s a x s') :
    AllAligned layout s' (deliver guests a) (fun j => x.follow j (programs j))
      fun j => outputs j ++ x.writtenBy j := by
  cases h with
  | @create started hlt hmain =>
      exact hA.quiet (i := ⟨started, hlt⟩) rfl ((hA _).congr rfl rfl rfl rfl rfl)
        (fun _ _ => rfl) fun _ => rfl
  | createFails | join | joinFails | exit | print =>
      exact hA.main rfl (fun _ _ => rfl) fun _ => rfl
  | @life _ i answer e v hstage hloop ha hstep =>
      have hdeliver : deliver guests a = guests := by rcases ha with rfl | ⟨rfl, -⟩ <;> rfl
      rw [hdeliver]
      exact hA.quiet (i := i) rfl ((hA i).life hloop hstep) (fun _ _ => rfl) fun _ => rfl
  | @loop _ i w t input event e vm hin hw hstep =>
      have hlife : (s.threads i).life.stage.result = none := by
        rw [(WholeProgram.inLoop_iff.mp hin).2]
        rfl
      have hthreads : ((w.setThread i { t with loop := vm }).speaks i e).threads =
          Function.update s.threads i { t with loop := vm } := by
        rw [← hw.threads_eq]
        rfl
      have hguest : ∃ g, deliver guests a = Function.update guests i g ∧
          Aligned (layout i) { t with loop := vm } g ((event e).follow i (programs i))
            (outputs i ++ e.written) := by
        by_cases hinject : ∃ success, input = .injected success
        · obtain ⟨success, rfl⟩ := hinject
          cases hw
          refine ⟨_, ?_, (hA i).injected hlife hstep⟩
          cases success with
          | true => rfl
          | false => exact (Function.update_eq_self i guests).symm
        · have hkvm : ∀ result, input ≠ .kvmRun result := by
            rintro result rfl
            cases hw
            exact hnot _ _ _ rfl
          refine ⟨guests i, ?_, hw.aligned hs hin hkvm (fun success h => hinject ⟨success, h⟩)
            hstep (hA i)⟩
          rw [Function.update_eq_self]
          cases hw with
          | injected success => exact absurd ⟨success, rfl⟩ hinject
          | _ => rfl
      obtain ⟨g, hdeliver, hself⟩ := hguest
      rw [hdeliver]
      refine hA.update hthreads ?_ (fun j hij p => hw.follow_of_ne hij p e) fun j hij => ?_
      · rw [hw.writtenBy hstep, if_pos rfl]
        exact hself
      · rw [hw.writtenBy hstep, if_neg hij]
  | @park i =>
      exact hA.quiet (i := i) rfl ((hA i).congr rfl rfl rfl rfl rfl) (fun _ _ => rfl) fun _ => rfl
  | @conclude i success =>
      refine hA.quiet (i := i) rfl ((hA i).congr rfl rfl rfl rfl rfl) (fun _ _ => ?_) fun _ => ?_
      · cases success <;> rfl
      · cases success <;> rfl
  | @abort i =>
      exact hA.quiet (i := i) rfl ((hA i).congr rfl rfl rfl rfl rfl) (fun _ _ => rfl) fun _ => rfl
  | @close i hstage =>
      have hlife : (s.threads i).life.stage.result =
          some (s.threads i).completedSuccessfully := by
        rw [(hs.threads i).returned (by simp [hstage]) (by simp [hstage])]
        rfl
      exact hA.quiet (i := i) rfl ((hA i).leave (.inl hlife) hlife rfl) (fun _ _ => rfl)
        fun _ => rfl

/-- **`KVM_RUN` returns** for the guest of VM `i`. -/
theorem AllAligned.kvmRun (hA : AllAligned layout s guests programs outputs) {i : Fin (n + 1)}
    {result : KvmRunResult} {memory : ℕ → UInt8} {g : Guest}
    (hresult : (s.threads i).loop.result = none) (htasks : (s.threads i).loop.tasks = [])
    (hreturns : (guests i).Returns (layout i) (s.threads i) result memory g)
    (h : WholeProgram.Advance sys sharedFiles config s (.kvmRun i result memory) x s') :
    AllAligned layout s' (Function.update guests i g) (fun j => x.follow j (programs j))
      fun j => outputs j ++ x.writtenBy j := by
  cases h with
  | life _ _ ha => rcases ha with ha | ⟨ha, -⟩ <;> cases ha
  | @loop _ i w t input event e vm hin hw hstep =>
      cases hw
      have hlife : (s.threads i).life.stage.result = none := by
        rw [(WholeProgram.inLoop_iff.mp hin).2]
        rfl
      refine hA.update rfl ?_ (fun _ _ _ => rfl) fun j hij => if_neg hij
      rw [show (ProgramEvent.looped i e).writtenBy i = e.written from if_pos rfl]
      exact (hA i).kvmRun hlife hresult htasks hreturns hstep

variable {s s' : BootedProgram n} {x : BootedEvent n}

/-- The events of the program in the events of a run. -/
def programEvents (tr : List (BootedEvent n)) : List (ProgramEvent n) :=
  tr.filterMap BootedEvent.programEvent

/-- The invariant of a run. -/
def Aligns (layout : Fin (n + 1) → RunLayout) (tr : List (BootedEvent n))
    (s : BootedProgram n) : Prop :=
  AllAligned layout s.program s.guests (fun i => programOf i (programEvents tr))
    fun i => outputOf i (programEvents tr)

/-- The invariant after an event of the program. -/
theorem Aligns.of_program {tr : List (BootedEvent n)} {y : ProgramEvent n}
    (h : AllAligned layout s.program s.guests (fun i => y.follow i (programOf i (programEvents tr)))
      fun i => outputOf i (programEvents tr) ++ y.writtenBy i) :
    Aligns layout (.program y :: tr) s := by
  intro i
  show Aligned (layout i) _ _ (y.follow i (programOf i (programEvents tr)))
    (outputOf i (y :: programEvents tr))
  rw [outputOf_cons]
  exact h i

/-- **A step keeps every thread aligned.** -/
theorem Aligns.advance {tr : List (BootedEvent n)} (hA : Aligns layout tr s)
    (hs : s.program.Coherent config) (h : Advance sys sharedFiles config layout s x s') :
    Aligns layout (x :: tr) s' := by
  cases h with
  | program hnot hstep =>
      exact .of_program (AllAligned.program hA hs hnot (WholeProgram.step_cases hstep).2)
  | @guest i g hin hmove =>
      obtain ⟨-, hloop, hresult, htasks⟩ := inKvmRun_iff.mp hin
      have hlife : (s.program.threads i).life.stage.result = none := by
        rw [(WholeProgram.inLoop_iff.mp hloop).2]
        rfl
      have hevents : programEvents (.ofMove i (s.guests i) g :: tr) = programEvents tr :=
        List.filterMap_cons_none (BootedEvent.programEvent_ofMove ..)
      intro j
      rw [hevents]
      dsimp only
      by_cases hij : j = i
      · subst hij
        rw [Function.update_self]
        exact (hA j).move hlife hresult htasks hmove
      · rw [Function.update_of_ne hij]
        exact hA j
  | kvmRun hin hreturns hstep =>
      obtain ⟨-, -, hresult, htasks⟩ := inKvmRun_iff.mp hin
      exact .of_program
        (AllAligned.kvmRun hA hresult htasks hreturns (WholeProgram.step_cases hstep).2)

end BootedProgram

/-- A thread is aligned with its guest before it is created. -/
theorem Aligned.initial (layout : RunLayout) (config : Config) (i : Fin (n + 1)) :
    Aligned layout (.initial config i) .initial .testOpen [] :=
  .running rfl rfl .initial (.still rfl rfl .initial)

section Runs

variable {sys : HostSystem} {sharedFiles : List (String × HostPath)} {config : Config}
variable {layout : Fin (n + 1) → RunLayout} {host : Host HostPath} {stdin : List UInt8}
variable {ok : BootedProgram n → BootedAction n → Prop} {tr : List (BootedEvent n)}
variable {s : BootedProgram n}

/-- **Every thread is aligned with its guest in every run.** -/
theorem aligned_of_run
    (hrun : (bootedProgram sys sharedFiles n config layout host stdin).Run ok tr s) :
    s.program.Coherent config ∧ BootedProgram.Aligns layout tr s := by
  refine hrun.invariant
    (I := fun tr s => s.program.Coherent config ∧ BootedProgram.Aligns layout tr s)
    ⟨WholeProgram.coherent_initial n config host stdin, fun i => .initial ..⟩ ?_
  rintro tr s a x s' ⟨hs, hA⟩ - h
  have hadvance := BootedProgram.step_cases h
  refine ⟨?_, hA.advance hs hadvance⟩
  cases hadvance with
  | program _ hstep => exact hs.advance (WholeProgram.step_cases hstep).2
  | guest => exact hs
  | kvmRun _ _ hstep => exact hs.advance (WholeProgram.step_cases hstep).2

end Runs

end KvmHypervisor
