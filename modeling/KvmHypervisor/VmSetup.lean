import KvmHypervisor.VmResources

/-!
# The Set-Up of the VMs

What has been done and what has been reported when a stage is reached. Nothing is reported on
the way to the loop, and a VM that does not get there reports one failure before it gives up.

## Main results

* `prepared_of_run`: a VM in its loop has been set up completely.
* `reports_of_run`: a set-up that fails reports one error, a set-up that succeeds none.
-/

open Transitions

namespace KvmHypervisor

namespace VmLife

variable {v v' : VmLife} {k : VmSlot} {number pageSize : ℕ} {stage : Stage} {e : LifeEvent}
variable {answer : KernelAnswer}

/-! ### How far the set-up has come -/

/-- The vCPU has the special registers of `setup_long_mode`, and the image `image` is in the
memory. -/
structure Loaded (config : Config) (sregs : KvmSregs) (image : ImageFile) (v : VmLife) :
    Prop where
  vcpuSregs : v.vcpuSregs = some (longModeVm config sregs).2
  loaded : loadGuestImage (longModeVm config sregs).1 image guestStartAddr = (true, v.vm)

/-- What has been set up when a stage is reached. -/
def SetUp (config : Config) (v : VmLife) : Prop :=
  match v.stage with
  | .openKvm | .getApiVersion | .createVm | .mapMemory | .setUserMemoryRegion | .createVcpu
  | .getVcpuMmapSize | .mapRun | .getSregs =>
    v.vm = { mem := zeroed, memSize := config.memorySize }
  | .setSregs => ∃ sregs, v.vm = (longModeVm config sregs).1 ∧
      v.specialRegisters = some (longModeVm config sregs).2
  | .openImage | .seekImage | .tellImage => ∃ sregs, v.vm = (longModeVm config sregs).1 ∧
      v.vcpuSregs = some (longModeVm config sregs).2
  | .readImage size => (∃ sregs, v.vm = (longModeVm config sregs).1 ∧
      v.vcpuSregs = some (longModeVm config sregs).2) ∧
      size ≤ (v.vm.memSize + (2 ^ 64 - guestStartAddr)) % 2 ^ 64
  | .closeImage true | .setRegs => ∃ sregs image, Loaded config sregs image v
  | .loop => (∃ sregs image, Loaded config sregs image v) ∧
      v.vcpuRegs = some { rflags := 0x2, rip := guestStartAddr, rsp := config.memorySize }
  | _ => True

/-- Loading keeps the size of the memory. -/
theorem Loaded.memSize {config : Config} {sregs : KvmSregs} {image : ImageFile}
    (h : Loaded config sregs image v) : v.vm.memSize = config.memorySize := by
  have hload := h.loaded
  unfold loadGuestImage at hload
  cases hcontent : image.content with
  | none => simp [hcontent] at hload
  | some bytes =>
      simp only [hcontent] at hload
      split_ifs at hload
      all_goals
        rw [← (Prod.mk.inj hload).2]
        rfl

/-- **A step keeps the account** of what has been set up. -/
theorem SetUp.advance {config : Config} (hS : SetUp config v) (h : Advance config.pageSize v e v') :
    SetUp config v' := by
  cases h with
  | acquire number hk =>
      cases hstage : v.stage <;> simp only [hstage, Stage.acquires, reduceCtorEq,
        Option.some.injEq, Prod.mk.injEq] at hk
      all_goals
        obtain ⟨rfl, rfl⟩ := hk
        simp only [SetUp, hstage] at hS
        exact hS
  | @release k stage hk =>
      have hgoto : ∀ w : VmLife, w.stage = stage → w.vm = v.vm → w.vcpuSregs = v.vcpuSregs →
          SetUp config w := by
        intro w hw hvm hsregs
        cases hstage : v.stage with
        | closeImage loaded =>
            cases loaded <;> simp only [hstage, Stage.releases, Option.some.injEq,
              Prod.mk.injEq] at hk <;> obtain ⟨rfl, rfl⟩ := hk
            · simp only [SetUp, hw]
            · simp only [SetUp, hstage] at hS
              obtain ⟨sregs, image, hL⟩ := hS
              simp only [SetUp, hw]
              exact ⟨sregs, image, hsregs ▸ hL.vcpuSregs, hvm ▸ hL.loaded⟩
        | _ =>
            simp only [hstage, Stage.releases, reduceCtorEq, Option.some.injEq,
              Prod.mk.injEq] at hk
            try
              obtain ⟨rfl, rfl⟩ := hk
              simp only [SetUp, hw]
      rw [release]
      cases v.handles k with
      | none => exact hgoto _ rfl rfl rfl
      | some number => exact hgoto _ rfl rfl rfl
  | getApiVersion hstage | setUserMemoryRegion hstage | getVcpuMmapSize hstage
  | seekImage hstage =>
      simp only [SetUp, hstage] at hS
      exact hS
  | getSregs sregs hstage =>
      simp only [SetUp, hstage] at hS
      exact ⟨sregs, by rw [hS]; exact ⟨rfl, rfl⟩⟩
  | setSregs hstage =>
      simp only [SetUp, hstage] at hS
      exact hS
  | tellImage hstage hsize =>
      simp only [SetUp, hstage] at hS
      exact ⟨hS, hsize⟩
  | @readImage bytes hstage =>
      simp only [SetUp, hstage] at hS
      obtain ⟨⟨sregs, hvm, hsregs⟩, hsize⟩ := hS
      refine ⟨sregs, ⟨some bytes, true, true, bytes.length⟩, hsregs, ?_⟩
      rw [hvm] at hsize
      simp only [loadGuestImage, not_true_eq_false, if_false, if_neg (not_lt.mpr hsize),
        List.take_length, hvm, decide_true]
  | setRegs hstage =>
      simp only [SetUp, hstage] at hS
      obtain ⟨sregs, image, hL⟩ := hS
      exact ⟨⟨sregs, image, hL.vcpuSregs, hL.loaded⟩, by rw [hL.memSize]⟩
  | reportImage | fail | failMmapSize | failLoading | loop | report | reported => trivial

/-! ### What has been reported -/

/-- What a VM on its way out has reported, newest first: one failure if it has not come to its
loop, and nothing otherwise. -/
def Told (v : VmLife) (success : Bool) (reports : List SetupReport) : Prop :=
  (v.vcpuRegs = none ∧ success = false ∧ errors reports = 1) ∨
    (v.vcpuRegs ≠ none ∧ reports = [])

/-- What a VM has reported when it reaches a stage. -/
def Spoken (v : VmLife) (reports : List SetupReport) : Prop :=
  match v.stage with
  | .reportImage report => v.vcpuRegs = none ∧ reports = [] ∧ report.isError = false
  | .closeImage false => v.vcpuRegs = none ∧ errors reports = 0
  | .report rest => v.vcpuRegs = none ∧ errors reports + errors rest = 1
  | .loop => v.vcpuRegs ≠ none ∧ reports = []
  | .unmapRun success | .unmapMem success | .closeVcpu success | .closeVm success
  | .closeKvm success | .returned success => v.Told success reports
  | _ => v.vcpuRegs = none ∧ reports = []

/-- **A step keeps the account** of what has been reported. -/
theorem Spoken.advance {reports : List SetupReport} (hS : Spoken v reports)
    (h : Advance pageSize v e v') : Spoken v' (e.reports ++ reports) := by
  cases h with
  | acquire number hk =>
      cases hstage : v.stage <;> simp only [hstage, Stage.acquires, reduceCtorEq,
        Option.some.injEq, Prod.mk.injEq] at hk
      all_goals
        obtain ⟨rfl, rfl⟩ := hk
        simp only [Spoken, hstage] at hS
        exact hS
  | @release k stage hk =>
      have hgoto : ∀ w : VmLife, w.stage = stage → w.vcpuRegs = v.vcpuRegs →
          Spoken w reports := by
        intro w hw hregs
        cases hstage : v.stage with
        | closeImage loaded =>
            cases loaded <;> simp only [hstage, Stage.releases, Option.some.injEq,
              Prod.mk.injEq] at hk <;> obtain ⟨rfl, rfl⟩ := hk
            · simp only [Spoken, hstage] at hS
              simp only [Spoken, hw, hregs]
              exact ⟨hS.1, by rw [hS.2]; rfl⟩
            · simp only [Spoken, hstage] at hS
              simpa only [Spoken, hw, hregs] using hS
        | _ =>
            simp only [hstage, Stage.releases, reduceCtorEq, Option.some.injEq,
              Prod.mk.injEq] at hk
            try
              obtain ⟨rfl, rfl⟩ := hk
              simp only [Spoken, hstage, Told] at hS
              simpa only [Spoken, hw, Told, hregs] using hS
      rw [release]
      cases v.handles k with
      | none => exact hgoto _ rfl rfl
      | some number => exact hgoto _ rfl rfl
  | fail hconfiguring hone =>
      cases hstage : v.stage <;> simp only [hstage, Stage.configuring, reduceCtorEq] at hconfiguring
      all_goals
        simp only [Spoken, hstage] at hS
        obtain ⟨hregs, rfl⟩ := hS
        exact ⟨hregs, by rw [hone]; rfl⟩
  | failMmapSize hstage hone =>
      simp only [Spoken, hstage] at hS
      obtain ⟨hregs, rfl⟩ := hS
      exact ⟨hregs, by rw [hone]; rfl⟩
  | failLoading hloading herror =>
      cases hstage : v.stage <;> simp only [hstage, Stage.loading, reduceCtorEq] at hloading
      all_goals
        simp only [Spoken, hstage] at hS
        exact ⟨hS.1, hS.2, herror⟩
  | reportImage hstage =>
      simp only [Spoken, hstage] at hS
      obtain ⟨hregs, rfl, herror⟩ := hS
      exact ⟨hregs, by simp [errors, LifeEvent.reports, herror]⟩
  | @report report rest hstage =>
      simp only [Spoken, hstage] at hS
      obtain ⟨hregs, hsum⟩ := hS
      refine ⟨hregs, ?_⟩
      simp only [errors, LifeEvent.reports, List.singleton_append, List.countP_cons] at hsum ⊢
      omega
  | reported hstage =>
      simp only [Spoken, hstage] at hS
      exact .inl ⟨hS.1, rfl, hS.2⟩
  | loop success hstage =>
      simp only [Spoken, hstage] at hS
      exact .inr hS
  | setRegs hstage =>
      simp only [Spoken, hstage] at hS
      exact ⟨Option.some_ne_none _, hS.2⟩
  | getApiVersion hstage | setUserMemoryRegion hstage | getVcpuMmapSize hstage
  | getSregs sregs hstage | setSregs hstage | seekImage hstage | tellImage hstage
  | readImage hstage =>
      simp only [Spoken, hstage] at hS
      exact hS

end VmLife

namespace Lifecycles

variable {n : ℕ} {config : Config} {s s' : Lifecycles n} {tr : List (Fin n × LifeEvent)}
variable {ok : Lifecycles n → Fin n × KernelAnswer → Prop} {x : Fin n × LifeEvent}
variable {a : Fin n × KernelAnswer} {i : Fin n}

/-- **A VM in its loop has been set up completely**: it has its descriptors and mappings and no
stream, its vCPU has the registers of the source, and its guest memory is the initial address
space of an image. -/
theorem prepared_of_run (hmemory : AdmittedMemorySize config.memorySize)
    (hrun : (lifecycles n config).Run ok tr s) (hloop : (s.vms i).stage = .loop) :
    (∀ k, k ≠ .image → (s.vms i).held k ≠ none) ∧ (s.vms i).held .image = none ∧
      (s.vms i).vcpuRegs =
        some { rflags := 0x2, rip := guestStartAddr, rsp := config.memorySize } ∧
      ∃ sregs bytes, (s.vms i).vcpuSregs = some (longModeVm config sregs).2 ∧
        InitialAddressSpace config sregs bytes (s.vms i).vm := by
  have hF := (accounted_of_run hrun).filled i
  have hS : (s.vms i).SetUp config :=
    invariant_vm (I := fun v _ => v.SetUp config) rfl
      (fun _ _ _ _ hS hadvance => hS.advance hadvance) hrun i
  simp only [VmLife.SetUp, hloop] at hS
  obtain ⟨⟨sregs, image, hL⟩, hregs⟩ := hS
  obtain ⟨bytes, -, hspace⟩ := initialAddressSpace_of_load hmemory hL.loaded
  refine ⟨fun k hk => ?_, VmLife.held_eq_none.mpr (hF.only _ (by simp [hloop, Stage.slots])),
    hregs, sregs, bytes, hL.vcpuSregs, hspace⟩
  rw [Ne, VmLife.held_eq_none]
  refine hF.all (by rw [hloop]; rfl) k ?_
  cases k <;> simp [hloop, Stage.slots] at hk ⊢

/-- The other one in its loop. -/
theorem prepared_of_run_bootsUp : ∃ s : Lifecycles 2, (s.vms bootingVm).stage = .loop ∧
    (s.vms bootingVm).vcpuRegs =
      some { rflags := 0x2, rip := guestStartAddr, rsp := smallConfig.memorySize } := by
  have hexec : ((lifecycles 2 smallConfig).exec (fun _ _ => True)
      (lifecycles 2 smallConfig).init (mismatch ++ bootsUp)).map
        (fun p => (p.2.vms bootingVm).stage) = some .loop := by
    decide +kernel
  obtain ⟨tr, s, hrun, hobs⟩ := Machine.exists_of_exec hexec
  obtain ⟨-, -, hregs, -⟩ := prepared_of_run (.inl rfl) hrun hobs
  exact ⟨s, hobs, hregs⟩

/-- What a VM has reported goes with how far it has come. -/
theorem spoken_of_run (hrun : (lifecycles n config).Run ok tr s) (i : Fin n) :
    (s.vms i).Spoken (reportsOf i tr) :=
  invariant_vm (I := VmLife.Spoken) ⟨rfl, rfl⟩ (fun _ _ _ _ hS hadvance => hS.advance hadvance)
    hrun i

/-- **Reports.** A VM that has returned without having been in its loop has returned `false`
and has reported one failure; one that has been in its loop has reported none on the way
there. -/
theorem reports_of_run (hrun : (lifecycles n config).Run ok tr s) {success : Bool}
    (hreturned : (s.vms i).stage = .returned success) :
    ((s.vms i).vcpuRegs = none ∧ success = false ∧ errors (reportsOf i tr) = 1) ∨
      ((s.vms i).vcpuRegs ≠ none ∧ reportsOf i tr = []) := by
  have hS := spoken_of_run hrun i
  simp only [VmLife.Spoken, hreturned] at hS
  exact hS

/-- The one that fails reports it once. -/
theorem reports_of_run_twoLives : ∃ (tr : List (Fin 2 × LifeEvent)) (s : Lifecycles 2),
    (s.vms failingVm).stage = .returned false ∧
      (((s.vms failingVm).vcpuRegs = none ∧ false = false ∧
          errors (reportsOf failingVm tr) = 1) ∨
        ((s.vms failingVm).vcpuRegs ≠ none ∧ reportsOf failingVm tr = [])) := by
  obtain ⟨tr, s, hrun, hstage, -⟩ := exists_twoLives
  exact ⟨tr, s, hstage, reports_of_run hrun hstage⟩

end Lifecycles

end KvmHypervisor
