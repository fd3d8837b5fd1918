import KvmHypervisor.AddressSpace
import KvmHypervisor.ExitLoop
import KvmHypervisor.OwnedHandles

/-!
# The Life of a VM

What `runVirtualMachine` does around its exit loop: `vm_init`, the registers of the vCPU,
`load_guest_image`, and `vm_destroy` on every way out. Each system call is a step, and any of
them may fail, so the set-ups and the ends of different VMs interleave. The exit loop is one
stage of this life; `ExitLoop` says what happens in it.

The kernel hands out the lowest free number, so a descriptor that one VM has closed is soon
another VM's. A VM that closed something twice, or unmapped with a wrong length, would take
it from that VM.

## Main results

* `VmLife.advance_step`: a step is one of those `VmLife.Advance` lists.
* `Lifecycles.step_cases`: a step of the VMs is an advance of one of them, with fresh resources.
* `Lifecycles.invariant_vm`: the invariant rule for one VM, with what it has reported.
-/

open Transitions OwnedHandles

namespace KvmHypervisor

/-- `KVM_API_VERSION`. -/
def kvmApiVersion : ℤ := 12

/-- What the kernel and the C library hand out. -/
inductive Resource where
  | descriptor (fd : ℕ)
  | mapping (address length : ℕ)
  | stream (file : ℕ)
deriving DecidableEq

/-- The variables that hold resources: the fields of `struct vm`, and `f` in
`load_guest_image`. -/
inductive VmSlot where
  | kvmFd
  | vmFd
  | vcpuFd
  | mem
  | run
  | image
deriving DecidableEq

/-- What is reported on the way: by `perror`, by `printf`, or with the prefix of the VM. -/
inductive SetupReport where
  | perror (text : String)
  | printed (text : String)
  | error (report : ErrorReport)
deriving DecidableEq

/-- The report has the prefix of the VM. -/
def SetupReport.isError : SetupReport → Bool
  | .error _ => true
  | _ => false

/-- The fields of `struct kvm_regs` that are set. -/
structure KvmRegs where
  rflags : ℕ
  rip : ℕ
  rsp : ℕ
deriving DecidableEq

/-- Where `runVirtualMachine` stands: before a system call, before the reports of a failure,
in its loop, in `vm_destroy` on the way to a result, or returned. -/
inductive Stage where
  | openKvm
  | getApiVersion
  | createVm
  | mapMemory
  | setUserMemoryRegion
  | createVcpu
  | getVcpuMmapSize
  | mapRun
  | getSregs
  | setSregs
  | openImage
  | seekImage
  | tellImage
  | readImage (size : ℕ)
  | reportImage (report : SetupReport)
  | closeImage (loaded : Bool)
  | setRegs
  | loop
  | report (reports : List SetupReport)
  | unmapRun (success : Bool)
  | unmapMem (success : Bool)
  | closeVcpu (success : Bool)
  | closeVm (success : Bool)
  | closeKvm (success : Bool)
  | returned (success : Bool)
deriving DecidableEq

/-- The variables of `runVirtualMachine`, with the numbers and addresses in the fields of its
`struct vm` (`none` for `-1`, `MAP_FAILED` and a null pointer), and the registers the vCPU has
been given. -/
structure VmLife where
  stage : Stage
  handles : VmSlot → Option ℕ
  runMmapSize : ℤ
  vm : Vm
  specialRegisters : Option KvmSregs
  vcpuSregs : Option KvmSregs
  vcpuRegs : Option KvmRegs

/-- What a system call answers; `proceed` where nothing is asked or nothing can go wrong, and
`loopReturned` is the end of the exit loop. -/
inductive KernelAnswer where
  | failed (errorNumber : ℕ)
  | succeeded
  | acquired (number : ℕ)
  | value (value : ℤ)
  | registers (sregs : KvmSregs)
  | content (bytes : List UInt8)
  | loopReturned (success : Bool)
  | proceed

/-- What a step did. -/
inductive LifeEvent where
  | quiet
  | acquired (resource : Resource)
  | released (resource : Resource)
  | reported (report : SetupReport)
deriving DecidableEq

/-- What a step reports. -/
def LifeEvent.reports : LifeEvent → List SetupReport
  | .reported report => [report]
  | _ => []

/-- The reports of a failure in `vm_init`. -/
def initFailed (report : SetupReport) : List SetupReport :=
  [report, .error (.message "Failed to initialize the virtual machine")]

/-- The report of a failure in `load_guest_image`. -/
def loadFailed : SetupReport :=
  .error (.message "Failed to load guest image")

namespace VmLife

/-- `vm_init` before its first system call. -/
def initial (config : Config) : VmLife where
  stage := .openKvm
  handles _ := none
  runMmapSize := 0
  vm := { mem := zeroed, memSize := config.memorySize }
  specialRegisters := none
  vcpuSregs := none
  vcpuRegs := none

/-- What the number in a variable stands for. A mapping is released with the length the
`struct vm` has for it. -/
def resource (v : VmLife) (k : VmSlot) (number : ℕ) : Resource :=
  match k with
  | .kvmFd | .vmFd | .vcpuFd => .descriptor number
  | .mem => .mapping number v.vm.memSize
  | .run => .mapping number v.runMmapSize.toNat
  | .image => .stream number

/-- The resource in a variable. -/
def held (v : VmLife) (k : VmSlot) : Option Resource :=
  (v.handles k).map (v.resource k)

/-- Go on at another stage. -/
def goto (v : VmLife) (stage : Stage) : LifeEvent × VmLife :=
  (.quiet, { v with stage })

/-- A resource is stored in a variable. -/
def acquire (v : VmLife) (k : VmSlot) (number : ℕ) (stage : Stage) : LifeEvent × VmLife :=
  (.acquired (v.resource k number),
    { v with handles := Function.update v.handles k (some number), stage })

/-- The resource in a variable is released, if there is one. -/
def release (v : VmLife) (k : VmSlot) (stage : Stage) : LifeEvent × VmLife :=
  match v.handles k with
  | none => v.goto stage
  | some number =>
    (.released (v.resource k number),
      { v with handles := Function.update v.handles k none, stage })

/-- `vm_init`, from the stage it has reached. A mapping that is handed out is not at address
zero. -/
def vmInit (v : VmLife) (answer : KernelAnswer) : Option (LifeEvent × VmLife) :=
  match v.stage, answer with
  | .openKvm, .acquired fd => some (v.acquire .kvmFd fd .getApiVersion)
  | .openKvm, .failed _ => some (v.goto (.report (initFailed (.perror "open /dev/kvm"))))
  | .getApiVersion, .value api =>
    if api ≠ kvmApiVersion then
      some (v.goto (.report (initFailed (.printed
        ("KVM API mismatch: kernel=" ++ toString api ++ " headers=" ++
          toString kvmApiVersion ++ "\n")))))
    else some (v.goto .createVm)
  | .createVm, .acquired fd => some (v.acquire .vmFd fd .mapMemory)
  | .createVm, .failed _ => some (v.goto (.report (initFailed (.perror "KVM_CREATE_VM"))))
  | .mapMemory, .acquired address =>
    if address = 0 then none else some (v.acquire .mem address .setUserMemoryRegion)
  | .mapMemory, .failed _ => some (v.goto (.report (initFailed (.perror "mmap mem"))))
  | .setUserMemoryRegion, .succeeded => some (v.goto .createVcpu)
  | .setUserMemoryRegion, .failed _ =>
    some (v.goto (.report (initFailed (.perror "KVM_SET_USER_MEMORY_REGION"))))
  | .createVcpu, .acquired fd => some (v.acquire .vcpuFd fd .getVcpuMmapSize)
  | .createVcpu, .failed _ => some (v.goto (.report (initFailed (.perror "KVM_CREATE_VCPU"))))
  | .getVcpuMmapSize, .value size =>
    let v := { v with runMmapSize := size }
    if size ≤ 0 then some (v.goto (.report (initFailed (.perror "KVM_GET_VCPU_MMAP_SIZE"))))
    else some (v.goto .mapRun)
  | .mapRun, .acquired address =>
    if address = 0 then none else some (v.acquire .run address .getSregs)
  | .mapRun, .failed _ => some (v.goto (.report (initFailed (.perror "mmap kvm_run"))))
  | _, _ => none

/-- `load_guest_image` at `GUEST_START_ADDR`, from the stage it has reached; then the first
check of its result. A stream that is opened is no null pointer. -/
def loadImage (v : VmLife) (answer : KernelAnswer) : Option (LifeEvent × VmLife) :=
  match v.stage, answer with
  | .openImage, .acquired file =>
    if file = 0 then none else some (v.acquire .image file .seekImage)
  | .openImage, .failed _ =>
    some (v.goto (.report [.perror "Failed to open guest image", loadFailed]))
  | .seekImage, .succeeded => some (v.goto .tellImage)
  | .seekImage, .failed _ =>
    some (v.goto (.reportImage (.perror "Failed to seek to end of guest image")))
  | .tellImage, .value size =>
    if size < 0 then
      some (v.goto (.reportImage (.perror "Failed to get size of guest image")))
    else if size.toNat > (v.vm.memSize + (2 ^ 64 - guestStartAddr)) % 2 ^ 64 then
      some (v.goto (.reportImage (.printed "Guest image is too large for the VM memory\n")))
    else some (v.goto (.readImage size.toNat))
  | .readImage size, .content bytes =>
    if bytes.length > size then none
    else
      let v := { v with vm := { v.vm with mem := writeBytes v.vm.mem guestStartAddr bytes } }
      if bytes.length ≠ size then
        some (v.goto (.reportImage (.perror "Failed to read guest image")))
      else some (v.goto (.closeImage true))
  | .reportImage report, .proceed => some (.reported report, { v with stage := .closeImage false })
  | .closeImage true, .proceed => some (v.release .image .setRegs)
  | .closeImage false, .proceed => some (v.release .image (.report [loadFailed]))
  | _, _ => none

/-- `vm_destroy`, from the stage it has reached. -/
def vmDestroy (v : VmLife) (answer : KernelAnswer) : Option (LifeEvent × VmLife) :=
  match v.stage, answer with
  | .unmapRun success, .proceed => some (v.release .run (.unmapMem success))
  | .unmapMem success, .proceed => some (v.release .mem (.closeVcpu success))
  | .closeVcpu success, .proceed => some (v.release .vcpuFd (.closeVm success))
  | .closeVm success, .proceed => some (v.release .vmFd (.closeKvm success))
  | .closeKvm success, .proceed => some (v.release .kvmFd (.returned success))
  | _, _ => none

/-- `runVirtualMachine` without its loop: the set-up of the registers, the reports, and what
it calls. -/
def step (pageSize : ℕ) (v : VmLife) (answer : KernelAnswer) : Option (LifeEvent × VmLife) :=
  match v.stage, answer with
  | .getSregs, .registers sregs =>
    let (vm, sregs) := setupLongMode v.vm sregs pageSize
    some (.quiet, { v with vm, specialRegisters := some sregs, stage := .setSregs })
  | .getSregs, .failed errorNumber =>
    some (v.goto (.report [.error (.systemError "KVM_GET_SREGS" errorNumber)]))
  | .setSregs, .succeeded =>
    some (.quiet, { v with vcpuSregs := v.specialRegisters, stage := .openImage })
  | .setSregs, .failed errorNumber =>
    some (v.goto (.report [.error (.systemError "KVM_SET_SREGS" errorNumber)]))
  | .setRegs, .succeeded =>
    some (.quiet, { v with
      vcpuRegs := some { rflags := 0x2, rip := guestStartAddr, rsp := v.vm.memSize }
      stage := .loop })
  | .setRegs, .failed errorNumber =>
    some (v.goto (.report [.error (.systemError "KVM_SET_REGS" errorNumber)]))
  | .loop, .loopReturned success => some (v.goto (.unmapRun success))
  | .report [], .proceed => some (v.goto (.unmapRun false))
  | .report (report :: reports), .proceed =>
    some (.reported report, { v with stage := .report reports })
  | _, answer => ((v.vmInit answer).or (v.loadImage answer)).or (v.vmDestroy answer)

end VmLife

/-! ### Inversion of a step -/

namespace Stage

/-- The variable a stage fills, and the stage after it. -/
def acquires : Stage → Option (VmSlot × Stage)
  | .openKvm => some (.kvmFd, .getApiVersion)
  | .createVm => some (.vmFd, .mapMemory)
  | .mapMemory => some (.mem, .setUserMemoryRegion)
  | .createVcpu => some (.vcpuFd, .getVcpuMmapSize)
  | .mapRun => some (.run, .getSregs)
  | .openImage => some (.image, .seekImage)
  | _ => none

/-- The variable a stage empties, and the stage after it. -/
def releases : Stage → Option (VmSlot × Stage)
  | .closeImage true => some (.image, .setRegs)
  | .closeImage false => some (.image, .report [loadFailed])
  | .unmapRun success => some (.run, .unmapMem success)
  | .unmapMem success => some (.mem, .closeVcpu success)
  | .closeVcpu success => some (.vcpuFd, .closeVm success)
  | .closeVm success => some (.vmFd, .closeKvm success)
  | .closeKvm success => some (.kvmFd, .returned success)
  | _ => none

/-- The image is open and being loaded. -/
def loading : Stage → Bool
  | .seekImage | .tellImage | .readImage _ => true
  | _ => false

/-- The stages of the set-up before the image is opened, and the last one, after it is
closed. -/
def configuring : Stage → Bool
  | .openKvm | .getApiVersion | .createVm | .mapMemory | .setUserMemoryRegion | .createVcpu
  | .getVcpuMmapSize | .mapRun | .getSregs | .setSregs | .openImage | .setRegs => true
  | _ => false

end Stage

/-- The number of reported failures. -/
def errors (reports : List SetupReport) : ℕ :=
  reports.countP SetupReport.isError

namespace VmLife

/-- **What a step can do.** -/
inductive Advance (pageSize : ℕ) (v : VmLife) : LifeEvent → VmLife → Prop
  | acquire {k : VmSlot} {stage : Stage} (number : ℕ) : v.stage.acquires = some (k, stage) →
      Advance pageSize v (v.acquire k number stage).1 (v.acquire k number stage).2
  | release {k : VmSlot} {stage : Stage} : v.stage.releases = some (k, stage) →
      Advance pageSize v (v.release k stage).1 (v.release k stage).2
  | fail {reports : List SetupReport} : v.stage.configuring = true →
      errors reports = 1 →
      Advance pageSize v .quiet { v with stage := .report reports }
  | getApiVersion : v.stage = .getApiVersion →
      Advance pageSize v .quiet { v with stage := .createVm }
  | setUserMemoryRegion : v.stage = .setUserMemoryRegion →
      Advance pageSize v .quiet { v with stage := .createVcpu }
  | getVcpuMmapSize {size : ℤ} : v.stage = .getVcpuMmapSize → 0 < size →
      Advance pageSize v .quiet { v with runMmapSize := size, stage := .mapRun }
  | failMmapSize {reports : List SetupReport} {size : ℤ} : v.stage = .getVcpuMmapSize →
      errors reports = 1 →
      Advance pageSize v .quiet { v with runMmapSize := size, stage := .report reports }
  | getSregs (sregs : KvmSregs) : v.stage = .getSregs →
      Advance pageSize v .quiet { v with
        vm := (setupLongMode v.vm sregs pageSize).1
        specialRegisters := some (setupLongMode v.vm sregs pageSize).2
        stage := .setSregs }
  | setSregs : v.stage = .setSregs →
      Advance pageSize v .quiet { v with vcpuSregs := v.specialRegisters, stage := .openImage }
  | seekImage : v.stage = .seekImage → Advance pageSize v .quiet { v with stage := .tellImage }
  | tellImage {size : ℕ} : v.stage = .tellImage →
      size ≤ (v.vm.memSize + (2 ^ 64 - guestStartAddr)) % 2 ^ 64 →
      Advance pageSize v .quiet { v with stage := .readImage size }
  | readImage {bytes : List UInt8} : v.stage = .readImage bytes.length →
      Advance pageSize v .quiet { v with
        vm := { v.vm with mem := writeBytes v.vm.mem guestStartAddr bytes }
        stage := .closeImage true }
  | failLoading {report : SetupReport} {mem : Paging.Memory} : v.stage.loading = true →
      report.isError = false →
      Advance pageSize v .quiet { v with
        vm := { v.vm with mem := mem }
        stage := .reportImage report }
  | reportImage {report : SetupReport} : v.stage = .reportImage report →
      Advance pageSize v (.reported report) { v with stage := .closeImage false }
  | setRegs : v.stage = .setRegs →
      Advance pageSize v .quiet { v with
        vcpuRegs := some { rflags := 0x2, rip := guestStartAddr, rsp := v.vm.memSize }
        stage := .loop }
  | loop (success : Bool) : v.stage = .loop →
      Advance pageSize v .quiet { v with stage := .unmapRun success }
  | report {report : SetupReport} {reports : List SetupReport} :
      v.stage = .report (report :: reports) →
      Advance pageSize v (.reported report) { v with stage := .report reports }
  | reported : v.stage = .report [] →
      Advance pageSize v .quiet { v with stage := .unmapRun false }

variable {v v' : VmLife} {k : VmSlot} {number pageSize : ℕ} {stage : Stage} {e : LifeEvent}
variable {answer : KernelAnswer}

/-- What is shown of an outcome is shown of the step that has it. -/
theorem Advance.of_eq {p : LifeEvent × VmLife} (h : some p = some (e, v'))
    (hp : Advance pageSize v p.1 p.2) : Advance pageSize v e v' := by
  cases Option.some.inj h
  exact hp

/-- `vm_init` by stages. -/
theorem advance_vmInit (h : v.vmInit answer = some (e, v')) : Advance pageSize v e v' := by
  unfold vmInit at h
  cases hstage : v.stage <;> cases answer <;> simp only [hstage, reduceCtorEq] at h
  case getApiVersion.value api =>
    split_ifs at h
    · exact .of_eq h (.fail (by rw [hstage]; rfl) rfl)
    · exact .of_eq h (.getApiVersion hstage)
  case getVcpuMmapSize.value size =>
    split_ifs at h with hsize
    · exact .of_eq h (.failMmapSize hstage rfl)
    · exact .of_eq h (.getVcpuMmapSize hstage (not_le.mp hsize))
  case setUserMemoryRegion.succeeded => exact .of_eq h (.setUserMemoryRegion hstage)
  case mapMemory.acquired address | mapRun.acquired address =>
    split_ifs at h
    exact .of_eq h (.acquire _ (by rw [hstage]; rfl))
  all_goals first
    | exact .of_eq h (.acquire _ (by rw [hstage]; rfl))
    | exact .of_eq h (.fail (by rw [hstage]; rfl) rfl)

/-- `load_guest_image` by stages. -/
theorem advance_loadImage (h : v.loadImage answer = some (e, v')) : Advance pageSize v e v' := by
  unfold loadImage at h
  cases hstage : v.stage with
  | seekImage =>
      cases answer <;> simp only [hstage, reduceCtorEq] at h
      · exact .of_eq h (.failLoading (by rw [hstage]; rfl) rfl)
      · exact .of_eq h (.seekImage hstage)
  | tellImage =>
      cases answer <;> simp only [hstage, reduceCtorEq] at h
      split_ifs at h with hneg hlarge
      · exact .of_eq h (.failLoading (by rw [hstage]; rfl) rfl)
      · exact .of_eq h (.failLoading (by rw [hstage]; rfl) rfl)
      · exact .of_eq h (.tellImage hstage (not_lt.mp hlarge))
  | readImage size =>
      cases answer <;> simp only [hstage, reduceCtorEq] at h
      split_ifs at h with hlong hshort
      · exact .of_eq h (.failLoading (by rw [hstage]; rfl) rfl)
      · obtain rfl := not_not.mp hshort
        exact .of_eq h (.readImage hstage)
  | reportImage report =>
      cases answer <;> simp only [hstage, reduceCtorEq] at h
      exact .of_eq h (.reportImage hstage)
  | closeImage loaded =>
      cases loaded <;> cases answer <;> simp only [hstage, reduceCtorEq] at h
      · exact .of_eq h (.release (by rw [hstage]; rfl))
      · exact .of_eq h (.release (by rw [hstage]; rfl))
  | openImage =>
      cases answer <;> simp only [hstage, reduceCtorEq] at h
      · exact .of_eq h (.fail (by rw [hstage]; rfl) rfl)
      · split_ifs at h
        exact .of_eq h (.acquire _ (by rw [hstage]; rfl))
  | _ => simp only [hstage, reduceCtorEq] at h

/-- `vm_destroy` by stages. -/
theorem advance_vmDestroy (h : v.vmDestroy answer = some (e, v')) : Advance pageSize v e v' := by
  unfold vmDestroy at h
  cases hstage : v.stage <;> cases answer <;> simp only [hstage, reduceCtorEq] at h
  all_goals exact .of_eq h (.release (by rw [hstage]; rfl))

/-- **A step is one of those.** -/
theorem advance_step (h : v.step pageSize answer = some (e, v')) : Advance pageSize v e v' := by
  unfold step at h
  split at h <;> rename_i hstage
  case h_1 => exact .of_eq h (.getSregs _ hstage)
  case h_3 => exact .of_eq h (.setSregs hstage)
  case h_5 => exact .of_eq h (.setRegs hstage)
  case h_7 => exact .of_eq h (.loop _ hstage)
  case h_8 => exact .of_eq h (.reported hstage)
  case h_9 => exact .of_eq h (.report hstage)
  case h_10 =>
    rw [Option.or_eq_some_iff, Option.or_eq_some_iff] at h
    rcases h with (hinit | ⟨-, hload⟩) | ⟨-, hdestroy⟩
    · exact advance_vmInit hinit
    · exact advance_loadImage hload
    · exact advance_vmDestroy hdestroy
  all_goals exact .of_eq h (.fail (by rw [hstage]; rfl) rfl)

end VmLife

/-! ### The VMs of a hypervisor -/

/-- The live resources of the process, and the VMs. -/
structure Lifecycles (n : ℕ) where
  live : Finset Resource
  vms : Fin n → VmLife

/-- The live resources after an event. -/
def LifeEvent.apply (live : Finset Resource) : LifeEvent → Finset Resource
  | .acquired resource => insert resource live
  | .released resource => live.erase resource
  | _ => live

/-- The kernel hands out nothing that is live. -/
def LifeEvent.fresh (live : Finset Resource) : LifeEvent → Bool
  | .acquired resource => resource ∉ live
  | _ => true

/-- The event as a transaction with the kernel. -/
def LifeEvent.transaction : LifeEvent → Option (Transaction Resource)
  | .acquired resource => some (.acquire resource)
  | .released resource => some (.release resource)
  | _ => none

namespace Lifecycles

variable {n : ℕ}

/-- All VMs are before `vm_init`. -/
def initial (n : ℕ) (config : Config) : Lifecycles n where
  live := ∅
  vms _ := .initial config

/-- VM `i` gets an answer. -/
def step (config : Config) (s : Lifecycles n) (a : Fin n × KernelAnswer) :
    Option ((Fin n × LifeEvent) × Lifecycles n) :=
  match (s.vms a.1).step config.pageSize a.2 with
  | none => none
  | some (e, v) =>
    if e.fresh s.live then
      some ((a.1, e), { live := e.apply s.live, vms := Function.update s.vms a.1 v })
    else none

end Lifecycles

/-- The machine of the VM lives. -/
def lifecycles (n : ℕ) (config : Config) :
    Machine (Lifecycles n) (Fin n × KernelAnswer) (Fin n × LifeEvent) where
  init := .initial n config
  step := Lifecycles.step config

/-- The transactions of a trace. -/
def transactions {n : ℕ} (tr : List (Fin n × LifeEvent)) : List (Transaction Resource) :=
  tr.filterMap fun x => x.2.transaction

/-- What VM `i` has reported, newest first. -/
def reportsOf {n : ℕ} (i : Fin n) (tr : List (Fin n × LifeEvent)) : List SetupReport :=
  tr.flatMap fun x => if x.1 = i then x.2.reports else []

namespace Lifecycles

variable {n : ℕ} {config : Config} {s s' : Lifecycles n} {tr : List (Fin n × LifeEvent)}
variable {ok : Lifecycles n → Fin n × KernelAnswer → Prop} {x : Fin n × LifeEvent}
variable {a : Fin n × KernelAnswer} {i : Fin n}

/-- **What a step of the VMs is**: an advance of one of them, with fresh resources. -/
theorem step_cases (h : s.step config a = some (x, s')) :
    ∃ i e v, x = (i, e) ∧ VmLife.Advance config.pageSize (s.vms i) e v ∧
      e.fresh s.live = true ∧
      s' = { live := e.apply s.live, vms := Function.update s.vms i v } := by
  unfold step at h
  cases hv : (s.vms a.1).step config.pageSize a.2 with
  | none => simp [hv] at h
  | some p =>
      obtain ⟨e, v⟩ := p
      simp only [hv] at h
      split_ifs at h with hfresh
      cases h
      exact ⟨a.1, e, v, rfl, VmLife.advance_step hv, hfresh, rfl⟩

/-- The invariant rule for one VM, with what it has reported. -/
theorem invariant_vm {I : VmLife → List SetupReport → Prop} (h₀ : I (.initial config) [])
    (hstep : ∀ v reports e v', I v reports → VmLife.Advance config.pageSize v e v' →
      I v' (e.reports ++ reports))
    (hrun : (lifecycles n config).Run ok tr s) (i : Fin n) : I (s.vms i) (reportsOf i tr) := by
  refine hrun.invariant (I := fun tr s => I (s.vms i) (reportsOf i tr)) h₀ ?_
  intro tr s a x s' hI _ hs
  obtain ⟨j, e, v, rfl, hadvance, -, rfl⟩ := step_cases hs
  by_cases hij : j = i
  · subst hij
    simpa only [Function.update_self, reportsOf, List.flatMap_cons, if_true] using
      hstep _ _ _ _ hI hadvance
  · simpa only [Function.update_of_ne (Ne.symm hij), reportsOf, List.flatMap_cons, if_neg hij,
      List.nil_append] using hI

end Lifecycles

end KvmHypervisor
