import KvmHypervisor.VmLifecycle

/-!
# The Resources of the VMs

Which variables hold a resource is a matter of the stage: `Stage.slots` lists those that may,
and as long as nothing has failed all of them do. From that a step either leaves the resources
alone, or stores one in an empty variable, or releases the one in a variable (`Moves`), which are
the moves of `OwnedHandles`.

## Main results

* `resources_of_run`: the live resources are those in the variables of the VMs, each in one
  variable; every release is of a live resource; a VM that has returned holds none.
* `released_of_returned`: when all VMs have returned nothing is left, and every resource has
  been released as often as it was acquired.
-/

open Transitions OwnedHandles

namespace KvmHypervisor

/-! ### What a VM holds at each stage -/

/-- The variables that may hold a resource. -/
def Stage.slots : Stage → List VmSlot
  | .openKvm | .returned _ => []
  | .getApiVersion | .createVm | .closeKvm _ => [.kvmFd]
  | .mapMemory | .closeVm _ => [.kvmFd, .vmFd]
  | .setUserMemoryRegion | .createVcpu => [.kvmFd, .vmFd, .mem]
  | .getVcpuMmapSize | .mapRun => [.kvmFd, .vmFd, .mem, .vcpuFd]
  | .closeVcpu _ => [.kvmFd, .vmFd, .vcpuFd]
  | .unmapMem _ => [.kvmFd, .vmFd, .vcpuFd, .mem]
  | .seekImage | .tellImage | .readImage _ | .reportImage _ | .closeImage _ =>
    [.kvmFd, .vmFd, .vcpuFd, .mem, .run, .image]
  | _ => [.kvmFd, .vmFd, .vcpuFd, .mem, .run]

/-- Nothing has failed yet, so all of them do. -/
def Stage.settled : Stage → Bool
  | .report _ | .unmapRun _ | .unmapMem _ | .closeVcpu _ | .closeVm _ | .closeKvm _
  | .returned _ => false
  | _ => true

namespace Stage

variable {stage stage' : Stage} {k : VmSlot}

theorem slots_of_acquires (h : stage.acquires = some (k, stage')) :
    k ∉ stage.slots ∧ (∀ k', k' ∈ stage'.slots ↔ k' = k ∨ k' ∈ stage.slots) ∧
      stage.settled = true := by
  cases stage <;> simp only [acquires, reduceCtorEq, Option.some.injEq, Prod.mk.injEq] at h
  all_goals
    obtain ⟨rfl, rfl⟩ := h
    refine ⟨by simp [slots], fun k' => ?_, rfl⟩
    cases k' <;> simp [slots]

theorem slots_of_releases (h : stage.releases = some (k, stage')) :
    (∀ k', k' ∈ stage'.slots ↔ k' ≠ k ∧ k' ∈ stage.slots) ∧
      (stage'.settled = true → stage.settled = true) := by
  cases stage with
  | closeImage loaded =>
      cases loaded <;> simp only [releases, Option.some.injEq, Prod.mk.injEq] at h <;>
        obtain ⟨rfl, rfl⟩ := h
      all_goals
        refine ⟨fun k' => ?_, fun _ => rfl⟩
        cases k' <;> simp [slots]
  | _ =>
      simp only [releases, reduceCtorEq, Option.some.injEq, Prod.mk.injEq] at h
      try
        obtain ⟨rfl, rfl⟩ := h
        refine ⟨fun k' => ?_, by simp [settled]⟩
        cases k' <;> simp [slots]

theorem slots_of_configuring (h : stage.configuring = true) (reports : List SetupReport) :
    ∀ k ∈ stage.slots, k ∈ (report reports).slots := by
  cases stage <;> simp only [configuring, reduceCtorEq] at h <;> simp [slots]

theorem slots_of_loading (h : stage.loading = true) (report : SetupReport) :
    stage.slots = (reportImage report).slots ∧ stage.settled = true := by
  cases stage <;> simp only [loading, reduceCtorEq] at h <;> exact ⟨rfl, rfl⟩

end Stage

namespace VmLife

/-- A VM holds what its stage says. -/
structure Filled (v : VmLife) : Prop where
  only : ∀ k, k ∉ v.stage.slots → v.handles k = none
  all : v.stage.settled = true → ∀ k ∈ v.stage.slots, v.handles k ≠ none

/-- What a step does to the resources of a VM: nothing, or it stores a resource in an empty
variable, or it releases the one in a variable. -/
inductive Moves (v : VmLife) : LifeEvent → VmLife → Prop
  | keep {e : LifeEvent} {v' : VmLife} : (e = .quiet ∨ ∃ report, e = .reported report) →
      v'.held = v.held → Moves v e v'
  | acquire {k : VmSlot} {r : Resource} {v' : VmLife} : v.held k = none →
      v'.held = Function.update v.held k (some r) → Moves v (.acquired r) v'
  | release {k : VmSlot} {r : Resource} {v' : VmLife} : v.held k = some r →
      v'.held = Function.update v.held k none → Moves v (.released r) v'

variable {v v' : VmLife} {k : VmSlot} {number pageSize : ℕ} {stage : Stage} {e : LifeEvent}
variable {answer : KernelAnswer}

theorem held_eq_none : v.held k = none ↔ v.handles k = none :=
  Option.map_eq_none_iff

/-- Changing one variable changes what is held there. -/
theorem held_update (v : VmLife) (k : VmSlot) (x : Option ℕ) (stage : Stage) :
    held { v with handles := Function.update v.handles k x, stage } =
      Function.update v.held k (x.map (v.resource k)) := by
  funext k'
  by_cases hk : k' = k
  · subst hk
    simp only [held, Function.update_self]
    rfl
  · simp only [held, Function.update_of_ne hk]
    rfl

/-- The same variables hold the same resources, unless a length changes under one. -/
theorem held_keep (hhandles : v'.handles = v.handles) (hmem : v'.vm.memSize = v.vm.memSize)
    (hrun : v'.runMmapSize = v.runMmapSize ∨ v.handles .run = none) : v'.held = v.held := by
  funext k
  rw [held, held, hhandles]
  cases hk : v.handles k with
  | none => rfl
  | some number =>
      refine congrArg some ?_
      cases k with
      | mem => simp only [resource, hmem]
      | run =>
          rcases hrun with hsize | hnone
          · simp only [resource, hsize]
          · rw [hnone] at hk
            cases hk
      | _ => rfl

/-- A step that leaves the variables alone. -/
theorem Filled.keep (hF : Filled v) (hhandles : v'.handles = v.handles)
    (hsub : ∀ k ∈ v.stage.slots, k ∈ v'.stage.slots)
    (hall : v'.stage.settled = true →
      v.stage.settled = true ∧ ∀ k ∈ v'.stage.slots, k ∈ v.stage.slots) : Filled v' where
  only k hk := by
    rw [hhandles]
    exact hF.only k fun hmem => hk (hsub k hmem)
  all hsettled k hk := by
    obtain ⟨hbefore, hsub'⟩ := hall hsettled
    rw [hhandles]
    exact hF.all hbefore k (hsub' k hk)

/-- A step that fills an empty variable. -/
theorem Filled.acquire (hF : Filled v) (hempty : k ∉ v.stage.slots)
    (hslots : ∀ k', k' ∈ stage.slots ↔ k' = k ∨ k' ∈ v.stage.slots)
    (hsettled : v.stage.settled = true) :
    Filled (v.acquire k number stage).2 ∧
      Moves v (v.acquire k number stage).1 (v.acquire k number stage).2 := by
  refine ⟨⟨fun k' hk' => ?_, fun _ k' hk' => ?_⟩, .acquire ?_ (held_update ..)⟩
  · rw [VmLife.acquire] at hk' ⊢
    dsimp only at hk' ⊢
    rw [hslots, not_or] at hk'
    rw [Function.update_of_ne hk'.1]
    exact hF.only k' hk'.2
  · rw [VmLife.acquire] at hk' ⊢
    dsimp only at hk' ⊢
    by_cases hkk : k' = k
    · subst hkk
      simp
    · rw [Function.update_of_ne hkk]
      exact hF.all hsettled k' (((hslots k').mp hk').resolve_left hkk)
  · exact held_eq_none.mpr (hF.only k hempty)

/-- A step that empties a variable, if it is not empty yet. -/
theorem Filled.release (hF : Filled v)
    (hslots : ∀ k', k' ∈ stage.slots ↔ k' ≠ k ∧ k' ∈ v.stage.slots)
    (hsettled : stage.settled = true → v.stage.settled = true) :
    Filled (v.release k stage).2 ∧ Moves v (v.release k stage).1 (v.release k stage).2 := by
  rw [VmLife.release]
  cases hk : v.handles k with
  | none =>
      refine ⟨⟨fun k' hk' => ?_, fun hs k' hk' => ?_⟩, .keep (.inl rfl) rfl⟩
      · by_cases hkk : k' = k
        · rw [hkk]
          exact hk
        · exact hF.only k' fun hmem => hk' ((hslots k').mpr ⟨hkk, hmem⟩)
      · exact hF.all (hsettled hs) k' ((hslots k').mp hk').2
  | some number =>
      refine ⟨⟨fun k' hk' => ?_, fun hs k' hk' => ?_⟩, .release ?_ (held_update ..)⟩
      · dsimp only at hk' ⊢
        by_cases hkk : k' = k
        · rw [hkk, Function.update_self]
        · rw [Function.update_of_ne hkk]
          exact hF.only k' fun hmem => hk' ((hslots k').mpr ⟨hkk, hmem⟩)
      · dsimp only at hk' ⊢
        obtain ⟨hkk, hmem⟩ := (hslots k').mp hk'
        rw [Function.update_of_ne hkk]
        exact hF.all (hsettled hs) k' hmem
      · rw [held, hk]
        rfl

/-- **A step keeps the account** of what a VM holds. -/
theorem Filled.advance (hF : Filled v) (h : Advance pageSize v e v') :
    Filled v' ∧ Moves v e v' := by
  cases h with
  | acquire number hk =>
      obtain ⟨hempty, hslots, hsettled⟩ := Stage.slots_of_acquires hk
      exact hF.acquire hempty hslots hsettled
  | release hk =>
      obtain ⟨hslots, hsettled⟩ := Stage.slots_of_releases hk
      exact hF.release hslots hsettled
  | fail hconfiguring =>
      exact ⟨hF.keep rfl (Stage.slots_of_configuring hconfiguring _) (by simp [Stage.settled]),
        .keep (.inl rfl) rfl⟩
  | @failLoading report mem hloading =>
      obtain ⟨hslots, hsettled⟩ := Stage.slots_of_loading hloading report
      refine ⟨hF.keep rfl (fun k hk => ?_) fun _ => ⟨hsettled, fun k hk => ?_⟩,
        .keep (.inl rfl) (held_keep rfl rfl (.inl rfl))⟩
      · rwa [hslots] at hk
      · rwa [hslots]
  | getVcpuMmapSize hstage | failMmapSize hstage =>
      have hrun : v.handles .run = none := hF.only .run (by simp [hstage, Stage.slots])
      refine ⟨hF.keep rfl ?_ ?_, .keep (.inl rfl) (held_keep rfl rfl (.inr hrun))⟩
      · simp [hstage, Stage.slots]
      · simp [hstage, Stage.slots, Stage.settled]
  | getSregs sregs hstage | setSregs hstage | readImage hstage =>
      refine ⟨hF.keep rfl ?_ ?_, .keep (.inl rfl) (held_keep rfl rfl (.inl rfl))⟩
      · simp [hstage, Stage.slots]
      · simp [hstage, Stage.slots, Stage.settled]
  | reportImage hstage | report hstage =>
      refine ⟨hF.keep rfl ?_ ?_, .keep (.inr ⟨_, rfl⟩) rfl⟩
      · simp [hstage, Stage.slots]
      · simp [hstage, Stage.slots, Stage.settled]
  | getApiVersion hstage | setUserMemoryRegion hstage | seekImage hstage | tellImage hstage
  | setRegs hstage | loop success hstage | reported hstage =>
      refine ⟨hF.keep rfl ?_ ?_, .keep (.inl rfl) rfl⟩
      · simp [hstage, Stage.slots]
      · simp [hstage, Stage.slots, Stage.settled]

end VmLife

namespace Lifecycles

variable {n : ℕ} {config : Config} {s s' : Lifecycles n} {tr : List (Fin n × LifeEvent)}
variable {ok : Lifecycles n → Fin n × KernelAnswer → Prop} {x : Fin n × LifeEvent}
variable {a : Fin n × KernelAnswer} {i : Fin n}

/-- What the variables of all VMs hold. -/
def held (s : Lifecycles n) (x : Fin n × VmSlot) : Option Resource :=
  (s.vms x.1).held x.2

/-- One variable of one VM changes. -/
theorem held_update {v : VmLife} {k : VmSlot} {y : Option Resource} {live : Finset Resource}
    (hv : v.held = Function.update (s.vms i).held k y) :
    held { live := live, vms := Function.update s.vms i v } = Function.update s.held (i, k) y := by
  funext ⟨j, k'⟩
  by_cases hj : j = i
  · subst hj
    by_cases hk : k' = k
    · subst hk
      simp only [held, Function.update_self, hv]
    · have hne : (j, k') ≠ (j, k) := fun heq => hk (Prod.mk.inj heq).2
      simp only [held, Function.update_self, Function.update_of_ne hne, hv,
        Function.update_of_ne hk]
  · have hne : (j, k') ≠ (i, k) := fun heq => hj (Prod.mk.inj heq).1
    simp only [held, Function.update_of_ne hne, Function.update_of_ne hj]

/-- No variable of any VM changes. -/
theorem held_keep {v : VmLife} {live : Finset Resource} (hv : v.held = (s.vms i).held) :
    held { live := live, vms := Function.update s.vms i v } = s.held := by
  funext ⟨j, k⟩
  by_cases hj : j = i
  · subst hj
    simp only [held, Function.update_self, hv]
  · simp only [held, Function.update_of_ne hj]

/-- The account of the resources after a trace. -/
structure Accounted (tr : List (Fin n × LifeEvent)) (s : Lifecycles n) : Prop where
  filled : ∀ i, (s.vms i).Filled
  owns : Owns s.held s.live
  ledger : Ledger (transactions tr) s.live

/-- **A step keeps the account** of the resources. -/
theorem Accounted.step (hA : Accounted tr s) (h : s.step config a = some (x, s')) :
    Accounted (x :: tr) s' := by
  obtain ⟨i, e, v, rfl, hadvance, hfresh, rfl⟩ := step_cases h
  obtain ⟨hfilled, hmoves⟩ := (hA.filled i).advance hadvance
  have hfilled' : ∀ j, (Function.update s.vms i v j).Filled := by
    intro j
    by_cases hj : j = i
    · subst hj
      rwa [Function.update_self]
    · rw [Function.update_of_ne hj]
      exact hA.filled j
  cases hmoves with
  | keep he hheld =>
      obtain rfl | ⟨report, rfl⟩ := he
      · exact ⟨hfilled', held_keep hheld ▸ hA.owns, hA.ledger⟩
      · exact ⟨hfilled', held_keep hheld ▸ hA.owns, hA.ledger⟩
  | @acquire k r _ hnone hheld =>
      have hnotin : r ∉ s.live := of_decide_eq_true hfresh
      have howns := hA.owns.acquire (k := (i, k)) hnone hnotin
      exact ⟨hfilled', held_update hheld ▸ howns, hA.ledger.acquire hnotin⟩
  | @release k r _ hsome hheld =>
      have hheld' : s.held (i, k) = some r := hsome
      exact ⟨hfilled', held_update hheld ▸ hA.owns.release hheld',
        hA.ledger.release (hA.owns.isLive _ _ hheld')⟩

theorem accounted_of_run (hrun : (lifecycles n config).Run ok tr s) : Accounted tr s := by
  refine hrun.invariant (I := Accounted) ?_ fun _ _ _ _ _ hA _ hs => hA.step hs
  have hfilled : VmLife.Filled (.initial config) :=
    ⟨fun _ _ => rfl, by simp [VmLife.initial, Stage.slots]⟩
  exact { filled := fun _ => hfilled, owns := .empty, ledger := .nil }

/-- A VM that has returned holds nothing. -/
theorem held_eq_none_of_returned (hrun : (lifecycles n config).Run ok tr s) {success : Bool}
    (hstage : (s.vms i).stage = .returned success) (k : VmSlot) : (s.vms i).held k = none :=
  VmLife.held_eq_none.mpr
    (((accounted_of_run hrun).filled i).only k (by simp [hstage, Stage.slots]))

/-- When all VMs have returned nothing is live. -/
theorem live_eq_empty_of_returned (hrun : (lifecycles n config).Run ok tr s)
    (hreturned : ∀ i, ∃ success, (s.vms i).stage = .returned success) : s.live = ∅ := by
  refine (accounted_of_run hrun).owns.live_eq_empty fun ⟨i, k⟩ => ?_
  obtain ⟨success, hstage⟩ := hreturned i
  exact held_eq_none_of_returned hrun hstage k

/-- **Resources.** In every run the live resources are those in the variables of the VMs, each
in one variable; nothing live is handed out and only live resources are released; and a VM that
has returned holds nothing. -/
theorem resources_of_run (hrun : (lifecycles n config).Run ok tr s) :
    Owns s.held s.live ∧ Ledger (transactions tr) s.live ∧
      ∀ i success, (s.vms i).stage = .returned success → ∀ k, (s.vms i).held k = none := by
  have hA := accounted_of_run hrun
  exact ⟨hA.owns, hA.ledger, fun i success hstage => held_eq_none_of_returned hrun hstage⟩

/-- **Nothing is left** when all VMs have returned, whatever has failed: every resource has been
released as often as it was acquired. -/
theorem released_of_returned (hrun : (lifecycles n config).Run ok tr s)
    (hreturned : ∀ i, ∃ success, (s.vms i).stage = .returned success) :
    s.live = ∅ ∧
      ∀ r, (transactions tr).count (.acquire r) = (transactions tr).count (.release r) := by
  have hempty := live_eq_empty_of_returned hrun hreturned
  refine ⟨hempty, fun r => ?_⟩
  rw [(accounted_of_run hrun).ledger.count_eq r, hempty, if_neg (Finset.notMem_empty r),
    Nat.add_zero]

/-! ### Two VMs on one descriptor number -/

/-- The VM that fails. -/
def failingVm : Fin 2 :=
  ⟨0, Nat.two_pos⟩

/-- The VM that boots. -/
def bootingVm : Fin 2 :=
  ⟨1, Nat.one_lt_two⟩

/-- 2 MiB of memory, 4 KiB pages. -/
def smallConfig : Config :=
  ⟨2 * miB, pageSize4K, ["guest.img"], []⟩

/-- The first VM meets another version of the interface and gives up. -/
def mismatch : List (Fin 2 × KernelAnswer) :=
  [.acquired 3, .value 11, .proceed, .proceed, .proceed, .proceed, .proceed, .proceed, .proceed,
    .proceed].map fun answer => (failingVm, answer)

/-- The second VM comes to its loop, and gets the number the first one has closed. -/
def bootsUp : List (Fin 2 × KernelAnswer) :=
  [.acquired 3, .value 12, .acquired 4, .acquired 1, .succeeded, .acquired 5, .value 4096,
    .acquired 2, .registers default, .succeeded, .acquired 1, .succeeded, .value 1,
    .content [0xF4], .proceed, .succeeded].map fun answer => (bootingVm, answer)

/-- It halts. -/
def shutsDown : List (Fin 2 × KernelAnswer) :=
  [.loopReturned true, .proceed, .proceed, .proceed, .proceed, .proceed].map fun answer =>
    (bootingVm, answer)

/-- Both VMs to the end. -/
theorem exists_twoLives : ∃ tr s, (lifecycles 2 smallConfig).Run (fun _ _ => True) tr s ∧
    (s.vms failingVm).stage = .returned false ∧ (s.vms bootingVm).stage = .returned true := by
  have hexec : ((lifecycles 2 smallConfig).exec (fun _ _ => True)
      (lifecycles 2 smallConfig).init (mismatch ++ bootsUp ++ shutsDown)).map
        (fun p => ((p.2.vms failingVm).stage, (p.2.vms bootingVm).stage)) =
      some (.returned false, .returned true) := by
    decide +kernel
  obtain ⟨tr, s, hrun, hobs⟩ := Machine.exists_of_exec hexec
  exact ⟨tr, s, hrun, (Prod.mk.inj hobs).1, (Prod.mk.inj hobs).2⟩

/-- The account of the two VMs. -/
theorem resources_of_run_twoLives : ∃ (tr : List (Fin 2 × LifeEvent)) (s : Lifecycles 2),
    (s.vms bootingVm).stage = .returned true ∧ Owns s.held s.live ∧
      Ledger (transactions tr) s.live ∧ ∀ k, (s.vms bootingVm).held k = none := by
  obtain ⟨tr, s, hrun, -, hstage⟩ := exists_twoLives
  obtain ⟨howns, hledger, hnone⟩ := resources_of_run hrun
  exact ⟨tr, s, hstage, howns, hledger, hnone bootingVm true hstage⟩

/-- When both have returned, nothing is left. -/
theorem released_of_returned_twoLives : ∃ (tr : List (Fin 2 × LifeEvent)) (s : Lifecycles 2),
    (lifecycles 2 smallConfig).Run (fun _ _ => True) tr s ∧ s.live = ∅ := by
  obtain ⟨tr, s, hrun, hfailing, hbooting⟩ := exists_twoLives
  refine ⟨tr, s, hrun, (released_of_returned hrun (Fin.forall_fin_two.mpr ⟨?_, ?_⟩)).1⟩
  · exact ⟨false, hfailing⟩
  · exact ⟨true, hbooting⟩

end Lifecycles

end KvmHypervisor
