import KvmHypervisor.GuestRefinement

/-!
# The Roles of the Guests

`main` makes VM 0 the writer and all others readers. A guest learns this from its first exit of
a shared-buffer port, and runs the transfer of its role.

## Main results

* `roles_of_run`: in every run every guest has its role.
-/

open Transitions

namespace KvmHypervisor

open PosixFiles

variable {n : ℕ}

namespace DefaultProgram

/-- Writer or reader, once the guest has been told. -/
def role : DefaultProgram → Option Bool
  | testOpen | testWrite _ | testSeek _ | testRead _ | testClose _ | mode => none
  | openSource | readSource _ | closeSource _ _ _ | announce _ _ | send _ _ _ => some true
  | ask | receive _ _ | refuse | openTarget _ | seekTarget _ _ | writeTarget _ _
  | closeTarget _ _ _ => some false
  | done writer _ => some writer

/-- File calls do not change the role. -/
theorem role_returned (p : DefaultProgram) (address : ℕ) (answer : Answer) :
    (p.returned address answer).role = p.role := by
  cases p <;> simp only [returned] <;> (try split_ifs) <;> rfl

/-- Neither do port instructions, once the guest has been told. -/
theorem role_resume {p : DefaultProgram} {writer : Bool} (h : p.role = some writer)
    (response : ℕ) : (p.resume response).role = some writer := by
  cases p with
  | testOpen | testWrite | testSeek | testRead | testClose | mode => cases h
  | send read buffer sent =>
      rw [← h, resume]
      cases buffer[sent]? <;> rfl
  | ask | receive =>
      rw [← h, resume]
      split_ifs <;> rfl
  | _ => exact h

/-- A guest that comes to a port before it has been told asks for its mode. -/
theorem eq_mode_of_next {p : DefaultProgram} {command : PortCommand} (hrole : p.role = none)
    (hnext : p.next = some command) : p = mode := by
  cases p with
  | mode => rfl
  | testOpen | testWrite | testSeek | testRead | testClose => cases hnext
  | _ => cases hrole

theorem role_mode (vmMode : UInt8) :
    (mode.resume vmMode.toNat).role = some (decide (vmMode = vmModeWriter)) := by
  rw [resume]
  by_cases hmode : vmMode = vmModeWriter
  · rw [if_pos (by rw [hmode]), decide_eq_true hmode]
    rfl
  · rw [if_neg fun heq => hmode (UInt8.toNat_inj.mp heq), decide_eq_false hmode]
    rfl

end DefaultProgram

/-- The mode `main` gives VM `i`. -/
def modeOf (i : Fin (n + 1)) : UInt8 :=
  if i = ⟨0, n.succ_pos⟩ then vmModeWriter else vmModeReader

theorem modeOf_eq_writer_iff (i : Fin (n + 1)) : modeOf i = vmModeWriter ↔ i = 0 := by
  constructor
  · intro hmode
    by_contra hi
    exact absurd ((if_neg hi).symm.trans hmode) (by decide)
  · rintro rfl
    exact if_pos rfl

/-- A guest has its role, or it has not been told yet. -/
structure HasRole (i : Fin (n + 1)) (v : SharedBufferVmState) (p : DefaultProgram) : Prop where
  mode : v.mode = modeOf i
  fresh : p.role = none → v.modeDelivered = false
  role : ∀ writer, p.role = some writer → writer = decide (i = 0)

namespace HasRole

variable {i : Fin (n + 1)} {v v' : SharedBufferVmState} {p p' : DefaultProgram}

theorem of_role_eq (h : HasRole i v p) (hrole : p'.role = p.role) : HasRole i v p' :=
  ⟨h.mode, fun hnone => h.fresh (hrole ▸ hnone), fun writer hsome => h.role writer (hrole ▸ hsome)⟩

/-- **A call of the guest keeps its role**, and the first one tells it. -/
theorem call (h : HasRole i v p) {σ σ' : SharedBufferState} {c : Call}
    (hacc : Accepts σ v c σ' v') {command : PortCommand} (hnext : p.next = some command) :
    HasRole i v' (p.resume c.response) := by
  cases hrole : p.role with
  | none =>
      have hfresh := h.fresh hrole
      obtain rfl := DefaultProgram.eq_mode_of_next hrole hnext
      obtain ⟨rfl, rfl⟩ : c = .deliverMode v.mode ∧ v' = { v with modeDelivered := true } := by
        cases hacc with
        | deliverMode => exact ⟨rfl, rfl⟩
        | _ hd => rw [hfresh] at hd; cases hd
      have hafter : (DefaultProgram.mode.resume (Call.deliverMode v.mode).response).role =
          some (decide (v.mode = vmModeWriter)) := DefaultProgram.role_mode v.mode
      refine ⟨h.mode, fun hnone => ?_, fun writer hsome => ?_⟩
      · rw [hafter] at hnone
        cases hnone
      · rw [hafter] at hsome
        rw [← Option.some.inj hsome, decide_eq_decide, h.mode, modeOf_eq_writer_iff]
  | some writer =>
      have hafter := DefaultProgram.role_resume hrole c.response
      refine ⟨hacc.mode_eq.trans h.mode, fun hnone => ?_, fun writer' hsome => ?_⟩
      · rw [hafter] at hnone
        cases hnone
      · rw [hafter] at hsome
        exact h.role writer' (hrole.trans hsome)

end HasRole

/-! ### Runs -/

namespace WholeProgram

variable {sys : HostSystem} {sharedFiles : List (String × HostPath)} {config : Config}
variable {s s' : WholeProgram n} {a : ProgramAction n} {x : ProgramEvent n} {i j : Fin (n + 1)}

/-- Who calls a handler is in its loop, at an exit of a shared-buffer port. -/
theorem caller_of_advance (hs : Coherent config s) {c : Call}
    (h : Advance sys sharedFiles config s a (.port i (.call j c)) s') :
    j = i ∧ s.Attends i .handleSharedBufferIo := by
  generalize hx : ProgramEvent.port i (.call j c) = x at h
  cases h with
  | @loop _ k w t input event e vm hin hw hstep =>
      cases hw with
      | port hout =>
          obtain ⟨hresult, htasks, -, -⟩ := (hs.threads k).orderly.sharedBufferIo hstep
          split_ifs at hx
          · cases hx
            exact ⟨rfl, hin, hresult, htasks⟩
          · cases hx
      | fileHandled =>
          rw [fileEvent] at hx
          split at hx <;> cases hx
      | proceed => split_ifs at hx
      | _ => cases hx
  | _ => cases hx

/-- What a step does to the records of the VMs: nothing, or one VM makes a call. -/
inductive MovesRecords (s s' : WholeProgram n) (x : ProgramEvent n) : Prop
  | keep : (∀ i c, x.event ≠ some (.call i c)) →
      (∀ i, (s'.threads i).sharedBuffer = (s.threads i).sharedBuffer) → MovesRecords s s' x
  | call {i : Fin (n + 1)} {c : Call} {v : SharedBufferVmState} : x.event = some (.call i c) →
      Accepts s.shared (s.threads i).sharedBuffer c s'.shared v →
      (∀ j, (s'.threads j).sharedBuffer = if j = i then v else (s.threads j).sharedBuffer) →
      MovesRecords s s' x

/-- A step of the shared buffer that a step of the program shows, or shows nothing of. -/
theorem movesRecords_of_step {b : Action n} {e : Event n}
    (hstep : s.system.step b = some (e, s'.system))
    (hshow : (x.event = none ∧ e.Quiet) ∨ x.event = some e) : MovesRecords s s' x := by
  obtain ⟨hquiet, hcontexts, -⟩ | ⟨i, c, v, rfl, hacc, hcontexts⟩ := System.step_records hstep
  · refine .keep (fun i c hcall => ?_) hcontexts
    rcases hshow with ⟨hnone, -⟩ | hsome
    · rw [hnone] at hcall
      cases hcall
    · rw [hsome] at hcall
      exact hquiet i c (Option.some.inj hcall)
  · rcases hshow with ⟨-, hquiet⟩ | hsome
    · exact absurd rfl (hquiet i c)
    · refine .call hsome hacc fun j => ?_
      rw [show (s'.threads j).sharedBuffer = _ from congrFun hcontexts j, Function.update_apply]
      rfl

/-- **The records of the VMs** in a step of the program. -/
theorem movesRecords_advance (hs : Coherent config s)
    (h : Advance sys sharedFiles config s a x s') : MovesRecords s s' x := by
  cases shownBy_advance hs h with
  | keep hnone hsame =>
      refine .keep (fun i c hcall => ?_) fun i => ?_
      · rw [hnone] at hcall
        cases hcall
      · exact congrArg VmThread.context (congrFun (congrArg System.vms hsame) i)
  | fail i hnone hb => exact movesRecords_of_step hb (.inl ⟨hnone, nofun⟩)
  | halt hb | port _ hb => exact movesRecords_of_step hb (.inr rfl)
  | finish hsome hb | abort hsome hb => exact movesRecords_of_step hb (.inr hsome)

/-- **A step of the program keeps the roles.** -/
theorem hasRole_advance (hs : Coherent config s) (h : Advance sys sharedFiles config s a x s')
    {layout : Fin (n + 1) → RunLayout} {guests : Fin (n + 1) → Guest}
    {programs : Fin (n + 1) → DefaultProgram} {outputs : Fin (n + 1) → List UInt8}
    (hA : BootedProgram.AllAligned layout s guests programs outputs)
    (hR : ∀ i, HasRole i (s.threads i).sharedBuffer (programs i)) (i : Fin (n + 1)) :
    HasRole i (s'.threads i).sharedBuffer (x.follow i (programs i)) := by
  cases movesRecords_advance hs h with
  | keep hquiet hrecords =>
      rw [hrecords i]
      refine (hR i).of_role_eq ?_
      cases x with
      | port j e =>
          cases e with
          | call k c => exact absurd rfl (hquiet k c)
          | _ => rfl
      | requested j call answer =>
          rw [ProgramEvent.follow]
          split_ifs
          · exact DefaultProgram.role_returned ..
          · rfl
      | _ => rfl
  | @call k c v hcall hacc hrecords =>
      obtain ⟨j, rfl⟩ : ∃ j, x = .port j (.call k c) := by
        cases x with
        | port j e => exact ⟨j, by rw [Option.some.inj hcall]⟩
        | created success | joined success | concluded j success => cases success <;> cases hcall
        | _ => cases hcall
      obtain ⟨rfl, hattends⟩ := caller_of_advance hs h
      rw [hrecords i]
      by_cases hik : i = k
      · subst hik
        obtain ⟨command, -, hnext⟩ := (hA i).asks hattends.life hattends.result hattends.tasks
        rw [if_pos rfl, ProgramEvent.follow, if_pos rfl]
        exact (hR i).call hacc hnext
      · rw [if_neg hik, ProgramEvent.follow, if_neg (Ne.symm hik)]
        exact hR i

end WholeProgram

section Runs

variable {sys : HostSystem} {sharedFiles : List (String × HostPath)} {config : Config}
variable {layout : Fin (n + 1) → RunLayout} {host : Host HostPath} {stdin : List UInt8}
variable {ok : BootedProgram n → BootedAction n → Prop} {tr : List (BootedEvent n)}
variable {s : BootedProgram n}

/-- A guest that has not been told. -/
theorem HasRole.initial (config : Config) (i : Fin (n + 1)) :
    HasRole i (GuestThread.initial config i).sharedBuffer .testOpen where
  mode := rfl
  fresh _ := rfl
  role _ h := by cases h

/-- **Every guest has its role in every run.** -/
theorem roles_of_run
    (hrun : (bootedProgram sys sharedFiles n config layout host stdin).Run ok tr s) :
    ∀ i, HasRole i (s.program.threads i).sharedBuffer
      (programOf i (BootedProgram.programEvents tr)) := by
  refine (hrun.invariant (I := fun tr s =>
    (bootedProgram sys sharedFiles n config layout host stdin).Run ok tr s ∧
      ∀ i, HasRole i (s.program.threads i).sharedBuffer
        (programOf i (BootedProgram.programEvents tr)))
    ⟨.refl, fun i => .initial config i⟩ ?_).2
  rintro tr s a x s' ⟨hbefore, hR⟩ hok h
  refine ⟨hbefore.step hok h, fun i => ?_⟩
  obtain ⟨hs, hA⟩ := aligned_of_run hbefore
  cases BootedProgram.step_cases h with
  | program _ hstep | kvmRun _ _ hstep =>
      exact WholeProgram.hasRole_advance hs (WholeProgram.step_cases hstep).2 hA hR i
  | guest =>
      rw [BootedProgram.programEvents,
        List.filterMap_cons_none (BootedEvent.programEvent_ofMove ..)]
      exact hR i

end Runs

end KvmHypervisor
