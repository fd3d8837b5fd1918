import KvmHypervisor.ProgramThreads

/-!
# The Exit Status

`main` returns success if it has created and joined every thread and `runVirtualMachine` has
returned `true` in each of them. It learns that from `completedSuccessfully`, which the threads
write while it is waiting for others.

## Main results

* `Known.advance`: what `main` knows of the threads, and why it may not exit with success.
* `exitStatus_of_run`: when the program exits with success.
-/

open Transitions

namespace KvmHypervisor

open PosixFiles

variable {n : ℕ}

/-- No `pthread_create` and no `pthread_join` has failed. -/
def Threaded (tr : List (ProgramEvent n)) : Prop :=
  .created false ∉ tr ∧ .joined false ∉ tr

theorem Threaded.cons {tr : List (ProgramEvent n)} {x : ProgramEvent n} (h : Threaded tr)
    (hx : x ≠ .created false ∧ x ≠ .joined false) : Threaded (x :: tr) :=
  ⟨List.not_mem_cons_of_ne_of_not_mem hx.1.symm h.1,
    List.not_mem_cons_of_ne_of_not_mem hx.2.symm h.2⟩

theorem Threaded.of_cons {tr : List (ProgramEvent n)} {x : ProgramEvent n}
    (h : Threaded (x :: tr)) : Threaded tr :=
  ⟨fun hmem => h.1 (List.mem_cons_of_mem _ hmem), fun hmem => h.2 (List.mem_cons_of_mem _ hmem)⟩

namespace GuestThread

/-- The thread has ended after a success. -/
def Succeeded (t : GuestThread) : Prop :=
  t.stage = .ended ∧ t.completedSuccessfully = true

/-- The thread has got over a failure. -/
def Failed (t : GuestThread) : Prop :=
  (t.stage = .closeGuestFiles ∨ t.stage = .ended) ∧ t.completedSuccessfully = false

/-- What a step of a thread is for `main`. -/
structure Moves (t t' : GuestThread) : Prop where
  early : t'.stage = .notCreated ∨ t'.stage = .runVirtualMachine →
    t'.completedSuccessfully = false
  closed : t'.stage = .ended → t'.fileState.openFiles = ∅
  succeeded : t.Succeeded → t'.Succeeded
  failed : t.Failed → t'.Failed
  created : t.stage ≠ .notCreated → t'.stage ≠ .notCreated

/-- A step of a thread that has not got over its `runVirtualMachine`. -/
theorem Moves.of_stage {t t' : GuestThread}
    (hstage : t.stage = .notCreated ∨ t.stage = .runVirtualMachine ∨ t.stage = .abortSharedBuffer)
    (hearly : t'.stage = .notCreated ∨ t'.stage = .runVirtualMachine →
      t'.completedSuccessfully = false) (hclosed : t'.stage ≠ .ended)
    (hcreated : t'.stage ≠ .notCreated) : Moves t t' where
  early := hearly
  closed h := absurd h hclosed
  succeeded h := by
    have := h.1
    rcases hstage with hstage | hstage | hstage <;> rw [hstage] at this <;> cases this
  failed h := by
    have := h.1
    rcases hstage with hstage | hstage | hstage <;> rw [hstage] at this <;>
      rcases this with this | this <;> cases this
  created _ := hcreated

end GuestThread

namespace WholeProgram

variable {sys : HostSystem} {sharedFiles : List (String × HostPath)} {config : Config}
variable {s s' w : WholeProgram n} {a : ProgramAction n}
variable {x : ProgramEvent n} {i j : Fin (n + 1)} {t : GuestThread}
variable {tr : List (ProgramEvent n)}

/-- Why the program cannot exit with success. -/
def Spoiled (tr : List (ProgramEvent n)) (s : WholeProgram n) : Prop :=
  ¬Threaded tr ∨ ∃ i, (s.threads i).Failed

/-- What `main` knows of the threads. -/
structure Known (tr : List (ProgramEvent n)) (s : WholeProgram n) : Prop where
  early : ∀ i, (s.threads i).stage = .notCreated ∨ (s.threads i).stage = .runVirtualMachine →
    (s.threads i).completedSuccessfully = false
  closed : ∀ i, (s.threads i).stage = .ended → (s.threads i).fileState.openFiles = ∅
  concluded : ∀ i, .concluded i true ∈ tr ↔ (s.threads i).completedSuccessfully = true
  stopped : s.shared.stopped = true → Spoiled tr s
  created : ∀ started, s.main = .creating started ∨
      (∃ joined ok, s.main = .joining joined started ok) →
    ∀ i : Fin (n + 1), i < started → (s.threads i).stage ≠ .notCreated
  creating : ∀ started, s.main = .creating started → started < n + 1 ∧ Threaded tr
  joining : ∀ joined started ok, s.main = .joining joined started ok →
    joined ≤ started ∧ started ≤ n + 1 ∧
      (ok = true → Threaded tr ∧ started = n + 1 ∧
        ∀ i : Fin (n + 1), i < joined → (s.threads i).Succeeded) ∧
      (ok = false → Spoiled tr s)
  returned : ∀ ok, s.main = .returned ok →
    (ok = true → Threaded tr ∧ ∀ i, (s.threads i).Succeeded) ∧ (ok = false → Spoiled tr s)

theorem known_initial (n : ℕ) (config : Config) (host : Host HostPath) (stdin : List UInt8) :
    Known [] (initial n config host stdin) where
  early _ _ := rfl
  closed _ h := by cases h
  concluded i := ⟨fun h => absurd h List.not_mem_nil, fun h => by cases h⟩
  stopped h := by cases h
  created started h i hi := by
    rcases h with h | ⟨joined, ok, h⟩
    · cases h
      exact absurd hi (Nat.not_lt_zero _)
    · cases h
  creating started h := by
    cases h
    exact ⟨Nat.succ_pos n, List.not_mem_nil, List.not_mem_nil⟩
  joining joined started ok h := by cases h
  returned ok h := by cases h

/-- What has spoiled the run does so for good. -/
theorem Spoiled.mono (h : Spoiled tr s)
    (hfailed : ∀ i, (s.threads i).Failed → (s'.threads i).Failed) : Spoiled (x :: tr) s' :=
  h.imp (fun hnot hthreaded => hnot hthreaded.of_cons) fun ⟨i, hi⟩ => ⟨i, hfailed i hi⟩

/-- What holds of a thread that has changed and of all others. -/
theorem forall_threads {p : Fin (n + 1) → GuestThread → Prop}
    (hthreads : s'.threads = Function.update s.threads i t) (hi : p i t)
    (hother : ∀ j, j ≠ i → p j (s.threads j)) : ∀ j, p j (s'.threads j) := by
  rw [hthreads]
  exact (Function.forall_update_iff s.threads p).mpr ⟨hi, hother⟩

/-- A thread moves, and `main` does not. -/
theorem Known.update (hK : Known tr s) (hmain : s'.main = s.main)
    (hthreads : s'.threads = Function.update s.threads i t)
    (hx : x ≠ .created false ∧ x ≠ .joined false) (hmoves : (s.threads i).Moves t)
    (hother : ∀ j, j ≠ i → x ≠ .concluded j true)
    (hconcluded : .concluded i true ∈ x :: tr ↔ t.completedSuccessfully = true)
    (hstopped : s'.shared.stopped = true → s.shared.stopped = true ∨ t.Failed) :
    Known (x :: tr) s' := by
  have hsucceeded : ∀ j, (s.threads j).Succeeded → (s'.threads j).Succeeded :=
    forall_threads (p := fun j t => (s.threads j).Succeeded → t.Succeeded) hthreads
      hmoves.succeeded fun _ _ h => h
  have hfailed : ∀ j, (s.threads j).Failed → (s'.threads j).Failed :=
    forall_threads (p := fun j t => (s.threads j).Failed → t.Failed) hthreads
      hmoves.failed fun _ _ h => h
  have hcreated : ∀ j, (s.threads j).stage ≠ .notCreated → (s'.threads j).stage ≠ .notCreated :=
    forall_threads (p := fun j t => (s.threads j).stage ≠ .notCreated → t.stage ≠ .notCreated)
      hthreads hmoves.created fun _ _ h => h
  refine ⟨?_, ?_, ?_, fun h => ?_, fun started h j hj => ?_, fun started h => ?_,
    fun joined started ok h => ?_, fun ok h => ?_⟩
  · exact forall_threads (p := fun _ t => t.stage = .notCreated ∨ t.stage = .runVirtualMachine →
      t.completedSuccessfully = false) hthreads hmoves.early fun j _ => hK.early j
  · exact forall_threads (p := fun _ t => t.stage = .ended → t.fileState.openFiles = ∅) hthreads
      hmoves.closed fun j _ => hK.closed j
  · refine forall_threads
      (p := fun j t => .concluded j true ∈ x :: tr ↔ t.completedSuccessfully = true) hthreads
      hconcluded fun j hj => ?_
    rw [List.mem_cons, or_iff_right (hother j hj).symm]
    exact hK.concluded j
  · rcases hstopped h with hbefore | hnow
    · exact (hK.stopped hbefore).mono hfailed
    · refine .inr ⟨i, ?_⟩
      rw [hthreads, Function.update_self]
      exact hnow
  · rw [hmain] at h
    exact hcreated j (hK.created started h j hj)
  · rw [hmain] at h
    exact (hK.creating started h).imp_right fun hthreaded => hthreaded.cons hx
  · rw [hmain] at h
    obtain ⟨hle, hle', htrue, hfalse⟩ := hK.joining joined started ok h
    refine ⟨hle, hle', fun hok => ?_, fun hok => (hfalse hok).mono hfailed⟩
    obtain ⟨hthreaded, hall, hdone⟩ := htrue hok
    exact ⟨hthreaded.cons hx, hall, fun j hj => hsucceeded j (hdone j hj)⟩
  · rw [hmain] at h
    obtain ⟨htrue, hfalse⟩ := hK.returned ok h
    refine ⟨fun hok => ?_, fun hok => (hfalse hok).mono hfailed⟩
    exact ⟨(htrue hok).1.cons hx, fun j => hsucceeded j ((htrue hok).2 j)⟩

/-- `main` moves, and no thread does. -/
theorem Known.main (hK : Known tr s) (hthreads : s'.threads = s.threads)
    (hx : ∀ j, x ≠ .concluded j true)
    (hstopped : s'.shared.stopped = true → s.shared.stopped = true ∨ ¬Threaded (x :: tr))
    (hcreating : ∀ started, s'.main ≠ .creating started)
    (hcreated : ∀ joined started ok, s'.main = .joining joined started ok →
      ∀ i : Fin (n + 1), i < started → (s.threads i).stage ≠ .notCreated)
    (hjoining : ∀ joined started ok, s'.main = .joining joined started ok →
      joined ≤ started ∧ started ≤ n + 1 ∧
        (ok = true → Threaded (x :: tr) ∧ started = n + 1 ∧
          ∀ i : Fin (n + 1), i < joined → (s.threads i).Succeeded) ∧
        (ok = false → Spoiled (x :: tr) s))
    (hreturned : ∀ ok, s'.main = .returned ok →
      (ok = true → Threaded (x :: tr) ∧ ∀ i, (s.threads i).Succeeded) ∧
        (ok = false → Spoiled (x :: tr) s)) : Known (x :: tr) s' := by
  have hspoiled : Spoiled (x :: tr) s → Spoiled (x :: tr) s' := by
    rw [Spoiled, Spoiled, hthreads]
    exact id
  refine ⟨hthreads ▸ hK.early, hthreads ▸ hK.closed, fun i => ?_, fun h => ?_,
    fun started h => ?_, fun started h => absurd h (hcreating started),
    fun joined started ok h => ?_, fun ok h => ?_⟩
  · rw [List.mem_cons, or_iff_right (hx i).symm, hthreads]
    exact hK.concluded i
  · rcases hstopped h with hbefore | hnow
    · exact hspoiled ((hK.stopped hbefore).mono fun _ h => h)
    · exact .inl hnow
  · rcases h with h | ⟨joined, ok, h⟩
    · exact absurd h (hcreating started)
    · rw [hthreads]
      exact hcreated joined started ok h
  · obtain ⟨hle, hle', htrue, hfalse⟩ := hjoining joined started ok h
    exact ⟨hle, hle', hthreads ▸ htrue, fun hok => hspoiled (hfalse hok)⟩
  · obtain ⟨htrue, hfalse⟩ := hreturned ok h
    exact ⟨hthreads ▸ htrue, fun hok => hspoiled (hfalse hok)⟩

/-- A step inside `runVirtualMachine` is one `main` does not see. -/
theorem Known.inside (hK : Known tr s) (hmain : s'.main = s.main)
    (hthreads : s'.threads = Function.update s.threads i t)
    (hx : x ≠ .created false ∧ x ≠ .joined false) (hconcluded : ∀ j, x ≠ .concluded j true)
    (hstage : (s.threads i).stage = .runVirtualMachine)
    (hstage' : t.stage = (s.threads i).stage)
    (hcompleted : t.completedSuccessfully = (s.threads i).completedSuccessfully)
    (hstopped : s'.shared.stopped = s.shared.stopped) : Known (x :: tr) s' := by
  have hmoves : (s.threads i).Moves t :=
    .of_stage (.inr (.inl hstage)) (fun _ => hcompleted.trans (hK.early i (.inr hstage)))
      (by rw [hstage', hstage]; exact fun h => by cases h)
      (by rw [hstage', hstage]; exact fun h => by cases h)
  refine hK.update hmain hthreads hx hmoves (fun j _ => hconcluded j) ?_
    fun h => .inl (hstopped ▸ h)
  rw [List.mem_cons, or_iff_right (hconcluded i).symm, hcompleted]
  exact hK.concluded i

/-- A handler neither stops the shared buffer nor shows what `main` would see. -/
theorem Surrounds.unseen {input : LoopInput} {event : LoopEvent → ProgramEvent n}
    (hw : Surrounds sys sharedFiles s i a w t input event) (e : LoopEvent) :
    w.shared.stopped = s.shared.stopped ∧
      (event e ≠ .created false ∧ event e ≠ .joined false) ∧
        ∀ j, event e ≠ .concluded j true := by
  cases hw with
  | fileHandled =>
      refine ⟨rfl, ?_⟩
      unfold fileEvent
      split <;> simp
  | @port result frame hout =>
      refine ⟨?_, by simp⟩
      cases result with
      | false => rw [(handle_rejected hout).1]
      | true =>
          obtain ⟨c, -, haccepts⟩ := handle_accepted hout
          exact haccepts.stopped_eq
  | proceed =>
      refine ⟨rfl, ?_⟩
      split_ifs <;> simp
  | _ => exact ⟨rfl, by simp⟩

/-- **A step keeps what `main` knows.** -/
theorem Known.advance (hK : Known tr s) (hs : Coherent config s)
    (h : Advance sys sharedFiles config s a x s') : Known (x :: tr) s' := by
  cases h with
  | @create started hlt hmain =>
      have hstage := hs.creating started hmain ⟨started, hlt⟩ le_rfl
      have hcompleted := hK.early _ (.inl hstage)
      have hthreaded : Threaded (.created true :: tr) :=
        (hK.creating started hmain).2.cons (by simp)
      have hmoves : (s.threads ⟨started, hlt⟩).Moves
          { s.threads ⟨started, hlt⟩ with stage := .runVirtualMachine } :=
        .of_stage (.inl hstage) (fun _ => hcompleted) (fun h => by cases h) fun h => by cases h
      have hcreated : Known (.created true :: tr) (s.setThread ⟨started, hlt⟩
          { s.threads ⟨started, hlt⟩ with stage := .runVirtualMachine }) := by
        refine hK.update rfl rfl (by simp) hmoves (by simp) ?_ .inl
        rw [List.mem_cons, or_iff_right (by simp)]
        exact hK.concluded _
      refine { hcreated with created := ?_, creating := ?_, joining := ?_, returned := ?_ }
      · intro started' heq i hi
        have hlt' : i < started + 1 := by
          dsimp only at heq
          split_ifs at heq with hlast
          · rw [hlast]
            exact i.isLt
          · rcases heq with heq | ⟨joined, ok, heq⟩ <;> cases heq
            exact hi
        rcases Nat.lt_succ_iff_lt_or_eq.mp hlt' with hi | hi
        · exact hcreated.created started (.inl hmain) i hi
        · obtain rfl : i = ⟨started, hlt⟩ := Fin.ext hi
          dsimp only [setThread]
          rw [Function.update_self]
          exact fun h => by cases h
      · intro started' heq
        dsimp only at heq
        split_ifs at heq with hlast
        cases heq
        exact ⟨lt_of_le_of_ne hlt hlast, hthreaded⟩
      · intro joined started' ok heq
        dsimp only at heq
        split_ifs at heq
        cases heq
        exact ⟨Nat.zero_le _, le_rfl, fun _ => ⟨hthreaded, rfl, fun i hi => absurd hi (by simp)⟩,
          fun h => (by cases h)⟩
      · intro ok heq
        dsimp only at heq
        split_ifs at heq
  | @createFails started hlt hmain =>
      have hnot : ¬Threaded (.created false :: tr) := fun h => h.1 List.mem_cons_self
      refine hK.main rfl (by simp) (fun _ => .inr hnot) (by simp) ?_ ?_ (by simp) <;>
        rintro joined started' ok heq <;> cases heq
      · exact hK.created started (.inl hmain)
      exact ⟨Nat.zero_le _, hlt.le, fun h => (by cases h), fun _ => .inl hnot⟩
  | @join joined started ok hlt hjoined hmain hended =>
      obtain ⟨hle, hle', htrue, hfalse⟩ := hK.joining joined started ok hmain
      refine hK.main rfl (by simp) .inl (by simp) ?_ ?_ (by simp) <;>
        rintro joined' started' ok' heq <;>
        obtain ⟨rfl, rfl, rfl⟩ := MainStage.joining.inj heq
      · exact hK.created started (.inr ⟨_, _, hmain⟩)
      refine ⟨hjoined, hle', fun hok => ?_, fun hok => ?_⟩
      · obtain ⟨hok, hcompleted⟩ := Bool.and_eq_true_iff.mp hok
        obtain ⟨hthreaded, hall, hdone⟩ := htrue hok
        refine ⟨hthreaded.cons (by simp), hall, fun i hi => ?_⟩
        rcases Nat.lt_succ_iff_lt_or_eq.mp hi with hi | hi
        · exact hdone i hi
        · obtain rfl : i = ⟨joined, hlt⟩ := Fin.ext hi
          exact ⟨hended, hcompleted⟩
      · rcases Bool.and_eq_false_iff.mp hok with hok | hcompleted
        · exact (hfalse hok).mono fun _ h => h
        · exact .inr ⟨_, .inr hended, hcompleted⟩
  | @joinFails joined started ok hjoined hmain =>
      obtain ⟨-, hle', -⟩ := hK.joining joined started ok hmain
      have hnot : ¬Threaded (.joined false :: tr) := fun h => h.2 List.mem_cons_self
      refine hK.main rfl (by simp) (fun _ => .inr hnot) (by simp) ?_ ?_ (by simp) <;>
        rintro joined' started' ok' heq <;>
        obtain ⟨rfl, rfl, rfl⟩ := MainStage.joining.inj heq
      · exact hK.created started (.inr ⟨_, _, hmain⟩)
      exact ⟨hjoined, hle', fun h => (by cases h), fun _ => .inl hnot⟩
  | @exit started ok hmain =>
      obtain ⟨-, -, htrue, hfalse⟩ := hK.joining started started ok hmain
      refine hK.main rfl (by simp) .inl (by simp) (by simp) (by simp) ?_
      rintro ok' heq
      obtain rfl := MainStage.returned.inj heq
      refine ⟨fun hok => ?_, fun hok => (hfalse hok).mono fun _ h => h⟩
      obtain ⟨hthreaded, rfl, hdone⟩ := htrue hok
      exact ⟨hthreaded.cons (by simp), fun i => hdone i i.isLt⟩
  | @print count holder text hheld hcount =>
      -- no thread changes, so it may as well be the holder of the console
      refine hK.update (i := holder) (t := s.threads holder) rfl (Function.update_eq_self ..).symm
        (by simp) ⟨hK.early _, hK.closed _, id, id, id⟩ (by simp) ?_ .inl
      rw [List.mem_cons, or_iff_right (by simp)]
      exact hK.concluded _
  | @life a i answer e v hstage =>
      exact hK.inside (i := i) rfl rfl (by simp) (by simp) hstage rfl rfl rfl
  | @loop a i w t input event e vm hin hw hstep =>
      obtain ⟨hstopped, hx, hconcluded⟩ := hw.unseen e
      obtain ⟨hstage, -, hcompleted, hmain, -⟩ := hw.frame
      refine hK.inside (i := i) (t := { t with loop := vm }) hmain ?_ hx hconcluded
        (inLoop_iff.mp hin).1 hstage hcompleted hstopped
      rw [speaks_threads, setThread_threads, hw.threads_eq]
  | @park i hin =>
      exact hK.inside (i := i) rfl rfl (by simp) (by simp) (inLoop_iff.mp hin).1 rfl rfl rfl
  | @conclude i success hstage hreturned =>
      have hbefore : .concluded i true ∉ tr := fun hmem => by
        have := hK.early i (.inr hstage)
        rw [(hK.concluded i).mp hmem] at this
        cases this
      refine hK.update (i := i) rfl rfl (by simp) 
        (.of_stage (.inr (.inl hstage)) ?_ ?_ ?_) ?_ ?_ .inl
      · intro h
        cases success <;> rcases h with h | h <;> cases h
      · intro h
        cases success <;> cases h
      · intro h
        cases success <;> cases h
      · intro j hj heq
        exact hj (ProgramEvent.concluded.inj heq).1.symm
      · cases success <;> simp [hbefore]
  | @abort i hstage =>
      have hcompleted := (hs.threads i).aborting hstage
      refine hK.update (i := i) rfl rfl (by simp [abort])
        (.of_stage (.inr (.inr hstage)) ?_ (fun h => by cases h) fun h => by cases h)
        (by simp [abort]) ?_ fun _ => .inr ⟨.inl rfl, hcompleted⟩
      · intro h
        rcases h with h | h <;> cases h
      · rw [List.mem_cons, or_iff_right (by simp [abort])]
        exact hK.concluded i
  | @close i hstage =>
      refine hK.update (i := i) rfl rfl (by simp [close])
        ⟨?_, fun _ => rfl, ?_, ?_, fun _ h => by cases h⟩ (by simp [close]) ?_ .inl
      · intro h
        rcases h with h | h <;> cases h
      · rintro ⟨hended, -⟩
        rw [hstage] at hended
        cases hended
      · exact fun h => ⟨.inr rfl, h.2⟩
      · rw [List.mem_cons, or_iff_right (by simp [close])]
        exact hK.concluded i

/-- `main` knows the threads in every run. -/
theorem known_of_run {host : Host HostPath} {stdin : List UInt8}
    {ok : WholeProgram n → ProgramAction n → Prop}
    (hrun : (wholeProgram sys sharedFiles n config host stdin).Run ok tr s) :
    Coherent config s ∧ Known tr s := by
  refine hrun.invariant (I := fun tr s => Coherent config s ∧ Known tr s)
    ⟨coherent_initial n config host stdin, known_initial n config host stdin⟩ ?_
  rintro tr s a x s' ⟨hs, hK⟩ - h
  obtain ⟨-, hadvance⟩ := step_cases h
  exact ⟨hs.advance hadvance, hK.advance hs hadvance⟩

/-- **The exit status.** `main` returns success exactly when it has created and joined all
threads and `runVirtualMachine` has returned `true` in each of them. -/
theorem exitStatus_of_run {host : Host HostPath} {stdin : List UInt8}
    {ok : WholeProgram n → ProgramAction n → Prop}
    (hrun : (wholeProgram sys sharedFiles n config host stdin).Run ok tr s) {success : Bool}
    (hreturned : s.main = .returned success) :
    success = true ↔ Threaded tr ∧ ∀ i, .concluded i true ∈ tr := by
  obtain ⟨-, hK⟩ := known_of_run hrun
  obtain ⟨htrue, hfalse⟩ := hK.returned success hreturned
  constructor
  · intro hsuccess
    obtain ⟨hthreaded, hdone⟩ := htrue hsuccess
    exact ⟨hthreaded, fun i => (hK.concluded i).mpr (hdone i).2⟩
  · rintro ⟨hthreaded, hdone⟩
    rw [← Bool.not_eq_false]
    intro hfailure
    rcases hfalse hfailure with hnot | ⟨i, -, hfailed⟩
    · exact hnot hthreaded
    · rw [(hK.concluded i).mp (hdone i)] at hfailed
      cases hfailed

/-- The program that transfers a byte has created and joined its threads, and both have returned
`true`. -/
theorem exitStatus_of_run_returnsAfterByte : ∃ tr : List (ProgramEvent 1),
    Threaded tr ∧ ∀ i, .concluded i true ∈ tr := by
  obtain ⟨tr, s, hrun, hmain, -⟩ := exists_returnsAfterByte
  exact ⟨tr, (exitStatus_of_run hrun hmain).mp rfl⟩

end WholeProgram

end KvmHypervisor
