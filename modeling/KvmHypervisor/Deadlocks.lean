import KvmHypervisor.Transfers

/-!
# Deadlocks

A VM that halts successfully leaves the shared record alone: `readerCount` still counts it,
and no further generation is published if it was the writer. Only a failure sets `stopped`
and wakes the others. Guests in the reference order therefore hang together exactly by their
numbers of rounds: if every reader has as many rounds as there are payloads, no reachable
state is a deadlock (`no_deadlock_of_matched`), and otherwise one can be reached
(`deadlock_of_unmatched`).
-/

open Transitions

namespace KvmHypervisor

variable {n : ℕ}

/-! ### What a deadlock is -/

/-- The thread of a VM has ended. -/
def ThreadStatus.ended : ThreadStatus → Bool
  | .finished _ => true
  | _ => false

/-- Some VM is still running, all that are still running are blocked, and nobody has stopped
the system. -/
structure System.Deadlocked (s : System n) : Prop where
  someRunning : ∃ i, (s.vms i).status.ended = false
  allBlocked : ∀ i, (s.vms i).status.ended = false → s.blocked i = true
  stopped : s.shared.stopped = false

/-! ### Matched guests -/

section Matched

variable {layout : Fin (n + 1) → RunLayout} {payloads : List (List UInt8)}
variable {rounds : Fin (n + 1) → ℕ} {tr : List (Event n)} {s : Guests n}

/-- Guests in their phases are not deadlocked if they are matched. -/
theorem Following.not_deadlocked (hF : Following layout payloads rounds tr s)
    (hrounds : ∀ i, i ≠ 0 → rounds i = payloads.length) : ¬s.system.Deadlocked := by
  rintro ⟨⟨i, hi⟩, hblocked, -⟩
  -- The VM that is still running has a command left, so some guest's command does not park.
  obtain ⟨run, hwaiting, -⟩ := System.blocked_iff.mp (hblocked i hi)
  obtain ⟨command, hnext, -⟩ := hF.parked i run hwaiting
  obtain ⟨j, command', hnext', hwait⟩ := hF.progress hrounds ⟨i, by rw [hnext]; exact nofun⟩
  -- That guest is running as well, hence parked in just that command.
  have hrunning : (s.system.vms j).status.ended = false := by
    have hstatus := hF.status j
    cases hst : (s.system.vms j).status with
    | finished success =>
        rw [hst] at hstatus
        rw [hstatus.1] at hnext'
        cases hnext'
    | _ => rfl
  obtain ⟨run', hwaiting', hout⟩ := System.blocked_iff.mp (hblocked j hrunning)
  obtain ⟨command'', hnext'', rfl⟩ := hF.parked j run' hwaiting'
  obtain rfl : command' = command'' := Option.some.inj (hnext'.symm.trans hnext'')
  exact hwait hout

/-- **Matched guests never deadlock**, whatever their number of rounds. -/
theorem no_deadlock_of_matched (hpayloads : ∀ payload ∈ payloads, payload.length < 2 ^ 32)
    (hrounds : ∀ i, i ≠ 0 → rounds i = payloads.length)
    (hrun : (referenceSystem layout payloads rounds).Run (fun _ _ => True) tr s) :
    ¬s.system.Deadlocked := by
  -- Guests leave their phases only by a failure, which is on its way to stop the system.
  have hcases : Following layout payloads rounds tr s ∨
      (s.system.vms 0).status = .returned false ∨ s.system.shared.stopped = true := by
    refine hrun.invariant (I := fun tr s => Following layout payloads rounds tr s ∨
      (s.system.vms 0).status = .returned false ∨ s.system.shared.stopped = true)
      (.inl (Following.initial layout payloads rounds)) ?_
    rintro tr t m e u hI - hs
    obtain ⟨a, -, hsystem⟩ := Guests.system_step hs
    rcases hI with hF | hfailed | hstopped
    · obtain hF' | ⟨i, -, hstopped⟩ | ⟨-, hfailed, -⟩ := hF.step hpayloads hs
      · exact .inl hF'
      · exact .inr (.inr hstopped)
      · exact .inr (.inl hfailed)
    · exact .inr (System.failed_step hsystem hfailed)
    · exact .inr (.inr (System.stopped_step hsystem hstopped))
  rcases hcases with hF | hfailed | hstopped
  · exact hF.not_deadlocked hrounds
  · rintro ⟨-, hblocked, -⟩
    obtain ⟨run, hwaiting, -⟩ :=
      System.blocked_iff.mp (hblocked 0 (by rw [hfailed]; rfl))
    rw [hfailed] at hwaiting
    cases hwaiting
  · rintro ⟨-, -, hrunning⟩
    rw [hstopped] at hrunning
    cases hrunning

/-- In the middle of `oneByteTransfer` there is no deadlock. -/
theorem no_deadlock_of_matched_oneByteTransfer : ∃ (tr : List (Event 1)) (s : Guests 1),
    (referenceSystem (fun _ => .smallest) [[7]] fun _ => 1).Run (fun _ _ => True) tr s ∧
      tr.length = 5 ∧ ¬s.system.Deadlocked := by
  have hexec : ((referenceSystem (fun _ => .smallest) [[7]] fun _ => 1).exec (fun _ _ => True)
      (referenceSystem (fun _ => .smallest) [[7]] fun _ => 1).init (oneByteTransfer.take 5)).map
        (fun p => p.1.length) = some 5 := by
    decide +kernel
  obtain ⟨tr, s, hrun, hlen⟩ := Machine.exists_of_exec hexec
  exact ⟨tr, s, hrun, hlen, no_deadlock_of_matched (by simp) (fun _ _ => rfl) hrun⟩

/-! ### Unmatched guests -/

/-- Where nothing can move any more, every guest is done or blocked. -/
theorem Following.ended_or_blocked (hF : Following layout payloads rounds tr s)
    (hcount : payloads.length < 2 ^ 64)
    (hstuck : (referenceSystem layout payloads rounds).Stuck (fun _ _ => True) s)
    (i : Fin (n + 1)) : ((s.programs i).next = none ∧ (s.system.vms i).status.ended = true) ∨
      s.system.blocked i = true := by
  cases hnext : (s.programs i).next with
  | none => exact .inl ⟨rfl, by rw [hF.finished_of_stuck hstuck hnext]; rfl⟩
  | some command =>
      right
      have hwait : s.system.handle i (command.exit (layout i)) = .wait := by
        by_contra hwait
        obtain ⟨m, c, s', hs⟩ := hF.call_enabled hnext hwait (hF.not_rejected hcount hnext)
        have hnone := hstuck m trivial
        rw [show (referenceSystem layout payloads rounds).step s m = _ from hs] at hnone
        cases hnone
      have hstatus := hF.status i
      rw [System.blocked_iff]
      cases hst : (s.system.vms i).status with
      | waiting run =>
          rw [hst] at hstatus
          obtain ⟨command', hnext', rfl⟩ := hstatus
          obtain rfl : command = command' := Option.some.inj (hnext.symm.trans hnext')
          exact ⟨_, rfl, hwait⟩
      | running =>
          have hissue := hstuck (.issue i) trivial
          simp [referenceSystem, Guests.step, Guests.action, hnext, Action.issue, System.step,
            hst] at hissue
      | returned success | finished success =>
          rw [hst] at hstatus
          rw [hstatus.1] at hnext
          cases hnext

/-- **Unmatched guests can deadlock**: if some reader's number of rounds differs from the
number of payloads, every run can be extended into a deadlock. -/
theorem deadlock_of_unmatched (hpayloads : ∀ payload ∈ payloads, payload.length < 2 ^ 32)
    (hpos : 0 < payloads.length) (hcount : payloads.length < 2 ^ 64)
    (hrounds : ∀ i, i ≠ 0 → 0 < rounds i) {j : Fin (n + 1)} (hj : j ≠ 0)
    (hne : rounds j ≠ payloads.length)
    (hrun : (referenceSystem layout payloads rounds).Run (fun _ _ => True) tr s) :
    ∃ tr' s', (referenceSystem layout payloads rounds).Path (fun _ _ => True) s tr' s' ∧
      s'.system.Deadlocked := by
  have hF : Following layout payloads rounds tr s :=
    hrun.invariant (Following.initial layout payloads rounds)
      fun tr t m e u hF _ hs => hF.step_of_pos hpayloads hpos hcount hrounds hs
  have hstep : ∀ t m e u, (∃ tr, Following layout payloads rounds tr t) → True →
      (referenceSystem layout payloads rounds).step t m = some (e, u) →
      (∃ tr, Following layout payloads rounds tr u) ∧ u.measure < t.measure := by
    rintro t m e u ⟨tr, hF⟩ - hs
    exact ⟨⟨_, hF.step_of_pos hpayloads hpos hcount hrounds hs⟩,
      Guests.measure_moves hF.size_le (hF.moves hpayloads hs)⟩
  obtain ⟨tr', s', hpath, hstuck⟩ := Machine.Path.exists_stuck hstep ⟨tr, hF⟩
  obtain ⟨tr'', hF'⟩ : ∃ tr'', Following layout payloads rounds tr'' s' :=
    hpath.invariant ⟨tr, hF⟩ fun t m e u hI hok hs => (hstep t m e u hI hok hs).1
  have hends := hF'.ended_or_blocked hcount hstuck
  refine ⟨tr', s', hpath, ?_, fun i hi => ?_, hF'.stopped⟩
  · -- If all guests were done, the writer and reader `j` would have done as many rounds.
    by_contra hnone
    have hdone : ∀ i, (s'.programs i).next = none := by
      intro i
      rcases hends i with ⟨hdone, -⟩ | hblocked
      · exact hdone
      · obtain ⟨run, hwaiting, -⟩ := System.blocked_iff.mp hblocked
        exact absurd ⟨i, by rw [hwaiting]; rfl⟩ hnone
    obtain ⟨hpub, hidle, -⟩ := hF'.writer.done hF'.bounded (hdone 0)
    have hlast := (hF'.reader j hj).done (hdone j)
    have hI := hF'.inv.round
    obtain ⟨hactive, hcompleted | hzero⟩ := (hI.reader j hj).settled (by simp [hidle])
    · have := (hI.reader j hj).completed hcompleted
      omega
    · omega
  · rcases hends i with ⟨-, hended⟩ | hblocked
    · rw [hended] at hi
      cases hi
    · exact hblocked

end Matched

/-- A writer with one empty payload halts after its round; its reader waits for a second
one. -/
def writerHaltsFirst : List (Move 1) :=
  [.issue writerVm, .issue readerVm, .issue writerVm, .issue readerVm, .issue readerVm,
    .issue writerVm, .halt writerVm, .finish writerVm, .issue readerVm]

/-- Guests that halt after different numbers of rounds can leave each other hanging. -/
theorem no_deadlock_unmatched_false :
    ¬∀ (n : ℕ) (layout : Fin (n + 1) → RunLayout) (payloads : List (List UInt8))
      (rounds : Fin (n + 1) → ℕ) (tr : List (Event n)) (s : Guests n),
      (∀ payload ∈ payloads, payload.length < 2 ^ 32) → 0 < payloads.length →
      (∀ i, i ≠ 0 → 0 < rounds i) →
      (referenceSystem layout payloads rounds).Run (fun _ _ => True) tr s →
      ¬s.system.Deadlocked := by
  intro hall
  have hexec : ((referenceSystem (fun _ => .smallest) [[]] fun _ => 2).exec (fun _ _ => True)
      (referenceSystem (fun _ => .smallest) [[]] fun _ => 2).init writerHaltsFirst).map
        (fun p => ((p.2.system.vms 0).status.ended, p.2.system.blocked 1,
          p.2.system.shared.stopped)) = some (true, true, false) := by
    decide +kernel
  obtain ⟨tr, s, hrun, hobs⟩ := Machine.exists_of_exec hexec
  obtain ⟨hended, hblocked, hstopped⟩ : (s.system.vms 0).status.ended = true ∧
      s.system.blocked 1 = true ∧ s.system.shared.stopped = false := by
    simpa only [Prod.mk.injEq] using hobs
  obtain ⟨run, hwaiting, -⟩ := System.blocked_iff.mp hblocked
  refine hall 1 _ _ _ tr s (by simp) (by simp) (fun _ _ => Nat.zero_lt_two) hrun
    ⟨⟨1, by rw [hwaiting]; rfl⟩, fun i hi => ?_, hstopped⟩
  match i with
  | 0 =>
      rw [hended] at hi
      cases hi
  | 1 => exact hblocked

end KvmHypervisor
