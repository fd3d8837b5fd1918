import KvmHypervisor.Acknowledgments

/-!
# Who Can Unblock a Waiting VM

Each of the three condition waits is meant to be ended by other VMs. `finishWriterRound`
rejects a writer without a published round, and `beginReaderRound` rejects a reader with a
round open, since those would wait for themselves. `beginWriterRound` has no such test: a
writer that announces a count while its own round is in progress waits for an end of that
round which only it could bring about (`beginWriterRound_never_unblocked`).

Without that command, and without acknowledgments of generation `0` in an unpublished round,
the other VMs can always end a wait (`wait_unblocked`). The proof drives them: every reader
that has not completed the published round can be brought to acknowledge it
(`Published.complete`), then the writer can finish the round (`Published.finish`), and from
an idle or a filling buffer it can publish the next generation (`Live.publish`).
-/

open Transitions

namespace KvmHypervisor

variable {n : ℕ}

/-! ### The discipline -/

/-- The step by which a writer announces a count while a round is in progress. -/
def AnnouncesInRound (s : System n) (a : Action n) : Prop :=
  ∃ x, s.pending a = some x ∧
    ∃ y, selectHandler (s.vms x.1).context x.2 = some y ∧ y.1 = .beginWriterRound ∧
      s.shared.roundInProgress = true ∧ s.shared.stopped = false

instance (s : System n) (a : Action n) : Decidable (AnnouncesInRound s a) := by
  unfold AnnouncesInRound
  infer_instance

/-- The discipline of a run in which the writer announces counts only between rounds and no
acknowledgment precedes its publication. -/
def InOrder (s : System n) (a : Action n) : Prop :=
  ¬AnnouncesInRound s a ∧ NoAckWhileFilling s a

instance (s : System n) (a : Action n) : Decidable (InOrder s a) :=
  inferInstanceAs (Decidable (_ ∧ _))

/-- The steps of VMs other than VM `i`. -/
def OthersOnly (i : Fin (n + 1)) (_ : System n) (a : Action n) : Prop :=
  ∃ j, j ≠ i ∧ a.vm = some j

/-- Steps of other VMs leave VM `i` where it is. -/
theorem vms_of_othersOnly {i : Fin (n + 1)} {s s' : System n} {tr : List (Event n)}
    (h : (hypervisor n).Path (OthersOnly i) s tr s') : s'.vms i = s.vms i := by
  induction h with
  | refl => rfl
  | step _ hok hs ih =>
      obtain ⟨j, hj, ha⟩ := hok
      rw [System.vms_of_ne hs (by rw [ha]; simpa using hj), ih]

/-! ### What parked threads wait for -/

/-- An exit VM record `v` can be parked in: a status read of a writer with a published round,
or the begin of a round of a reader with nothing open. -/
def ParkedIn (v : SharedBufferVmState) (run : KvmRun) : Prop :=
  (∃ data, selectHandler v run = some (.finishWriterRound, data) ∧ v.writeGeneration ≠ 0) ∨
    ∃ data, selectHandler v run = some (.beginReaderRound, data) ∧
      ¬(v.lastReadGeneration < v.activeReadGeneration ∧ v.readCompleted = false)

/-- The invariant of runs in order: the round invariant, and what is known of parked threads
and of VMs that have not received their mode. -/
structure OrderInv (tr : List (Event n)) (s : System n) : Prop where
  inv : RoundInvariant tr s
  parked : ∀ i run, (s.vms i).status = .waiting run → ParkedIn (s.vms i).context run
  fresh : ∀ i, (s.vms i).context.modeDelivered = false →
    (s.vms i).context.activeReadGeneration = 0
  started : (s.vms 0).context.modeDelivered = false → s.shared.roundInProgress = false

theorem orderInv_initial (n : ℕ) : OrderInv [] (System.initial n) where
  inv := roundInvariant_initial n
  parked := fun _ _ h => by cases h
  fresh := fun _ _ => rfl
  started := fun _ => rfl

section Steps

variable {tr : List (Event n)} {s s' : System n} {a : Action n} {i j : Fin (n + 1)}

/-- An accepted call keeps the invariant, unless it acknowledges generation `0`. -/
theorem OrderInv.call {c : Call} (hO : OrderInv tr s)
    (hs : s.step a = some (.call i c, s'))
    (hok : ∀ g r, c = .finishReaderRound g r →
      (s.vms i).context.activeReadGeneration = 0 → s.shared.roundInProgress = false) :
    OrderInv (.call i c :: tr) s' := by
  have hinv : RoundInvariant (.call i c :: tr) s' :=
    hO.inv.step hs fun j g r he => by
      obtain ⟨rfl, rfl⟩ := Event.call.inj he
      exact hok g r rfl
  obtain ⟨run, f, -, -, -, hacc, rfl⟩ := System.step_call hs
  refine ⟨hinv, fun j run hj => ?_, fun j hd => ?_, fun hd => ?_⟩
  · by_cases hji : j = i
    · subst hji
      simp at hj
    · simp only [Function.update_of_ne hji] at hj ⊢
      exact hO.parked j run hj
  · by_cases hji : j = i
    · subst hji
      simp [hacc.delivered] at hd
    · simp only [Function.update_of_ne hji] at hd ⊢
      exact hO.fresh j hd
  · by_cases hi : i = 0
    · subst hi
      simp [hacc.delivered] at hd
    · simp only [Function.update_of_ne (Ne.symm hi)] at hd
      have hold := hO.started hd
      generalize f.state = σ', f.vm = v' at hacc
      cases hacc with
      | deliverMode | beginReaderRound | readSharedByte | finishReaderRound => exact hold
      | beginWriterRound _ hm | beginEmptyRound _ hm | writeSharedByte _ hm
      | writeLastByte _ hm | finishWriterRound _ hm =>
          exact absurd (hO.inv.round.eq_zero_of_mode hm) hi

/-- A thread that parks in order parks in one of the two exits others can end. -/
theorem parkedIn_of_wait {run : KvmRun} (hpending : s.pending a = some (i, run))
    (hok : ¬AnnouncesInRound s a) (hout : s.handle i run = .wait) :
    ParkedIn (s.vms i).context run := by
  obtain ⟨handler, data, hsel, hstop, hwaits⟩ := handle_wait hout
  cases handler with
  | beginWriterRound =>
      exact absurd ⟨(i, run), hpending, (_, data), hsel, rfl, hwaits, hstop⟩ hok
  | finishWriterRound => exact .inl ⟨data, hsel, hwaits.1⟩
  | beginReaderRound => exact .inr ⟨data, hsel, hwaits.1⟩
  | _ => exact hwaits.elim

/-- A move of one thread alone keeps the invariant, if it parks only in such an exit. -/
theorem OrderInv.setStatus {e : Event n} {status : ThreadStatus} (hO : OrderInv tr s)
    (σ : SharedBufferState) (hround : σ.roundInProgress = s.shared.roundInProgress)
    (hinv : RoundInvariant (e :: tr) { s.setStatus i status with shared := σ })
    (hparked : ∀ run, status = .waiting run → ParkedIn (s.vms i).context run) :
    OrderInv (e :: tr) { s.setStatus i status with shared := σ } where
  inv := hinv
  parked := fun j run hj => by
    by_cases hji : j = i
    · subst hji
      simp only [System.setStatus_status_self] at hj
      simpa using hparked run hj
    · simp only [System.setStatus_of_ne _ _ hji] at hj ⊢
      exact hO.parked j run hj
  fresh := fun j hd => by
    simp only [System.setStatus_context] at hd ⊢
    exact hO.fresh j hd
  started := fun hd => by
    simp only [System.setStatus_context] at hd
    exact hround.trans (hO.started hd)

/-- **Every step in order keeps the invariant.** -/
theorem OrderInv.step {e : Event n} (hO : OrderInv tr s) (hok : InOrder s a)
    (hs : s.step a = some (e, s')) : OrderInv (e :: tr) s' := by
  have hack : AcksGenerationZero s a → s.shared.roundInProgress = false := by
    intro hack
    by_contra hround
    exact hok.2 ⟨hack, by simpa using hround⟩
  have hinv := hO.inv.step_of_action hs hack
  obtain ⟨i, run, hpending, hrun⟩ | ⟨i, -, -, -, rfl⟩ | ⟨i, -, -, -, rfl⟩ | ⟨i, -, -, -, rfl⟩ |
    ⟨i, -, -, -, rfl⟩ | ⟨-, -, rfl⟩ := System.step_cases hs
  · obtain ⟨f, c, -, -, -, rfl, -⟩ | ⟨-, -, rfl⟩ | ⟨hout, -, rfl⟩ :=
      System.execute_cases hrun
    · refine hO.call hs fun g r hc hzero => hack ?_
      subst hc
      exact System.step_finishReaderRound hs hzero
    · exact hO.setStatus _ rfl hinv fun run h => by cases h
    · refine hO.setStatus _ rfl hinv fun run h => ?_
      cases h
      exact parkedIn_of_wait hpending hok.1 hout
  · exact hO.setStatus _ rfl hinv fun run h => by cases h
  · exact hO.setStatus _ rfl hinv fun run h => by cases h
  · exact hO.setStatus _ rfl hinv fun run h => by cases h
  · exact hO.setStatus _ rfl hinv fun run h => by cases h
  · exact ⟨hinv, hO.parked, hO.fresh, hO.started⟩

/-! ### Live systems -/

/-- A system in order in which every thread is still in its loop and nobody has aborted. -/
structure Live (tr : List (Event n)) (s : System n) : Prop extends OrderInv tr s where
  stopped : s.shared.stopped = false
  active : ∀ i, (s.vms i).status.Active

/-- A live system stays live under accepted calls that acknowledge no generation `0`. -/
theorem Live.call {c : Call} (hL : Live tr s) (hs : s.step a = some (.call i c, s'))
    (hok : ∀ g r, c = .finishReaderRound g r →
      (s.vms i).context.activeReadGeneration ≠ 0) : Live (.call i c :: tr) s' := by
  have hO := hL.toOrderInv.call hs fun g r hc hzero => absurd hzero (hok g r hc)
  obtain ⟨run, f, -, -, -, hacc, rfl⟩ := System.step_call hs
  refine ⟨hO, hacc.stopped_eq.trans hL.stopped, fun j => ?_⟩
  by_cases hji : j = i
  · subst hji
    simp [ThreadStatus.Active]
  · simpa only [Function.update_of_ne hji] using hL.active j

/-- A reader of a live system is running, or parked with nothing open. -/
theorem Live.reader_status (hL : Live tr s) (hi : i ≠ 0) :
    (s.vms i).status = .running ∨ ∃ run data, (s.vms i).status = .waiting run ∧
      selectHandler (s.vms i).context run = some (.beginReaderRound, data) ∧
      ¬((s.vms i).context.lastReadGeneration < (s.vms i).context.activeReadGeneration ∧
        (s.vms i).context.readCompleted = false) := by
  rcases hL.active i with hrunning | ⟨run, hwaiting⟩
  · exact .inl hrunning
  · rcases hL.parked i run hwaiting with ⟨data, hsel, -⟩ | ⟨data, hsel, hclosed⟩
    · exact absurd (hL.inv.round.eq_zero_of_mode (selectHandler_permitted hsel).2) hi
    · exact .inr ⟨run, data, hwaiting, hsel, hclosed⟩

/-- The writer of a live system is running, or parked in its status read. -/
theorem Live.writer_status (hL : Live tr s) :
    (s.vms 0).status = .running ∨ ∃ run data, (s.vms 0).status = .waiting run ∧
      selectHandler (s.vms 0).context run = some (.finishWriterRound, data) ∧
      (s.vms 0).context.writeGeneration ≠ 0 := by
  rcases hL.active 0 with hrunning | ⟨run, hwaiting⟩
  · exact .inl hrunning
  · rcases hL.parked 0 run hwaiting with ⟨data, hsel, hw⟩ | ⟨data, hsel, -⟩
    · exact .inr ⟨run, data, hwaiting, hsel, hw⟩
    · exact absurd rfl (hL.inv.round.ne_zero_of_mode (selectHandler_permitted hsel).2)

/-- A live system in which generation `P` is published and its round in progress. -/
structure Published (P : ℕ) (tr : List (Event n)) (s : System n) : Prop
    extends Live tr s where
  round : s.shared.roundInProgress = true
  ready : s.shared.dataReady = true
  count : publications (history tr) = P
  bounded : P < 2 ^ 64

namespace Published

variable {P : ℕ}

theorem pos (hp : Published P tr s) : 0 < P := by
  have := (hp.inv.round.buffer.ready hp.ready).2.1
  have := hp.count
  omega

theorem generation (hp : Published P tr s) : s.shared.generation = P := by
  have := hp.inv.round.buffer.generation
  have := hp.count
  have := hp.bounded
  omega

/-- Accepted calls of readers leave the round published. -/
theorem call {c : Call} (hp : Published P tr s) (hi : i ≠ 0)
    (hs : s.step a = some (.call i c, s'))
    (hok : ∀ g r, c = .finishReaderRound g r →
      (s.vms i).context.activeReadGeneration ≠ 0) : Published P (.call i c :: tr) s' := by
  have hL := hp.toLive.call hs hok
  obtain ⟨run, f, -, -, -, hacc, rfl⟩ := System.step_call hs
  generalize f.state = σ', f.vm = v' at hacc hL
  cases hacc with
  | deliverMode | beginReaderRound | readSharedByte | finishReaderRound =>
      exact ⟨hL, hp.round, hp.ready, hp.count, hp.bounded⟩
  | beginWriterRound _ hm | beginEmptyRound _ hm | writeSharedByte _ hm | writeLastByte _ hm
  | finishWriterRound _ hm => exact absurd (hp.inv.round.eq_zero_of_mode hm) hi

end Published

/-- VM `i` has completed generation `P`. -/
def HasCompleted (P : ℕ) (s : System n) (i : Fin (n + 1)) : Prop :=
  (s.vms i).context.activeReadGeneration = P ∧ (s.vms i).context.readCompleted = true

/-! ### Driving a reader -/

/-- The steps of VM `i` alone. -/
def OnlyBy (i : Fin (n + 1)) (_ : System n) (a : Action n) : Prop :=
  a.vm = some i

/-- What driving VM `i` through a published round achieves. -/
def Completes (P : ℕ) (tr : List (Event n)) (s : System n) (i : Fin (n + 1)) : Prop :=
  ∃ tr' s', (hypervisor n).Path (OnlyBy i) s tr' s' ∧ Published P (tr' ++ tr) s' ∧
    HasCompleted P s' i

/-- One accepted call of VM `i`, and then on from there. -/
theorem Completes.of_call {P : ℕ} {c : Call} (hs : s.step a = some (.call i c, s'))
    (hc : Completes P (.call i c :: tr) s' i) : Completes P tr s i := by
  obtain ⟨tr', s'', hpath, hp, hdone⟩ := hc
  have hfirst : (hypervisor n).Path (OnlyBy i) s [.call i c] s' :=
    Machine.Path.single (System.vm_of_call hs) hs
  refine ⟨tr' ++ [.call i c], s'', hfirst.trans hpath, ?_, hdone⟩
  rwa [List.append_assoc]

/-- A reader with the round open reads what is left and acknowledges. Induction on the bytes
left. -/
theorem Published.complete_of_open {P : ℕ} (hp : Published P tr s) (hi : i ≠ 0)
    (hrunning : (s.vms i).status = .running)
    (hlt : (s.vms i).context.lastReadGeneration < (s.vms i).context.activeReadGeneration)
    (hc : (s.vms i).context.readCompleted = false) : Completes P tr s i := by
  have hI := hp.inv.round
  have hactive : (s.vms i).context.activeReadGeneration = P :=
    (hI.running_of_open hi hlt hc).2.trans hp.count
  have hgen : (s.vms i).context.activeReadGeneration = s.shared.generation :=
    hactive.trans hp.generation.symm
  have hm : (s.vms i).context.mode = vmModeReader := (hI.reader i hi).mode
  have hd : (s.vms i).context.modeDelivered = true := by
    by_contra hd
    have := hp.fresh i (by simpa using hd)
    omega
  have hle := ((hp.inv.reading i hi).obtained hlt hc).2
  induction hleft : s.shared.size - (s.vms i).context.readOffset generalizing tr s with
  | zero =>
      have hcount := hI.completedReaders_lt hp.ready hi fun hdone => by
        rw [hc] at hdone
        cases hdone.2
      have hsize := hI.buffer.size_mod
      obtain ⟨c, σ, v, hcommand, hacc, hs⟩ := System.issue_call hrunning
        (handle_outl_status_accepted .smallest hd hp.stopped hm (by omega) hc hgen (by omega)
          hcount) (show s.shared.size < 2 ^ 32 by omega)
      refine Completes.of_call hs ⟨[], _, .refl,
        hp.call hi hs fun _ _ _ => by omega, ?_⟩
      cases hacc with
      | finishReaderRound => exact ⟨by simpa using hactive, by simp⟩
      | _ => simp [Call.command, sharedBufferPort, sharedBufferStatusPort] at hcommand
  | succ left ih =>
      obtain ⟨c, σ, v, hcommand, hacc, hs⟩ := System.issue_call hrunning
        (handle_inb_accepted .smallest hd hp.stopped hm hgen (by omega)) trivial
      cases hacc with
      | readSharedByte =>
          have hp' := hp.call hi hs fun _ _ h => by cases h
          refine Completes.of_call hs (ih hp' ?_ ?_ ?_ hp'.inv.round ?_ ?_ ?_ ?_ ?_ ?_)
          all_goals simp
          all_goals first | assumption | omega
      | deliverMode hd' =>
          rw [hd] at hd'
          cases hd'
      | _ => simp [Call.command] at hcommand

/-- A reader that has received its mode can be brought to complete the published round. -/
theorem Published.complete_of_delivered {P : ℕ} (hp : Published P tr s) (hi : i ≠ 0)
    (hd : (s.vms i).context.modeDelivered = true) : Completes P tr s i := by
  by_cases hdone : HasCompleted P s i
  · exact ⟨[], s, .refl, hp, hdone⟩
  have hR := hp.inv.round.reader i hi
  rw [hp.count] at hR
  have hnew : (¬((s.vms i).context.lastReadGeneration <
      (s.vms i).context.activeReadGeneration ∧ (s.vms i).context.readCompleted = false)) →
      (s.vms i).context.lastReadGeneration < s.shared.generation := by
    intro hclosed
    rw [hp.generation]
    exact hR.last_lt hp.pos hclosed hdone
  -- Begin the round, from the loop or from a parked begin, and go on from there.
  have hbegin : ∀ {c : Call} {σ : SharedBufferState} {v : SharedBufferVmState} {a : Action n},
      c.handler = .beginReaderRound → Accepts s.shared (s.vms i).context c σ v →
      s.step a = some (.call i c, ⟨σ, Function.update s.vms i ⟨v, .running⟩⟩) →
      Completes P tr s i := by
    intro c σ v a hhandler hacc hs
    cases hacc with
    | beginReaderRound _ _ _ _ _ hlt =>
        have hp' := hp.call hi hs fun _ _ h => by cases h
        refine Completes.of_call hs (hp'.complete_of_open hi ?_ ?_ ?_)
        all_goals simp
        exact hlt
    | _ => simp [Call.handler] at hhandler
  rcases hp.reader_status hi with hrunning | ⟨run, data, hwaiting, hsel, hclosed⟩
  · by_cases hopen : (s.vms i).context.lastReadGeneration <
        (s.vms i).context.activeReadGeneration ∧ (s.vms i).context.readCompleted = false
    · exact hp.complete_of_open hi hrunning hopen.1 hopen.2
    · obtain ⟨c, σ, v, hcommand, hacc, hs⟩ := System.issue_call hrunning
        (handle_inl_accepted .smallest hd hp.stopped hR.mode hopen hp.ready (hnew hopen)) trivial
      refine hbegin ?_ hacc hs
      cases c <;> simp [Call.command, Call.handler, sharedBufferPort,
        sharedBufferStatusPort] at hcommand ⊢
  · obtain ⟨c, σ, v, hhandler, hacc, hs⟩ := System.wake_call hwaiting hsel
      (handle_beginReaderRound_accepted hsel hp.stopped hclosed hp.ready (hnew hclosed))
    exact hbegin hhandler hacc hs

/-- **Every reader can be brought to complete the published round.** -/
theorem Published.complete {P : ℕ} (hp : Published P tr s) (hi : i ≠ 0) :
    Completes P tr s i := by
  cases hd : (s.vms i).context.modeDelivered with
  | true => exact hp.complete_of_delivered hi hd
  | false =>
      rcases hp.reader_status hi with hrunning | ⟨run, data, -, hsel, -⟩
      · obtain ⟨c, σ, v, hcommand, hacc, hs⟩ := System.issue_call hrunning
          (handle_mode_accepted .smallest hd) trivial
        have hdelivered := hacc.delivered
        have hnack : ∀ g r, c = .finishReaderRound g r →
            (s.vms i).context.activeReadGeneration ≠ 0 := by
          rintro g r rfl
          simp [Call.command] at hcommand
        refine Completes.of_call hs ((hp.call hi hs hnack).complete_of_delivered hi ?_)
        simpa using hdelivered
      · have := (selectHandler_permitted hsel).1
        rw [hd] at this
        cases this

/-- All readers of a list can be brought to complete the round, one after the other. -/
theorem Published.completeAll {P : ℕ} (hp : Published P tr s) (l : List (Fin (n + 1)))
    (hl : ∀ j ∈ l, j ≠ 0 ∧ j ≠ i) : ∃ tr' s',
      (hypervisor n).Path (OthersOnly i) s tr' s' ∧ Published P (tr' ++ tr) s' ∧
        (∀ j ∈ l, HasCompleted P s' j) ∧ ∀ j, j ∉ l → s'.vms j = s.vms j := by
  induction l with
  | nil => exact ⟨[], s, .refl, hp, nofun, fun _ _ => rfl⟩
  | cons k l ih =>
      obtain ⟨tr₁, s₁, hpath₁, hp₁, hdone₁, hsame₁⟩ :=
        ih fun j hj => hl j (List.mem_cons_of_mem _ hj)
      obtain ⟨hk, hki⟩ := hl k List.mem_cons_self
      obtain ⟨tr₂, s₂, hpath₂, hp₂, hdone₂⟩ := hp₁.complete hk
      have hsame₂ : ∀ j, j ≠ k → s₂.vms j = s₁.vms j := fun j hj =>
        vms_of_othersOnly (hpath₂.mono fun _ a ha => ⟨k, Ne.symm hj, ha⟩)
      refine ⟨tr₂ ++ tr₁, s₂, hpath₁.trans (hpath₂.mono fun _ a ha => ⟨k, hki, ha⟩), ?_, ?_, ?_⟩
      · rw [List.append_assoc]
        exact hp₂
      · intro j hj
        by_cases hjk : j = k
        · rw [hjk]
          exact hdone₂
        · rw [HasCompleted, hsame₂ j hjk]
          exact hdone₁ j ((List.mem_cons.mp hj).resolve_left hjk)
      · intro j hj
        rw [List.mem_cons, not_or] at hj
        rw [hsame₂ j hj.1, hsame₁ j hj.2]

/-- With all readers done, every acknowledgment is in. -/
theorem Published.allCounted {P : ℕ} (hp : Published P tr s)
    (hdone : ∀ j, j ≠ 0 → HasCompleted P s j) :
    s.shared.completedReaders = s.shared.readerCount := by
  by_contra hne
  obtain ⟨j, hj, hmissing⟩ := hp.inv.round.exists_missing hp.ready hne
  rw [hp.count] at hmissing
  exact hmissing (hdone j hj)

/-! ### Driving the writer -/

/-- The writer finishes a round that all readers have completed. -/
theorem Published.finish {P : ℕ} (hp : Published P tr s)
    (hdone : ∀ j, j ≠ 0 → HasCompleted P s j) : ∃ tr' s',
      (hypervisor n).Path (OnlyBy 0) s tr' s' ∧ Live (tr' ++ tr) s' ∧
        s'.shared.roundInProgress = false ∧ publications (history (tr' ++ tr)) = P := by
  have hwriter := hp.inv.round.writer
  have hw : (s.vms 0).context.writeGeneration = s.shared.generation := by
    rw [hwriter.writeGeneration, if_pos ⟨hp.round, hp.ready⟩]
  have hne : (s.vms 0).context.writeGeneration ≠ 0 := by
    have := hp.pos
    rw [hw, hp.generation]
    omega
  have hall := hp.allCounted hdone
  have hfinish : ∀ {c : Call} {σ : SharedBufferState} {v : SharedBufferVmState} {a : Action n},
      c.handler = .finishWriterRound → Accepts s.shared (s.vms 0).context c σ v →
      s.step a = some (.call 0 c, ⟨σ, Function.update s.vms 0 ⟨v, .running⟩⟩) →
      ∃ tr' s', (hypervisor n).Path (OnlyBy 0) s tr' s' ∧ Live (tr' ++ tr) s' ∧
        s'.shared.roundInProgress = false ∧ publications (history (tr' ++ tr)) = P := by
    intro c σ v a hhandler hacc hs
    cases hacc with
    | finishWriterRound =>
        have hL := hp.toLive.call hs fun _ _ h => by cases h
        exact ⟨[_], _, Machine.Path.single (System.vm_of_call hs) hs, hL, rfl, hp.count⟩
    | _ => simp [Call.handler] at hhandler
  rcases hp.writer_status with hrunning | ⟨run, data, hwaiting, hsel, -⟩
  · have hd : (s.vms 0).context.modeDelivered = true := by
      by_contra hd
      have hidle := hp.started (by simpa using hd)
      rw [hp.round] at hidle
      cases hidle
    obtain ⟨c, σ, v, hcommand, hacc, hs⟩ := System.issue_call hrunning
      (handle_inl_status_accepted .smallest hd hp.stopped hwriter.mode hne hp.ready hw.symm hall)
      trivial
    refine hfinish ?_ hacc hs
    cases c <;> simp [Call.command, Call.handler, sharedBufferPort,
      sharedBufferStatusPort] at hcommand ⊢
  · obtain ⟨c, σ, v, hhandler, hacc, hs⟩ := System.wake_call hwaiting hsel
      (handle_finishWriterRound_accepted hsel hp.stopped hne hp.ready hw.symm hall)
    exact hfinish hhandler hacc hs

/-- What driving the writer to its next publication achieves. -/
def Publishes (tr : List (Event n)) (s : System n) : Prop :=
  ∃ tr' s', (hypervisor n).Path (OnlyBy ⟨0, n.succ_pos⟩) s tr' s' ∧ Live (tr' ++ tr) s' ∧
    s'.shared.dataReady = true ∧
    publications (history (tr' ++ tr)) = publications (history tr) + 1

/-- One accepted call of the writer that publishes nothing, and then on from there. -/
theorem Publishes.of_call {c : Call} (hs : s.step a = some (.call 0 c, s'))
    (hc : c.published = none) (hrest : Publishes (.call 0 c :: tr) s') : Publishes tr s := by
  rw [Publishes, Fin.zero_eta] at hrest ⊢
  obtain ⟨tr', s'', hpath, hL, hready, hcount⟩ := hrest
  have hfirst : (hypervisor n).Path (OnlyBy 0) s [.call 0 c] s' :=
    Machine.Path.single (System.vm_of_call hs) hs
  refine ⟨tr' ++ [.call 0 c], s'', hfirst.trans hpath, ?_, hready, ?_⟩
  · rwa [List.append_assoc]
  · rw [List.append_assoc]
    simpa [history_call, publications, hc] using hcount

/-- One accepted call of the writer that publishes. -/
theorem Publishes.of_publish {c : Call} (hL : Live tr s)
    (hs : s.step a = some (.call 0 c, s')) (hc : c.published.isSome = true)
    (hready : s'.shared.dataReady = true) : Publishes tr s := by
  have hnack : ∀ g r, c = .finishReaderRound g r →
      (s.vms 0).context.activeReadGeneration ≠ 0 := by
    rintro g r rfl
    cases hc
  refine ⟨[.call 0 c], s', Machine.Path.single (System.vm_of_call hs) hs,
    hL.call hs hnack, hready, ?_⟩
  simp [history_call, publications, hc]

/-- Outside a published round the writer is running. -/
theorem Live.writer_running (hL : Live tr s)
    (hs : ¬(s.shared.roundInProgress = true ∧ s.shared.dataReady = true)) :
    (s.vms 0).status = .running := by
  rcases hL.writer_status with hrunning | ⟨run, data, -, -, hw⟩
  · exact hrunning
  · have hw' := hL.inv.round.writer.writeGeneration
    rw [if_neg hs] at hw'
    exact absurd hw' hw

/-- From an idle buffer, a writer with its mode publishes an empty payload. -/
theorem Live.publish_of_idle (hL : Live tr s) (hidle : s.shared.roundInProgress = false)
    (hd : (s.vms 0).context.modeDelivered = true) : Publishes tr s := by
  have hrunning := hL.writer_running (by simp [hidle])
  obtain ⟨c, σ, v, hcommand, hacc, hs⟩ := System.issue_call hrunning
    (handle_outl_accepted .smallest hd hL.stopped hL.inv.round.writer.mode 0 hidle)
    (show 0 < 2 ^ 32 by decide)
  cases hacc with
  | beginEmptyRound => exact Publishes.of_publish hL hs rfl rfl
  | beginWriterRound _ _ _ _ hpos =>
      simp only [Call.command, PortCommand.outl.injEq, true_and] at hcommand
      omega
  | _ => simp [Call.command, sharedBufferPort, sharedBufferStatusPort] at hcommand

/-- From a buffer being filled, the writer sends the bytes that are missing. Induction on
their number. -/
theorem Live.publish_of_filling (hL : Live tr s) (hround : s.shared.roundInProgress = true)
    (hready : s.shared.dataReady = false) : Publishes tr s := by
  have hlt := hL.inv.round.buffer.filling hround hready
  induction hleft : s.shared.expectedBytes - s.shared.receivedBytes generalizing tr s with
  | zero => omega
  | succ left ih =>
      have hd : (s.vms 0).context.modeDelivered = true := by
        by_contra hd
        have hidle := hL.started (by simpa using hd)
        rw [hround] at hidle
        cases hidle
      have hrunning := hL.writer_running (by simp [hready])
      obtain ⟨c, σ, v, hcommand, hacc, hs⟩ := System.issue_call hrunning
        (handle_outb_accepted .smallest hd hL.stopped hL.inv.round.writer.mode 0 hround hready
          hlt) trivial
      cases hacc with
      | writeSharedByte =>
          have hL' := hL.call hs fun _ _ h => by cases h
          refine Publishes.of_call hs rfl (ih hL' hround hready ?_ ?_)
          · simp only [SharedBufferState.receive_receivedBytes,
              SharedBufferState.receive_expectedBytes]
            omega
          · simp only [SharedBufferState.receive_receivedBytes,
              SharedBufferState.receive_expectedBytes]
            omega
      | writeLastByte => exact Publishes.of_publish hL hs rfl rfl
      | _ => simp [Call.command] at hcommand

/-- **Outside a published round the writer can publish the next generation.** -/
theorem Live.publish (hL : Live tr s)
    (hs : ¬(s.shared.roundInProgress = true ∧ s.shared.dataReady = true)) :
    Publishes tr s := by
  by_cases hround : s.shared.roundInProgress = true
  · exact hL.publish_of_filling hround (by simpa [hround] using hs)
  · have hidle : s.shared.roundInProgress = false := by simpa using hround
    cases hd : (s.vms 0).context.modeDelivered with
    | true => exact hL.publish_of_idle hidle hd
    | false =>
        obtain ⟨c, σ, v, hcommand, hacc, hstep⟩ := System.issue_call (hL.writer_running hs)
          (handle_mode_accepted .smallest hd) trivial
        cases hacc with
        | deliverMode =>
            have hL' := hL.call hstep fun _ _ h => by cases h
            exact Publishes.of_call hstep rfl (hL'.publish_of_idle hidle (by simp))
        | readSharedByte hd' =>
            rw [hd] at hd'
            cases hd'
        | _ => simp [Call.command] at hcommand

/-! ### Ending a wait -/

/-- The call VM `i` is parked in can be made to go through by steps of the other VMs. -/
def Unblocks (s : System n) (i : Fin (n + 1)) (run : KvmRun) : Prop :=
  ∃ tr' s', (hypervisor n).Path (OthersOnly i) s tr' s' ∧ s'.shared.stopped = false ∧
    ∃ f, s'.handle i run = .done true f

/-- What the others have done before does not matter. -/
theorem Unblocks.of_path {run : KvmRun} (hpath : (hypervisor n).Path (OthersOnly i) s tr s')
    (h : Unblocks s' i run) : Unblocks s i run := by
  obtain ⟨tr', s'', hpath', hrest⟩ := h
  exact ⟨tr' ++ tr, s'', hpath.trans hpath', hrest⟩

/-- A reader that waits for a new generation gets one from the writer. -/
theorem Live.unblock_reader {run : KvmRun} {data : ℕ} (hL : Live tr s) (hi : i ≠ 0)
    (hs : ¬(s.shared.roundInProgress = true ∧ s.shared.dataReady = true))
    (hcount : publications (history tr) + 1 < 2 ^ 64)
    (hsel : selectHandler (s.vms i).context run = some (.beginReaderRound, data))
    (hclosed : ¬((s.vms i).context.lastReadGeneration < (s.vms i).context.activeReadGeneration ∧
      (s.vms i).context.readCompleted = false)) : Unblocks s i run := by
  have hR := hL.inv.round.reader i hi
  have hlast := hR.last_eq hclosed
  have hle := hR.active_le
  obtain ⟨tr', s', hpath, hL', hready, hpub⟩ := hL.publish hs
  have hothers : (hypervisor n).Path (OthersOnly i) s tr' s' :=
    hpath.mono fun _ a ha => ⟨0, Ne.symm hi, ha⟩
  have hgen := hL'.inv.round.buffer.generation
  refine ⟨tr', s', hothers, hL'.stopped, ?_⟩
  rw [System.handle, vms_of_othersOnly hothers]
  exact handle_beginReaderRound_accepted hsel hL'.stopped hclosed hready (by omega)

/-- **Other VMs can end every wait.** In a run in which the writer announces counts only
between rounds and no reader acknowledges generation `0` in a round, with fewer than
`2 ^ 64 - 1` publications: whenever a VM is parked with its predicate false, while all threads
are in their loops and nobody has aborted, steps of the other VMs alone can bring its call to
go through. -/
theorem wait_unblocked {run : KvmRun} (hrun : (hypervisor n).Run InOrder tr s)
    (hactive : ∀ j, (s.vms j).status.Active) (hstop : s.shared.stopped = false)
    (hcount : publications (history tr) + 1 < 2 ^ 64)
    (hwaiting : (s.vms i).status = .waiting run) (hwait : s.handle i run = .wait) :
    Unblocks s i run := by
  have hO : OrderInv tr s :=
    hrun.invariant (orderInv_initial n) fun tr t a e u hO hok hs => hO.step hok hs
  have hL : Live tr s := ⟨hO, hstop, hactive⟩
  have hI := hO.inv.round
  rcases hO.parked i run hwaiting with ⟨data, hsel, hw⟩ | ⟨data, hsel, hclosed⟩
  · -- The writer waits for acknowledgments: bring all readers to complete the round.
    obtain rfl := hI.eq_zero_of_mode (selectHandler_permitted hsel).2
    have hw' := hI.writer.writeGeneration
    have hs : s.shared.roundInProgress = true ∧ s.shared.dataReady = true := by
      by_contra hs
      rw [if_neg hs] at hw'
      exact hw hw'
    rw [if_pos hs] at hw'
    have hp : Published (publications (history tr)) tr s :=
      ⟨hL, hs.1, hs.2, rfl, by omega⟩
    obtain ⟨tr', s', hpath, hp', hdone, -⟩ := hp.completeAll (readers n)
      fun j hj => ⟨mem_readers.mp hj, mem_readers.mp hj⟩
    refine ⟨tr', s', hpath, hp'.stopped, ?_⟩
    rw [System.handle, vms_of_othersOnly hpath]
    refine handle_finishWriterRound_accepted hsel hp'.stopped hw hp'.ready ?_
      (hp'.allCounted fun j hj => hdone j (mem_readers.mpr hj))
    rw [hw', hp'.generation, hp.generation]
  · have hi : i ≠ 0 := hI.ne_zero_of_mode (selectHandler_permitted hsel).2
    by_cases hs : s.shared.roundInProgress = true ∧ s.shared.dataReady = true
    · -- The reader has completed the round that is in progress: bring it to its end first.
      have hp : Published (publications (history tr)) tr s :=
        ⟨hL, hs.1, hs.2, rfl, by omega⟩
      obtain ⟨handler, data', hsel', -, hwaits⟩ := handle_wait hwait
      rw [hsel] at hsel'
      cases hsel'
      have hold : s.shared.generation ≤ (s.vms i).context.lastReadGeneration :=
        Nat.not_lt.mp fun hlt => hwaits.2 ⟨hs.2, hlt⟩
      have hdone : HasCompleted (publications (history tr)) s i := by
        by_contra hmissing
        have hlt := (hI.reader i hi).last_lt hp.pos hclosed hmissing
        rw [hp.generation] at hold
        omega
      obtain ⟨tr₁, s₁, hpath₁, hp₁, hdone₁, -⟩ := hp.completeAll ((readers n).filter (· ≠ i))
        fun j hj => by simpa [mem_readers] using hj
      have hsame₁ := vms_of_othersOnly hpath₁
      obtain ⟨tr₂, s₂, hpath₂, hL₂, hidle, hcount₂⟩ := hp₁.finish fun j hj => by
        by_cases hji : j = i
        · rw [hji, HasCompleted, hsame₁]
          exact hdone
        · exact hdone₁ j (List.mem_filter.mpr ⟨mem_readers.mpr hj, by simpa using hji⟩)
      have hpath : (hypervisor n).Path (OthersOnly i) s (tr₂ ++ tr₁) s₂ :=
        hpath₁.trans (hpath₂.mono fun _ a ha => ⟨0, Ne.symm hi, ha⟩)
      have hsame := vms_of_othersOnly hpath
      rw [← hsame] at hsel hclosed
      exact Unblocks.of_path hpath
        (hL₂.unblock_reader hi (by simp [hidle]) (by omega) hsel hclosed)
    · exact hL.unblock_reader hi hs hcount hsel hclosed

end Steps

/-- The writer of `oneByteRound` reads its status before the reader has acknowledged. -/
def writerWaits : List (Action 1) :=
  oneByteRound.take 5 ++ [.issue .smallest writerVm (.inl 0x520)]

/-- The wait of that writer can be ended by its reader. -/
theorem wait_unblocked_writerWaits : ∃ (tr : List (Event 1)) (s : System 1) (run : KvmRun),
    (hypervisor 1).Run InOrder tr s ∧ (s.vms 0).status = .waiting run ∧
      s.handle 0 run = .wait ∧ Unblocks s 0 run := by
  have hexec : ((hypervisor 1).exec InOrder (hypervisor 1).init writerWaits).map
      (fun p => (decide (∀ j, (p.2.vms j).status.Active), p.2.blocked 0, p.2.shared.stopped,
        publications (history p.1))) = some (true, true, false, 1) := by
    decide +kernel
  obtain ⟨tr, s, hrun, hobs⟩ := Machine.exists_of_exec hexec
  simp only [Prod.mk.injEq, decide_eq_true_eq] at hobs
  obtain ⟨hactive, hblocked, hstop, hcount⟩ := hobs
  obtain ⟨run, hwaiting, hwait⟩ := System.blocked_iff.mp hblocked
  exact ⟨tr, s, run, hrun, hwaiting, hwait,
    wait_unblocked hrun hactive hstop (by rw [hcount]; decide) hwaiting hwait⟩

/-! ### The wait nobody else can end -/

/-- **A writer that waits for the end of a round waits in vain**: no steps of other VMs,
short of an abort, make its call go through. -/
theorem beginWriterRound_never_unblocked {s s' : System n} {run : KvmRun} {data : ℕ}
    {tr : List (Event n)} (hmodes : ∀ j, j ≠ 0 → (s.vms j).context.mode = vmModeReader)
    (hsel : selectHandler (s.vms 0).context run = some (.beginWriterRound, data))
    (hround : s.shared.roundInProgress = true)
    (hpath : (hypervisor n).Path (OthersOnly 0) s tr s') (hstop : s'.shared.stopped = false) :
    s'.handle 0 run = .wait := by
  have hinv : (∀ j, j ≠ 0 → (s'.vms j).context.mode = vmModeReader) ∧
      s'.shared.roundInProgress = true := by
    refine hpath.invariant (I := fun t => (∀ j, j ≠ 0 →
      (t.vms j).context.mode = vmModeReader) ∧ t.shared.roundInProgress = true)
      ⟨hmodes, hround⟩ ?_
    rintro t a e u ⟨hmodes, hround⟩ ⟨k, hk, ha⟩ hs
    obtain ⟨-, hctx, hshared⟩ | ⟨i, c, v, rfl, hacc, hctx⟩ := System.step_records hs
    · refine ⟨fun j hj => by rw [hctx, hmodes j hj], ?_⟩
      rcases hshared with h | h <;> rw [h]
      · exact hround
      · exact hround
    · have hi : i ≠ 0 := by
        have hvm := System.vm_of_call hs
        rw [ha] at hvm
        rw [← Option.some.inj hvm]
        exact hk
      refine ⟨fun j hj => ?_, ?_⟩
      · rw [show (u.vms j).context = _ from congrFun hctx j]
        by_cases hji : j = i
        · subst hji
          rw [Function.update_self, hacc.mode_eq, hmodes j hj]
        · rw [Function.update_of_ne hji, hmodes j hj]
      · rw [(hacc.phase_of_reader (hmodes i hi)).1, hround]
  rw [System.handle, handleSharedBufferIo, vms_of_othersOnly hpath, hsel]
  simp [Handler.call, beginWriterRound, hstop, hinv.2]

/-- A writer that announces a second count in its own round. -/
def announcesTwice : List (Action 1) :=
  let issue := Action.issue RunLayout.smallest
  [issue writerVm (.inb 0x510), issue readerVm (.inb 0x510), issue writerVm (.outl 0x510 1),
    issue writerVm (.outl 0x510 1)]

/-- With arbitrary guests a VM can wait for itself. -/
theorem wait_unblocked_false :
    ¬∀ (n : ℕ) (tr : List (Event n)) (s : System n) (i : Fin (n + 1)) (run : KvmRun),
      (hypervisor n).Run (fun _ _ => True) tr s → (∀ j, (s.vms j).status.Active) →
      s.shared.stopped = false → (s.vms i).status = .waiting run → s.handle i run = .wait →
      Unblocks s i run := by
  intro hall
  have hexec : ((hypervisor 1).exec (fun _ _ => True) (hypervisor 1).init announcesTwice).map
      (fun p => (decide ((∀ j, (p.2.vms j).status.Active) ∧
        (p.2.vms 1).context.mode = vmModeReader ∧ (p.2.vms 0).context.mode = vmModeWriter ∧
        (p.2.vms 0).context.writeGeneration = 0), p.2.blocked 0, p.2.shared.stopped,
        p.2.shared.roundInProgress)) = some (true, true, false, true) := by
    decide +kernel
  obtain ⟨tr, s, hrun, hobs⟩ := Machine.exists_of_exec hexec
  simp only [Prod.mk.injEq, decide_eq_true_eq] at hobs
  obtain ⟨⟨hactive, hreader, hwriter, hw⟩, hblocked, hstop, hround⟩ := hobs
  obtain ⟨run, hwaiting, hwait⟩ := System.blocked_iff.mp hblocked
  obtain ⟨tr', s', hpath, hstop', f, hout⟩ :=
    hall 1 tr s 0 run hrun hactive hstop hwaiting hwait
  obtain ⟨handler, data, hsel, -, hwaits⟩ := handle_wait hwait
  have hmodes : ∀ j : Fin 2, j ≠ 0 → (s.vms j).context.mode = vmModeReader := by
    intro j hj
    obtain rfl : j = 1 := by omega
    exact hreader
  have hpermitted := selectHandler_permitted hsel
  cases handler with
  | beginWriterRound =>
      rw [beginWriterRound_never_unblocked hmodes hsel hround hpath hstop'] at hout
      cases hout
  | finishWriterRound => exact hwaits.1 hw
  | beginReaderRound =>
      rw [hpermitted.2] at hwriter
      exact absurd hwriter (by decide)
  | _ => exact hwaits.elim

end KvmHypervisor
