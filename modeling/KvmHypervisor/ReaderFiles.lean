import KvmHypervisor.DefaultFiles
import KvmHypervisor.DefaultTransfers
import KvmHypervisor.LazyCopies

/-!
# What the Readers Are Left With

The default guests end to end: the boot test, the transfer through the shared buffer, and the
files of the readers when all VMs have ended successfully. The ports are those of
`DefaultTransfers`, the files those of `DefaultFiles`, and the file layer is exchanged for the
private files of `LazyCopies`.

A reader opens its `reader.txt` without truncating it. So the file's first bytes are those
of `guest.txt`, up to the capacity of the buffer, and behind them stands whatever an earlier
run has left there: `readerFile_iff` says for which files this is nothing.
-/

open Transitions

namespace KvmHypervisor

open PosixFiles

variable {n : ℕ}

/-! ### The writer's read -/

section Reads

variable {World : Type} {T : Transducer World (FileInput (n + 1)) (Option Answer)}
variable {layout : Fin (n + 1) → RunLayout} {world : World}
variable {s t u : DefaultGuests n World} {tr : List (DefaultEvent n)} {data : List UInt8}

/-- In a run with the events `tr` to `s`, the writer's read in its transfer happens in `t`. -/
def WriterReads (T : Transducer World (FileInput (n + 1)) (Option Answer))
    (layout : Fin (n + 1) → RunLayout) (world : World) (tr : List (DefaultEvent n))
    (s t : DefaultGuests n World) : Prop :=
  ∃ tr₁ tr₂ fd memory address e u,
    (defaultSystem T layout world).Run (fun _ _ => True) tr₁ t ∧
    t.programs ⟨0, n.succ_pos⟩ = .readSource fd ∧
    t.step T layout (.file ⟨0, n.succ_pos⟩ memory address) = some (e, u) ∧
    (defaultSystem T layout world).Path (fun _ _ => True) u tr₂ s ∧ tr = tr₂ ++ e :: tr₁

/-- The first step of VM 0 that is not before its read is the read. -/
theorem early_or_reading (hrun : (defaultSystem T layout world).Run (fun _ _ => True) tr t)
    (hearly : (t.programs 0).early = true) {m : DefaultMove n} {e : DefaultEvent n}
    (hs : t.step T layout m = some (e, u)) (hok : u.NoFailure) :
    (u.programs 0).early = true ∨
      ∃ fd memory address, t.programs 0 = .readSource fd ∧ m = .file 0 memory address := by
  have hT : Transfers layout [] t :=
    transfers_of_run hrun (hok.of_step hs) hearly (Nat.two_pow_pos 32)
  obtain ⟨a, e₀, system, ha, hsystem, hadv⟩ |
    ⟨i, memory, address, call, answer, world', rfl, hserved, -, rfl⟩ :=
      DefaultGuests.step_cases hs
  · obtain heq | ⟨c, -, heq⟩ := DefaultGuests.programs_advance hadv 0
    · exact .inl (by rw [heq, hearly])
    · cases hp : t.programs 0 with
      | mode =>
          rw [hp, DefaultProgram.resume] at heq
          split_ifs at heq
          · exact .inl (by rw [heq]; rfl)
          · -- VM 0 is not told that it is a reader
            have hT' := hT.step hok (Nat.two_pow_pos 32) hs (by rw [heq]; trivial)
            obtain ⟨_, hF, -⟩ := hT'.following
            have hwriter := hF.writer
            simp only [DefaultGuests.shown, heq] at hwriter
            cases hwriter
      | testOpen | testWrite | testSeek | testRead | testClose | openSource | readSource =>
          exact .inl (by rw [heq, hp]; rfl)
      | _ =>
          rw [hp] at hearly
          cases hearly
  · by_cases hi : (0 : Fin (n + 1)) = i
    · subst hi
      cases hp : t.programs 0 with
      | readSource fd => exact .inr ⟨fd, memory, address, rfl, rfl⟩
      | openSource =>
          have hfailed := (hok 0).2
          rw [DefaultGuests.programs_afterFile_self, hp, DefaultProgram.returned] at hfailed ⊢
          split_ifs at hfailed ⊢
          · exact .inl rfl
          · cases hfailed
      | testOpen | testWrite | testSeek =>
          refine .inl ?_
          rw [DefaultGuests.programs_afterFile_self, hp, DefaultProgram.returned]
          split_ifs <;> rfl
      | testRead | testClose =>
          refine .inl ?_
          rw [DefaultGuests.programs_afterFile_self, hp]
          rfl
      | mode =>
          have hcall := hserved.fileCall
          rw [hp] at hcall
          cases hcall
      | _ =>
          rw [hp] at hearly
          cases hearly
    · rw [DefaultGuests.programs_afterFile_of_ne hi]
      exact .inl hearly

/-- In a run without a failure a writer that is past its read has read. -/
theorem exists_writerReads (hrun : (defaultSystem T layout world).Run (fun _ _ => True) tr s)
    (hok : s.NoFailure) : (s.programs 0).early = true ∨ ∃ t, WriterReads T layout world tr s t := by
  induction hrun with
  | refl => exact .inl rfl
  | step hprev _ hs ih =>
      obtain hearly | ⟨t, tr₁, tr₂, fd, memory, address, e, u, hrun, hp, hread, hpath, rfl⟩ :=
        ih (hok.of_step hs)
      · obtain hearly' | ⟨fd, memory, address, hp, rfl⟩ := early_or_reading hprev hearly hs hok
        · exact .inl hearly'
        · exact .inr ⟨_, _, [], fd, memory, address, _, _, hprev, hp, hs, .refl, rfl⟩
      · exact .inr ⟨t, tr₁, _ :: tr₂, fd, memory, address, e, u, hrun, hp, hread,
          .step hpath trivial hs, rfl⟩

end Reads

/-! ### On private files -/

namespace DefaultProgram

/-- Past the end of its read a writer has `data` in its buffer, until it is done. -/
def Past (data : List UInt8) : DefaultProgram → Prop
  | closeSource _ _ buffer | announce _ buffer | send _ buffer _ => buffer = data
  | done _ _ => True
  | _ => False

variable {data : List UInt8} {p : DefaultProgram}

theorem Past.holds (h : p.Past data) : p.Holds data := by
  cases p with
  | closeSource | announce | send => exact h
  | _ => trivial

theorem Past.resume (h : p.Past data) (response : ℕ) : (p.resume response).Past data := by
  cases p with
  | closeSource | announce | done => exact h
  | send read buffer sent =>
      rw [DefaultProgram.resume]
      split
      · exact h
      · trivial
  | _ => cases h

theorem Past.returned (h : p.Past data) (address : ℕ) (answer : Answer) :
    (p.returned address answer).Past data := by
  cases p with
  | closeSource | announce | send | done => exact h
  | _ => cases h

end DefaultProgram

/-- A writer that is past its read stays so. -/
theorem past_of_step {World : Type} {T : Transducer World (FileInput (n + 1)) (Option Answer)}
    {layout : Fin (n + 1) → RunLayout} {s s' : DefaultGuests n World} {m : DefaultMove n}
    {e : DefaultEvent n} {data : List UInt8} {i : Fin (n + 1)}
    (h : (s.programs i).Past data) (hs : s.step T layout m = some (e, s')) :
    (s'.programs i).Past data := by
  obtain ⟨a, e₀, system, -, -, hadv⟩ |
    ⟨j, memory, address, call, answer, world, -, -, -, rfl⟩ := DefaultGuests.step_cases hs
  · obtain heq | ⟨c, -, heq⟩ := DefaultGuests.programs_advance hadv i
    · rwa [heq]
    · rw [heq]
      exact h.resume c.response
  · by_cases hij : i = j
    · subst hij
      rw [DefaultGuests.programs_afterFile_self]
      exact h.returned address answer
    · rwa [DefaultGuests.programs_afterFile_of_ne hij]

section Private

variable {configured : String → Bool} {layout : Fin (n + 1) → RunLayout}
variable {a : PrivateWorld (n + 1)} {old : Fin (n + 1) → List UInt8} {data : List UInt8}
variable {s s' t u : DefaultGuests n (PrivateWorld (n + 1))} {m : DefaultMove n}
variable {e : DefaultEvent n} {tr : List (DefaultEvent n)}

/-- The invariants of the ports and of the files, for a payload. -/
structure Delivers (layout : Fin (n + 1) → RunLayout) (data : List UInt8)
    (old : Fin (n + 1) → List UInt8) (s : DefaultGuests n (PrivateWorld (n + 1))) : Prop where
  transfers : Transfers layout data s
  stored : Stored (data.take bufferSize) old s.programs s.world

/-- One step keeps both invariants. -/
theorem Delivers.step (hD : Delivers layout data old s) (hok : s'.NoFailure)
    (hlength : data.length < 2 ^ 32)
    (hs : s.step (privateLayer configured) layout m = some (e, s'))
    (hholds : (s'.programs 0).Holds data) : Delivers layout data old s' :=
  ⟨hD.transfers.step hok hlength hs hholds, hD.stored.step hD.transfers.received hs⟩

/-- Before the writer's read they hold for every payload. -/
theorem delivers_of_run
    (hstart : Stored (data.take bufferSize) old (fun _ => .testOpen) a)
    (hrun : (defaultSystem (privateLayer configured) layout a).Run (fun _ _ => True) tr s)
    (hok : s.NoFailure) (hearly : (s.programs 0).early = true) (hlength : data.length < 2 ^ 32) :
    Delivers layout data old s := by
  refine hrun.invariant (I := fun _ s => s.NoFailure → (s.programs 0).early = true →
    Delivers layout data old s) (fun _ _ => ⟨.initial layout data a, hstart⟩) ?_ hok hearly
  intro tr t m e u hI _ hs hok hearly
  exact (hI (hok.of_step hs) (early_of_step hs hearly)).step hok hlength hs
    (DefaultProgram.holds_of_early data hearly)

/-- After it they hold for the payload that was read. -/
theorem delivers_of_path (hD : Delivers layout data old u) (hpast : (u.programs 0).Past data)
    (hlength : data.length < 2 ^ 32)
    (hpath : (defaultSystem (privateLayer configured) layout a).Path (fun _ _ => True) u tr s)
    (hok : s.NoFailure) : Delivers layout data old s ∧ (s.programs 0).Past data := by
  induction hpath with
  | refl => exact ⟨hD, hpast⟩
  | step _ _ hs ih =>
      obtain ⟨hD', hpast'⟩ := ih (hok.of_step hs)
      have hpast'' := past_of_step hpast' hs
      exact ⟨hD'.step hok hlength hs hpast''.holds, hpast''⟩

/-- The writer's read returns the first part of what `guest.txt` holds. -/
theorem read_step {fd : ℤ} {memory : GuestMemory} {address : ℕ}
    (hfile : FileAt (t.world.states 0) (.readSource fd)) (hp : t.programs 0 = .readSource fd)
    (hs : t.step (privateLayer configured) layout (.file 0 memory address) = some (e, u))
    (hok : u.NoFailure) : ∃ held bytesRead, t.world.contents 0 "guest.txt" = some held ∧
      u.programs 0 = .closeSource fd bytesRead (held.take (bufferSize + 1)) := by
  have hserve : t.serve (privateLayer configured) 0 memory address = some (e, u) := hs
  obtain ⟨call, answer, world, hserved, -, rfl⟩ := DefaultGuests.serve_eq_some.mp hserve
  have hcall := hserved.fileCall
  rw [hp] at hcall
  cases hcall
  have hanswered := hserved.answered
  rw [privateLayer_request] at hanswered
  obtain ⟨hanswer, -⟩ := Prod.mk.inj hanswered
  obtain rfl := Option.some.inj hanswer
  have hresult := (hok 0).2
  rw [DefaultGuests.programs_afterFile_self, hp] at hresult ⊢
  simp only [DefaultProgram.returned, DefaultProgram.failed, decide_eq_false_iff_not,
    not_lt] at hresult
  obtain ⟨id, hid, hslice⟩ := hfile.read_source hserved.inMemory rfl hresult
  have hheld : t.world.contents 0 "guest.txt" = some (t.world.files id).bytes := by
    rw [PrivateWorld.contents, hid, Option.map_some]
  exact ⟨_, _, hheld, by rw [DefaultProgram.returned, hslice]⟩

/-- What the writer has read is transferred and stored in the rest of the run. -/
theorem delivers_of_read (hstart : ∀ D, Stored D old (fun _ => .testOpen) a)
    (hreads : WriterReads (privateLayer configured) layout a tr s t) (hok : s.NoFailure) :
    ∃ held, t.world.contents 0 "guest.txt" = some held ∧
      Delivers layout (held.take (bufferSize + 1)) old s := by
  rw [WriterReads, Fin.zero_eta] at hreads
  obtain ⟨tr₁, tr₂, fd, memory, address, e, u, hrun, hp, hs, hpath, -⟩ := hreads
  have hoku := DefaultGuests.noFailure_of_path hpath hok
  have hokt := hoku.of_step hs
  have hearly : (t.programs 0).early = true := by
    rw [hp]
    rfl
  have hdelivers : ∀ data : List UInt8, data.length < 2 ^ 32 → Delivers layout data old t :=
    fun data hlength => delivers_of_run (hstart _) hrun hokt hearly hlength
  have hfile := (hdelivers [] (Nat.two_pow_pos 32)).stored.file 0
  rw [hp] at hfile
  obtain ⟨held, bytesRead, hheld, hprogram⟩ := read_step hfile hp hs hoku
  have hlength : (held.take (bufferSize + 1)).length < 2 ^ 32 :=
    (List.length_take_le _ _).trans_lt (by decide)
  have hpast : (u.programs 0).Past (held.take (bufferSize + 1)) := by
    rw [hprogram]
    rfl
  have hu := (hdelivers _ hlength).step hoku hlength hs hpast.holds
  exact ⟨held, hheld, (delivers_of_path hu hpast hlength hpath hok).1⟩

/-- **The result on private files**: when all VMs have ended successfully, a `reader.txt`
holds the first bytes of what `guest.txt` held, and behind them what it held before. -/
theorem contents_of_finished (hstart : ∀ D, Stored D old (fun _ => .testOpen) a)
    (hrun : (defaultSystem (privateLayer configured) layout a).Run (fun _ _ => True) tr s)
    (hfinished : ∀ i, (s.system.vms i).status = .finished true)
    (hreads : WriterReads (privateLayer configured) layout a tr s t) :
    ∃ held, t.world.contents 0 "guest.txt" = some held ∧ ∀ i, i ≠ 0 →
      s.world.contents i "reader.txt" =
        some (held.take bufferSize ++ (old i).drop (held.take bufferSize).length) := by
  have hhalted := DefaultGuests.halted_of_run hrun
  obtain ⟨held, hheld, hD⟩ := delivers_of_read hstart hreads (hhalted.noFailure hfinished)
  refine ⟨held, hheld, fun i hi => ?_⟩
  have htake : (held.take (bufferSize + 1)).take bufferSize = held.take bufferSize := by
    rw [List.take_take, Nat.min_eq_left (Nat.le_succ bufferSize)]
  rw [← htake]
  refine hD.stored.stored i hi ?_
  obtain ⟨writer, hdone⟩ := hhalted i (.inr (hfinished i))
  obtain ⟨_, hF, -⟩ := hD.transfers.following
  have hreader := hF.reader i hi
  simp only [DefaultGuests.shown, hdone] at hreader
  rw [hdone]
  cases writer with
  | false => rfl
  | true => cases hreader

end Private

/-! ### On the host -/

section Host

variable (sys : HostSystem) (sharedFiles : List (String × HostPath))

/-- What a VM finds under a name: its own file, else the shared one, if it may be read. -/
def contentsOf (h : Host HostPath) (vm : Fin n) (name : String) : Option (List UInt8) :=
  match h.names (sys.localPathAt vm name) with
  | some m => some (h.files m).bytes
  | none => (privateCopy sharedFiles h name).map fun f => f.bytes

variable {sys sharedFiles}
variable {h : Host HostPath} {b : ℕ} {names : Fin n → String → Option (FileId n)}
variable {files : FileId n → File}

/-- What a VM finds shows. -/
theorem Shows.contentsOf (hs : Shows sys sharedFiles b h names files) (vm : Fin n)
    (name : String) : contentsOf sys sharedFiles h vm name =
      (names vm name).map fun id => (files id).bytes := by
  have hst := hs.stands vm name
  generalize names vm name = id at hst
  rw [KvmHypervisor.contentsOf]
  cases hst with
  | missing hnone hno =>
      rw [hnone]
      dsimp only
      cases hcopy : privateCopy sharedFiles h name with
      | none => rfl
      | some f =>
          obtain ⟨path, o, hl, ho, hread, -⟩ := exists_of_privateCopy hcopy
          rw [hno path o hl ho] at hread
          cases hread
  | named hm hfile =>
      rw [hm]
      dsimp only
      rw [hfile, Option.map_some]
  | pending hnone hl ho hread hfile =>
      rw [hnone]
      dsimp only
      rw [privateCopy, hl]
      dsimp only
      rw [ho]
      dsimp only
      rw [if_pos hread, Option.map_some, Option.map_some, hfile]

/-! ### Main result -/

section Main

variable {layout : Fin (n + 1) → RunLayout} {b : ℕ}
variable {s t : DefaultGuests n (FileWorld (n + 1))} {tr : List (DefaultEvent n)}

/-- What a VM finds, on a refined file layer. -/
theorem Refines.contentsOf {w : FileWorld (n + 1)} {a : PrivateWorld (n + 1)}
    (hr : Refines sys sharedFiles b w a) (vm : Fin (n + 1)) (name : String) :
    contentsOf sys sharedFiles w.host vm name = a.contents vm name :=
  hr.shows.contentsOf vm name

/-- At the start no reader has stored anything. -/
theorem Stored.start
    (hapart : ∀ i j : Fin (n + 1), i ≠ 0 → ∀ m,
      h.names (sys.localPathAt i "reader.txt") = some m →
        h.names (sys.localPathAt j "guest.txt") ≠ some m) (D : List UInt8) :
    Stored D
      (fun i => ((PrivateWorld.start sys sharedFiles (n + 1) h).contents i "reader.txt").getD [])
      (fun _ => .testOpen) (PrivateWorld.start sys sharedFiles (n + 1) h) where
  named := by
    refine ⟨fun i name j name' hid => ?_, fun i hi j id hreader hguest => ?_⟩
    · rcases eq_of_start hid with ⟨m, -, hm⟩ | heq
      · cases hm
      · cases heq
        exact ⟨rfl, rfl⟩
    · rcases eq_of_start hreader with ⟨m, hm, rfl⟩ | rfl
      · rcases eq_of_start hguest with ⟨m', hm', heq⟩ | heq
        · cases heq
          exact hapart i j hi m hm hm'
        · cases heq
      · rcases eq_of_start hguest with ⟨m', -, heq⟩ | heq
        · cases heq
        · injection heq with _ hname
          exact absurd hname (by decide)
  text _ _ := .inl rfl
  stored _ _ hstores := by cases hstores
  file _ := ⟨nofun, nofun, le_rfl, le_rfl⟩

/-- The run in which the writer reads. -/
theorem WriterReads.run {World : Type} {T : Transducer World (FileInput (n + 1)) (Option Answer)}
    {world : World} {s t : DefaultGuests n World} (hreads : WriterReads T layout world tr s t) :
    (defaultSystem T layout world).Run (fun _ _ => True) tr s := by
  rw [WriterReads, Fin.zero_eta] at hreads
  obtain ⟨tr₁, tr₂, fd, memory, address, e, u, hrun, -, hs, hpath, rfl⟩ := hreads
  have hstep : (defaultSystem T layout world).step t (.file 0 memory address) = some (e, u) := hs
  exact (hrun.step trivial hstep).trans hpath

/-- The writer's read is the same step on a file layer that answers alike. -/
theorem WriterReads.simulate {World World' : Type}
    {T : Transducer World (FileInput (n + 1)) (Option Answer)}
    {T' : Transducer World' (FileInput (n + 1)) (Option Answer)} {R : World → World' → Prop}
    (hstep : ∀ w w' input, R w w' →
      (T.step w input).1 = (T'.step w' input).1 ∧ R (T.step w input).2 (T'.step w' input).2)
    {world : World} {world' : World'} (hworld : R world world')
    {s t : DefaultGuests n World} (hreads : WriterReads T layout world tr s t) :
    ∃ s' t', WriterReads T' layout world' tr s' t' ∧ DefaultGuests.Matches R s s' ∧
      DefaultGuests.Matches R t t' := by
  simp only [WriterReads, Fin.zero_eta] at hreads ⊢
  obtain ⟨tr₁, tr₂, fd, memory, address, e, u, hrun, hp, hs, hpath, rfl⟩ := hreads
  have hinit : DefaultGuests.Matches R (defaultSystem T layout world).init
      (defaultSystem T' layout world').init := ⟨rfl, hworld, rfl⟩
  obtain ⟨t', hrun', ht⟩ : ∃ t', (defaultSystem T' layout world').Run (fun _ _ => True) tr₁ t' ∧
      DefaultGuests.Matches R t t' := DefaultGuests.simulate hstep hinit hrun
  obtain ⟨u', hs', hu⟩ := ht.step hstep hs
  obtain ⟨s', hpath', hfinal⟩ : ∃ s', (defaultSystem T' layout world').Path (fun _ _ => True) u'
      tr₂ s' ∧ DefaultGuests.Matches R s s' := DefaultGuests.simulate hstep hu hpath
  exact ⟨s', t', ⟨tr₁, tr₂, fd, memory, address, e, u', hrun', by rw [ht.programs, hp], hs',
    hpath', rfl⟩, hfinal, ht⟩

/-- Nothing stands behind the first bytes when what stood there was no longer. -/
theorem append_drop_eq_iff (D old : List UInt8) :
    D ++ old.drop D.length = D ↔ old.length ≤ D.length := by
  rw [List.append_right_eq_self, List.drop_eq_nil_iff]

/-- What the readers are left with, for a read of the writer that finds `held`: its first bytes,
up to the capacity of the buffer, and behind them what their files held before. -/
theorem stored_of_writerReads (canonical : String → Option HostPath) (paths : List String)
    (hshared : configureSharedFiles canonical h [] paths = .ok sharedFiles)
    (hκ : sys.kernel.Faultless) (hout : OutsideVmFiles sys sharedFiles (n + 1) h)
    (hapart : ∀ i j : Fin (n + 1), i ≠ 0 → ∀ m,
      h.names (sys.localPathAt i "reader.txt") = some m →
        h.names (sys.localPathAt j "guest.txt") ≠ some m)
    (hfinished : ∀ i, (s.system.vms i).status = .finished true)
    (hreads : WriterReads (fileLayer sys sharedFiles) layout (FileWorld.start h) tr s t) :
    ∃ held, contentsOf sys sharedFiles t.world.host (0 : Fin (n + 1)) "guest.txt" = some held ∧
      ∀ i : Fin (n + 1), i ≠ 0 → contentsOf sys sharedFiles s.world.host i "reader.txt" =
        some (held.take bufferSize ++
          ((contentsOf sys sharedFiles h i "reader.txt").getD []).drop
            (held.take bufferSize).length) := by
  have hshows := Shows.start (configured_of_ok .nil hshared).named hout
  have hstart : Refines sys sharedFiles h.nextIno (FileWorld.start h)
      (PrivateWorld.start sys sharedFiles (n + 1) h) := .start hshows (fun _ _ => rfl) fun _ => rfl
  have hstep := fun (w : FileWorld (n + 1)) (a : PrivateWorld (n + 1)) input
    (hr : Refines sys sharedFiles h.nextIno w a) => hr.step hκ input
  obtain ⟨s', t', hreads', hs, ht⟩ := hreads.simulate hstep hstart
  obtain ⟨held, hheld, hreaders⟩ := contents_of_finished (Stored.start hapart) hreads'.run
    (fun i => by rw [hs.system, hfinished i]) hreads'
  refine ⟨held, by rw [ht.world.contentsOf, hheld], fun i hi => ?_⟩
  have hold : contentsOf sys sharedFiles h i "reader.txt" =
      (PrivateWorld.start sys sharedFiles (n + 1) h).contents i "reader.txt" :=
    hshows.contentsOf i "reader.txt"
  rw [hs.world.contentsOf, hreaders i hi, hold]

/-- **The default guests end to end.** When all VMs have ended successfully, the writer has
read `guest.txt`. For every read of it, with `held` in the file: a reader finds in its
`reader.txt` the first bytes of `held`, up to the capacity of the buffer, and nothing else, if
and only if it would have found no longer `reader.txt` at the start.

No host call fails without cause, the originals of the shared files lie outside the directories
of the VMs, and no `reader.txt` is a hard link to a `guest.txt`. -/
theorem readerFile_iff (canonical : String → Option HostPath) (paths : List String)
    (sharedFiles : List (String × HostPath)) (h : Host HostPath)
    (hshared : configureSharedFiles canonical h [] paths = .ok sharedFiles) (n : ℕ)
    (sys : HostSystem) (hκ : sys.kernel.Faultless)
    (hout : OutsideVmFiles sys sharedFiles (n + 1) h)
    (hapart : ∀ i j : Fin (n + 1), i ≠ 0 → ∀ m,
      h.names (sys.localPathAt i "reader.txt") = some m →
        h.names (sys.localPathAt j "guest.txt") ≠ some m)
    (layout : Fin (n + 1) → RunLayout) (tr : List (DefaultEvent n))
    (s : DefaultGuests n (FileWorld (n + 1)))
    (hrun : (defaultSystem (fileLayer sys sharedFiles) layout (FileWorld.start h)).Run
      (fun _ _ => True) tr s)
    (hfinished : ∀ i, (s.system.vms i).status = .finished true) :
    (∃ t, WriterReads (fileLayer sys sharedFiles) layout (FileWorld.start h) tr s t) ∧
    ∀ t, WriterReads (fileLayer sys sharedFiles) layout (FileWorld.start h) tr s t →
      ∃ held, contentsOf sys sharedFiles t.world.host (0 : Fin (n + 1)) "guest.txt" = some held ∧
        ∀ i : Fin (n + 1), i ≠ 0 →
          (contentsOf sys sharedFiles s.world.host i "reader.txt" = some (held.take bufferSize) ↔
            ∀ old, contentsOf sys sharedFiles h i "reader.txt" = some old →
              old.length ≤ min bufferSize held.length) := by
  constructor
  · have hhalted := DefaultGuests.halted_of_run hrun
    obtain hearly | hreads := exists_writerReads hrun (hhalted.noFailure hfinished)
    · obtain ⟨writer, hdone⟩ := hhalted 0 (.inr (hfinished 0))
      rw [hdone] at hearly
      cases hearly
    · exact hreads
  · intro t hreads
    obtain ⟨held, hheld, hreaders⟩ := stored_of_writerReads canonical paths hshared hκ hout hapart
      hfinished hreads
    refine ⟨held, hheld, fun i hi => ?_⟩
    rw [hreaders i hi, Option.some.injEq, append_drop_eq_iff, List.length_take]
    cases contentsOf sys sharedFiles h i "reader.txt" with
    | none => simp
    | some old => simp

end Main

end Host

/-! ### A file left by an earlier run -/

/-- The thread has ended with `completedSuccessfully` set. -/
def ThreadStatus.succeeded : ThreadStatus → Bool
  | .finished success => success
  | _ => false

theorem ThreadStatus.succeeded_iff {status : ThreadStatus} :
    status.succeeded = true ↔ status = .finished true := by
  cases status <;> simp [succeeded]

/-- The descriptor of a writer that reads next. -/
def DefaultProgram.reading : DefaultProgram → Option ℤ
  | readSource fd => some fd
  | _ => none

theorem DefaultProgram.reading_eq_some {p : DefaultProgram} {fd : ℤ} (h : p.reading = some fd) :
    p = .readSource fd := by
  cases p with
  | readSource fd' => rw [Option.some.inj h]
  | _ => cases h

/-- Memory with `bytes` at address one. -/
def memoryAtOne (bytes : List UInt8) : GuestMemory :=
  memoryOf 1024 (0 :: bytes)

/-- Memory with the path `guest.txt` at address one. -/
def memoryGuestFile : GuestMemory :=
  memoryAtOne [103, 117, 101, 115, 116, 46, 116, 120, 116, 0]

/-- Memory with the path `reader.txt` at address one. -/
def memoryReaderFile : GuestMemory :=
  memoryAtOne [114, 101, 97, 100, 101, 114, 46, 116, 120, 116, 0]

/-- The boot test of a VM whose `guest.txt` can be opened. -/
def bootTest (i : Fin 2) : List (DefaultMove 1) :=
  .file i memoryGuestFile 1 :: List.replicate 4 (.file i (memoryAtOne testMessage) 1)

/-- A writer and a reader, until the writer reads `guest.txt`. -/
def untilRead : List (DefaultMove 1) :=
  bootTest writerVm ++ bootTest readerVm ++
    [.issue writerVm, .issue readerVm, .file writerVm memoryGuestFile 1]

/-- The rest of their run, with the 15 bytes of the boot test in `guest.txt`. -/
def afterRead : List (DefaultMove 1) :=
  .file writerVm memoryGuestFile 1 :: List.replicate 16 (.issue writerVm) ++
    List.replicate 17 (.issue readerVm) ++
      [.issue writerVm, .file readerVm memoryReaderFile 1, .file readerVm memoryReaderFile 1,
        .file readerVm (memoryAtOne testMessage) 1, .file readerVm memoryReaderFile 1,
        .halt writerVm, .halt readerVm, .finish writerVm, .finish readerVm]

/-- A host on which an earlier run has left a `reader.txt` of VM 1. -/
def leftHost (old : List UInt8) : Host HostPath :=
  oneFileHost ["root", "vm_files", "vm_1", "reader.txt"] (.made old)

/-- Two default guests on such a host, without shared files. -/
def leftSystem (old : List UInt8) :
    Machine (DefaultGuests 1 (FileWorld 2)) (DefaultMove 1) (DefaultEvent 1) :=
  defaultSystem (fileLayer (plainSystem fun _ => .completes) []) (fun _ => .smallest)
    (FileWorld.start (leftHost old))

/-- What the run comes to: whether the read is the writer's, how the threads end, what
`guest.txt` holds at the read and what `reader.txt` holds in the end. -/
def leftRun (old : List UInt8) :
    Option ((Option ℤ × Bool × Bool) × Option (List UInt8) × Option (List UInt8)) :=
  ((leftSystem old).exec (fun _ _ => True) (leftSystem old).init untilRead).bind fun p =>
    ((leftSystem old).step p.2 (.file writerVm memoryGuestFile 1)).bind fun q =>
      ((leftSystem old).exec (fun _ _ => True) q.2 afterRead).map fun r =>
        (((p.2.programs writerVm).reading, (r.2.system.vms writerVm).status.succeeded,
            (r.2.system.vms readerVm).status.succeeded),
          contentsOf (plainSystem fun _ => .completes) [] p.2.world.host writerVm "guest.txt",
          contentsOf (plainSystem fun _ => .completes) [] r.2.world.host readerVm "reader.txt")

/-- A run of two default guests that end successfully. -/
theorem exists_leftRun {old : List UInt8} {fd : ℤ} {held stored : Option (List UInt8)}
    (h : leftRun old = some ((some fd, true, true), held, stored)) :
    ∃ tr s t, (leftSystem old).Run (fun _ _ => True) tr s ∧
      (∀ i, (s.system.vms i).status = .finished true) ∧
      WriterReads (fileLayer (plainSystem fun _ => .completes) []) (fun _ => .smallest)
        (FileWorld.start (leftHost old)) tr s t ∧
      contentsOf (plainSystem fun _ => .completes) [] t.world.host (0 : Fin 2) "guest.txt" = held ∧
      contentsOf (plainSystem fun _ => .completes) [] s.world.host (1 : Fin 2) "reader.txt" =
        stored := by
  obtain ⟨⟨tr₁, t⟩, hbefore, h⟩ := Option.bind_eq_some_iff.mp h
  obtain ⟨⟨e, u⟩, hread, h⟩ := Option.bind_eq_some_iff.mp h
  obtain ⟨⟨tr₂, s⟩, hafter, h⟩ := Option.map_eq_some_iff.mp h
  simp only [Prod.mk.injEq] at h
  obtain ⟨⟨hreading, hwriter, hreader⟩, hheld, hstored⟩ := h
  have hreads : WriterReads (fileLayer (plainSystem fun _ => .completes) [])
      (fun _ => .smallest) (FileWorld.start (leftHost old)) (tr₂ ++ e :: tr₁) s t :=
    ⟨tr₁, tr₂, fd, _, _, e, u, Machine.path_of_exec hbefore,
      DefaultProgram.reading_eq_some hreading, hread, Machine.path_of_exec hafter, rfl⟩
  refine ⟨_, s, t, hreads.run, fun i => ?_, hreads, hheld, hstored⟩
  match i with
  | 0 => exact ThreadStatus.succeeded_iff.mp hwriter
  | 1 => exact ThreadStatus.succeeded_iff.mp hreader

/-- The result applies to a `reader.txt` of three bytes: it is overwritten. -/
theorem readerFile_iff_threeBytes :
    ∃ tr s t, (leftSystem [1, 2, 3]).Run (fun _ _ => True) tr s ∧
      WriterReads (fileLayer (plainSystem fun _ => .completes) []) (fun _ => .smallest)
        (FileWorld.start (leftHost [1, 2, 3])) tr s t ∧
      contentsOf (plainSystem fun _ => .completes) [] s.world.host (1 : Fin 2) "reader.txt" =
        some testMessage := by
  have hrun : leftRun [1, 2, 3] =
      some ((some 4, true, true), some testMessage, some testMessage) := by decide +kernel
  obtain ⟨tr, s, t, hrun, hfinished, hreads, hheld, -⟩ := exists_leftRun hrun
  refine ⟨tr, s, t, hrun, hreads, ?_⟩
  have hguest : ∀ j : Fin 2, (leftHost [1, 2, 3]).names
      ((plainSystem fun _ => .completes).localPathAt j "guest.txt") = none := by
    decide +kernel
  obtain ⟨held, hheld', hreaders⟩ := (readerFile_iff (fun _ => none) [] [] (leftHost [1, 2, 3]) rfl
    1 (plainSystem fun _ => .completes) (fun _ => rfl) nofun
    (fun i j _ m _ => by rw [hguest]; exact nofun) (fun _ => .smallest) tr s hrun hfinished).2 t
    hreads
  obtain rfl : testMessage = held := Option.some.inj (hheld.symm.trans hheld')
  refine (hreaders 1 (by decide)).mpr fun old hold => ?_
  obtain rfl : [1, 2, 3] = old := Option.some.inj hold
  decide

/-- A longer file of an earlier run keeps its end. -/
theorem readerFile_false :
    ¬∀ (n : ℕ) (sys : HostSystem) (h : Host HostPath) (layout : Fin (n + 1) → RunLayout)
      (tr : List (DefaultEvent n)) (s t : DefaultGuests n (FileWorld (n + 1))),
      sys.kernel.Faultless →
      (defaultSystem (fileLayer sys []) layout (FileWorld.start h)).Run (fun _ _ => True) tr s →
      (∀ i, (s.system.vms i).status = .finished true) →
      WriterReads (fileLayer sys []) layout (FileWorld.start h) tr s t →
      ∀ held, contentsOf sys [] t.world.host (0 : Fin (n + 1)) "guest.txt" = some held →
        ∀ i : Fin (n + 1), i ≠ 0 →
          contentsOf sys [] s.world.host i "reader.txt" = some (held.take bufferSize) := by
  intro hall
  have hrun : leftRun (List.replicate 20 9) = some ((some 4, true, true), some testMessage,
      some (testMessage ++ List.replicate 5 9)) := by decide +kernel
  obtain ⟨tr, s, t, hrun, hfinished, hreads, hheld, hstored⟩ := exists_leftRun hrun
  have hreader := hall 1 _ _ _ tr s t (fun _ => rfl) hrun hfinished hreads _ hheld 1 (by decide)
  rw [hstored] at hreader
  exact absurd hreader (by decide)

end KvmHypervisor
