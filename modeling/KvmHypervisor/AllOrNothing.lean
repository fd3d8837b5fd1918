import KvmHypervisor.Descriptors

/-!
# The Switch Is All or Nothing

The result on `prepareFileForWrite` for a shared entry, from the case lemma of
`PrivateCopies`. A switch makes a directory, a copy, a permission, and for every shared entry
of the name an `lseek`, an `open` and another `lseek`; any of these may fail, and the table is
walked in any order.

A failed switch leaves table, positions and names as they were, a successful one has moved
every entry of the name. The descriptors of a table are its own (`Owned`), as they are in every
run.
-/

open Transitions

namespace KvmHypervisor

open PosixFiles

/-! ### The two outcomes -/

/-- Nothing was switched: the table, every position and every name are as before, and there is
no local file. -/
structure Unswitched (path : HostPath) (s : FileState) (h : Host HostPath) (s' : FileState)
    (h' : Host HostPath) : Prop where
  state : s' = s
  positions : ∀ fd, h'.descriptors.lookup fd = h.descriptors.lookup fd
  names : h'.names = h.names
  absent : h'.names path = none
  files : ∀ n < h.nextIno, h'.files n = h.files n

/-- Everything was switched: the private copy `m` at `path` has the bytes of the original `src`,
every shared entry of the name is on it, with the access of its flags and at its old position,
and every other entry is as before. -/
structure Switched (name : String) (path : HostPath) (src m : ℕ) (s : FileState)
    (h : Host HostPath) (s' : FileState) (h' : Host HostPath) : Prop where
  named : h'.names path = some m
  new : h.nextIno ≤ m
  bytes : (h'.files m).bytes = (h.files src).bytes
  files : ∀ n < h.nextIno, h'.files n = h.files n
  moved : ∀ d file, s.openFiles.lookup d = some file → file.shared = true → file.name = name →
    ∃ fd e, s'.openFiles.lookup d = some (file.moved fd path) ∧
      h.descriptors.lookup file.hostDescriptor = some e ∧
      h'.descriptors.lookup fd = some (reopenedDescription file m e.offset)
  others : ∀ d, isSharedEntry s.openFiles name d = false →
    s'.openFiles.lookup d = s.openFiles.lookup d ∧
      ∀ file, s.openFiles.lookup d = some file →
        h'.descriptors.lookup file.hostDescriptor = h.descriptors.lookup file.hostDescriptor

variable {sys : HostSystem} {context : GuestContext} {file : OpenFile} {s s' : FileState}
variable {h h' : Host HostPath}

/-- A discarded copy leaves nothing behind where nothing was. -/
theorem Discarded.unswitched {path : HostPath} (hd : Discarded path h h')
    (habsent : h.names path = none) : Unswitched path s h s h' where
  state := rfl
  positions := hd.descriptors
  names := by rw [hd.names, ← habsent, Function.update_eq_self]
  absent := by rw [hd.names, Function.update_self]
  files := hd.files

/-- A completed move has switched everything. -/
theorem Moved.switched {name : String} {path : HostPath} {src : ℕ} {h₁ : Host HostPath}
    {fd : ℤ → ℕ} (howned : Owned s h) (hc : CopiedTo path src h h₁)
    (hm : Moved s s' name path h.nextIno fd h₁ h') :
    Switched name path src h.nextIno s h s' h' where
  named := by rw [hm.names, hc.names, Function.update_self]
  new := le_rfl
  bytes := by simp [hm.files, hc.files]
  files n hn := by rw [hm.files, hc.files, Function.update_of_ne hn.ne]
  moved d file hfile hshared hname := by
    have hentry : isSharedEntry s.openFiles name d = true :=
      isSharedEntry_iff.mpr ⟨file, hfile, hshared, hname⟩
    obtain ⟨e, he⟩ := howned.isOpen d file hfile
    have hopen : EntriesOpen s h₁ := by
      rw [EntriesOpen, hc.descriptors]
      exact howned.isOpen
    refine ⟨fd d, e, ?_, he, hm.moved hopen d file e hentry hfile (by rw [hc.descriptors, he])⟩
    rw [hm.table, if_pos hentry, hfile, Option.map_some]
  others d hd := by
    refine ⟨by rw [hm.table, if_neg (by rw [hd]; exact Bool.false_ne_true)], fun file hfile => ?_⟩
    obtain ⟨e, he⟩ := howned.isOpen d file hfile
    rw [he]
    have hcopied : h₁.descriptors.lookup file.hostDescriptor = some e := by rw [hc.descriptors, he]
    refine hm.kept file.hostDescriptor e hcopied fun d' file' hd' hfile' heq => ?_
    -- an entry with the same host descriptor would be this one
    obtain rfl := howned.inj d' d file' file hfile' hfile heq
    rw [hd] at hd'
    cases hd'

/-- The private copy is what later opens of the name find. -/
theorem resolveFile_of_named {name : String} {m : ℕ}
    (hnamed : h.names (sys.localPathOf context name) = some m)
    (hprobe : (sys.kernel.outcome h.calls).failed = false) :
    (resolveFile sys context name h).1 = ⟨sys.localPathOf context name, false⟩ := by
  rw [resolveFile, Host.existsAt, hprobe, hnamed]
  rfl

/-- In every run, whatever host calls fail, the descriptors of a table are its own. -/
theorem owned_of_run {n : ℕ} {sharedFiles : List (String × HostPath)}
    {tr : List (FileInput n × Option Answer)} {w : FileWorld n}
    (hrun : ((fileLayer sys sharedFiles).machine (FileWorld.start h)).Run (fun _ _ => True) tr w)
    (vm : Fin n) : Owned (w.states vm) w.host :=
  (accounted_of_run sys sharedFiles hrun).apart.owned vm

/-- A switch that nothing stands in the way of succeeds. -/
theorem prepareFileForWrite_of_canSwitch (hcan : CanSwitch sys context file s h) :
    (prepareFileForWrite sys context file s h).1 = true := by
  generalize hprepare : prepareFileForWrite sys context file s h = r
  obtain ⟨ok, s', h'⟩ := r
  cases prepared_of_prepareFileForWrite sys context hprepare with
  | own | copied => rfl
  | noDirectory _ hfail =>
      rw [hcan.faultless] at hfail
      cases hfail
  | discarded _ _ _ hno => exact absurd hcan hno

/-! ### Main result -/

/-- **All or nothing.** Preparing a write to a shared entry whose name has no local file,
whatever host calls fail: if it returns `false`, nothing was switched and no local file
remains. If it returns `true`, every shared entry of the name was switched to a new private
copy of the original, and later opens of the name find this copy. -/
theorem prepareFileForWrite_all_or_nothing (sys : HostSystem) (context : GuestContext)
    {s s' : FileState} {h h' : Host HostPath} {file : OpenFile} {ok : Bool}
    (howned : Owned s h) (hshared : file.shared = true)
    (habsent : h.names (sys.localPathOf context file.name) = none)
    (hp : prepareFileForWrite sys context file s h = (ok, s', h')) :
    (ok = false → Unswitched (sys.localPathOf context file.name) s h s' h') ∧
      (ok = true → ∃ src m, h.names file.hostPath = some src ∧
        Switched file.name (sys.localPathOf context file.name) src m s h s' h' ∧
        ∀ later : Host HostPath, later.names (sys.localPathOf context file.name) = some m →
          (sys.kernel.outcome later.calls).failed = false →
          (resolveFile sys context file.name later).1 =
            ⟨sys.localPathOf context file.name, false⟩) := by
  have hprepared := prepared_of_prepareFileForWrite sys context hp
  cases hprepared with
  | own hown =>
      rw [hshared] at hown
      cases hown
  | noDirectory =>
      exact ⟨fun _ => ⟨rfl, fun _ => rfl, rfl, habsent, fun _ _ => rfl⟩, nofun⟩
  | discarded _ _ hd _ => exact ⟨fun _ => hd.unswitched habsent, nofun⟩
  | copied _ hsrc hc hm =>
      refine ⟨nofun, fun _ => ⟨_, _, hsrc, hm.switched howned hc, ?_⟩⟩
      exact fun later hnamed hprobe => resolveFile_of_named hnamed hprobe

/-- A VM opens the shared file `a` twice, for both and for reading. -/
def openTwice : List (GuestCall 1) :=
  [⟨soleVm, memoryA, openRequest fileOpenReadWrite⟩, ⟨soleVm, memoryA, openRequest fileOpenRead⟩]

/-- The entry of the first open. -/
def firstEntry : OpenFile :=
  ⟨1, fileOpenReadWrite, "a", ["srv", "a"], true⟩

/-- A switch after the two opens. -/
theorem exists_switch (outcome : ℕ → PosixFiles.Outcome) (ok : Bool)
    (hexec : (((fileLayer (plainSystem outcome) [("a", ["srv", "a"])]).machine
        (FileWorld.start sharedA)).exec (fun _ _ => True) (FileWorld.start sharedA)
        (openTwice.map .request)).map (fun p =>
          ((p.2.states 0).openFiles.lookup 3,
            p.2.host.names ((plainSystem outcome).localPathOf contextA firstEntry.name),
            (prepareFileForWrite (plainSystem outcome) contextA firstEntry (p.2.states 0)
              p.2.host).1)) = some (some firstEntry, none, ok)) :
    ∃ w : FileWorld 1, ∃ s' h', Owned (w.states 0) w.host ∧
      (w.states 0).openFiles.lookup 3 = some firstEntry ∧
      w.host.names ((plainSystem outcome).localPathOf contextA firstEntry.name) = none ∧
      prepareFileForWrite (plainSystem outcome) contextA firstEntry (w.states 0) w.host =
        (ok, s', h') := by
  obtain ⟨tr, w, hrun, hobs⟩ := Machine.exists_of_exec hexec
  simp only [Prod.mk.injEq] at hobs
  obtain ⟨hentry, habsent, hok⟩ := hobs
  exact ⟨w, _, _, owned_of_run hrun 0, hentry, habsent, Prod.ext hok rfl⟩

/-- The result applies to a switch in which the last seek of the second entry fails, and to one
in which nothing fails. -/
theorem prepareFileForWrite_all_or_nothing_openTwice :
    (∃ sys, ∃ w : FileWorld 1, ∃ s' h', (w.states 0).openFiles.lookup 3 = some firstEntry ∧
      prepareFileForWrite sys contextA firstEntry (w.states 0) w.host = (false, s', h') ∧
      Unswitched (sys.localPathOf contextA "a") (w.states 0) w.host s' h') ∧
    ∃ sys, ∃ w : FileWorld 1, ∃ s' h' src m,
      (w.states 0).openFiles.lookup 3 = some firstEntry ∧
      prepareFileForWrite sys contextA firstEntry (w.states 0) w.host = (true, s', h') ∧
      Switched "a" (sys.localPathOf contextA "a") src m (w.states 0) w.host s' h' := by
  constructor
  · obtain ⟨w, s', h', howned, hentry, habsent, hp⟩ := exists_switch
      (fun k => if k = 12 then .fails none else .completes) false (by decide +kernel)
    exact ⟨_, w, s', h', hentry, hp,
      (prepareFileForWrite_all_or_nothing _ _ howned rfl habsent hp).1 rfl⟩
  · obtain ⟨w, s', h', howned, hentry, habsent, hp⟩ := exists_switch
      (fun _ => .completes) true (by decide +kernel)
    obtain ⟨src, m, -, hswitched, -⟩ :=
      (prepareFileForWrite_all_or_nothing _ _ howned rfl habsent hp).2 rfl
    exact ⟨_, w, s', h', src, m, hentry, hp, hswitched⟩

end KvmHypervisor
