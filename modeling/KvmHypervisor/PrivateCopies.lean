import KvmHypervisor.FileIo

/-!
# The Switch to a Private Copy

What `prepareFileForWrite` can do, whatever host calls fail on the way. The two loops of
`reopenSharedFiles` are summarised by `Reopened` (the descriptors opened so far, on top of
the host the loop started from) and by `Moved` (the table after the entries were moved).
From these, one case lemma says everything about the whole step.

## Main results

* `reopenEach_spec`: the first loop reopens exactly the shared entries of the name, or
  leaves the host as it was.
* `prepareFileForWrite_cases`: the step fails and changes at most the local name, or it
  moves every shared entry of the name to a new private copy.
-/

namespace KvmHypervisor

open PosixFiles

/-! ### The entries of a shared name -/

/-- The descriptors whose entry is shared under a name. -/
def isSharedEntry (openFiles : Finmap (fun _ : ℤ => OpenFile)) (name : String) (d : ℤ) : Bool :=
  (openFiles.lookup d).any fun file => file.shared && file.name == name

/-- A shared entry of a name, looked up. -/
theorem isSharedEntry_iff {openFiles : Finmap (fun _ : ℤ => OpenFile)} {name : String} {d : ℤ} :
    isSharedEntry openFiles name d = true ↔
      ∃ file, openFiles.lookup d = some file ∧ file.shared = true ∧ file.name = name := by
  rw [isSharedEntry]
  cases openFiles.lookup d <;> simp

/-! ### Closing what was reopened -/

/-- Closing a list of descriptors frees exactly those. -/
theorem lookup_closeReopenedFiles (reopened : List (ℤ × ℕ)) (h : Host HostPath) (fd : ℕ) :
    (closeReopenedFiles reopened h).descriptors.lookup fd =
      if fd ∈ reopened.map Prod.snd then none else h.descriptors.lookup fd := by
  induction reopened generalizing h with
  | nil => simp [closeReopenedFiles]
  | cons x rest ih =>
      rw [closeReopenedFiles, List.foldl_cons, ← closeReopenedFiles, ih, Host.close,
        Host.lookup_release]
      by_cases hrest : fd ∈ rest.map Prod.snd <;> by_cases hx : fd = x.2 <;>
        simp_all

/-- Closing descriptors touches neither names nor files. -/
theorem closeReopenedFiles_frame (reopened : List (ℤ × ℕ)) (h : Host HostPath) :
    (closeReopenedFiles reopened h).names = h.names ∧
      (closeReopenedFiles reopened h).files = h.files ∧
      (closeReopenedFiles reopened h).nextIno = h.nextIno := by
  induction reopened generalizing h with
  | nil => exact ⟨rfl, rfl, rfl⟩
  | cons x rest ih => exact ih (h.close x.2).2

/-- Closing distinct open descriptors. -/
theorem closeReopenedFiles_closes {P : ℕ → Prop} {reopened : List (ℤ × ℕ)}
    {h : Host HostPath} (hnodup : (reopened.map Prod.snd).Nodup)
    (hopen : ∀ x ∈ reopened, (h.descriptors.lookup x.2).isSome) (hP : ∀ x ∈ reopened, P x.2) :
    h.Closes P (closeReopenedFiles reopened h) := by
  induction reopened generalizing h with
  | nil => exact .of_eq rfl
  | cons x rest ih =>
      rw [List.map_cons, List.nodup_cons] at hnodup
      have hfirst : h.Closes P (h.release x.2) :=
        .release (hopen x List.mem_cons_self) (hP x List.mem_cons_self)
      refine hfirst.trans (ih hnodup.2 ?_ fun y hy => hP y (List.mem_cons_of_mem x hy))
      intro y hy
      have hne : y.2 ≠ x.2 := fun heq => hnodup.1 (List.mem_map.mpr ⟨y, hy, heq⟩)
      rw [Host.lookup_release, if_neg hne]
      exact hopen y (List.mem_cons_of_mem x hy)

/-! ### The first loop -/

/-- The description a reopened entry gets: the private copy, with the access its flags ask
for. -/
def reopenedDescription (file : OpenFile) (m offset : ℕ) : Description :=
  ⟨m, offset, (toHostOpenFlags file.flags).readable, (toHostOpenFlags file.flags).writable⟩

/-- The host `h` is `h₀` with one more descriptor on the file `m` for each reopened entry,
at the offset of the entry's old descriptor. -/
structure Reopened (h₀ : Host HostPath) (openFiles : Finmap (fun _ : ℤ => OpenFile))
    (m : ℕ) (reopened : List (ℤ × ℕ)) (h : Host HostPath) : Prop where
  names : h.names = h₀.names
  files : h.files = h₀.files
  nextIno : h.nextIno = h₀.nextIno
  closes : h.closes = h₀.closes
  fresh : ∀ x ∈ reopened, h₀.descriptors.lookup x.2 = none
  nodup : (reopened.map Prod.snd).Nodup
  opened : ∀ x ∈ reopened, ∃ file offset, openFiles.lookup x.1 = some file ∧
    h.descriptors.lookup x.2 = some (reopenedDescription file m offset) ∧
    ∀ d, h₀.descriptors.lookup file.hostDescriptor = some d → offset = d.offset
  permits : ∀ x ∈ reopened, ∀ file, openFiles.lookup x.1 = some file →
    (h₀.files m).permits (toHostOpenFlags file.flags) = true
  others : ∀ fd, fd ∉ reopened.map Prod.snd →
    h.descriptors.lookup fd = h₀.descriptors.lookup fd

section Loop

variable {h₀ h h' : Host HostPath} {openFiles : Finmap (fun _ : ℤ => OpenFile)}
variable {m : ℕ} {reopened : List (ℤ × ℕ)}

/-- Before the loop nothing is reopened. -/
theorem Reopened.start (h₀ : Host HostPath) (openFiles : Finmap (fun _ : ℤ => OpenFile))
    (m : ℕ) : Reopened h₀ openFiles m [] h₀ where
  names := rfl
  files := rfl
  nextIno := rfl
  closes := rfl
  fresh := by simp
  nodup := List.nodup_nil
  opened := by simp
  permits := by simp
  others _ _ := rfl

/-- Calls without effect in between do not matter. -/
theorem Reopened.of_unchanged (hR : Reopened h₀ openFiles m reopened h)
    (hu : h.Unchanged h') : Reopened h₀ openFiles m reopened h' where
  names := hu.names.trans hR.names
  files := hu.files.trans hR.files
  nextIno := hu.nextIno.trans hR.nextIno
  closes := hu.closes.trans hR.closes
  fresh := hR.fresh
  nodup := hR.nodup
  opened x hx := by
    obtain ⟨file, offset, hfile, hfd, hoffset⟩ := hR.opened x hx
    exact ⟨file, offset, hfile, (hu.descriptors _).trans hfd, hoffset⟩
  permits := hR.permits
  others fd hfd := (hu.descriptors fd).trans (hR.others fd hfd)

/-- Closing everything reopened after a failed round leads back to the host before the
loop. -/
theorem Reopened.closeAll (hR : Reopened h₀ openFiles m reopened h) (hr : h.Restored h') :
    h₀.Restored (closeReopenedFiles reopened h') where
  names := (closeReopenedFiles_frame reopened h').1.trans (hr.names.trans hR.names)
  files := (closeReopenedFiles_frame reopened h').2.1.trans (hr.files.trans hR.files)
  nextIno := (closeReopenedFiles_frame reopened h').2.2.trans (hr.nextIno.trans hR.nextIno)
  descriptors fd := by
    rw [lookup_closeReopenedFiles]
    split_ifs with hfd
    · obtain ⟨x, hx, rfl⟩ := List.mem_map.mp hfd
      exact (hR.fresh x hx).symm
    · exact (hr.descriptors fd).trans (hR.others fd hfd)
  closes := by
    have hround : h₀.Closes (fun fd => h₀.descriptors.lookup fd = none) h' := by
      refine (Host.Closes.of_eq hR.closes).trans (hr.closes.mono fun fd hfd => ?_)
      rwa [← hR.others fd]
      intro hmem
      obtain ⟨x, hx, rfl⟩ := List.mem_map.mp hmem
      obtain ⟨_, _, -, hx', -⟩ := hR.opened x hx
      rw [hfd] at hx'
      cases hx'
    refine hround.trans (closeReopenedFiles_closes hR.nodup ?_ hR.fresh)
    intro x hx
    obtain ⟨_, _, -, hx', -⟩ := hR.opened x hx
    rw [hr.descriptors, hx']
    rfl

/-- One more reopened entry: a fresh descriptor on the copy, moved to the old offset. -/
theorem Reopened.snoc (hR : Reopened h₀ openFiles m reopened h) {d : ℤ} {file : OpenFile}
    {fd offset : ℕ} (hfile : openFiles.lookup d = some file)
    (hpermits : (h.files m).permits (toHostOpenFlags file.flags) = true)
    (hfresh : h.descriptors.lookup fd = none)
    (hoffset : ∀ e, h.descriptors.lookup file.hostDescriptor = some e → offset = e.offset)
    (hnames : h'.names = h.names) (hfiles : h'.files = h.files)
    (hnext : h'.nextIno = h.nextIno) (hcloses : h'.closes = h.closes)
    (hlookup : ∀ x, h'.descriptors.lookup x =
      if x = fd then some (reopenedDescription file m offset) else h.descriptors.lookup x) :
    Reopened h₀ openFiles m (reopened ++ [(d, fd)]) h' := by
  have hnew : fd ∉ reopened.map Prod.snd := by
    intro hmem
    obtain ⟨x, hx, rfl⟩ := List.mem_map.mp hmem
    obtain ⟨_, _, -, hx', -⟩ := hR.opened x hx
    rw [hfresh] at hx'
    cases hx'
  refine ⟨hnames.trans hR.names, hfiles.trans hR.files, hnext.trans hR.nextIno,
    hcloses.trans hR.closes, ?_, ?_, ?_, ?_, ?_⟩
  · intro x hx
    rcases List.mem_append.mp hx with hx | hx
    · exact hR.fresh x hx
    · obtain rfl := List.mem_singleton.mp hx
      rw [← hR.others fd hnew]
      exact hfresh
  · rw [List.map_append, List.nodup_append]
    refine ⟨hR.nodup, List.nodup_singleton _, ?_⟩
    rintro y hy z hz rfl
    obtain rfl : y = fd := by simpa using hz
    exact hnew hy
  · intro x hx
    rcases List.mem_append.mp hx with hx | hx
    · obtain ⟨file', offset', hfile', hfd', hoffset'⟩ := hR.opened x hx
      have hne : x.2 ≠ fd := fun heq => hnew (heq ▸ List.mem_map_of_mem hx)
      exact ⟨file', offset', hfile', by rw [hlookup, if_neg hne, hfd'], hoffset'⟩
    · obtain rfl := List.mem_singleton.mp hx
      refine ⟨file, offset, hfile, by rw [hlookup, if_pos rfl], ?_⟩
      intro e he
      refine hoffset e ?_
      rw [hR.others _ ?_, he]
      intro hmem
      obtain ⟨y, hy, hy'⟩ := List.mem_map.mp hmem
      rw [← hy', hR.fresh y hy] at he
      cases he
  · intro x hx file' hfile'
    rcases List.mem_append.mp hx with hx | hx
    · exact hR.permits x hx file' hfile'
    · obtain rfl := List.mem_singleton.mp hx
      obtain rfl := Option.some.inj (hfile.symm.trans hfile')
      rw [← hR.files]
      exact hpermits
  · intro x hx
    rw [List.map_append, List.mem_append, not_or] at hx
    have hne : x ≠ fd := by simpa using hx.2
    rw [hlookup, if_neg hne]
    exact hR.others x hx.1

end Loop

variable (sys : HostSystem)

/-- What makes the loops succeed: no call fails without cause, the copy permits what the shared
entries of the name need, and the entries are open. -/
structure CanReopen (m : ℕ) (openFiles : Finmap (fun _ : ℤ => OpenFile)) (name : String)
    (h : Host HostPath) : Prop where
  faultless : sys.kernel.Faultless
  permits : ∀ d file, isSharedEntry openFiles name d → openFiles.lookup d = some file →
    (h.files m).permits (toHostOpenFlags file.flags) = true
  isOpen : ∀ d file, openFiles.lookup d = some file →
    ∃ e, h.descriptors.lookup file.hostDescriptor = some e

/-- One round of the loop on an open entry succeeds when no call fails without cause and the
copy permits what the flags of the entry ask for. -/
theorem reopenFile_isSome {path : HostPath} {m : ℕ} {h : Host HostPath}
    (hpath : h.names path = some m) {file : OpenFile} {e : Description}
    (hκ : sys.kernel.Faultless)
    (hpermits : (h.files m).permits (toHostOpenFlags file.flags) = true)
    (he : h.descriptors.lookup file.hostDescriptor = some e) :
    (reopenFile sys file path h).1.isSome := by
  have hcur : ¬ h.target 0 .cur e < 0 := by simp [Host.target]
  rw [reopenFile, Host.lseek_of_faultless hκ he, if_neg hcur]
  dsimp only
  generalize hh₁ : h.tick.reposition file.hostDescriptor (h.target 0 .cur e).toNat = h₁
  have hpath₁ : h₁.names path = some m := by rw [← hh₁]; exact hpath
  have hfiles₁ : h₁.files = h.files := by rw [← hh₁]; rfl
  rw [Host.openAt_of_faultless hκ hpath₁, hfiles₁, if_pos hpermits]
  dsimp only
  rw [Host.lseek_of_faultless hκ
    ((Host.lookup_grant (h := h₁.tick) hpath₁ _ _ _).trans (if_pos rfl)), if_neg]
  · rfl
  · simp [Host.target]

/-- One round of the loop fails without effect, or opens a fresh descriptor on the copy at
the offset of the old one. -/
theorem reopenFile_cases {path : HostPath} {m : ℕ} {h : Host HostPath}
    (hpath : h.names path = some m) (file : OpenFile) :
    (∃ h', reopenFile sys file path h = (none, h') ∧ h.Restored h') ∨
      ∃ fd h' e, reopenFile sys file path h = (some fd, h') ∧
        h.descriptors.lookup file.hostDescriptor = some e ∧
        h.descriptors.lookup fd = none ∧
        h'.names = h.names ∧ h'.files = h.files ∧ h'.nextIno = h.nextIno ∧
        h'.closes = h.closes ∧ (h.files m).permits (toHostOpenFlags file.flags) = true ∧
        ∀ x, h'.descriptors.lookup x =
          if x = fd then some (reopenedDescription file m e.offset)
          else h.descriptors.lookup x := by
  rw [reopenFile]
  rcases h.lseek_cases sys.kernel file.hostDescriptor 0 .cur with
    hseek | ⟨e, offset, he, hoffset, hseek⟩
  · rw [hseek]
    exact .inl ⟨_, rfl, (Host.Unchanged.tick h).restored⟩
  have hoffset : offset = e.offset := by
    simp only [Host.target, add_zero] at hoffset
    exact_mod_cast hoffset
  subst hoffset
  rw [hseek]
  dsimp only
  -- the first seek asks for the offset the description already has
  have hu : h.Unchanged (h.tick.reposition file.hostDescriptor e.offset) := by
    refine ⟨rfl, rfl, rfl, rfl, fun x => ?_⟩
    rw [Host.lookup_reposition (h := h.tick) he]
    split_ifs with hx
    · rw [hx, he]
    · rfl
  generalize h.tick.reposition file.hostDescriptor e.offset = h₁ at hu ⊢
  have hpath₁ : h₁.names path = some m := by rw [hu.names, hpath]
  rcases h₁.openAt_cases sys.kernel path (toHostOpenFlags file.flags) with
    hopen | ⟨fd, hfd, ⟨n, hn, hpermits, hopen⟩ | ⟨hn, -, -⟩⟩
  · rw [hopen]
    exact .inl ⟨_, rfl, (hu.trans (.tick h₁)).restored⟩
  · rw [hopen]
    dsimp only
    have hgrant := Host.lookup_grant (h := h₁.tick) hpath₁ fd
    generalize hh₂ : h₁.tick.grant fd path (toHostOpenFlags file.flags) = h₂
    have hlookup₂ : ∀ x, h₂.descriptors.lookup x =
        if x = fd then some (reopenedDescription file m 0) else h.descriptors.lookup x := by
      intro x
      rw [← hh₂, hgrant x]
      split_ifs
      · rfl
      · exact hu.descriptors x
    have hfresh : h.descriptors.lookup fd = none := by rw [← hu.descriptors, hfd]
    have hnames : h₂.names = h.names := by rw [← hh₂]; exact hu.names
    have hfiles : h₂.files = h.files := by rw [← hh₂]; exact hu.files
    have hnext : h₂.nextIno = h.nextIno := by rw [← hh₂]; exact hu.nextIno
    have hcloses : h₂.closes = h.closes := by rw [← hh₂]; exact hu.closes
    rcases h₂.lseek_cases sys.kernel fd e.offset .set with
      hset | ⟨e', position, he', hposition, hset⟩
    · rw [hset]
      refine .inl ⟨_, rfl, hnames, hfiles, hnext, fun x => ?_, ?_⟩
      · rw [Host.close, Host.lookup_release, Host.descriptors_tick, hlookup₂]
        split_ifs with hx
        · rw [hx, hfresh]
        · rfl
      · have htick : h.Closes (fun fd => h.descriptors.lookup fd = none) h₂.tick := .of_eq hcloses
        exact htick.trans (.release (by simp [hlookup₂]) hfresh)
    · rw [hset]
      obtain rfl := Option.some.inj (hpath₁.symm.trans hn)
      rw [hu.files] at hpermits
      refine .inr ⟨fd, _, e, rfl, he, hfresh, hnames, hfiles, hnext, hcloses, hpermits,
        fun x => ?_⟩
      obtain rfl : position = e.offset := by
        simp only [Host.target] at hposition
        exact_mod_cast hposition
      rw [Host.lookup_reposition (h := h₂.tick) he', Host.descriptors_tick, hlookup₂]
      rw [hlookup₂, if_pos rfl] at he'
      obtain rfl := Option.some.inj he'
      split_ifs
      · rfl
      · rfl
  · rw [hpath₁] at hn
    cases hn

/-- **The first loop.** It reopens exactly the shared entries of the name among those it
walks over, or it fails and leaves the host as it was before the loop. Induction on the
entries still to be walked over. -/
theorem reopenEach_spec {h₀ : Host HostPath} {openFiles : Finmap (fun _ : ℤ => OpenFile)}
    (name : String) {path : HostPath} {m : ℕ} (hpath : h₀.names path = some m)
    (ds : List ℤ) (reopened : List (ℤ × ℕ)) (h : Host HostPath)
    (hR : Reopened h₀ openFiles m reopened h) :
    (∃ h', reopenEach sys openFiles name path ds reopened h = (none, h') ∧
        h₀.Restored h' ∧ ¬ CanReopen sys m openFiles name h₀) ∨
      ∃ reopened' h', reopenEach sys openFiles name path ds reopened h = (some reopened', h') ∧
        Reopened h₀ openFiles m reopened' h' ∧
        reopened'.map Prod.fst =
          reopened.map Prod.fst ++ ds.filter (isSharedEntry openFiles name) := by
  induction ds generalizing reopened h with
  | nil => exact .inr ⟨reopened, h, rfl, hR, by simp⟩
  | cons d rest ih =>
      rw [reopenEach]
      cases hfile : openFiles.lookup d with
      | none =>
          have hskip : isSharedEntry openFiles name d = false := by simp [isSharedEntry, hfile]
          rw [List.filter_cons_of_neg (by simp [hskip])]
          exact ih reopened h hR
      | some file =>
          dsimp only
          by_cases hother : (!file.shared || file.name != name) = true
          · have hskip : isSharedEntry openFiles name d = false := by
              simp only [isSharedEntry, hfile, Option.any_some]
              cases hs : file.shared <;> simp_all
            rw [if_pos hother, List.filter_cons_of_neg (by simp [hskip])]
            exact ih reopened h hR
          · have htake : isSharedEntry openFiles name d = true := by
              simp only [isSharedEntry, hfile, Option.any_some]
              cases hs : file.shared <;> simp_all
            rw [if_neg hother, List.filter_cons_of_pos htake]
            rcases reopenFile_cases sys (hR.names ▸ hpath) file with
              ⟨h₁, hone, hr⟩ |
                ⟨fd, h₁, e, hone, he, hfresh, hnames, hfiles, hnext, hcloses, hpermits, hlookup⟩
            · rw [hone]
              refine .inl ⟨_, rfl, hR.closeAll hr, fun hcan => ?_⟩
              -- the entry is still open here, so the round cannot have failed
              obtain ⟨e, he⟩ := hcan.isOpen d file hfile
              have he' : h.descriptors.lookup file.hostDescriptor = some e := by
                rw [hR.others, he]
                intro hmem
                obtain ⟨y, hy, hy'⟩ := List.mem_map.mp hmem
                rw [← hy', hR.fresh y hy] at he
                cases he
              have hsome := reopenFile_isSome sys (hR.names ▸ hpath) hcan.faultless
                (hR.files ▸ hcan.permits d file htake hfile) he'
              rw [hone] at hsome
              cases hsome
            · rw [hone]
              have hoffset : ∀ e', h.descriptors.lookup file.hostDescriptor = some e' →
                  e.offset = e'.offset := by
                intro e' he'
                rw [he] at he'
                exact congrArg Description.offset (Option.some.inj he')
              have hR₁ := hR.snoc hfile hpermits hfresh hoffset hnames hfiles hnext hcloses hlookup
              have := ih _ h₁ hR₁
              rwa [List.map_append, List.append_assoc] at this

/-! ### The second loop -/

/-- An entry after its move to the private copy. -/
def OpenFile.moved (file : OpenFile) (fd : ℕ) (path : HostPath) : OpenFile :=
  { file with hostDescriptor := fd, hostPath := path, shared := false }

/-- The second loop touches neither names nor files. -/
theorem switchEach_frame (path : HostPath) (reopened : List (ℤ × ℕ))
    (openFiles : Finmap (fun _ : ℤ => OpenFile)) (h : Host HostPath) :
    (switchEach path reopened openFiles h).2.names = h.names ∧
      (switchEach path reopened openFiles h).2.files = h.files ∧
      (switchEach path reopened openFiles h).2.nextIno = h.nextIno := by
  induction reopened generalizing openFiles h with
  | nil => exact ⟨rfl, rfl, rfl⟩
  | cons x rest ih =>
      rw [switchEach]
      split
      · exact ih openFiles h
      · exact ih _ _

/-- The second loop gives each reopened entry its new descriptor. -/
theorem lookup_switchEach (path : HostPath) {reopened : List (ℤ × ℕ)}
    (hnodup : (reopened.map Prod.fst).Nodup) (openFiles : Finmap (fun _ : ℤ => OpenFile))
    (h : Host HostPath) (d : ℤ) :
    (switchEach path reopened openFiles h).1.lookup d =
      match reopened.lookup d with
      | some fd => (openFiles.lookup d).map fun file => file.moved fd path
      | none => openFiles.lookup d := by
  induction reopened generalizing openFiles h with
  | nil => rfl
  | cons x rest ih =>
      obtain ⟨y, fd⟩ := x
      rw [List.map_cons, List.nodup_cons] at hnodup
      have hrest : rest.lookup y = none := by
        rw [List.lookup_eq_none_iff]
        intro z hz
        have : y ≠ z.1 := fun heq => hnodup.1 (List.mem_map.mpr ⟨z, hz, heq.symm⟩)
        simpa using this
      rw [switchEach, List.lookup_cons]
      by_cases hd : d = y
      · subst hd
        simp only [beq_self_eq_true]
        cases hfile : openFiles.lookup d with
        | none => simp [ih hnodup.2, hrest, hfile]
        | some file => simp [ih hnodup.2, hrest, OpenFile.moved]
      · have hne : (d == y) = false := by simpa using hd
        rw [hne]
        cases hfile : openFiles.lookup y with
        | none => exact ih hnodup.2 openFiles h
        | some file =>
            dsimp only
            rw [ih hnodup.2, lookup_insert_eq, if_neg hd]

/-- Whether one of the reopened entries had this host descriptor. -/
def wasOpen (openFiles : Finmap (fun _ : ℤ => OpenFile)) (reopened : List (ℤ × ℕ)) (fd : ℕ) :
    Bool :=
  reopened.any fun x => (openFiles.lookup x.1).any fun file => file.hostDescriptor == fd

/-- The first of the reopened entries, or one of the others. -/
theorem wasOpen_cons (openFiles : Finmap (fun _ : ℤ => OpenFile)) (x : ℤ × ℕ)
    (reopened : List (ℤ × ℕ)) (fd : ℕ) :
    wasOpen openFiles (x :: reopened) fd =
      ((openFiles.lookup x.1).any (fun file => file.hostDescriptor == fd) ||
        wasOpen openFiles reopened fd) :=
  rfl

/-- The second loop closes the old descriptors of the reopened entries and no others. -/
theorem lookup_descriptors_switchEach (path : HostPath) {reopened : List (ℤ × ℕ)}
    (hnodup : (reopened.map Prod.fst).Nodup) (openFiles : Finmap (fun _ : ℤ => OpenFile))
    (h : Host HostPath) (fd : ℕ) :
    (switchEach path reopened openFiles h).2.descriptors.lookup fd =
      if wasOpen openFiles reopened fd then none else h.descriptors.lookup fd := by
  induction reopened generalizing openFiles h with
  | nil => rfl
  | cons x rest ih =>
      obtain ⟨y, new⟩ := x
      rw [List.map_cons, List.nodup_cons] at hnodup
      rw [switchEach, wasOpen_cons]
      cases hfile : openFiles.lookup y with
      | none => rw [Option.any_none, Bool.false_or, ih hnodup.2]
      | some file =>
          have hsame : wasOpen (openFiles.insert y (file.moved new path)) rest fd =
              wasOpen openFiles rest fd := by
            rw [Bool.eq_iff_iff, wasOpen, wasOpen, List.any_eq_true, List.any_eq_true]
            refine exists_congr fun z => and_congr_right fun hz => ?_
            have : z.1 ≠ y := fun heq => hnodup.1 (List.mem_map.mpr ⟨z, hz, heq⟩)
            rw [lookup_insert_eq, if_neg this]
          have hrest := ih hnodup.2 (openFiles.insert y (file.moved new path))
            (h.close file.hostDescriptor).2
          rw [hsame, Host.close, Host.lookup_release] at hrest
          refine hrest.trans ?_
          rw [Option.any_some]
          by_cases hold : file.hostDescriptor = fd
          · simp [hold]
          · simp [hold, Ne.symm hold]

/-- The second loop closes open descriptors of the table, each once. -/
theorem switchEach_closes {P : ℕ → Prop} (path : HostPath) {reopened : List (ℤ × ℕ)}
    (hnodup : (reopened.map Prod.fst).Nodup) {openFiles : Finmap (fun _ : ℤ => OpenFile)}
    {h : Host HostPath}
    (hopen : ∀ x ∈ reopened, ∀ file, openFiles.lookup x.1 = some file →
      (h.descriptors.lookup file.hostDescriptor).isSome ∧ P file.hostDescriptor)
    (hinj : ∀ x ∈ reopened, ∀ y ∈ reopened, ∀ file file', openFiles.lookup x.1 = some file →
      openFiles.lookup y.1 = some file' → file.hostDescriptor = file'.hostDescriptor →
      x.1 = y.1) :
    h.Closes P (switchEach path reopened openFiles h).2 := by
  induction reopened generalizing openFiles h with
  | nil => exact .of_eq rfl
  | cons x rest ih =>
      rw [List.map_cons, List.nodup_cons] at hnodup
      have hne : ∀ z ∈ rest, z.1 ≠ x.1 :=
        fun z hz heq => hnodup.1 (List.mem_map.mpr ⟨z, hz, heq⟩)
      rw [switchEach]
      cases hfile : openFiles.lookup x.1 with
      | none =>
          exact ih hnodup.2 (fun z hz => hopen z (List.mem_cons_of_mem x hz))
            fun z hz y hy => hinj z (List.mem_cons_of_mem x hz) y (List.mem_cons_of_mem x hy)
      | some file =>
          obtain ⟨hfirst, hP⟩ := hopen x List.mem_cons_self file hfile
          have hclose : h.Closes P (h.release file.hostDescriptor) := .release hfirst hP
          refine hclose.trans (ih hnodup.2 ?_ ?_)
          · intro z hz file' hfile'
            rw [lookup_insert_eq, if_neg (hne z hz)] at hfile'
            obtain ⟨hisSome, hP'⟩ := hopen z (List.mem_cons_of_mem x hz) file' hfile'
            have hold : file'.hostDescriptor ≠ file.hostDescriptor := fun heq =>
              hne z hz (hinj z (List.mem_cons_of_mem x hz) x List.mem_cons_self _ _
                hfile' hfile heq)
            rw [Host.lookup_release, if_neg hold]
            exact ⟨hisSome, hP'⟩
          · intro z hz y hy file₁ file₂ h₁ h₂
            rw [lookup_insert_eq, if_neg (hne z hz)] at h₁
            rw [lookup_insert_eq, if_neg (hne y hy)] at h₂
            exact hinj z (List.mem_cons_of_mem x hz) y (List.mem_cons_of_mem x hy) file₁ file₂ h₁ h₂

/-! ### Both loops -/

/-- Every entry of the table has an open host descriptor. -/
def EntriesOpen (s : FileState) (h : Host HostPath) : Prop :=
  ∀ d file, s.openFiles.lookup d = some file →
    ∃ e, h.descriptors.lookup file.hostDescriptor = some e

/-- The shared entries of a name have moved to the file `m` at `path`: each has a fresh
descriptor `fd d` of its own, at the offset of the old one, which is closed. -/
structure Moved (s s' : FileState) (name : String) (path : HostPath) (m : ℕ) (fd : ℤ → ℕ)
    (h h' : Host HostPath) : Prop where
  names : h'.names = h.names
  files : h'.files = h.files
  nextIno : h'.nextIno = h.nextIno
  nextDescriptor : s'.nextDescriptor = s.nextDescriptor
  pendingResults : s'.pendingResults = s.pendingResults
  table : ∀ d, s'.openFiles.lookup d =
    if isSharedEntry s.openFiles name d then
      (s.openFiles.lookup d).map fun file => file.moved (fd d) path
    else s.openFiles.lookup d
  fresh : ∀ d, isSharedEntry s.openFiles name d → h.descriptors.lookup (fd d) = none
  inj : ∀ d d', isSharedEntry s.openFiles name d → isSharedEntry s.openFiles name d' →
    fd d = fd d' → d = d'
  moved : EntriesOpen s h → ∀ d file e, isSharedEntry s.openFiles name d →
    s.openFiles.lookup d = some file → h.descriptors.lookup file.hostDescriptor = some e →
    h'.descriptors.lookup (fd d) = some (reopenedDescription file m e.offset)
  closed : ∀ d file e, isSharedEntry s.openFiles name d →
    s.openFiles.lookup d = some file → h.descriptors.lookup file.hostDescriptor = some e →
    h'.descriptors.lookup file.hostDescriptor = none
  kept : ∀ x e, h.descriptors.lookup x = some e →
    (∀ d file, isSharedEntry s.openFiles name d → s.openFiles.lookup d = some file →
      file.hostDescriptor ≠ x) →
    h'.descriptors.lookup x = some e
  origin : ∀ x e, h'.descriptors.lookup x = some e →
    h.descriptors.lookup x = some e ∨
      e.ino = m ∧ ∃ d, isSharedEntry s.openFiles name d ∧ fd d = x
  permits : ∀ d file, isSharedEntry s.openFiles name d → s.openFiles.lookup d = some file →
    (h.files m).permits (toHostOpenFlags file.flags) = true
  closes : EntriesOpen s h →
    (∀ d d' file file', s.openFiles.lookup d = some file → s.openFiles.lookup d' = some file' →
      file.hostDescriptor = file'.hostDescriptor → d = d') →
    h.Closes (fun x => ∃ d file, s.openFiles.lookup d = some file ∧ file.hostDescriptor = x) h'

/-- In a list of pairs with distinct keys, the members are what the keys look up. -/
theorem mem_iff_lookup_eq_some {reopened : List (ℤ × ℕ)}
    (hnodup : (reopened.map Prod.fst).Nodup) (d : ℤ) (fd : ℕ) :
    (d, fd) ∈ reopened ↔ reopened.lookup d = some fd := by
  induction reopened with
  | nil => simp
  | cons y rest ih =>
      obtain ⟨d', fd'⟩ := y
      rw [List.map_cons, List.nodup_cons] at hnodup
      rw [List.mem_cons, List.lookup_cons, Prod.mk.injEq]
      by_cases hd : d = d'
      · subst hd
        have hrest : (d, fd) ∉ rest := fun h => hnodup.1 (List.mem_map.mpr ⟨_, h, rfl⟩)
        simp [hrest, eq_comm]
      · have hne : (d == d') = false := by simpa using hd
        rw [hne]
        simp only [hd, false_and, false_or]
        exact ih hnodup.2

/-- After a successful first loop, the second completes the move. -/
theorem Reopened.switch {h h₁ : Host HostPath} {s : FileState} {name : String} {m : ℕ}
    {reopened : List (ℤ × ℕ)} (hR : Reopened h s.openFiles m reopened h₁)
    (hnodup : (reopened.map Prod.fst).Nodup) (path : HostPath) (fd : ℤ → ℕ)
    (hlookup : ∀ d, reopened.lookup d =
      if isSharedEntry s.openFiles name d then some (fd d) else none) :
    Moved s { s with openFiles := (switchEach path reopened s.openFiles h₁).1 } name path m fd
      h (switchEach path reopened s.openFiles h₁).2 := by
  have hmem : ∀ d x, (d, x) ∈ reopened ↔ isSharedEntry s.openFiles name d ∧ fd d = x := by
    intro d x
    rw [mem_iff_lookup_eq_some hnodup, hlookup]
    split_ifs with hd <;> simp [hd]
  have hold : ∀ x, wasOpen s.openFiles reopened x = true ↔
      ∃ d file, isSharedEntry s.openFiles name d ∧ s.openFiles.lookup d = some file ∧
        file.hostDescriptor = x := by
    intro x
    rw [wasOpen, List.any_eq_true]
    constructor
    · rintro ⟨⟨d, y⟩, hy, hany⟩
      obtain ⟨file, hfile, heq⟩ := Option.any_eq_true _ _ |>.mp hany
      exact ⟨d, file, ((hmem d y).mp hy).1, hfile, by simpa using heq⟩
    · rintro ⟨d, file, hd, hfile, rfl⟩
      exact ⟨(d, fd d), (hmem _ _).mpr ⟨hd, rfl⟩, by simp [hfile]⟩
  have hframe := switchEach_frame path reopened s.openFiles h₁
  refine ⟨hframe.1.trans hR.names, hframe.2.1.trans hR.files, hframe.2.2.trans hR.nextIno,
    rfl, rfl, ?_, ?_, ?_, ?_, ?_, ?_, ?_, ?_, ?_⟩
  · intro d
    rw [lookup_switchEach path hnodup, hlookup]
    split_ifs
    · rfl
    · rfl
  · intro d hd
    exact hR.fresh _ ((hmem d _).mpr ⟨hd, rfl⟩)
  · intro d d' hd hd' heq
    have := List.inj_on_of_nodup_map hR.nodup ((hmem d _).mpr ⟨hd, rfl⟩)
      ((hmem d' _).mpr ⟨hd', rfl⟩) heq
    exact congrArg Prod.fst this
  · intro hopen d file e hd hfile he
    obtain ⟨file', offset, hfile', hfd, hoffset⟩ := hR.opened _ ((hmem d _).mpr ⟨hd, rfl⟩)
    obtain rfl : file = file' := Option.some.inj (hfile.symm.trans hfile')
    rw [lookup_descriptors_switchEach path hnodup, if_neg, hfd, hoffset e he]
    rw [hold]
    rintro ⟨d', old, -, hd', heq⟩
    -- the old descriptor is open, the new one was free
    obtain ⟨e', he'⟩ := hopen d' old hd'
    rw [heq, hR.fresh _ ((hmem d _).mpr ⟨hd, rfl⟩)] at he'
    cases he'
  · intro d file e hd hfile he
    rw [lookup_descriptors_switchEach path hnodup, if_pos ((hold _).mpr ⟨d, file, hd, hfile, rfl⟩)]
  · intro x e he hx
    rw [lookup_descriptors_switchEach path hnodup, if_neg, hR.others, he]
    · intro hmem'
      obtain ⟨y, hy, rfl⟩ := List.mem_map.mp hmem'
      rw [hR.fresh y hy] at he
      cases he
    · rw [hold]
      rintro ⟨d, file, hd, hfile, heq⟩
      exact hx d file hd hfile heq
  · intro x e he
    rw [lookup_descriptors_switchEach path hnodup] at he
    split_ifs at he
    by_cases hx : x ∈ reopened.map Prod.snd
    · obtain ⟨⟨d, y⟩, hy, rfl⟩ := List.mem_map.mp hx
      obtain ⟨file, offset, -, hfd, -⟩ := hR.opened _ hy
      rw [hfd] at he
      obtain rfl := Option.some.inj he
      exact .inr ⟨rfl, d, (hmem d y).mp hy⟩
    · rw [hR.others x hx] at he
      exact .inl he
  · intro d file hd
    exact hR.permits (d, fd d) ((hmem d _).mpr ⟨hd, rfl⟩) file
  · intro hopen hinj
    refine (Host.Closes.of_eq hR.closes).trans
      (switchEach_closes path hnodup (fun x hx file hfile => ?_)
        fun x _ y _ => hinj x.1 y.1)
    obtain ⟨e, he⟩ := hopen x.1 file hfile
    refine ⟨?_, x.1, file, hfile, rfl⟩
    rw [hR.others, he]
    · rfl
    · intro hmem'
      obtain ⟨y, hy, hy'⟩ := List.mem_map.mp hmem'
      rw [← hy', hR.fresh y hy] at he
      cases he

/-- **Both loops.** They move every shared entry of the name, or leave table and host as
they are. -/
theorem reopenSharedFiles_cases (name : String) {path : HostPath} {m : ℕ} (s : FileState)
    {h : Host HostPath} (hpath : h.names path = some m) :
    (∃ h', reopenSharedFiles sys name path s h = (false, s, h') ∧ h.Restored h' ∧
        ¬ (CanReopen sys m s.openFiles name h ∧ ∃ d, isSharedEntry s.openFiles name d)) ∨
      ∃ s' h' fd, reopenSharedFiles sys name path s h = (true, s', h') ∧
        Moved s s' name path m fd h h' := by
  rw [reopenSharedFiles]
  have hiter := sys.iterate_nodup h.calls s.openFiles.keys
  rcases reopenEach_spec sys name hpath (sys.iterate h.calls s.openFiles.keys) [] h
      (.start h s.openFiles m) with ⟨h₁, hloop, hr, hno⟩ | ⟨reopened, h₁, hloop, hR, hkeys⟩
  · rw [hloop]
    exact .inl ⟨h₁, rfl, hr, fun hcan => hno hcan.1⟩
  rw [hloop]
  dsimp only
  rw [List.map_nil, List.nil_append] at hkeys
  have hnodup : (reopened.map Prod.fst).Nodup := hkeys ▸ hiter.filter _
  have hmem : ∀ d, d ∈ reopened.map Prod.fst ↔ isSharedEntry s.openFiles name d := by
    intro d
    rw [hkeys, List.mem_filter, sys.mem_iterate, Finmap.mem_keys, and_iff_right_iff_imp]
    intro hd
    obtain ⟨file, hfile, -⟩ := isSharedEntry_iff.mp hd
    exact Finmap.mem_of_lookup_eq_some hfile
  cases hempty : reopened.isEmpty with
  | true =>
      rw [List.isEmpty_iff] at hempty
      subst hempty
      refine .inl ⟨h₁, rfl, ⟨hR.names, hR.files, hR.nextIno, fun x => hR.others x (by simp),
        .of_eq hR.closes⟩, ?_⟩
      rintro ⟨-, d, hd⟩
      cases (hmem d).mpr hd
  | false =>
      refine .inr ⟨_, _, fun d => (reopened.lookup d).getD 0, rfl, hR.switch hnodup path _ ?_⟩
      intro d
      have hd := hmem d
      cases hx : reopened.lookup d with
      | none =>
          rw [if_neg]
          intro hshared
          obtain ⟨⟨d', x⟩, hmem, rfl⟩ := List.mem_map.mp (hd.mpr hshared)
          rw [(mem_iff_lookup_eq_some hnodup _ _).mp hmem] at hx
          cases hx
      | some x =>
          have hmem := (mem_iff_lookup_eq_some hnodup d x).mpr hx
          rw [if_pos (hd.mp (List.mem_map.mpr ⟨_, hmem, rfl⟩)), Option.getD_some]

/-! ### Preparing a write -/

/-- The host with a new writable copy of the file `src` at a path that had none. -/
structure CopiedTo (path : HostPath) (src : ℕ) (h h' : Host HostPath) : Prop where
  absent : h.names path = none
  names : h'.names = Function.update h.names path (some h.nextIno)
  files : h'.files =
    Function.update h.files h.nextIno (h.files src).copied.addOwnerWrite
  nextIno : h'.nextIno = h.nextIno + 1
  closes : h'.closes = h.closes
  descriptors : h'.descriptors = h.descriptors

/-- The host after a failed switch: the local name is gone, whatever it was before, and
every file that existed is as it was. -/
structure Discarded (path : HostPath) (h h' : Host HostPath) : Prop where
  names : h'.names = Function.update h.names path none
  files : ∀ n < h.nextIno, h'.files n = h.files n
  nextIno : h.nextIno ≤ h'.nextIno
  descriptors : ∀ fd, h'.descriptors.lookup fd = h.descriptors.lookup fd
  closes : h.Closes (fun fd => h.descriptors.lookup fd = none) h'

/-- Whatever a failed switch did to the local name and to new files, removing the name
discards it. -/
theorem Discarded.remove {path : HostPath} {h h' : Host HostPath}
    (hnames : ∀ p ≠ path, h'.names p = h.names p) (hfiles : ∀ n < h.nextIno, h'.files n = h.files n)
    (hnext : h.nextIno ≤ h'.nextIno)
    (hdescriptors : ∀ fd, h'.descriptors.lookup fd = h.descriptors.lookup fd)
    (hcloses : h.Closes (fun fd => h.descriptors.lookup fd = none) h') :
    Discarded path h (h'.remove path) where
  names := by
    funext p
    by_cases hp : p = path
    · simp [Host.remove, hp]
    · simp [Host.remove, hp, hnames p hp]
  files := hfiles
  nextIno := hnext
  descriptors := hdescriptors
  closes := hcloses

/-- A copy made on the way does not survive the removal of its name. -/
theorem CopiedTo.discard {path : HostPath} {src : ℕ} {h h₁ h' : Host HostPath}
    (hc : CopiedTo path src h h₁) (hu : h₁.Restored h') :
    Discarded path h (h'.remove path) := by
  refine .remove ?_ ?_ ?_ ?_ ?_
  · intro p hp
    rw [hu.names, hc.names, Function.update_of_ne hp]
  · intro n hn
    rw [hu.files, hc.files, Function.update_of_ne hn.ne]
  · rw [hu.nextIno, hc.nextIno]
    omega
  · intro fd
    rw [hu.descriptors, hc.descriptors]
  · refine (Host.Closes.of_eq hc.closes).trans (hu.closes.mono fun fd hfd => ?_)
    rwa [hc.descriptors] at hfd

variable (context : GuestContext)

/-- A copy of the file `f` permits what the shared entries of a name need. -/
def CopyPermits (f : File) (name : String) (s : FileState) : Prop :=
  ∀ d file, isSharedEntry s.openFiles name d → s.openFiles.lookup d = some file →
    f.copied.addOwnerWrite.permits (toHostOpenFlags file.flags) = true

/-- What makes a switch succeed: no call fails without cause, the VM has no file of the
name, the original can be read and its copy permits what the entries need, and the entries, one
of them shared, are open. -/
structure CanSwitch (file : OpenFile) (s : FileState) (h : Host HostPath) : Prop where
  faultless : sys.kernel.Faultless
  absent : h.names (sys.localPathOf context file.name) = none
  source : ∃ src, h.names file.hostPath = some src ∧ (h.files src).readable = true ∧
    CopyPermits (h.files src) file.name s
  isOpen : EntriesOpen s h
  shared : ∃ d, isSharedEntry s.openFiles file.name d

/-- **Preparing a write to a shared entry.** The directory cannot be made and nothing
changes; or a later call fails and the local name is removed, also when it named a file
before; or every shared entry of the name moves to a new private copy. -/
theorem prepareFileForWrite_cases {file : OpenFile} (hshared : file.shared = true)
    (s : FileState) (h : Host HostPath) :
    (prepareFileForWrite sys context file s h = (false, s, h.tick) ∧
        (sys.kernel.outcome h.calls).failed = true) ∨
      (∃ h', prepareFileForWrite sys context file s h = (false, s, h') ∧
        (sys.kernel.outcome h.calls).failed = false ∧
        Discarded (sys.localPathOf context file.name) h h' ∧
        ¬ CanSwitch sys context file s h) ∨
      ∃ src h₁ s' h' fd, prepareFileForWrite sys context file s h = (true, s', h') ∧
        h.names file.hostPath = some src ∧
        CopiedTo (sys.localPathOf context file.name) src h h₁ ∧
        Moved s s' file.name (sys.localPathOf context file.name) h.nextIno fd h₁ h' := by
  rw [prepareFileForWrite, hshared]
  generalize hpath : sys.localPathOf context file.name = path
  simp only [Bool.not_true, Bool.false_eq_true, if_false, Host.createDirectories]
  cases hfail : (sys.kernel.outcome h.calls).failed with
  | true => exact .inl ⟨rfl, rfl⟩
  | false =>
      refine .inr ?_
      simp only [Bool.not_false]
      rcases h.tick.copyFile_cases sys.kernel path file.hostPath with
        hcopy | ⟨habsent, ⟨f, hcopy⟩ | ⟨src, hsrc, hcopy⟩⟩
      · rw [hcopy]
        refine .inl ⟨_, rfl, trivial, .remove (fun _ _ => rfl) (fun _ _ => rfl) le_rfl
          (fun _ => rfl) (.of_eq rfl), fun hcan => ?_⟩
        obtain ⟨src, hsrc, hread, -⟩ := hcan.source
        rw [Host.copyFile_of_faultless (h := h.tick) hcan.faultless hsrc hread
          (hpath ▸ hcan.absent)] at hcopy
        cases hcopy
      · rw [hcopy]
        refine .inl ⟨_, rfl, trivial, .remove ?_ ?_ (Nat.le_succ _) (fun _ => rfl)
          (.of_eq rfl), fun hcan => ?_⟩
        · intro p hp
          simp [hp]
        · intro n hn
          simp [hn.ne]
        · obtain ⟨src, hsrc, hread, -⟩ := hcan.source
          rw [Host.copyFile_of_faultless (h := h.tick) hcan.faultless hsrc hread
            (hpath ▸ hcan.absent)] at hcopy
          cases hcopy
      · rw [hcopy]
        dsimp only
        generalize hh₁ : h.tick.tick.link path (h.tick.files src).copied = h₁
        have hnamed : h₁.names path = some h.nextIno := by simp [← hh₁]
        rcases h₁.addOwnerWrite_cases sys.kernel path with hperm | ⟨n, hn, hperm⟩
        · rw [hperm]
          refine .inl ⟨_, rfl, trivial, .remove ?_ ?_ ?_ ?_ (.of_eq ?_), fun hcan => ?_⟩
          · intro p hp
            simp [← hh₁, hp]
          · intro n hn
            simp [← hh₁, hn.ne]
          · simp [← hh₁]
          · simp [← hh₁]
          · simp [← hh₁, Host.link, Host.tick]
          · rw [Host.addOwnerWrite_of_faultless hcan.faultless hnamed] at hperm
            cases hperm
        · rw [hperm]
          dsimp only
          obtain rfl : h.nextIno = n := Option.some.inj (hnamed.symm.trans hn)
          have hc : CopiedTo path src h
              (h₁.tick.setFile h.nextIno (h₁.files h.nextIno).addOwnerWrite) := by
            refine ⟨habsent, ?_, ?_, ?_, ?_, ?_⟩
            · simp [← hh₁]
            · simp [← hh₁]
            · simp [← hh₁]
            · simp [← hh₁, Host.link, Host.tick, Host.setFile]
            · simp [← hh₁]
          generalize h₁.tick.setFile h.nextIno (h₁.files h.nextIno).addOwnerWrite = h₂ at hc ⊢
          have hnamed₂ : h₂.names path = some h.nextIno := by simp [hc.names]
          rcases reopenSharedFiles_cases sys file.name s hnamed₂ with
            ⟨h₃, hloop, hr, hno⟩ | ⟨s', h₃, fd, hloop, hmoved⟩
          · rw [hloop]
            refine .inl ⟨_, rfl, trivial, hc.discard hr, fun hcan => hno ⟨?_, hcan.shared⟩⟩
            obtain ⟨src', hsrc', -, hpermits⟩ := hcan.source
            obtain rfl : src = src' := Option.some.inj (hsrc.symm.trans hsrc')
            refine ⟨hcan.faultless, ?_, ?_⟩
            · rw [hc.files, Function.update_self]
              exact hpermits
            · rw [hc.descriptors]
              exact hcan.isOpen
          · rw [hloop]
            exact .inr ⟨src, h₂, s', h₃, fd, rfl, hsrc, hc, hmoved⟩

/-- What preparing a write leaves behind: a private entry needs nothing; a shared one fails
before or after the directory is made, or moves to a new private copy with every other
shared entry of the name. -/
inductive Prepared (file : OpenFile) (s : FileState) (h : Host HostPath) :
    Bool → FileState → Host HostPath → Prop
  | own : file.shared = false → Prepared file s h true s h
  | noDirectory : file.shared = true → (sys.kernel.outcome h.calls).failed = true →
      Prepared file s h false s h.tick
  | discarded {h' : Host HostPath} : file.shared = true →
      (sys.kernel.outcome h.calls).failed = false →
      Discarded (sys.localPathOf context file.name) h h' →
      ¬ CanSwitch sys context file s h → Prepared file s h false s h'
  | copied {src : ℕ} {h₁ h' : Host HostPath} {s' : FileState} {fd : ℤ → ℕ} :
      file.shared = true → h.names file.hostPath = some src →
      CopiedTo (sys.localPathOf context file.name) src h h₁ →
      Moved s s' file.name (sys.localPathOf context file.name) h.nextIno fd h₁ h' →
      Prepared file s h true s' h'

/-- Preparing a write leaves nothing else behind. -/
theorem prepared_of_prepareFileForWrite {file : OpenFile} {s s' : FileState}
    {h h' : Host HostPath} {ok : Bool}
    (hp : prepareFileForWrite sys context file s h = (ok, s', h')) :
    Prepared sys context file s h ok s' h' := by
  cases hshared : file.shared with
  | false =>
      simp only [prepareFileForWrite, hshared, Bool.not_false, if_true, Prod.mk.injEq] at hp
      obtain ⟨rfl, rfl, rfl⟩ := hp
      exact .own hshared
  | true =>
      rcases prepareFileForWrite_cases sys context hshared s h with
        ⟨hr, hfail⟩ | ⟨h₁, hr, hfail, hd, hno⟩ | ⟨src, h₁, s₁, h₂, fd, hr, hsrc, hc, hm⟩
      · rw [hr, Prod.mk.injEq, Prod.mk.injEq] at hp
        obtain ⟨rfl, rfl, rfl⟩ := hp
        exact .noDirectory hshared hfail
      · rw [hr, Prod.mk.injEq, Prod.mk.injEq] at hp
        obtain ⟨rfl, rfl, rfl⟩ := hp
        exact .discarded hshared hfail hd hno
      · rw [hr, Prod.mk.injEq, Prod.mk.injEq] at hp
        obtain ⟨rfl, rfl, rfl⟩ := hp
        exact .copied hshared hsrc hc hm

end KvmHypervisor
