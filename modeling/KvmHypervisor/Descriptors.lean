import KvmHypervisor.FileRuns
import KvmHypervisor.RequestCases

/-!
# Ownership of Host Descriptors

All VMs of a hypervisor share one space of host descriptors. A VM owns the descriptors its
table holds. Whatever host calls fail, a request hands over a table whose entries are open
and pairwise distinct, touches no descriptor of another VM, and closes only what the VM
holds or what the request itself opened; while descriptor numbers do not wrap around, it
leaks none either.

## Main results

* `processFileRequest_handover`: one request, for one VM and the rest of the world.
* `descriptors_owned`: every run of requests and clean-ups of any number of VMs.
-/

namespace KvmHypervisor

open PosixFiles Transitions

/-! ### Tables and what they hold -/

/-- The table has an entry on the host descriptor. -/
def Holds (s : FileState) (fd : ℕ) : Prop :=
  ∃ d file, s.openFiles.lookup d = some file ∧ file.hostDescriptor = fd

/-- The host descriptors of a table are open and pairwise distinct. -/
structure Owned (s : FileState) (h : Host HostPath) : Prop where
  isOpen : EntriesOpen s h
  inj : ∀ d d' file file', s.openFiles.lookup d = some file →
    s.openFiles.lookup d' = some file' → file.hostDescriptor = file'.hostDescriptor → d = d'

/-- What a step of one VM does to the host descriptors: its new table is owned, with
descriptors it held before or that were free; the descriptors of the rest of the world are
untouched; and every `close` was on an open descriptor that the VM held or the step
opened. -/
structure Handover (s : FileState) (h : Host HostPath) (s' : FileState) (h' : Host HostPath) :
    Prop where
  owned : Owned s' h'
  fresh : ∀ fd, Holds s' fd → Holds s fd ∨ h.descriptors.lookup fd = none
  others : ∀ fd e, ¬ Holds s fd → h.descriptors.lookup fd = some e →
    h'.descriptors.lookup fd = some e
  closes : h.Closes (fun fd => Holds s fd ∨ h.descriptors.lookup fd = none) h'

/-- Every open descriptor is held by the new table or belongs to the rest of the world. -/
def NoLeak (s : FileState) (h : Host HostPath) (s' : FileState) (h' : Host HostPath) : Prop :=
  ∀ fd e, h'.descriptors.lookup fd = some e →
    Holds s' fd ∨ (¬ Holds s fd ∧ (h.descriptors.lookup fd).isSome)

variable {s s' s'' : FileState} {h h' h'' : Host HostPath}

/-- An owned table holds open descriptors. -/
theorem Owned.lookup_of_holds (ho : Owned s h) {fd : ℕ} (hfd : Holds s fd) :
    ∃ e, h.descriptors.lookup fd = some e := by
  obtain ⟨d, file, hfile, rfl⟩ := hfd
  exact ho.isOpen d file hfile

/-- The same descriptors are held by tables with the same entries. -/
theorem holds_congr (hs : s'.openFiles = s.openFiles) (fd : ℕ) : Holds s' fd ↔ Holds s fd := by
  rw [Holds, Holds, hs]

/-! ### Steps without a change of the table -/

/-- A step that keeps the table, keeps every descriptor open and closes none. -/
theorem Handover.of_open_iff (ho : Owned s h) (hs : s'.openFiles = s.openFiles)
    (hopen : ∀ fd, (h'.descriptors.lookup fd).isSome = (h.descriptors.lookup fd).isSome)
    (hothers : ∀ fd e, ¬ Holds s fd → h.descriptors.lookup fd = some e →
      h'.descriptors.lookup fd = some e)
    (hcloses : h.Closes (fun fd => h.descriptors.lookup fd = none) h') :
    Handover s h s' h' ∧ NoLeak s h s' h' := by
  refine ⟨⟨⟨?_, ?_⟩, ?_, hothers, hcloses.mono fun _ => .inr⟩, ?_⟩
  · intro d file hfile
    rw [hs] at hfile
    obtain ⟨e, he⟩ := ho.isOpen d file hfile
    rw [← Option.isSome_iff_exists, hopen, he]
    rfl
  · rw [hs]
    exact ho.inj
  · exact fun fd hfd => .inl ((holds_congr hs fd).mp hfd)
  · intro fd e he
    rw [holds_congr hs]
    by_cases hfd : Holds s fd
    · exact .inl hfd
    · exact .inr ⟨hfd, by rw [← hopen, he]; rfl⟩

/-- A request without effect. -/
theorem Handover.of_unchanged (ho : Owned s h) (hu : h.Unchanged h') :
    Handover s h s h' ∧ NoLeak s h s h' :=
  Handover.of_open_iff ho rfl (fun fd => by rw [hu.descriptors])
    (fun fd e _ he => by rw [hu.descriptors, he]) (.of_eq hu.closes)

/-- A failed switch. -/
theorem Handover.of_discarded {path : HostPath} (ho : Owned s h) (hd : Discarded path h h') :
    Handover s h s h' ∧ NoLeak s h s h' :=
  Handover.of_open_iff ho rfl (fun fd => by rw [hd.descriptors])
    (fun fd e _ he => by rw [hd.descriptors, he]) hd.closes

/-- A description of the VM moves. -/
theorem Handover.reposition (ho : Owned s h) {d : ℤ} {file : OpenFile} {e : Description}
    (hfile : s.openFiles.lookup d = some file)
    (he : h.descriptors.lookup file.hostDescriptor = some e) (offset : ℕ)
    (hdescriptors : h'.descriptors = h.descriptors) (hcloses : h'.closes = h.closes) :
    Handover s h s (h'.reposition file.hostDescriptor offset) ∧
      NoLeak s h s (h'.reposition file.hostDescriptor offset) := by
  have hlookup : ∀ x, (h'.reposition file.hostDescriptor offset).descriptors.lookup x =
      if x = file.hostDescriptor then some { e with offset := offset }
      else h.descriptors.lookup x := by
    intro x
    rw [← hdescriptors] at he
    rw [Host.lookup_reposition he, hdescriptors]
  refine Handover.of_open_iff ho rfl ?_ ?_ (.of_eq hcloses)
  · intro fd
    rw [hlookup]
    split_ifs with hfd
    · rw [hfd, he]
      rfl
    · rfl
  · intro fd e' hfd he'
    rw [hlookup, if_neg, he']
    rintro rfl
    exact hfd ⟨d, file, hfile, rfl⟩

/-! ### Open -/

/-- The lookups after an open: one fresh descriptor more. -/
theorem OpensAt.lookup {path : HostPath} {mode : OpenMode} {fd : ℕ}
    (ho : OpensAt path mode fd h h') :
    ∃ m, h'.names path = some m ∧ ∀ x, h'.descriptors.lookup x =
      if x = fd then some ⟨m, 0, mode.readable, mode.writable⟩ else h.descriptors.lookup x := by
  rcases ho with ⟨m, hm, -, rfl⟩ | ⟨-, -, rfl⟩
  · exact ⟨m, hm, fun x => Host.lookup_grant (h := h.tick) hm fd x mode⟩
  · have hm : (h.tick.link path (.made [])).names path = some h.nextIno := by simp
    exact ⟨h.nextIno, hm, fun x => Host.lookup_grant hm fd x mode⟩

/-- The descriptors that were open stay as they are. -/
theorem OpensAt.kept {path : HostPath} {mode : OpenMode} {fd : ℕ} (ho : OpensAt path mode fd h h')
    (hfresh : h.descriptors.lookup fd = none) {x : ℕ} {e : Description}
    (he : h.descriptors.lookup x = some e) : h'.descriptors.lookup x = some e := by
  obtain ⟨m, -, hlookup⟩ := ho.lookup
  rw [hlookup, if_neg, he]
  rintro rfl
  rw [hfresh] at he
  cases he

/-- An open closes nothing. -/
theorem OpensAt.closes {path : HostPath} {mode : OpenMode} {fd : ℕ}
    (ho : OpensAt path mode fd h h') : h'.closes = h.closes := by
  rcases ho with ⟨m, -, -, rfl⟩ | ⟨-, -, rfl⟩
  · rfl
  · rfl

/-- A successful open adds one entry on a free descriptor. -/
theorem Handover.open (ho : Owned s h) {path : HostPath} {mode : OpenMode} (file : OpenFile)
    (hfresh : h.descriptors.lookup file.hostDescriptor = none)
    (hopen : OpensAt path mode file.hostDescriptor h h') :
    Handover s h (s.emplace file) h' ∧
      (s.nextDescriptor ∉ s.openFiles → NoLeak s h (s.emplace file) h') := by
  obtain ⟨m, -, hlookup⟩ := hopen.lookup
  have hold : ∀ fd e, h.descriptors.lookup fd = some e → h'.descriptors.lookup fd = some e :=
    fun _ _ => hopen.kept hfresh
  have hne : ∀ d file', s.openFiles.lookup d = some file' →
      file'.hostDescriptor ≠ file.hostDescriptor := by
    intro d file' hfile' heq
    obtain ⟨e, he⟩ := ho.isOpen d file' hfile'
    rw [heq, hfresh] at he
    cases he
  refine ⟨⟨⟨?_, ?_⟩, ?_, fun fd e _ => hold fd e, .of_eq hopen.closes⟩, ?_⟩
  · intro d file' hfile'
    rw [FileState.lookup_emplace] at hfile'
    split_ifs at hfile' with hd
    · obtain rfl := Option.some.inj hfile'
      exact ⟨_, by rw [hlookup, if_pos rfl]⟩
    · obtain ⟨e, he⟩ := ho.isOpen d file' hfile'
      exact ⟨e, hold _ e he⟩
  · intro d d' file₁ file₂ h₁ h₂ heq
    rw [FileState.lookup_emplace] at h₁ h₂
    split_ifs at h₁ h₂ with hd hd' hd'
    · rw [hd.1, hd'.1]
    · obtain rfl := Option.some.inj h₁
      exact absurd heq.symm (hne d' file₂ h₂)
    · obtain rfl := Option.some.inj h₂
      exact absurd heq (hne d file₁ h₁)
    · exact ho.inj d d' file₁ file₂ h₁ h₂ heq
  · rintro fd ⟨d, file', hfile', rfl⟩
    rw [FileState.lookup_emplace] at hfile'
    split_ifs at hfile' with hd
    · obtain rfl := Option.some.inj hfile'
      exact .inr hfresh
    · exact .inl ⟨d, file', hfile', rfl⟩
  · intro hkey fd e he
    rw [hlookup] at he
    split_ifs at he with hfd
    · subst hfd
      exact .inl ⟨s.nextDescriptor, file, by rw [FileState.lookup_emplace, if_pos ⟨rfl, hkey⟩],
        rfl⟩
    · by_cases hheld : Holds s fd
      · obtain ⟨d, file', hfile', rfl⟩ := hheld
        refine .inl ⟨d, file', ?_, rfl⟩
        rw [FileState.lookup_emplace, if_neg, hfile']
        rintro ⟨rfl, -⟩
        exact hkey (Finmap.mem_of_lookup_eq_some hfile')
      · exact .inr ⟨hheld, by rw [he]; rfl⟩

/-! ### Close -/

/-- A close takes one entry and its descriptor away. -/
theorem Handover.close (ho : Owned s h) {d : ℤ} {file : OpenFile}
    (hfile : s.openFiles.lookup d = some file) :
    Handover s h { s with openFiles := s.openFiles.erase d } (h.release file.hostDescriptor) ∧
      NoLeak s h { s with openFiles := s.openFiles.erase d }
        (h.release file.hostDescriptor) := by
  have hkept : ∀ d' file', (s.openFiles.erase d).lookup d' = some file' →
      d' ≠ d ∧ s.openFiles.lookup d' = some file' := by
    intro d' file' hfile'
    rw [lookup_erase_eq] at hfile'
    split_ifs at hfile' with hd
    exact ⟨hd, hfile'⟩
  refine ⟨⟨⟨?_, ?_⟩, ?_, ?_, ?_⟩, ?_⟩
  · intro d' file' hfile'
    obtain ⟨hd, hfile'⟩ := hkept d' file' hfile'
    obtain ⟨e, he⟩ := ho.isOpen d' file' hfile'
    have hne : file'.hostDescriptor ≠ file.hostDescriptor :=
      fun heq => hd (ho.inj d' d file' file hfile' hfile heq)
    exact ⟨e, by rw [Host.lookup_release, if_neg hne, he]⟩
  · intro d₁ d₂ file₁ file₂ h₁ h₂ heq
    exact ho.inj d₁ d₂ file₁ file₂ (hkept d₁ file₁ h₁).2 (hkept d₂ file₂ h₂).2 heq
  · rintro fd ⟨d', file', hfile', rfl⟩
    exact .inl ⟨d', file', (hkept d' file' hfile').2, rfl⟩
  · intro fd e hfd he
    rw [Host.lookup_release, if_neg, he]
    rintro rfl
    exact hfd ⟨d, file, hfile, rfl⟩
  · obtain ⟨e, he⟩ := ho.isOpen d file hfile
    exact .release (by rw [he]; rfl) (.inl ⟨d, file, hfile, rfl⟩)
  · intro fd e he
    rw [Host.lookup_release] at he
    split_ifs at he with hfd
    by_cases hheld : Holds s fd
    · obtain ⟨d', file', hfile', rfl⟩ := hheld
      refine .inl ⟨d', file', ?_, rfl⟩
      have hd : d' ≠ d := by
        rintro rfl
        obtain rfl := Option.some.inj (hfile'.symm.trans hfile)
        exact hfd rfl
      exact (lookup_erase_eq _ _ _).trans ((if_neg hd).trans hfile')
    · exact .inr ⟨hheld, by rw [he]; rfl⟩

/-! ### The switch -/

/-- A switch trades the descriptors of the shared entries for fresh ones. -/
theorem Handover.move (ho : Owned s h) {name : String} {path : HostPath} {m : ℕ}
    {fd : ℤ → ℕ} {h₁ : Host HostPath}
    (hdescriptors : ∀ x, h₁.descriptors.lookup x = h.descriptors.lookup x)
    (hcloses : h₁.closes = h.closes) (hm : Moved s s' name path m fd h₁ h') :
    Handover s h s' h' ∧ NoLeak s h s' h' := by
  have hopen : EntriesOpen s h₁ := by
    intro d file hfile
    obtain ⟨e, he⟩ := ho.isOpen d file hfile
    exact ⟨e, by rw [hdescriptors, he]⟩
  -- what an entry of the new table is
  have hentry : ∀ d file', s'.openFiles.lookup d = some file' →
      (isSharedEntry s.openFiles name d = true ∧ file'.hostDescriptor = fd d ∧
        ∃ file, s.openFiles.lookup d = some file) ∨
      (isSharedEntry s.openFiles name d = false ∧ s.openFiles.lookup d = some file') := by
    intro d file' hfile'
    rw [hm.table] at hfile'
    split_ifs at hfile' with hd
    · obtain ⟨file, hfile, rfl⟩ := Option.map_eq_some_iff.mp hfile'
      exact .inl ⟨hd, rfl, file, hfile⟩
    · exact .inr ⟨by simpa using hd, hfile'⟩
  -- an entry that is not moved keeps its open descriptor
  have hstays : ∀ d file e, isSharedEntry s.openFiles name d = false →
      s.openFiles.lookup d = some file → h₁.descriptors.lookup file.hostDescriptor = some e →
      h'.descriptors.lookup file.hostDescriptor = some e := by
    intro d file e hd hfile he
    refine hm.kept _ e he fun d' file' hd' hfile' heq => ?_
    obtain rfl := ho.inj d' d file' file hfile' hfile heq
    rw [hd] at hd'
    cases hd'
  have hnew : ∀ d, isSharedEntry s.openFiles name d = true →
      ∃ e, h'.descriptors.lookup (fd d) = some e := by
    intro d hd
    obtain ⟨file, hfile, -⟩ := isSharedEntry_iff.mp hd
    obtain ⟨e, he⟩ := hopen d file hfile
    exact ⟨_, hm.moved hopen d file e hd hfile he⟩
  refine ⟨⟨⟨?_, ?_⟩, ?_, ?_, ?_⟩, ?_⟩
  · intro d file' hfile'
    rcases hentry d file' hfile' with ⟨hd, hfd, -⟩ | ⟨hd, hfile⟩
    · rw [hfd]
      exact hnew d hd
    · obtain ⟨e, he⟩ := hopen d file' hfile
      exact ⟨e, hstays d file' e hd hfile he⟩
  · intro d d' file₁ file₂ h₁' h₂' heq
    rcases hentry d file₁ h₁' with ⟨hd, hfd, -⟩ | ⟨hd, hfile⟩ <;>
      rcases hentry d' file₂ h₂' with ⟨hd', hfd', -⟩ | ⟨hd', hfile'⟩
    · exact hm.inj d d' hd hd' (by rw [← hfd, ← hfd', heq])
    · obtain ⟨e, he⟩ := hopen d' file₂ hfile'
      rw [← heq, hfd, hm.fresh d hd] at he
      cases he
    · obtain ⟨e, he⟩ := hopen d file₁ hfile
      rw [heq, hfd', hm.fresh d' hd'] at he
      cases he
    · exact ho.inj d d' file₁ file₂ hfile hfile' heq
  · rintro x ⟨d, file', hfile', rfl⟩
    rcases hentry d file' hfile' with ⟨hd, hfd, -⟩ | ⟨-, hfile⟩
    · rw [hfd, ← hdescriptors]
      exact .inr (hm.fresh d hd)
    · exact .inl ⟨d, file', hfile, rfl⟩
  · intro x e hx he
    rw [← hdescriptors] at he
    exact hm.kept x e he fun d file _ hfile heq => hx ⟨d, file, hfile, heq⟩
  · have hfirst : h.Closes (fun x => Holds s x ∨ h.descriptors.lookup x = none) h₁ :=
      .of_eq hcloses
    exact hfirst.trans ((hm.closes hopen ho.inj).mono fun x hx => .inl hx)
  · intro x e he
    rcases hm.origin x e he with hx | ⟨-, d, hd, rfl⟩
    · by_cases hheld : Holds s x
      · obtain ⟨d, file, hfile, rfl⟩ := hheld
        cases hd : isSharedEntry s.openFiles name d with
        | true =>
            obtain ⟨e', he'⟩ := hopen d file hfile
            rw [hm.closed d file e' hd hfile he'] at he
            cases he
        | false =>
            refine .inl ⟨d, file, ?_, rfl⟩
            rw [hm.table, hd]
            exact hfile
      · exact .inr ⟨hheld, by rw [← hdescriptors, hx]; rfl⟩
    · obtain ⟨file, hfile, -⟩ := isSharedEntry_iff.mp hd
      refine .inl ⟨d, file.moved (fd d) path, ?_, rfl⟩
      rw [hm.table, hd, hfile]
      rfl

/-! ### One request -/

/-- Two handovers in a row. -/
theorem Handover.trans (h₁ : Handover s h s' h') (h₂ : Handover s' h' s'' h'') :
    Handover s h s'' h'' := by
  have hback : ∀ fd, Holds s' fd ∨ h'.descriptors.lookup fd = none →
      Holds s fd ∨ h.descriptors.lookup fd = none := by
    rintro fd (hfd | hfd)
    · exact h₁.fresh fd hfd
    · by_contra hno
      rw [not_or] at hno
      obtain ⟨e, he⟩ := Option.ne_none_iff_exists'.mp hno.2
      rw [h₁.others fd e hno.1 he] at hfd
      cases hfd
  refine ⟨h₂.owned, fun fd hfd => hback fd (h₂.fresh fd hfd), ?_,
    h₁.closes.trans (h₂.closes.mono hback)⟩
  intro fd e hfd he
  refine h₂.others fd e (fun hfd' => ?_) (h₁.others fd e hfd he)
  rcases h₁.fresh fd hfd' with hheld | hnone
  · exact hfd hheld
  · rw [he] at hnone
    cases hnone

/-- Neither of two steps leaks. -/
theorem NoLeak.trans (h₁ : NoLeak s h s' h') (h₂ : NoLeak s' h' s'' h'') :
    NoLeak s h s'' h'' := by
  intro fd e he
  rcases h₂ fd e he with hfd | ⟨hfd, hopen⟩
  · exact .inl hfd
  · obtain ⟨e', he'⟩ := Option.isSome_iff_exists.mp hopen
    rcases h₁ fd e' he' with hfd' | hrest
    · exact absurd hfd' hfd
    · exact .inr hrest

section Request

variable {sys : HostSystem} {context : GuestContext} {memory : GuestMemory}
variable {request : FileRequest}

/-- Preparing a write hands over the table, whether it fails or not. -/
theorem Handover.prepare (ho : Owned s h) {file : OpenFile} {ok : Bool}
    (hp : Prepared sys context file s h ok s' h') : Handover s h s' h' ∧ NoLeak s h s' h' := by
  cases hp with
  | own _ => exact Handover.of_unchanged ho (.refl h)
  | noDirectory _ _ => exact Handover.of_unchanged ho (.tick h)
  | discarded _ _ hd _ => exact Handover.of_discarded ho hd
  | copied _ _ hc hm => exact Handover.move ho (fun x => by rw [hc.descriptors]) hc.closes hm

/-- **One request.** It hands over the table of its VM, and leaks nothing as long as the
next descriptor is not in use. -/
theorem processFileRequest_handover (ho : Owned s h) :
    Handover s h (processFileRequest sys context memory request s h).state
        (processFileRequest sys context memory request s h).host ∧
      (s.nextDescriptor ∉ s.openFiles →
        NoLeak s h (processFileRequest sys context memory request s h).state
          (processFileRequest sys context memory request s h).host) := by
  have weaken : ∀ {s' : FileState} {h' : Host HostPath},
      Handover s h s' h' ∧ NoLeak s h s' h' →
      Handover s h s' h' ∧ (s.nextDescriptor ∉ s.openFiles → NoLeak s h s' h') :=
    fun hh => ⟨hh.1, fun _ => hh.2⟩
  have heffect := processFileRequest_effect sys context memory request s h
  generalize processFileRequest sys context memory request s h = reply at heffect ⊢
  cases heffect with
  | nothing _ hu => exact weaken (Handover.of_unchanged ho hu)
  | @opens name resolved fd h₁ h' _ _ _ hu hfd hopen =>
      obtain ⟨hfirst, hleak⟩ := Handover.of_unchanged ho hu
      let file : OpenFile := ⟨fd, request.flags, name, resolved.path, resolved.shared⟩
      obtain ⟨hsecond, hleak'⟩ := Handover.open hfirst.owned file hfd hopen
      exact ⟨hfirst.trans hsecond, fun hkey => hleak.trans (hleak' hkey)⟩
  | closes _ hfile => exact weaken (Handover.close ho hfile)
  | moves _ hfile hd => exact weaken (Handover.reposition ho hfile hd _ rfl rfl)
  | prepares _ _ hp hu =>
      obtain ⟨hfirst, hleak⟩ := Handover.prepare ho hp
      obtain ⟨hsecond, hleak'⟩ := Handover.of_unchanged hfirst.owned hu
      exact weaken ⟨hfirst.trans hsecond, hleak.trans hleak'⟩
  | writes _ _ hp hfile' hd _ =>
      obtain ⟨hfirst, hleak⟩ := Handover.prepare ho hp
      refine weaken
        ⟨hfirst.trans (Handover.reposition hfirst.owned hfile' hd _ ?_ ?_).1,
          hleak.trans (Handover.reposition hfirst.owned hfile' hd _ ?_ ?_).2⟩
      all_goals rfl

/-- The descriptors of a table, in the order they are walked over. -/
def heldEntries (openFiles : Finmap (fun _ : ℤ => OpenFile)) (ds : List ℤ) : List (ℤ × ℕ) :=
  ds.filterMap fun d => (openFiles.lookup d).map fun file => (d, file.hostDescriptor)

/-- The clean-up closes the descriptors of the table one by one. -/
theorem closeGuestFiles_eq (sys : HostSystem) (s : FileState) (h : Host HostPath) :
    (closeGuestFiles sys s h).2 =
      closeReopenedFiles (heldEntries s.openFiles (sys.iterate h.calls s.openFiles.keys)) h := by
  rw [closeGuestFiles, closeReopenedFiles, heldEntries, List.foldl_filterMap]
  dsimp only
  congr
  funext h d
  cases s.openFiles.lookup d <;> rfl

/-- The clean-up touches neither names nor files. -/
theorem closeGuestFiles_frame (sys : HostSystem) (s : FileState) (h : Host HostPath) :
    (closeGuestFiles sys s h).2.names = h.names ∧
      (closeGuestFiles sys s h).2.files = h.files ∧
      (closeGuestFiles sys s h).2.nextIno = h.nextIno := by
  rw [closeGuestFiles_eq]
  exact closeReopenedFiles_frame _ h

/-- The entries of a table that is walked over completely. -/
theorem mem_heldEntries (sys : HostSystem) (s : FileState) (k : ℕ) (x : ℤ × ℕ) :
    x ∈ heldEntries s.openFiles (sys.iterate k s.openFiles.keys) ↔
      ∃ file, s.openFiles.lookup x.1 = some file ∧ file.hostDescriptor = x.2 := by
  obtain ⟨d, fd⟩ := x
  simp only [heldEntries, List.mem_filterMap, Option.map_eq_some_iff, Prod.mk.injEq]
  constructor
  · rintro ⟨d', -, file, hfile, rfl, rfl⟩
    exact ⟨file, hfile, rfl⟩
  · rintro ⟨file, hfile, rfl⟩
    refine ⟨d, ?_, file, hfile, rfl, rfl⟩
    rw [sys.mem_iterate, Finmap.mem_keys]
    exact Finmap.mem_of_lookup_eq_some hfile

/-- An owned table holds each of its descriptors once. -/
theorem nodup_heldEntries (sys : HostSystem) (ho : Owned s h) (k : ℕ) :
    ((heldEntries s.openFiles (sys.iterate k s.openFiles.keys)).map Prod.snd).Nodup := by
  refine List.Nodup.map_on ?_ (List.Nodup.filterMap ?_ (sys.iterate_nodup _ _))
  · intro x hx y hy hxy
    obtain ⟨file, hfile, hfd⟩ := (mem_heldEntries sys s k x).mp hx
    obtain ⟨file', hfile', hfd'⟩ := (mem_heldEntries sys s k y).mp hy
    exact Prod.ext (ho.inj _ _ _ _ hfile hfile' (by rw [hfd, hfd', hxy])) hxy
  · intro d d' x hx hx'
    rw [Option.mem_def, Option.map_eq_some_iff] at hx hx'
    obtain ⟨file, -, rfl⟩ := hx
    obtain ⟨file', -, heq⟩ := hx'
    exact (congrArg Prod.fst heq).symm

/-- The clean-up at the end of a VM closes what the VM holds and nothing else. -/
theorem closeGuestFiles_handover (sys : HostSystem) (ho : Owned s h) :
    Handover s h (closeGuestFiles sys s h).1 (closeGuestFiles sys s h).2 ∧
      NoLeak s h (closeGuestFiles sys s h).1 (closeGuestFiles sys s h).2 := by
  have hheld : ∀ fd, fd ∈ (heldEntries s.openFiles
      (sys.iterate h.calls s.openFiles.keys)).map Prod.snd ↔ Holds s fd := by
    intro fd
    rw [List.mem_map]
    constructor
    · rintro ⟨x, hx, rfl⟩
      obtain ⟨file, hfile, heq⟩ := (mem_heldEntries sys s _ x).mp hx
      exact ⟨x.1, file, hfile, heq⟩
    · rintro ⟨d, file, hfile, rfl⟩
      exact ⟨(d, file.hostDescriptor), (mem_heldEntries sys s _ _).mpr ⟨file, hfile, rfl⟩, rfl⟩
  have heq := closeGuestFiles_eq sys s h
  refine ⟨⟨⟨?_, ?_⟩, ?_, ?_, ?_⟩, ?_⟩
  · intro d file hfile
    cases hfile
  · intro d d' file file' hfile
    cases hfile
  · rintro fd ⟨d, file, hfile, -⟩
    cases hfile
  · intro fd e hfd he
    rw [heq, lookup_closeReopenedFiles, if_neg (fun hmem' => hfd ((hheld fd).mp hmem')), he]
  · rw [heq]
    refine closeReopenedFiles_closes (nodup_heldEntries sys ho _) (fun x hx => ?_) fun x hx => ?_
    · obtain ⟨file, hfile, hfd⟩ := (mem_heldEntries sys s _ x).mp hx
      obtain ⟨e, he⟩ := ho.isOpen x.1 file hfile
      rw [← hfd, he]
      rfl
    · obtain ⟨file, hfile, hfd⟩ := (mem_heldEntries sys s _ x).mp hx
      exact .inl ⟨x.1, file, hfile, hfd⟩
  · intro fd e he
    rw [heq, lookup_closeReopenedFiles] at he
    split_ifs at he with hfd
    exact .inr ⟨fun hheld' => hfd ((hheld fd).mpr hheld'), by rw [he]; rfl⟩

end Request

/-! ### All VMs -/

variable {n : ℕ}

/-- Every table is owned, and no descriptor is held by two VMs. -/
structure EntriesApart (w : FileWorld n) : Prop where
  owned : ∀ vm, Owned (w.states vm) w.host
  apart : ∀ vm vm' fd, Holds (w.states vm) fd → Holds (w.states vm') fd → vm = vm'

/-- Every open descriptor is held by some VM. -/
def AllHeld (w : FileWorld n) : Prop :=
  ∀ fd e, w.host.descriptors.lookup fd = some e → ∃ vm, Holds (w.states vm) fd

/-- The world after one VM's step. -/
def FileWorld.update (w : FileWorld n) (vm : Fin n) (s : FileState) (h : Host HostPath) :
    FileWorld n :=
  { host := h, states := Function.update w.states vm s }

/-- A handover of one VM keeps the tables of all VMs apart. -/
theorem EntriesApart.update {w : FileWorld n} (ha : EntriesApart w) {vm : Fin n}
    {s' : FileState} {h' : Host HostPath} (hh : Handover (w.states vm) w.host s' h') :
    EntriesApart (w.update vm s' h') := by
  have hother : ∀ vm' fd, vm' ≠ vm → Holds (w.states vm') fd → ¬ Holds s' fd := by
    intro vm' fd hne hfd hfd'
    rcases hh.fresh fd hfd' with hheld | hnone
    · exact hne (ha.apart vm' vm fd hfd hheld)
    · obtain ⟨e, he⟩ := (ha.owned vm').lookup_of_holds hfd
      rw [hnone] at he
      cases he
  refine ⟨fun vm' => ?_, fun vm₁ vm₂ fd h₁ h₂ => ?_⟩
  · by_cases hvm : vm' = vm
    · subst hvm
      simpa [FileWorld.update] using hh.owned
    · simp only [FileWorld.update, Function.update_of_ne hvm]
      refine ⟨fun d file hfile => ?_, (ha.owned vm').inj⟩
      obtain ⟨e, he⟩ := (ha.owned vm').isOpen d file hfile
      refine ⟨e, hh.others _ e (fun hheld => ?_) he⟩
      exact hvm (ha.apart vm' vm _ ⟨d, file, hfile, rfl⟩ hheld)
  · by_cases hvm₁ : vm₁ = vm <;> by_cases hvm₂ : vm₂ = vm
    · rw [hvm₁, hvm₂]
    · subst hvm₁
      simp only [FileWorld.update, Function.update_self, Function.update_of_ne hvm₂] at h₁ h₂
      exact absurd h₁ (hother vm₂ fd hvm₂ h₂)
    · subst hvm₂
      simp only [FileWorld.update, Function.update_self, Function.update_of_ne hvm₁] at h₁ h₂
      exact absurd h₂ (hother vm₁ fd hvm₁ h₁)
    · simp only [FileWorld.update, Function.update_of_ne hvm₁, Function.update_of_ne hvm₂]
        at h₁ h₂
      exact ha.apart vm₁ vm₂ fd h₁ h₂

/-- A step that leaks nothing keeps every open descriptor held. -/
theorem AllHeld.update {w : FileWorld n} (hall : AllHeld w) {vm : Fin n}
    {s' : FileState} {h' : Host HostPath} (hleak : NoLeak (w.states vm) w.host s' h') :
    AllHeld (w.update vm s' h') := by
  intro fd e he
  rcases hleak fd e he with hfd | ⟨hfd, hopen⟩
  · exact ⟨vm, by simpa [FileWorld.update] using hfd⟩
  · obtain ⟨e', he'⟩ := Option.isSome_iff_exists.mp hopen
    obtain ⟨vm', hvm'⟩ := hall fd e' he'
    have hne : vm' ≠ vm := by
      rintro rfl
      exact hfd hvm'
    exact ⟨vm', by simpa [FileWorld.update, Function.update_of_ne hne] using hvm'⟩

/-! ### Runs -/

section Runs

variable (sys : HostSystem) (sharedFiles : List (String × HostPath))

/-- A request changes the state of the calling VM and the host. -/
theorem fileLayer_request (w : FileWorld n) (call : GuestCall n) :
    ((fileLayer sys sharedFiles).step w (.request call)).2 =
      w.update call.vm (replyTo sys sharedFiles w call).state
        (replyTo sys sharedFiles w call).host :=
  rfl

/-- A clean-up changes the state of its VM and the host. -/
theorem fileLayer_finish (w : FileWorld n) (vm : Fin n) :
    ((fileLayer sys sharedFiles).step w (.finish vm)).2 =
      w.update vm (closeGuestFiles sys (w.states vm) w.host).1
        (closeGuestFiles sys (w.states vm) w.host).2 :=
  rfl

/-- A step of the file layer is a handover of the VM it comes from. -/
theorem fileLayer_handover {w : FileWorld n} (ha : EntriesApart w) (input : FileInput n) :
    ∃ s' h', ((fileLayer sys sharedFiles).step w input).2 = w.update input.vm s' h' ∧
      Handover (w.states input.vm) w.host s' h' ∧
      ((w.states input.vm).nextDescriptor ∉ (w.states input.vm).openFiles →
        NoLeak (w.states input.vm) w.host s' h') := by
  cases input with
  | request call =>
      exact ⟨_, _, rfl, processFileRequest_handover (ha.owned call.vm)⟩
  | finish vm =>
      obtain ⟨hh, hleak⟩ := closeGuestFiles_handover sys (ha.owned vm)
      exact ⟨_, _, rfl, hh, fun _ => hleak⟩

/-- Whether an event is a successful open of the VM. -/
def isSuccessfulOpen (vm : Fin n) : FileInput n × Option Answer → Bool
  | (.request call, some answer) =>
    call.vm == vm && FileOperation.ofCode call.request.operation == some .openFile &&
      answer.result != -1
  | _ => false

/-- How often a VM has opened a file. -/
def successfulOpens (vm : Fin n) (tr : List (FileInput n × Option Answer)) : ℕ :=
  tr.countP (isSuccessfulOpen vm)

/-- How many opens a VM can make before its descriptor numbers wrap around. -/
def openLimit : ℕ := 2 ^ 31 - 3

/-- Below the limit the counter has counted the opens, and every descriptor in use is below
it. -/
def Counted (s : FileState) (opens : ℕ) : Prop :=
  opens < openLimit → s.nextDescriptor = 3 + opens ∧ ∀ d ∈ s.openFiles, d < s.nextDescriptor

omit sys sharedFiles in
/-- The next descriptor is free as long as the counter counts. -/
theorem Counted.fresh {s : FileState} {opens : ℕ} (hc : Counted s opens)
    (hlimit : opens < openLimit) : s.nextDescriptor ∉ s.openFiles :=
  fun hmem => lt_irrefl _ ((hc hlimit).2 _ hmem)

omit sys sharedFiles in
/-- Below the limit the counter does not wrap. -/
theorem increment_of_lt {s : FileState} {opens : ℕ} (hnext : s.nextDescriptor = 3 + opens)
    (hlimit : opens + 1 < openLimit) : s.increment = 3 + (opens + 1 : ℕ) := by
  rw [FileState.increment, hnext]
  rw [openLimit] at hlimit
  rw [Int.bmod_eq_of_le (by omega) (by omega)]
  push_cast
  omega

/-- One request keeps the count. -/
theorem Counted.processFileRequest (context : GuestContext) (memory : GuestMemory)
    (request : FileRequest) {s : FileState} (h : Host HostPath) {opens : ℕ}
    (hc : Counted s opens) :
    Counted (processFileRequest sys context memory request s h).state
      (opens + if FileOperation.ofCode request.operation = some .openFile ∧
        (processFileRequest sys context memory request s h).result ≠ -1 then 1 else 0) := by
  rcases processFileRequest_descriptors sys context memory request s h with
    ⟨hop, hresult, file, hstate⟩ | ⟨hnext, hkeys, hresult⟩
  · intro hlimit
    have hopens : opens < openLimit := lt_of_le_of_lt (Nat.le_add_right _ _) hlimit
    obtain ⟨hcount, hlt⟩ := hc hopens
    have hne : s.nextDescriptor ≠ -1 := by omega
    rw [if_pos ⟨hop, by rwa [hresult]⟩] at hlimit ⊢
    have hinc := increment_of_lt hcount hlimit
    rw [hstate]
    refine ⟨hinc, fun d hd => ?_⟩
    have hnew : (s.emplace file).nextDescriptor = s.increment := rfl
    rw [hnew, hinc]
    obtain ⟨file', hfile'⟩ := Finmap.mem_iff.mp hd
    rw [FileState.lookup_emplace] at hfile'
    split_ifs at hfile' with hd'
    · rw [hd'.1, hcount]
      push_cast
      omega
    · have := hlt d (Finmap.mem_of_lookup_eq_some hfile')
      rw [hcount] at this
      push_cast
      omega
  · rw [if_neg (fun hopen => hopen.2 (hresult hopen.1)), add_zero]
    intro hlimit
    obtain ⟨hcount, hlt⟩ := hc hlimit
    rw [hnext]
    exact ⟨hcount, fun d hd => hlt d (hkeys d hd)⟩

/-- One step of the file layer keeps the counts of all VMs. -/
theorem counted_step {w : FileWorld n} {tr : List (FileInput n × Option Answer)}
    (hc : ∀ vm, Counted (w.states vm) (successfulOpens vm tr)) (input : FileInput n)
    (vm : Fin n) :
    Counted (((fileLayer sys sharedFiles).step w input).2.states vm)
      (successfulOpens vm ((input, ((fileLayer sys sharedFiles).step w input).1) :: tr)) := by
  rw [successfulOpens, List.countP_cons, ← successfulOpens]
  cases input with
  | finish vm' =>
      by_cases hvm : vm = vm'
      · subst hvm
        simp only [fileLayer, closeGuestFiles, Function.update_self, isSuccessfulOpen]
        intro hlimit
        refine ⟨(hc vm hlimit).1, fun d hd => ?_⟩
        exact absurd hd Finmap.notMem_empty
      · simpa [fileLayer, Function.update_of_ne hvm, isSuccessfulOpen] using hc vm
  | request call =>
      by_cases hvm : vm = call.vm
      · subst hvm
        have := (hc call.vm).processFileRequest sys (contextOf sharedFiles call.vm) call.memory
          call.request w.host
        simpa [fileLayer, fileServer, replyTo, isSuccessfulOpen] using this
      · simpa [fileLayer, fileServer, Function.update_of_ne hvm, isSuccessfulOpen, Ne.symm hvm]
          using hc vm

/-- What holds along every run: tables are apart, opens are counted, every `close` so far
was on an open number, and below the limit every open descriptor is held. -/
structure Accounted (tr : List (FileInput n × Option Answer)) (w : FileWorld n) : Prop where
  apart : EntriesApart w
  counted : ∀ vm, Counted (w.states vm) (successfulOpens vm tr)
  closes : ∀ c ∈ w.host.closes, c.2 = true
  held : (∀ vm, successfulOpens vm tr < openLimit) → AllHeld w

/-- Everything is accounted for in every run. -/
theorem accounted_of_run {h : Host HostPath} {tr : List (FileInput n × Option Answer)}
    {w : FileWorld n}
    (hrun : ((fileLayer sys sharedFiles).machine (FileWorld.start h)).Run
      (fun _ _ => True) tr w) : Accounted tr w := by
  refine Machine.Run.invariant (I := Accounted) ⟨⟨fun vm => ⟨?_, ?_⟩, ?_⟩, ?_, ?_, ?_⟩ ?_ hrun
  · intro d file hfile
    cases hfile
  · intro d d' file file' hfile
    cases hfile
  · rintro vm vm' fd ⟨d, file, hfile, -⟩
    cases hfile
  · intro vm _
    exact ⟨rfl, fun d hd => absurd hd Finmap.notMem_empty⟩
  · intro c hc
    cases hc
  · intro _ fd e he
    cases he
  · intro tr w input event u hI _ hstep
    rw [Transducer.machine_step, Option.some.injEq, Prod.mk.injEq] at hstep
    obtain ⟨rfl, rfl⟩ := hstep
    obtain ⟨s', h', hw, hh, hleak⟩ := fileLayer_handover sys sharedFiles hI.apart input
    refine ⟨?_, counted_step sys sharedFiles hI.counted input, ?_, ?_⟩
    · rw [hw]
      exact hI.apart.update hh
    · rw [hw]
      obtain ⟨new, heq, hnew⟩ := hh.closes
      intro c hc
      have hc : c ∈ h'.closes := hc
      rw [heq, List.mem_append] at hc
      exact hc.elim (fun hc => (hnew c hc).1) (hI.closes c)
    · intro hlimit
      have hbefore : ∀ vm, successfulOpens vm tr < openLimit :=
        fun vm => lt_of_le_of_lt (List.Sublist.countP_le (List.sublist_cons_self _ _)) (hlimit vm)
      rw [hw]
      exact (hI.held hbefore).update (hleak ((hI.counted input.vm).fresh (hbefore input.vm)))

/-- **Host descriptor ownership.** In every run of requests and clean-ups of any number of
VMs, whatever host calls fail, in which no VM reaches the limit of opens:

* the host descriptors of all tables are open and pairwise distinct;
* the open descriptors are exactly those some table holds;
* every `close` so far was on an open number, and every `close` of the next step is on an
  open number that the acting VM holds or that the step itself opened;
* after its clean-up a VM holds none. -/
theorem descriptors_owned (sys : HostSystem) (sharedFiles : List (String × HostPath))
    (h : Host HostPath) (tr : List (FileInput n × Option Answer)) (w : FileWorld n)
    (hrun : ((fileLayer sys sharedFiles).machine (FileWorld.start h)).Run
      (fun _ _ => True) tr w)
    (hlimit : ∀ vm, successfulOpens vm tr < openLimit) :
    EntriesApart w ∧
      (∀ fd, (w.host.descriptors.lookup fd).isSome ↔ ∃ vm, Holds (w.states vm) fd) ∧
      (∀ c ∈ w.host.closes, c.2 = true) ∧
      (∀ input, w.host.Closes
        (fun fd => Holds (w.states input.vm) fd ∨ w.host.descriptors.lookup fd = none)
        ((fileLayer sys sharedFiles).step w input).2.host) ∧
      ∀ vm fd, ¬ Holds (((fileLayer sys sharedFiles).step w (.finish vm)).2.states vm) fd := by
  have hI := accounted_of_run sys sharedFiles hrun
  refine ⟨hI.apart, fun fd => ⟨fun hopen => ?_, ?_⟩, hI.closes, fun input => ?_, ?_⟩
  · obtain ⟨e, he⟩ := Option.isSome_iff_exists.mp hopen
    exact hI.held hlimit fd e he
  · rintro ⟨vm, hvm⟩
    obtain ⟨e, he⟩ := (hI.apart.owned vm).lookup_of_holds hvm
    rw [he]
    rfl
  · obtain ⟨s', h', hw, hh, -⟩ := fileLayer_handover sys sharedFiles hI.apart input
    rw [hw]
    exact hh.closes
  · rintro vm fd ⟨d, file, hfile, -⟩
    simp only [fileLayer, closeGuestFiles, Function.update_self] at hfile
    cases hfile

/-- The result applies to a run with a switch to a private copy, whose old descriptor the
switch has closed. -/
theorem descriptors_owned_copyThenReopen :
    ∃ tr, ∃ w : FileWorld 1,
      ((fileLayer (plainSystem fun _ => .completes) [("a", ["srv", "a"])]).machine
        (FileWorld.start sharedA)).Run (fun _ _ => True) tr w ∧
      w.host.closes = [(1, true)] ∧
      EntriesApart w ∧
      ∀ fd, (w.host.descriptors.lookup fd).isSome ↔ ∃ vm, Holds (w.states vm) fd := by
  have hexec : (((fileLayer (plainSystem fun _ => .completes) [("a", ["srv", "a"])]).machine
      (FileWorld.start sharedA)).exec (fun _ _ => True) (FileWorld.start sharedA)
      (copyThenReopen.map .request)).map
      (fun p => (successfulOpens 0 p.1, p.2.host.closes)) = some (2, [(1, true)]) := by
    decide +kernel
  obtain ⟨tr, w, hrun, hobs⟩ := Machine.exists_of_exec hexec
  rw [Prod.mk.injEq] at hobs
  have hlimit : ∀ vm, successfulOpens vm tr < openLimit := by
    intro vm
    rw [Subsingleton.elim vm 0, hobs.1]
    decide
  obtain ⟨hapart, hheld, -⟩ := descriptors_owned _ _ sharedA tr w hrun hlimit
  exact ⟨tr, w, hrun, hobs.2, hapart, hheld⟩

end Runs

end KvmHypervisor
