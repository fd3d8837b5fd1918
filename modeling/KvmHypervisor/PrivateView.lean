import KvmHypervisor.FaultlessRequests
import KvmHypervisor.PrivateFiles

/-!
# The Private View of the Host

How the directories of `PrivateFiles` show on a host, in which a shared file may not have
been copied yet. A name of a VM stands for the file of its local path if there is one. If
there is none and the name is shared, it stands for a private copy that is still pending:
its bytes are those of the original, and it is settled when the copy is made. Files that were
there at the start, with inodes below a bound, may have many names; a file made later has one.

## Main results

* `Shows.setFile`, `Shows.link`: a file of a directory is changed or created.
* `Shows.copy`: a private copy shows as the pending one, settled.
* `TableShows.emplace`, `TableShows.close`, `TableShows.seek`, `TableShows.move`: what becomes
  of the descriptors.
-/

namespace KvmHypervisor

open PosixFiles Transitions

variable {n : ℕ} (sys : HostSystem) (sharedFiles : List (String × HostPath)) (b : ℕ)

/-! ### Names -/

/-- The identity of the file behind a name: below the bound `b` the file was there at the
start. -/
def idOf (vm : Fin n) (name : String) (m : ℕ) : FileId n :=
  if m < b then .initial m else .own vm name

/-- What a name of a VM stands for on a host. -/
inductive Stands (h : Host HostPath) (files : FileId n → File) (vm : Fin n) (name : String) :
    Option (FileId n) → Prop
  | missing : h.names (sys.localPathAt vm name) = none →
      (∀ path o, sharedFiles.lookup name = some path → h.names path = some o →
        (h.files o).readable = false) →
      Stands h files vm name none
  | named {m : ℕ} : h.names (sys.localPathAt vm name) = some m →
      h.files m = files (idOf b vm name m) →
      Stands h files vm name (some (idOf b vm name m))
  | pending {path : HostPath} {o : ℕ} : h.names (sys.localPathAt vm name) = none →
      sharedFiles.lookup name = some path → h.names path = some o →
      (h.files o).readable = true →
      files (.own vm name) = (h.files o).addOwnerWrite →
      Stands h files vm name (some (.own vm name))

/-- The directories and files that show on a host. Originals lie outside the local paths, and
this process is the owner of every file made later. -/
structure Shows (h : Host HostPath) (names : Fin n → String → Option (FileId n))
    (files : FileId n → File) : Prop where
  stands : ∀ vm name, Stands sys sharedFiles b h files vm name (names vm name)
  single : ∀ (vm vm' : Fin n) name name' m, b ≤ m → h.names (sys.localPathAt vm name) = some m →
    h.names (sys.localPathAt vm' name') = some m → vm = vm' ∧ name = name'
  originals : ∀ name path, sharedFiles.lookup name = some path →
    ∃ o, h.names path = some o ∧
      ∀ (vm : Fin n) name', h.names (sys.localPathAt vm name') ≠ some o
  bound : b ≤ h.nextIno
  owned : ∀ (vm : Fin n) name m, b ≤ m → h.names (sys.localPathAt vm name) = some m →
    (h.files m).readable = (h.files m).ownerReadable

variable {sys sharedFiles b}
variable {h h' : Host HostPath} {names : Fin n → String → Option (FileId n)}
variable {files : FileId n → File} {vm : Fin n} {name : String}

/-- An own file is the own file of one name. -/
theorem idOf_eq_own {vm vm' : Fin n} {name name' : String} {m : ℕ}
    (heq : idOf b vm name m = .own vm' name') : b ≤ m ∧ vm = vm' ∧ name = name' := by
  rw [idOf] at heq
  split_ifs at heq with hm
  obtain ⟨rfl, rfl⟩ := FileId.own.inj heq
  exact ⟨not_lt.mp hm, rfl, rfl⟩

/-- Names stand for the same file exactly if they have the same inode. -/
theorem Shows.idOf_inj (hs : Shows sys sharedFiles b h names files) {vm' : Fin n}
    {name' : String} {m m' : ℕ} (hm : h.names (sys.localPathAt vm name) = some m)
    (hm' : h.names (sys.localPathAt vm' name') = some m') :
    idOf b vm name m = idOf b vm' name' m' ↔ m = m' := by
  constructor
  · intro heq
    by_cases hb : m' < b
    · rw [idOf, idOf, if_pos hb] at heq
      split_ifs at heq
      exact FileId.initial.inj heq
    · rw [idOf, idOf, if_neg hb, ← idOf] at heq
      obtain ⟨-, rfl, rfl⟩ := idOf_eq_own heq
      exact Option.some.inj (hm.symm.trans hm')
  · rintro rfl
    by_cases hb : m < b
    · rw [idOf, idOf, if_pos hb, if_pos hb]
    · obtain ⟨rfl, rfl⟩ := hs.single _ _ _ _ m (not_lt.mp hb) hm hm'
      rfl

/-- The name stands for the file of the local path. -/
theorem Shows.named (hs : Shows sys sharedFiles b h names files) {m : ℕ}
    (hm : h.names (sys.localPathAt vm name) = some m) :
    names vm name = some (idOf b vm name m) ∧ h.files m = files (idOf b vm name m) := by
  have hst := hs.stands vm name
  generalize names vm name = id at hst
  cases hst with
  | missing hnone _ =>
      rw [hm] at hnone
      cases hnone
  | named hm' hfile =>
      obtain rfl := Option.some.inj (hm.symm.trans hm')
      exact ⟨rfl, hfile⟩
  | pending hnone _ _ _ _ =>
      rw [hm] at hnone
      cases hnone

/-- Without a local file, a readable original stands for its pending copy. -/
theorem Shows.pending (hs : Shows sys sharedFiles b h names files)
    (hnone : h.names (sys.localPathAt vm name) = none) {path : HostPath} {o : ℕ}
    (hl : sharedFiles.lookup name = some path) (ho : h.names path = some o)
    (hread : (h.files o).readable = true) :
    names vm name = some (.own vm name) ∧
      files (.own vm name) = (h.files o).addOwnerWrite := by
  have hst := hs.stands vm name
  generalize names vm name = id at hst
  cases hst with
  | missing _ hno =>
      rw [hno path o hl ho] at hread
      cases hread
  | named hm' _ =>
      rw [hnone] at hm'
      cases hm'
  | pending _ hl' ho' _ hfile =>
      obtain rfl := Option.some.inj (hl.symm.trans hl')
      obtain rfl := Option.some.inj (ho.symm.trans ho')
      exact ⟨rfl, hfile⟩

/-! ### Changes of the host -/

/-- A file that has a name is settled. -/
theorem Shows.settled_named (hs : Shows sys sharedFiles b h names files) {m : ℕ}
    (hm : h.names (sys.localPathAt vm name) = some m) :
    settled (idOf b vm name m) (files (idOf b vm name m)) = files (idOf b vm name m) := by
  obtain ⟨-, hfile⟩ := hs.named hm
  rw [← hfile, idOf]
  split_ifs with hb
  · rfl
  · exact settled_eq_self (hs.owned vm name m (not_lt.mp hb) hm)

/-- Only names and the files behind them show. -/
theorem Shows.of_le (hs : Shows sys sharedFiles b h names files) (hnames : h'.names = h.names)
    (hfiles : ∀ m < h.nextIno, h'.files m = h.files m) (hnext : h.nextIno ≤ h'.nextIno) :
    Shows sys sharedFiles b h' names files := by
  have hsame : ∀ {path m}, h.names path = some m → h'.files m = h.files m :=
    fun hm => hfiles _ (h.named_lt _ _ hm)
  constructor
  case stands =>
    intro vm name
    have hst := hs.stands vm name
    generalize names vm name = id at hst ⊢
    cases hst with
    | missing hnone hno =>
        refine .missing (by rw [hnames, hnone]) fun path o hl ho => ?_
        rw [hnames] at ho
        rw [hsame ho, hno path o hl ho]
    | named hm hfile => exact .named (by rw [hnames, hm]) (by rw [hsame hm, hfile])
    | pending hnone hl ho hread hfile =>
        exact .pending (by rw [hnames, hnone]) hl (by rw [hnames, ho]) (by rw [hsame ho, hread])
          (by rw [hsame ho, hfile])
  case single =>
    rw [hnames]
    exact hs.single
  case originals =>
    rw [hnames]
    exact hs.originals
  case bound => exact hs.bound.trans hnext
  case owned =>
    intro vm name m hb hm
    rw [hnames] at hm
    rw [hsame hm]
    exact hs.owned vm name m hb hm

/-- Only names and files show. -/
theorem Shows.of_eq (hs : Shows sys sharedFiles b h names files) (hnames : h'.names = h.names)
    (hfiles : h'.files = h.files) (hnext : h'.nextIno = h.nextIno) :
    Shows sys sharedFiles b h' names files :=
  hs.of_le hnames (fun _ _ => by rw [hfiles]) hnext.ge

/-- A file of a directory gets other bytes. -/
theorem Shows.setFile (hs : Shows sys sharedFiles b h names files) {m : ℕ}
    (hm : h.names (sys.localPathAt vm name) = some m) {f : File}
    (hf : f.readable = (h.files m).readable ∧ f.ownerReadable = (h.files m).ownerReadable) :
    Shows sys sharedFiles b (h.setFile m f) names
      (Function.update files (idOf b vm name m) f) where
  stands vm' name' := by
    have hst := hs.stands vm' name'
    generalize names vm' name' = id at hst ⊢
    -- originals are files of their own
    have horiginal : ∀ path o, sharedFiles.lookup name' = some path → h.names path = some o →
        (h.setFile m f).files o = h.files o := by
      intro path o hl ho
      obtain ⟨o', ho', hout⟩ := hs.originals name' path hl
      obtain rfl := Option.some.inj (ho.symm.trans ho')
      refine Function.update_of_ne ?_ f h.files
      rintro rfl
      exact hout vm name hm
    cases hst with
    | missing hnone hno =>
        refine .missing hnone fun path o hl ho => ?_
        rw [horiginal path o hl ho]
        exact hno path o hl ho
    | @named m' hm' hfile =>
        refine .named hm' ?_
        rw [Host.files_setFile, Function.update_apply, Function.update_apply]
        simp only [hs.idOf_inj hm' hm, hfile]
    | pending hnone hl ho hread hfile =>
        rw [← horiginal _ _ hl ho] at hread hfile
        refine .pending hnone hl ho hread ?_
        rw [Function.update_of_ne, hfile]
        intro heq
        obtain ⟨-, rfl, rfl⟩ := idOf_eq_own heq.symm
        rw [hm] at hnone
        cases hnone
  single := hs.single
  originals := hs.originals
  bound := hs.bound
  owned vm' name' m' hb hm' := by
    have howned := hs.owned vm' name' m' hb hm'
    rw [Host.files_setFile, Function.update_apply]
    split_ifs with hmm
    · subst hmm
      rw [hf.1, hf.2, howned]
    · exact howned

/-- A file of this process is created in a directory. -/
theorem Shows.link (hs : Shows sys sharedFiles b h names files)
    (hnone : h.names (sys.localPathAt vm name) = none) {f : File}
    (hf : f.readable = f.ownerReadable) :
    Shows sys sharedFiles b (h.link (sys.localPathAt vm name) f)
      (Function.update names vm (Function.update (names vm) name (some (.own vm name))))
      (Function.update files (.own vm name) f) where
  stands vm' name' := by
    by_cases hname : vm' = vm ∧ name' = name
    · obtain ⟨rfl, rfl⟩ := hname
      have hid : idOf b vm' name' h.nextIno = .own vm' name' := if_neg (not_lt.mpr hs.bound)
      rw [Function.update_self, Function.update_self, ← hid]
      refine .named ?_ ?_
      · rw [Host.names_link, Function.update_self]
      · rw [Host.files_link, Function.update_self, Function.update_self]
    · have hsame : Function.update names vm (Function.update (names vm) name
          (some (.own vm name))) vm' name' = names vm' name' := by
        rw [Function.update_apply]
        split_ifs with hvm
        · subst hvm
          rw [Function.update_of_ne fun heq => hname ⟨rfl, heq⟩]
        · rfl
      have hpath : sys.localPathAt vm' name' ≠ sys.localPathAt vm name := by
        intro heq
        obtain ⟨hvm, hname'⟩ := localPath_inj.mp heq
        exact hname ⟨Fin.ext hvm, hname'⟩
      have hown : (.own vm' name' : FileId n) ≠ .own vm name := by
        intro heq
        exact hname (FileId.own.inj heq)
      -- other files and the names of originals are as before
      have hold : ∀ p m, h.names p = some m →
          (h.link (sys.localPathAt vm name) f).files m = h.files m := by
        intro p m hp
        rw [Host.files_link, Function.update_of_ne (h.nextIno_ne_of_named hp)]
      have horiginal : ∀ path, sharedFiles.lookup name' = some path →
          (h.link (sys.localPathAt vm name) f).names path = h.names path := by
        intro path hl
        obtain ⟨o, ho, -⟩ := hs.originals name' path hl
        refine Function.update_of_ne ?_ _ h.names
        rintro rfl
        rw [hnone] at ho
        cases ho
      have hlocal : (h.link (sys.localPathAt vm name) f).names (sys.localPathAt vm' name') =
          h.names (sys.localPathAt vm' name') := Function.update_of_ne hpath _ h.names
      rw [hsame]
      have hst := hs.stands vm' name'
      generalize names vm' name' = id at hst ⊢
      cases hst with
      | missing hnone' hno =>
          refine .missing (hlocal.trans hnone') fun path o hl ho => ?_
          rw [horiginal path hl] at ho
          rw [hold path o ho]
          exact hno path o hl ho
      | @named m hm hfile =>
          refine .named (hlocal.trans hm) ?_
          rw [hold _ m hm, Function.update_of_ne, hfile]
          intro heq
          obtain ⟨-, hvm, hname'⟩ := idOf_eq_own heq
          exact hname ⟨hvm, hname'⟩
      | @pending path o hnone' hl ho hread hfile =>
          rw [← hold path o ho] at hread hfile
          refine .pending (hlocal.trans hnone') hl ((horiginal path hl).trans ho) hread ?_
          rw [Function.update_of_ne hown, hfile]
  single vm₁ vm₂ name₁ name₂ m hb hm₁ hm₂ := by
    rw [Host.names_link, Function.update_apply] at hm₁ hm₂
    split_ifs at hm₁ hm₂ with h₁ h₂ h₂
    · obtain ⟨hvm₁, rfl⟩ := localPath_inj.mp h₁
      obtain ⟨hvm₂, rfl⟩ := localPath_inj.mp h₂
      exact ⟨Fin.ext (hvm₁.trans hvm₂.symm), rfl⟩
    · obtain rfl := Option.some.inj hm₁
      exact absurd rfl (h.nextIno_ne_of_named hm₂)
    · obtain rfl := Option.some.inj hm₂
      exact absurd rfl (h.nextIno_ne_of_named hm₁)
    · exact hs.single _ _ _ _ m hb hm₁ hm₂
  originals name' path hl := by
    obtain ⟨o, ho, hout⟩ := hs.originals name' path hl
    refine ⟨o, ?_, fun vm' name'' hlocal => ?_⟩
    · rw [Host.names_link, Function.update_of_ne, ho]
      rintro rfl
      rw [hnone] at ho
      cases ho
    · rw [Host.names_link, Function.update_apply] at hlocal
      split_ifs at hlocal
      · exact h.nextIno_ne_of_named ho (Option.some.inj hlocal).symm
      · exact hout vm' name'' hlocal
  bound := hs.bound.trans (Nat.le_succ _)
  owned vm' name' m hb hm := by
    rw [Host.names_link, Function.update_apply] at hm
    split_ifs at hm
    · obtain rfl := Option.some.inj hm
      rw [Host.files_link, Function.update_self, hf]
    · rw [Host.files_link, Function.update_of_ne (h.nextIno_ne_of_named hm)]
      exact hs.owned vm' name' m hb hm

/-- **A private copy is made**: the copy that was pending is settled. -/
theorem Shows.copy (hs : Shows sys sharedFiles b h names files)
    (hnone : h.names (sys.localPathAt vm name) = none) {path : HostPath} {o : ℕ}
    (hl : sharedFiles.lookup name = some path) (ho : h.names path = some o)
    (hread : (h.files o).readable = true) :
    Shows sys sharedFiles b
      (h.link (sys.localPathAt vm name) (h.files o).copied.addOwnerWrite) names
      (settle files (.own vm name)) := by
  obtain ⟨hname, hfile⟩ := hs.pending hnone hl ho hread
  have hlink := hs.link hnone (f := (h.files o).copied.addOwnerWrite) rfl
  rw [← hname, Function.update_eq_self, Function.update_eq_self] at hlink
  rw [settle, hfile]
  exact hlink

/-! ### Descriptors -/

/-- An entry shows as a descriptor on the file its name stands for, at the offset of its
description. -/
structure EntryShows (h : Host HostPath) (names : String → Option (FileId n)) (file : OpenFile)
    (entry : PrivateEntry n) : Prop where
  stands : names file.name = some entry.file
  flags : entry.flags = file.flags
  offset : ∃ e, h.descriptors.lookup file.hostDescriptor = some e ∧ e.offset = entry.offset

/-- The entries of a table show as the descriptors of a VM. -/
structure TableShows (s : FileState) (h : Host HostPath) (p : PrivateState n) : Prop where
  next : p.nextDescriptor = s.nextDescriptor
  entries : ∀ d, Option.Rel (EntryShows h p.names) (s.openFiles.lookup d) (p.entries d)

section Tables

variable {s s' : FileState} {p : PrivateState n} {d : ℤ} {file : OpenFile}
variable {entry : PrivateEntry n} {e : Description}

/-- An entry shows. -/
theorem TableShows.of_some (ht : TableShows s h p) (hfile : s.openFiles.lookup d = some file) :
    ∃ entry, p.entries d = some entry ∧ EntryShows h p.names file entry := by
  have hrel := ht.entries d
  rw [hfile] at hrel
  generalize p.entries d = shown at hrel ⊢
  cases hrel with
  | some hentry => exact ⟨_, rfl, hentry⟩

/-- No other descriptor shows. -/
theorem TableShows.of_none (ht : TableShows s h p) (hfile : s.openFiles.lookup d = none) :
    p.entries d = none := by
  have hrel := ht.entries d
  rw [hfile] at hrel
  generalize p.entries d = shown at hrel ⊢
  cases hrel with
  | none => rfl

/-- Only the descriptions of its own entries show in a table. -/
theorem TableShows.keep (ht : TableShows s h p)
    (hd : ∀ d file e, s.openFiles.lookup d = some file →
      h.descriptors.lookup file.hostDescriptor = some e →
      h'.descriptors.lookup file.hostDescriptor = some e) : TableShows s h' p where
  next := ht.next
  entries d := by
    cases hfile : s.openFiles.lookup d with
    | none =>
        rw [ht.of_none hfile]
        exact .none
    | some file =>
        obtain ⟨entry, hentry, hstands, hflags, e, he, hoffset⟩ := ht.of_some hfile
        rw [hentry]
        exact .some ⟨hstands, hflags, e, hd d file e hfile he, hoffset⟩

/-- A new entry shows as a new descriptor. -/
theorem TableShows.emplace (ht : TableShows s h p) (hentry : EntryShows h p.names file entry) :
    TableShows (s.emplace file) h (p.emplace entry) where
  next := by
    rw [PrivateState.emplace, FileState.emplace, FileState.increment, ht.next]
  entries d := by
    rw [FileState.lookup_emplace, PrivateState.emplace]
    dsimp only
    rw [ht.next]
    by_cases hused : s.nextDescriptor ∈ s.openFiles
    · obtain ⟨file', hfile'⟩ := Finmap.mem_iff.mp hused
      obtain ⟨entry', hentry', -⟩ := ht.of_some hfile'
      have hshown : (p.entries s.nextDescriptor).isSome = true := by
        rw [hentry']
        rfl
      rw [if_neg fun hnew => hnew.2 hused, hshown, if_pos rfl]
      exact ht.entries d
    · have hfree : (p.entries s.nextDescriptor).isSome = false := by
        rw [ht.of_none (Finmap.lookup_eq_none.mpr hused)]
        rfl
      rw [hfree, if_neg Bool.false_ne_true, Function.update_apply]
      by_cases hd : d = s.nextDescriptor
      · rw [if_pos ⟨hd, hused⟩, if_pos hd]
        exact .some hentry
      · rw [if_neg (fun hnew => hd hnew.1), if_neg hd]
        exact ht.entries d

/-- A name that stood for nothing is that of no entry. -/
theorem TableShows.create (ht : TableShows s h p) {name : String}
    (hname : p.names name = none) (id : FileId n) : TableShows s h (p.create name id) where
  next := ht.next
  entries d := by
    cases hfile : s.openFiles.lookup d with
    | none =>
        rw [PrivateState.create]
        dsimp only
        rw [ht.of_none hfile]
        exact .none
    | some file =>
        obtain ⟨entry, hentry, hstands, hflags, hoffset⟩ := ht.of_some hfile
        rw [PrivateState.create]
        dsimp only
        rw [hentry]
        refine .some ⟨?_, hflags, hoffset⟩
        rw [Function.update_of_ne, hstands]
        rintro rfl
        rw [hname] at hstands
        cases hstands

/-- An entry is taken away and its descriptor closed. -/
theorem TableShows.close (ht : TableShows s h p) (ho : Owned s h)
    (hfile : s.openFiles.lookup d = some file) :
    TableShows { s with openFiles := s.openFiles.erase d } (h.release file.hostDescriptor)
      (p.close d) := by
  have herased : TableShows { s with openFiles := s.openFiles.erase d } h (p.close d) := by
    refine ⟨ht.next, fun d' => ?_⟩
    rw [lookup_erase_eq, PrivateState.close]
    dsimp only
    rw [Function.update_apply]
    split_ifs
    · exact .none
    · exact ht.entries d'
  refine herased.keep fun d' file' e hfile' he => ?_
  rw [lookup_erase_eq] at hfile'
  split_ifs at hfile' with hd
  rw [Host.lookup_release, if_neg, he]
  intro heq
  exact hd (ho.inj d' d file' file hfile' hfile heq)

/-- The description of an entry moves. -/
theorem TableShows.seek (ht : TableShows s h p) (ho : Owned s h)
    (hfile : s.openFiles.lookup d = some file)
    (he : h.descriptors.lookup file.hostDescriptor = some e)
    (hentry : p.entries d = some entry) (hdescriptors : h'.descriptors = h.descriptors)
    (offset : ℕ) :
    TableShows s (h'.reposition file.hostDescriptor offset) (p.seek d entry offset) where
  next := ht.next
  entries d' := by
    have he' : h'.descriptors.lookup file.hostDescriptor = some e := by
      rw [hdescriptors, he]
    rw [PrivateState.seek]
    dsimp only
    rw [Function.update_apply]
    by_cases hd : d' = d
    · subst hd
      obtain ⟨entry', hentry', hstands, hflags, -⟩ := ht.of_some hfile
      obtain rfl := Option.some.inj (hentry.symm.trans hentry')
      rw [if_pos rfl, hfile]
      exact .some ⟨hstands, hflags, _, by rw [Host.lookup_reposition he', if_pos rfl], rfl⟩
    · rw [if_neg hd]
      cases hfile' : s.openFiles.lookup d' with
      | none =>
          rw [ht.of_none hfile']
          exact .none
      | some file' =>
          obtain ⟨entry', hentry', hstands, hflags, e', hlookup, hoffset⟩ := ht.of_some hfile'
          rw [hentry']
          refine .some ⟨hstands, hflags, e', ?_, hoffset⟩
          rw [Host.lookup_reposition he', if_neg, hdescriptors, hlookup]
          intro heq
          exact hd (ho.inj d' d file' file hfile' hfile heq)

/-- Entries that move to a private copy keep their flags and offsets. -/
theorem TableShows.move (ht : TableShows s h p) (ho : Owned s h) {name : String}
    {path : HostPath} {m : ℕ} {fd : ℤ → ℕ} (hm : Moved s s' name path m fd h h') :
    TableShows s' h' p where
  next := by rw [hm.nextDescriptor, ht.next]
  entries d := by
    rw [hm.table]
    cases hfile : s.openFiles.lookup d with
    | none =>
        rw [ht.of_none hfile, Option.map_none, ite_self]
        exact .none
    | some file =>
        obtain ⟨entry, hentry, hstands, hflags, e, he, hoffset⟩ := ht.of_some hfile
        rw [hentry]
        split_ifs with hshared
        · refine .some ⟨hstands, hflags, _, hm.moved ho.isOpen d file e hshared hfile he, hoffset⟩
        · refine .some ⟨hstands, hflags, e, ?_, hoffset⟩
          refine hm.kept _ e he fun d' file' hd' hfile' heq => ?_
          obtain rfl := ho.inj d' d file' file hfile' hfile heq
          exact hshared hd'

end Tables

end KvmHypervisor
