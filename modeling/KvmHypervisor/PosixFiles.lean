import Mathlib.Data.Finmap
import Mathlib.Data.Nat.Notation
import Mathlib.Logic.Function.Basic

/-!
# Regular Files Behind POSIX Calls

A host file system as a process sees it through `open`, `close`, `lseek`, `read`, `write`
and the file operations of a standard library: names that resolve to inodes, inodes that
hold bytes and permissions, and open file descriptions that hold an offset. Several names
may resolve to one inode, and a file lives on under its open descriptors when its name is
removed. The library is generic in the type of paths and names nothing of the program
that makes the calls.

A `Kernel` decides what the caller cannot: how each call ends and which free descriptor
number an `open` gets. `close` and `remove` always do what they say; every other call may
fail. Directories are not represented: creating one changes no regular file.

## Main results

* `Host.openAt_cases`, `Host.lseek_cases`, `Host.copyFile_cases` — everything one call can
  do, failures included;
* `Host.openAt_of_faultless` and its companions — what the calls do when none of them
  fails without cause;
* `overwrite` and the frame lemmas — which file a `write` touches.
-/

namespace PosixFiles

/-- A regular file: its bytes, what its permissions let this process do, and what they would
let it do as the owner of the file. The two differ for the file of another user. -/
structure File where
  bytes : List UInt8
  readable : Bool
  writable : Bool
  ownerReadable : Bool
  ownerWritable : Bool
deriving DecidableEq

/-- A file of this process that it may read and write. -/
def File.made (bytes : List UInt8) : File :=
  ⟨bytes, true, true, true, true⟩

/-- A copy by this process: it has the permissions of the file, and this process as its owner. -/
def File.copied (f : File) : File :=
  { f with readable := f.ownerReadable, writable := f.ownerWritable }

/-- A file of this process after `owner_write` was added to its permissions. -/
def File.addOwnerWrite (f : File) : File :=
  { f with writable := true, ownerWritable := true }

/-- An open file description: the file, the offset, and the access it was opened with. -/
structure Description where
  ino : ℕ
  offset : ℕ
  readable : Bool
  writable : Bool
deriving DecidableEq

/-- The access and creation flags of an `open`. -/
structure OpenMode where
  readable : Bool
  writable : Bool
  create : Bool
deriving DecidableEq

/-- The starting point of an `lseek`. -/
inductive Whence
  | set
  | cur
  | fromEnd
deriving DecidableEq

/-- How a host call ends: it completes, it fails (and a failing copy may leave the first
bytes of its target behind), or, for a read or a write, it stops early. -/
inductive Outcome
  | completes
  | fails (left : Option ℕ)
  | stopsAfter (count : ℕ)
deriving DecidableEq

/-- Whether a call fails for a reason the caller cannot see. -/
def Outcome.failed : Outcome → Bool
  | .fails _ => true
  | _ => false

/-- How many of `count` bytes a read or a write moves. -/
def Outcome.limit (count : ℕ) : Outcome → ℕ
  | .stopsAfter k => min k count
  | _ => count

/-- The choices of the kernel: the outcome of the `n`-th call, and the descriptor number
an `open` gets, which is never one that is still open. -/
structure Kernel where
  outcome : ℕ → Outcome
  pick : ℕ → Finset ℕ → ℕ
  pick_fresh : ∀ n used, pick n used ∉ used

/-- No call fails without a cause the standard names, and none stops early. -/
def Kernel.Faultless (κ : Kernel) : Prop :=
  ∀ n, κ.outcome n = .completes

/-- The file system and the descriptor table of the process. Inode numbers in use are
below `nextIno`, so a file created later is a file of its own. The host also remembers
the `close` calls so far, newest first, each with whether its number was open. -/
structure Host (Path : Type) where
  names : Path → Option ℕ
  files : ℕ → File
  nextIno : ℕ
  descriptors : Finmap (fun _ : ℕ => Description)
  calls : ℕ
  closes : List (ℕ × Bool)
  named_lt : ∀ p n, names p = some n → n < nextIno
  open_lt : ∀ fd d, descriptors.lookup fd = some d → d.ino < nextIno

/-! ### Finite maps -/

section Lookup

variable {α β : Type} [DecidableEq α]

/-- Lookup in a map with one binding added. -/
theorem lookup_insert_eq (s : Finmap (fun _ : α => β)) (a x : α) (b : β) :
    (s.insert a b).lookup x = if x = a then some b else s.lookup x := by
  split_ifs with h
  · subst h
    exact Finmap.lookup_insert s
  · exact Finmap.lookup_insert_of_ne s h

/-- Lookup in a map with one binding removed. -/
theorem lookup_erase_eq (s : Finmap (fun _ : α => β)) (a x : α) :
    (s.erase a).lookup x = if x = a then none else s.lookup x := by
  split_ifs with h
  · subst h
    exact Finmap.lookup_erase x s
  · exact Finmap.lookup_erase_ne h

end Lookup

/-! ### Bytes -/

/-- The bytes of a file after `data` is written at `offset`; a gap before it reads as
zeros, and writing nothing changes nothing. -/
def overwrite (bytes : List UInt8) (offset : ℕ) (data : List UInt8) : List UInt8 :=
  if data.isEmpty then bytes
  else (bytes ++ List.replicate (offset - bytes.length) 0).take offset ++ data
    ++ bytes.drop (offset + data.length)

/-! ### Permissions -/

@[simp] theorem File.bytes_made (bytes : List UInt8) : (File.made bytes).bytes = bytes := rfl

@[simp] theorem File.bytes_copied (f : File) : f.copied.bytes = f.bytes := rfl
@[simp] theorem File.readable_copied (f : File) : f.copied.readable = f.ownerReadable := rfl
@[simp] theorem File.ownerReadable_copied (f : File) : f.copied.ownerReadable = f.ownerReadable :=
  rfl

@[simp] theorem File.bytes_addOwnerWrite (f : File) : f.addOwnerWrite.bytes = f.bytes := rfl
@[simp] theorem File.readable_addOwnerWrite (f : File) : f.addOwnerWrite.readable = f.readable :=
  rfl
@[simp] theorem File.writable_addOwnerWrite (f : File) : f.addOwnerWrite.writable = true := rfl
@[simp] theorem File.ownerReadable_addOwnerWrite (f : File) :
    f.addOwnerWrite.ownerReadable = f.ownerReadable :=
  rfl

/-- Whether the permissions of a file allow an access mode. -/
def File.permits (f : File) (mode : OpenMode) : Bool :=
  (!mode.readable || f.readable) && (!mode.writable || f.writable)

namespace Host

variable {Path : Type}

/-! ### What calls change -/

/-- One more call that could have failed. -/
def tick (h : Host Path) : Host Path :=
  { h with calls := h.calls + 1 }

/-- A new file `f` under the name `p`. -/
def link [DecidableEq Path] (p : Path) (f : File) (h : Host Path) : Host Path :=
  { h with
    names := Function.update h.names p (some h.nextIno)
    files := Function.update h.files h.nextIno f
    nextIno := h.nextIno + 1
    named_lt := by
      intro q n hq
      by_cases hqp : q = p
      · subst hqp
        simp at hq
        omega
      · rw [Function.update_of_ne hqp] at hq
        exact Nat.lt_succ_of_lt (h.named_lt q n hq)
    open_lt := fun fd d hd => Nat.lt_succ_of_lt (h.open_lt fd d hd) }

/-- The name `p` is gone; the file stays for the descriptors open on it. -/
def unlink [DecidableEq Path] (p : Path) (h : Host Path) : Host Path :=
  { h with
    names := Function.update h.names p none
    named_lt := by
      intro q n hq
      by_cases hqp : q = p
      · subst hqp
        simp at hq
      · rw [Function.update_of_ne hqp] at hq
        exact h.named_lt q n hq }

/-- The file behind an inode becomes `f`. -/
def setFile (n : ℕ) (f : File) (h : Host Path) : Host Path :=
  { h with files := Function.update h.files n f }

/-- The descriptor `fd` is opened on the file named `p`, at offset zero. -/
def grant (fd : ℕ) (p : Path) (mode : OpenMode) (h : Host Path) : Host Path :=
  { h with
    descriptors := (h.names p).elim h.descriptors
      (fun n => h.descriptors.insert fd ⟨n, 0, mode.readable, mode.writable⟩)
    open_lt := by
      intro x d hd
      rcases hp : h.names p with _ | n
      · rw [hp] at hd
        exact h.open_lt x d hd
      · rw [hp, Option.elim_some, lookup_insert_eq] at hd
        split_ifs at hd with hx
        · obtain rfl := Option.some.inj hd
          exact h.named_lt p n hp
        · exact h.open_lt x d hd }

/-- The description behind `fd` moves to `offset`. -/
def reposition (fd offset : ℕ) (h : Host Path) : Host Path :=
  { h with
    descriptors := (h.descriptors.lookup fd).elim h.descriptors
      (fun d => h.descriptors.insert fd { d with offset := offset })
    open_lt := by
      intro x d hd
      rcases hf : h.descriptors.lookup fd with _ | e
      · rw [hf] at hd
        exact h.open_lt x d hd
      · rw [hf, Option.elim_some, lookup_insert_eq] at hd
        split_ifs at hd with hx
        · obtain rfl := Option.some.inj hd
          exact h.open_lt fd e hf
        · exact h.open_lt x d hd }

/-- The descriptor `fd` is free again. -/
def release (fd : ℕ) (h : Host Path) : Host Path :=
  { h with
    descriptors := h.descriptors.erase fd
    closes := (fd, (h.descriptors.lookup fd).isSome) :: h.closes
    open_lt := by
      intro x d hd
      rw [lookup_erase_eq] at hd
      split_ifs at hd
      exact h.open_lt x d hd }

/-! ### The calls -/

variable (κ : Kernel)

/-- `std::filesystem::exists`: `none` stands for an error of the probe itself. -/
def existsAt (p : Path) (h : Host Path) : Option Bool × Host Path :=
  (if (κ.outcome h.calls).failed then none else some (h.names p).isSome, h.tick)

/-- `std::filesystem::create_directories`, which touches no regular file. -/
def createDirectories (h : Host Path) : Bool × Host Path :=
  (!(κ.outcome h.calls).failed, h.tick)

/-- `std::filesystem::copy_file` without options: the target must not exist, and gets the
bytes and the permissions of the source, but this process as its owner. A copy that fails on
the way may leave a shorter target. -/
def copyFile [DecidableEq Path] (source target : Path) (h : Host Path) : Bool × Host Path :=
  match h.names source, h.names target with
  | some n, none =>
    if (h.files n).readable then
      match κ.outcome h.calls with
      | .fails none => (false, h.tick)
      | .fails (some k) =>
        (false, h.tick.link target { (h.files n).copied with bytes := (h.files n).bytes.take k })
      | _ => (true, h.tick.link target (h.files n).copied)
    else (false, h.tick)
  | _, _ => (false, h.tick)

/-- `std::filesystem::permissions` adding `owner_write` to a file of this process. -/
def addOwnerWrite (p : Path) (h : Host Path) : Bool × Host Path :=
  if (κ.outcome h.calls).failed then (false, h.tick)
  else
    match h.names p with
    | none => (false, h.tick)
    | some n => (true, h.tick.setFile n (h.files n).addOwnerWrite)

/-- `std::filesystem::remove` of a file name. -/
def remove [DecidableEq Path] (p : Path) (h : Host Path) : Host Path :=
  h.unlink p

/-- `::open`: the file must allow the access, and is created when the flags ask for it.
A created file is readable and writable by its owner, this process. -/
def openAt [DecidableEq Path] (p : Path) (mode : OpenMode) (h : Host Path) :
    Option ℕ × Host Path :=
  if (κ.outcome h.calls).failed then (none, h.tick)
  else
    match h.names p with
    | some n =>
      if (h.files n).permits mode then
        let fd := κ.pick h.calls h.descriptors.keys
        (some fd, h.tick.grant fd p mode)
      else (none, h.tick)
    | none =>
      if mode.create then
        let fd := κ.pick h.calls h.descriptors.keys
        (some fd, (h.tick.link p (.made [])).grant fd p mode)
      else (none, h.tick)

/-- Whether permissions, or the creation flag for a missing file, let an `open` succeed. -/
def canOpen (p : Path) (mode : OpenMode) (h : Host Path) : Bool :=
  match h.names p with
  | some n => (h.files n).permits mode
  | none => mode.create

/-- `::close`: fails only on a number that is not open. -/
def close (fd : ℕ) (h : Host Path) : Bool × Host Path :=
  ((h.descriptors.lookup fd).isSome, h.release fd)

/-- The position an `lseek` asks for. -/
def target (offset : ℤ) (whence : Whence) (d : Description) (h : Host Path) : ℤ :=
  match whence with
  | .set => offset
  | .cur => d.offset + offset
  | .fromEnd => (h.files d.ino).bytes.length + offset

/-- `::lseek`: no position before the start of the file. -/
def lseek (fd : ℕ) (offset : ℤ) (whence : Whence) (h : Host Path) : Option ℕ × Host Path :=
  if (κ.outcome h.calls).failed then (none, h.tick)
  else
    match h.descriptors.lookup fd with
    | none => (none, h.tick)
    | some d =>
      if h.target offset whence d < 0 then (none, h.tick)
      else
        (some (h.target offset whence d).toNat,
          h.tick.reposition fd (h.target offset whence d).toNat)

/-- `::read` of at most `count` bytes at the offset of the description. -/
def read (fd count : ℕ) (h : Host Path) : Option (List UInt8) × Host Path :=
  if (κ.outcome h.calls).failed then (none, h.tick)
  else
    match h.descriptors.lookup fd with
    | none => (none, h.tick)
    | some d =>
      if d.readable then
        let data := ((h.files d.ino).bytes.drop d.offset).take
          ((κ.outcome h.calls).limit count)
        (some data, h.tick.reposition fd (d.offset + data.length))
      else (none, h.tick)

/-- `::write` of `data` at the offset of the description. -/
def write (fd : ℕ) (data : List UInt8) (h : Host Path) : Option ℕ × Host Path :=
  if (κ.outcome h.calls).failed then (none, h.tick)
  else
    match h.descriptors.lookup fd with
    | none => (none, h.tick)
    | some d =>
      if d.writable then
        let moved := data.take ((κ.outcome h.calls).limit data.length)
        let f := h.files d.ino
        (some moved.length,
          (h.tick.setFile d.ino { f with bytes := overwrite f.bytes d.offset moved }).reposition
            fd (d.offset + moved.length))
      else (none, h.tick)

/-! ### Components after a change -/

@[simp] theorem names_tick (h : Host Path) : h.tick.names = h.names := rfl
@[simp] theorem files_tick (h : Host Path) : h.tick.files = h.files := rfl
@[simp] theorem nextIno_tick (h : Host Path) : h.tick.nextIno = h.nextIno := rfl
@[simp] theorem descriptors_tick (h : Host Path) : h.tick.descriptors = h.descriptors := rfl

@[simp] theorem names_reposition (fd offset : ℕ) (h : Host Path) :
    (h.reposition fd offset).names = h.names := rfl
@[simp] theorem files_reposition (fd offset : ℕ) (h : Host Path) :
    (h.reposition fd offset).files = h.files := rfl
@[simp] theorem nextIno_reposition (fd offset : ℕ) (h : Host Path) :
    (h.reposition fd offset).nextIno = h.nextIno := rfl

@[simp] theorem names_grant (fd : ℕ) (p : Path) (mode : OpenMode) (h : Host Path) :
    (h.grant fd p mode).names = h.names := rfl
@[simp] theorem files_grant (fd : ℕ) (p : Path) (mode : OpenMode) (h : Host Path) :
    (h.grant fd p mode).files = h.files := rfl
@[simp] theorem nextIno_grant (fd : ℕ) (p : Path) (mode : OpenMode) (h : Host Path) :
    (h.grant fd p mode).nextIno = h.nextIno := rfl

@[simp] theorem names_release (fd : ℕ) (h : Host Path) : (h.release fd).names = h.names := rfl
@[simp] theorem files_release (fd : ℕ) (h : Host Path) : (h.release fd).files = h.files := rfl
@[simp] theorem nextIno_release (fd : ℕ) (h : Host Path) :
    (h.release fd).nextIno = h.nextIno := rfl

@[simp] theorem names_setFile (n : ℕ) (f : File) (h : Host Path) :
    (h.setFile n f).names = h.names := rfl
@[simp] theorem files_setFile (n : ℕ) (f : File) (h : Host Path) :
    (h.setFile n f).files = Function.update h.files n f := rfl
@[simp] theorem nextIno_setFile (n : ℕ) (f : File) (h : Host Path) :
    (h.setFile n f).nextIno = h.nextIno := rfl
@[simp] theorem descriptors_setFile (n : ℕ) (f : File) (h : Host Path) :
    (h.setFile n f).descriptors = h.descriptors := rfl

@[simp] theorem names_link [DecidableEq Path] (p : Path) (f : File) (h : Host Path) :
    (h.link p f).names = Function.update h.names p (some h.nextIno) := rfl
@[simp] theorem files_link [DecidableEq Path] (p : Path) (f : File) (h : Host Path) :
    (h.link p f).files = Function.update h.files h.nextIno f := rfl
@[simp] theorem nextIno_link [DecidableEq Path] (p : Path) (f : File) (h : Host Path) :
    (h.link p f).nextIno = h.nextIno + 1 := rfl
@[simp] theorem descriptors_link [DecidableEq Path] (p : Path) (f : File) (h : Host Path) :
    (h.link p f).descriptors = h.descriptors := rfl

@[simp] theorem names_unlink [DecidableEq Path] (p : Path) (h : Host Path) :
    (h.unlink p).names = Function.update h.names p none := rfl
@[simp] theorem files_unlink [DecidableEq Path] (p : Path) (h : Host Path) :
    (h.unlink p).files = h.files := rfl
@[simp] theorem nextIno_unlink [DecidableEq Path] (p : Path) (h : Host Path) :
    (h.unlink p).nextIno = h.nextIno := rfl
@[simp] theorem descriptors_unlink [DecidableEq Path] (p : Path) (h : Host Path) :
    (h.unlink p).descriptors = h.descriptors := rfl

/-- The descriptor of a successful `open` is a fresh description of the file. -/
theorem lookup_grant {p : Path} {m : ℕ} {h : Host Path} (hp : h.names p = some m)
    (fd x : ℕ) (mode : OpenMode) :
    (h.grant fd p mode).descriptors.lookup x =
      if x = fd then some ⟨m, 0, mode.readable, mode.writable⟩
      else h.descriptors.lookup x := by
  simp only [← lookup_insert_eq, grant, hp, Option.elim_some]

/-- A seek changes the offset of one description. -/
theorem lookup_reposition {fd : ℕ} {d : Description} {h : Host Path}
    (hd : h.descriptors.lookup fd = some d) (x offset : ℕ) :
    (h.reposition fd offset).descriptors.lookup x =
      if x = fd then some { d with offset := offset } else h.descriptors.lookup x := by
  simp only [← lookup_insert_eq, reposition, hd, Option.elim_some]

/-- A close frees one descriptor. -/
theorem lookup_release (fd x : ℕ) (h : Host Path) :
    (h.release fd).descriptors.lookup x =
      if x = fd then none else h.descriptors.lookup x :=
  lookup_erase_eq _ _ _

/-- Everything but the count of calls is the same. -/
structure Unchanged (h h' : Host Path) : Prop where
  names : h'.names = h.names
  files : h'.files = h.files
  nextIno : h'.nextIno = h.nextIno
  closes : h'.closes = h.closes
  descriptors : ∀ fd, h'.descriptors.lookup fd = h.descriptors.lookup fd

/-- Nothing happened. -/
theorem Unchanged.refl (h : Host Path) : h.Unchanged h :=
  ⟨rfl, rfl, rfl, rfl, fun _ => rfl⟩

/-- A call without effect. -/
theorem Unchanged.tick (h : Host Path) : h.Unchanged h.tick :=
  ⟨rfl, rfl, rfl, rfl, fun _ => rfl⟩

/-- Nothing changes in two steps if nothing changes in either. -/
theorem Unchanged.trans {h h' h'' : Host Path} (h₁ : h.Unchanged h') (h₂ : h'.Unchanged h'') :
    h.Unchanged h'' :=
  ⟨h₂.names.trans h₁.names, h₂.files.trans h₁.files, h₂.nextIno.trans h₁.nextIno,
    h₂.closes.trans h₁.closes, fun fd => (h₂.descriptors fd).trans (h₁.descriptors fd)⟩

/-! ### Closed descriptors -/

/-- Every `close` between two hosts was on an open number that meets `P`. -/
def Closes (P : ℕ → Prop) (h h' : Host Path) : Prop :=
  ∃ new, h'.closes = new ++ h.closes ∧ ∀ c ∈ new, c.2 = true ∧ P c.1

/-- There was no `close`. -/
theorem Closes.of_eq {P : ℕ → Prop} {h h' : Host Path} (heq : h'.closes = h.closes) :
    h.Closes P h' :=
  ⟨[], heq, by simp⟩

/-- The closes of two stretches, one after the other. -/
theorem Closes.trans {P : ℕ → Prop} {h h' h'' : Host Path} (h₁ : h.Closes P h')
    (h₂ : h'.Closes P h'') : h.Closes P h'' := by
  obtain ⟨new, heq, hnew⟩ := h₁
  obtain ⟨new', heq', hnew'⟩ := h₂
  refine ⟨new' ++ new, by rw [heq', heq, List.append_assoc], ?_⟩
  intro c hc
  rcases List.mem_append.mp hc with hc | hc
  · exact hnew' c hc
  · exact hnew c hc

/-- A weaker condition on the closed numbers. -/
theorem Closes.mono {P Q : ℕ → Prop} {h h' : Host Path} (h₁ : h.Closes P h')
    (hPQ : ∀ fd, P fd → Q fd) : h.Closes Q h' := by
  obtain ⟨new, heq, hnew⟩ := h₁
  exact ⟨new, heq, fun c hc => ⟨(hnew c hc).1, hPQ _ (hnew c hc).2⟩⟩

/-- One `close` of an open number. -/
theorem Closes.release {P : ℕ → Prop} {h : Host Path} {fd : ℕ}
    (hopen : (h.descriptors.lookup fd).isSome) (hP : P fd) : h.Closes P (h.release fd) := by
  refine ⟨[(fd, true)], by simp [Host.release, hopen], ?_⟩
  intro c hc
  obtain rfl := List.mem_singleton.mp hc
  exact ⟨rfl, hP⟩

/-- Everything is as before again: what was opened in between is closed. -/
structure Restored (h h' : Host Path) : Prop where
  names : h'.names = h.names
  files : h'.files = h.files
  nextIno : h'.nextIno = h.nextIno
  descriptors : ∀ fd, h'.descriptors.lookup fd = h.descriptors.lookup fd
  closes : h.Closes (fun fd => h.descriptors.lookup fd = none) h'

/-- What did not change needs no restoring. -/
theorem Unchanged.restored {h h' : Host Path} (hu : h.Unchanged h') : h.Restored h' :=
  ⟨hu.names, hu.files, hu.nextIno, hu.descriptors, .of_eq hu.closes⟩

/-! ### What one call can do -/

section Cases

variable (p : Path) (h : Host Path)

/-- A name in use does not resolve to the next inode. -/
theorem nextIno_ne_of_named {p : Path} {n : ℕ} (hp : h.names p = some n) : n ≠ h.nextIno :=
  (h.named_lt p n hp).ne

/-- The descriptor an `open` gets is not in use. -/
theorem lookup_pick (n : ℕ) : h.descriptors.lookup (κ.pick n h.descriptors.keys) = none :=
  Finmap.lookup_eq_none.mpr fun hmem => κ.pick_fresh n _ (Finmap.mem_keys.mpr hmem)

/-- An `open` fails without effect, opens the file of the name, or creates it. -/
theorem openAt_cases [DecidableEq Path] (mode : OpenMode) :
    h.openAt κ p mode = (none, h.tick) ∨
      ∃ fd, h.descriptors.lookup fd = none ∧
        ((∃ n, h.names p = some n ∧ (h.files n).permits mode ∧
            h.openAt κ p mode = (some fd, h.tick.grant fd p mode)) ∨
          (h.names p = none ∧ mode.create ∧
            h.openAt κ p mode =
              (some fd, (h.tick.link p (.made [])).grant fd p mode))) := by
  unfold openAt
  split
  · exact .inl rfl
  · split
    · rename_i n hn
      split
      · exact .inr ⟨_, h.lookup_pick κ _, .inl ⟨n, hn, by assumption, rfl⟩⟩
      · exact .inl rfl
    · rename_i hn
      split
      · exact .inr ⟨_, h.lookup_pick κ _, .inr ⟨hn, by assumption, rfl⟩⟩
      · exact .inl rfl

/-- A copy fails without effect, fails and leaves a new target with part of the bytes, or
makes a copy of the source. -/
theorem copyFile_cases [DecidableEq Path] (source : Path) :
    h.copyFile κ source p = (false, h.tick) ∨
      h.names p = none ∧
        ((∃ f, h.copyFile κ source p = (false, h.tick.link p f)) ∨
          ∃ n, h.names source = some n ∧
            h.copyFile κ source p = (true, h.tick.link p (h.files n).copied)) := by
  unfold copyFile
  split
  · rename_i n hn hp
    split
    · split
      · exact .inl rfl
      · exact .inr ⟨hp, .inl ⟨_, rfl⟩⟩
      · exact .inr ⟨hp, .inr ⟨n, hn, rfl⟩⟩
    · exact .inl rfl
  · exact .inl rfl

/-- A change of permissions fails without effect or makes the file writable. -/
theorem addOwnerWrite_cases :
    h.addOwnerWrite κ p = (false, h.tick) ∨
      ∃ n, h.names p = some n ∧
        h.addOwnerWrite κ p =
          (true, h.tick.setFile n (h.files n).addOwnerWrite) := by
  unfold addOwnerWrite
  split
  · exact .inl rfl
  · split
    · exact .inl rfl
    · rename_i n hn
      exact .inr ⟨n, hn, rfl⟩

/-- A seek fails without effect or moves an open description. -/
theorem lseek_cases (fd : ℕ) (offset : ℤ) (whence : Whence) :
    h.lseek κ fd offset whence = (none, h.tick) ∨
      ∃ d, ∃ position : ℕ, h.descriptors.lookup fd = some d ∧
        (position : ℤ) = h.target offset whence d ∧
        h.lseek κ fd offset whence = (some position, h.tick.reposition fd position) := by
  unfold lseek
  split
  · exact .inl rfl
  · split
    · exact .inl rfl
    · rename_i d hd
      split
      · exact .inl rfl
      · exact .inr ⟨d, _, hd, Int.toNat_of_nonneg (by omega), rfl⟩

/-- A read fails without effect or moves an open description past what it returns, which
are bytes of the file from the old offset on. -/
theorem read_cases (fd count : ℕ) :
    h.read κ fd count = (none, h.tick) ∨
      ∃ d data, h.descriptors.lookup fd = some d ∧
        data <+: (h.files d.ino).bytes.drop d.offset ∧
        h.read κ fd count = (some data, h.tick.reposition fd (d.offset + data.length)) := by
  unfold read
  split
  · exact .inl rfl
  · split
    · exact .inl rfl
    · rename_i d hd
      split
      · exact .inr ⟨d, _, hd, List.take_prefix _ _, rfl⟩
      · exact .inl rfl

/-- A write fails without effect or changes the file of a writable description. -/
theorem write_cases (fd : ℕ) (data : List UInt8) :
    h.write κ fd data = (none, h.tick) ∨
      ∃ d moved, h.descriptors.lookup fd = some d ∧ d.writable ∧
        h.write κ fd data =
          (some moved.length,
            (h.tick.setFile d.ino
              { h.files d.ino with
                bytes := overwrite (h.files d.ino).bytes d.offset moved }).reposition fd
              (d.offset + moved.length)) := by
  unfold write
  split
  · exact .inl rfl
  · split
    · exact .inl rfl
    · rename_i d hd
      split
      · exact .inr ⟨d, _, hd, by assumption, rfl⟩
      · exact .inl rfl

/-- An outcome never moves more than was asked for. -/
theorem limit_le (outcome : Outcome) (count : ℕ) : outcome.limit count ≤ count := by
  cases outcome with
  | stopsAfter k => exact Nat.min_le_right k count
  | _ => exact Nat.le_refl count

/-- A read returns at most what was asked for. -/
theorem length_read_le {fd count : ℕ} {data : List UInt8} {h' : Host Path}
    (hread : h.read κ fd count = (some data, h')) : data.length ≤ count := by
  unfold read at hread
  split at hread
  · cases hread
  · split at hread
    · cases hread
    · split at hread
      · cases hread
        exact (List.length_take_le _ _).trans (limit_le _ _)
      · cases hread

/-- A write writes at most what it was given. -/
theorem write_le_length {fd count : ℕ} {data : List UInt8} {h' : Host Path}
    (hwrite : h.write κ fd data = (some count, h')) : count ≤ data.length := by
  unfold write at hwrite
  split at hwrite
  · cases hwrite
  · split at hwrite
    · cases hwrite
    · split at hwrite
      · cases hwrite
        exact List.length_take_le' _ _
      · cases hwrite

end Cases

/-! ### Calls that do not fail without cause -/

section Faultless

variable {κ} (hκ : κ.Faultless) {p : Path} {h : Host Path}

include hκ

/-- An existence probe tells the truth. -/
theorem existsAt_of_faultless : h.existsAt κ p = (some (h.names p).isSome, h.tick) := by
  rw [existsAt, hκ]
  rfl

/-- A directory can always be made. -/
theorem createDirectories_of_faultless : h.createDirectories κ = (true, h.tick) := by
  rw [createDirectories, hκ]
  rfl

/-- A readable file is copied to a name that has none. -/
theorem copyFile_of_faultless [DecidableEq Path] {source : Path} {n : ℕ}
    (hsource : h.names source = some n) (hread : (h.files n).readable = true)
    (hp : h.names p = none) :
    h.copyFile κ source p = (true, h.tick.link p (h.files n).copied) := by
  simp only [copyFile, hsource, hp, hread, if_true, hκ h.calls]

/-- The permissions of an existing file can be changed. -/
theorem addOwnerWrite_of_faultless {n : ℕ} (hp : h.names p = some n) :
    h.addOwnerWrite κ p = (true, h.tick.setFile n (h.files n).addOwnerWrite) := by
  simp only [addOwnerWrite, hκ h.calls, Outcome.failed, Bool.false_eq_true, if_false, hp]

/-- An existing file is opened exactly if its permissions allow the access. -/
theorem openAt_of_faultless [DecidableEq Path] {n : ℕ} (hp : h.names p = some n)
    (mode : OpenMode) :
    h.openAt κ p mode =
      if (h.files n).permits mode then
        (some (κ.pick h.calls h.descriptors.keys),
          h.tick.grant (κ.pick h.calls h.descriptors.keys) p mode)
      else (none, h.tick) := by
  simp only [openAt, hκ h.calls, Outcome.failed, Bool.false_eq_true, if_false, hp]

/-- A missing file is created exactly if the flags ask for it. -/
theorem openAt_of_faultless_of_missing [DecidableEq Path] (hp : h.names p = none)
    (mode : OpenMode) :
    h.openAt κ p mode =
      if mode.create then
        (some (κ.pick h.calls h.descriptors.keys),
          (h.tick.link p (.made [])).grant (κ.pick h.calls h.descriptors.keys) p mode)
      else (none, h.tick) := by
  simp only [openAt, hκ h.calls, Outcome.failed, Bool.false_eq_true, if_false, hp]

/-- An open description moves to every position that is not negative. -/
theorem lseek_of_faultless {fd : ℕ} {d : Description} (hd : h.descriptors.lookup fd = some d)
    (offset : ℤ) (whence : Whence) :
    h.lseek κ fd offset whence =
      if h.target offset whence d < 0 then (none, h.tick)
      else (some (h.target offset whence d).toNat,
        h.tick.reposition fd (h.target offset whence d).toNat) := by
  simp only [lseek, hκ h.calls, Outcome.failed, Bool.false_eq_true, if_false, hd]

/-- A readable description delivers what is there. -/
theorem read_of_faultless {fd : ℕ} {d : Description} (hd : h.descriptors.lookup fd = some d)
    (hread : d.readable = true) (count : ℕ) :
    h.read κ fd count =
      (some (((h.files d.ino).bytes.drop d.offset).take count),
        h.tick.reposition fd
          (d.offset + (((h.files d.ino).bytes.drop d.offset).take count).length)) := by
  simp only [read, hκ h.calls, Outcome.failed, Bool.false_eq_true, if_false, hd, hread, if_true,
    Outcome.limit]

/-- A writable description takes all of the data. -/
theorem write_of_faultless {fd : ℕ} {d : Description} (hd : h.descriptors.lookup fd = some d)
    (hwrite : d.writable = true) (data : List UInt8) :
    h.write κ fd data =
      (some data.length,
        (h.tick.setFile d.ino { h.files d.ino with
          bytes := overwrite (h.files d.ino).bytes d.offset data }).reposition fd
            (d.offset + data.length)) := by
  simp only [write, hκ h.calls, Outcome.failed, Bool.false_eq_true, if_false, hd, hwrite, if_true,
    Outcome.limit, List.take_length]

end Faultless

/-! ### Files that stay -/

/-- The file `p` named in `h` is still named so in `h'`, with the same bytes. -/
def Keeps (h h' : Host Path) (p : Path) : Prop :=
  ∀ n, h.names p = some n → h'.names p = some n ∧ (h'.files n).bytes = (h.files n).bytes

/-- Nothing that stays is lost. -/
theorem Keeps.refl (h : Host Path) (p : Path) : h.Keeps h p :=
  fun _ hp => ⟨hp, rfl⟩

/-- What two steps keep is kept by both together. -/
theorem Keeps.trans {h h' h'' : Host Path} {p : Path} (h₁ : h.Keeps h' p)
    (h₂ : h'.Keeps h'' p) : h.Keeps h'' p := by
  intro n hp
  obtain ⟨hp', hbytes⟩ := h₁ n hp
  obtain ⟨hp'', hbytes'⟩ := h₂ n hp'
  exact ⟨hp'', hbytes'.trans hbytes⟩

/-- Only names and bytes count. -/
theorem Keeps.of_eq {h h' : Host Path} (hnames : h'.names = h.names)
    (hfiles : h'.files = h.files) (p : Path) : h.Keeps h' p := by
  intro n hp
  rw [hnames, hfiles]
  exact ⟨hp, rfl⟩

/-- A new file replaces none. -/
theorem Keeps.link [DecidableEq Path] {h : Host Path} {p : Path} {f : File}
    (hp : h.names p = none) (q : Path) : h.Keeps (h.link p f) q := by
  intro n hq
  have hne : q ≠ p := by
    rintro rfl
    rw [hp] at hq
    cases hq
  exact ⟨by simp [Function.update_of_ne hne, hq],
    by simp [Function.update_of_ne (h.nextIno_ne_of_named hq)]⟩

/-- Removing one name leaves the others. -/
theorem Keeps.unlink [DecidableEq Path] {h : Host Path} {p q : Path} (hne : q ≠ p) :
    h.Keeps (h.unlink p) q := by
  intro n hq
  exact ⟨by simp [Function.update_of_ne hne, hq], rfl⟩

/-- A change of permissions keeps the bytes. -/
theorem Keeps.setFile {h : Host Path} {n : ℕ} {f : File} (hf : f.bytes = (h.files n).bytes)
    (q : Path) : h.Keeps (h.setFile n f) q := by
  intro m hq
  refine ⟨hq, ?_⟩
  by_cases hm : m = n
  · subst hm
    simpa using hf
  · simp [Function.update_of_ne hm]

/-! ### Hosts that grow -/

/-- Every name still stands for its file, and who may read a file has not changed. -/
structure Grows (h h' : Host Path) : Prop where
  names : ∀ p n, h.names p = some n → h'.names p = some n
  readable : ∀ n < h.nextIno, (h'.files n).readable = (h.files n).readable
  nextIno : h.nextIno ≤ h'.nextIno

/-- Nothing grew. -/
theorem Grows.of_eq {h h' : Host Path} (hnames : h'.names = h.names)
    (hfiles : h'.files = h.files) (hnext : h'.nextIno = h.nextIno) : h.Grows h' where
  names p n hp := by rwa [hnames]
  readable n _ := by rw [hfiles]
  nextIno := hnext.ge

/-- Growing twice. -/
theorem Grows.trans {h h' h'' : Host Path} (h₁ : h.Grows h') (h₂ : h'.Grows h'') :
    h.Grows h'' where
  names p n hp := h₂.names p n (h₁.names p n hp)
  readable n hn := (h₂.readable n (lt_of_lt_of_le hn h₁.nextIno)).trans (h₁.readable n hn)
  nextIno := h₁.nextIno.trans h₂.nextIno

/-- A new file under a name that had none. -/
theorem Grows.link [DecidableEq Path] {h : Host Path} {p : Path} (hp : h.names p = none)
    (f : File) : h.Grows (h.link p f) where
  names q n hq := by
    have hne : q ≠ p := by
      rintro rfl
      rw [hp] at hq
      cases hq
    rw [names_link, Function.update_of_ne hne, hq]
  readable n hn := by rw [files_link, Function.update_of_ne hn.ne]
  nextIno := Nat.le_succ _

/-- New contents for a file. -/
theorem Grows.setFile {h : Host Path} {n : ℕ} {f : File}
    (hf : f.readable = (h.files n).readable) : h.Grows (h.setFile n f) where
  names _ _ hp := hp
  readable m _ := by
    by_cases hm : m = n
    · subst hm
      rw [files_setFile, Function.update_self, hf]
    · rw [files_setFile, Function.update_of_ne hm]
  nextIno := le_rfl

end Host

end PosixFiles
