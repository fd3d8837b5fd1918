import Mathlib.Data.Finset.Lattice.Fold
import Mathlib.Data.Fintype.Basic
import Mathlib.Data.List.Sort
import Mathlib.Order.Lattice.Nat
import KvmHypervisor.Transducers
import KvmHypervisor.FileIo

/-!
# Runs of File Requests

All VMs of one hypervisor on one host: the host file system and a file state for each VM.
Requests are served one at a time, in any order, each on behalf of one VM and with
whatever bytes its memory holds at that moment. The file server is a transducer: it
answers every request with a result and the guest memory after it.
-/

namespace KvmHypervisor

open PosixFiles Transitions

/-- The host and the file states of `n` VMs. -/
structure FileWorld (n : ℕ) where
  host : Host HostPath
  states : Fin n → FileState

/-- A request of one VM, with its guest memory. -/
structure GuestCall (n : ℕ) where
  vm : Fin n
  memory : GuestMemory
  request : FileRequest

/-- The answer a guest sees: the result and its memory. -/
structure Answer where
  result : ℤ
  memory : GuestMemory

variable {n : ℕ} (sys : HostSystem) (sharedFiles : List (String × HostPath))

/-- The context of a VM. -/
def contextOf (vm : Fin n) : GuestContext :=
  ⟨vm, sharedFiles⟩

/-- The reply to a request in a world. -/
def replyTo (w : FileWorld n) (call : GuestCall n) : Reply :=
  processFileRequest sys (contextOf sharedFiles call.vm) call.memory call.request
    (w.states call.vm) w.host

/-- The file server: only the state of the calling VM and the host change. -/
def fileServer : Transducer (FileWorld n) (GuestCall n) Answer where
  step w call :=
    let reply := replyTo sys sharedFiles w call
    (⟨reply.result, reply.memory⟩,
      { host := reply.host, states := Function.update w.states call.vm reply.state })

/-- What a VM thread asks of the file layer: a request, or the clean-up at its end. -/
inductive FileInput (n : ℕ)
  | request (call : GuestCall n)
  | finish (vm : Fin n)

/-- The VM an input comes from. -/
def FileInput.vm : FileInput n → Fin n
  | .request call => call.vm
  | .finish vm => vm

/-- The request an input makes, if it makes one. -/
def FileInput.call : FileInput n → Option (GuestCall n)
  | .request call => some call
  | .finish _ => none

/-- The file layer over the whole life of the VMs: requests and clean-ups. -/
def fileLayer : Transducer (FileWorld n) (FileInput n) (Option Answer) where
  step w
    | .request call =>
      let (answer, w) := (fileServer sys sharedFiles).step w call
      (some answer, w)
    | .finish vm =>
      let (state, host) := closeGuestFiles sys (w.states vm) w.host
      (none, { host := host, states := Function.update w.states vm state })

omit sys sharedFiles in
/-- The world at start-up on a host: no VM has opened a file yet. -/
def FileWorld.start (h : Host HostPath) : FileWorld n where
  host :=
    { h with
      descriptors := ∅
      closes := []
      open_lt := by
        intro fd d hd
        rw [Finmap.lookup_empty] at hd
        cases hd }
  states _ := FileState.initial

/-- The path of a name in the directory of a VM. -/
def HostSystem.localPathAt (vm : Fin n) (name : String) : HostPath :=
  localPath sys.workingDirectory vm name

variable {sys sharedFiles} in
/-- Another VM's directory is out of reach of a request. -/
theorem localPathAt_ne {vm vm' : Fin n} (hne : vm' ≠ vm) (name name' : String) :
    sys.localPathAt vm' name' ≠ sys.localPathOf (contextOf sharedFiles vm) name := by
  intro heq
  exact hne (Fin.ext (localPath_inj.mp heq).1)

/-! ### A concrete host system -/

/-- The elements of a finite set in ascending order. -/
def ascending (keys : Finset ℤ) : List ℤ :=
  Quot.liftOn keys.val (List.insertionSort (· ≤ ·)) fun a b hab =>
    List.Perm.eq_of_pairwise' (List.pairwise_insertionSort (· ≤ ·) a)
      (List.pairwise_insertionSort (· ≤ ·) b)
      ((List.perm_insertionSort _ a).trans (hab.trans (List.perm_insertionSort _ b).symm))

/-- The ascending list has the elements of the set, each once. -/
theorem coe_ascending (keys : Finset ℤ) : (ascending keys : Multiset ℤ) = keys.val := by
  obtain ⟨⟨l⟩, h⟩ := keys
  exact Multiset.coe_eq_coe.mpr (List.perm_insertionSort _ l)

/-- A host system with given call outcomes: an `open` gets a number above all that are in
use, and tables are walked in ascending order. -/
def plainSystem (outcome : ℕ → PosixFiles.Outcome) : HostSystem where
  kernel :=
    { outcome := outcome
      pick := fun _ used => used.sup id + 1
      pick_fresh := fun _ used hmem =>
        absurd (Finset.le_sup (f := id) hmem) (Nat.not_succ_le_self _) }
  workingDirectory := ["root"]
  iterate _ keys := ascending keys
  iterate_nodup _ keys := by
    rw [← Multiset.coe_nodup, coe_ascending]
    exact keys.nodup
  mem_iterate _ keys d := by
    rw [← Multiset.mem_coe, coe_ascending, Finset.mem_val]

/-- A host with one file. -/
def oneFileHost (path : HostPath) (f : File) : Host HostPath where
  names p := if p = path then some 0 else none
  files _ := f
  nextIno := 1
  descriptors := ∅
  calls := 0
  closes := []
  named_lt := by
    intro p n hp
    split_ifs at hp
    obtain rfl := Option.some.inj hp
    exact Nat.zero_lt_one
  open_lt := by
    intro fd d hd
    rw [Finmap.lookup_empty] at hd
    cases hd

/-- Guest memory that starts with the given bytes. -/
def memoryOf (size : ℕ) (bytes : List UInt8) : GuestMemory where
  size := size
  bytes k := bytes.getD k 0

/-- An open request for the name at address zero. -/
def openRequest (flags : BitVec 32) : FileRequest :=
  { operation := 1, descriptor := 0, buffer := 0, count := 0, offset := 0, flags := flags }

/-- A write request for the first bytes of memory. -/
def writeRequest (descriptor count : ℤ) : FileRequest :=
  { operation := 4, descriptor := descriptor, buffer := 0, count := count, offset := 0, flags := 0 }

/-- One shared file `a` holding one byte. -/
def sharedA : Host HostPath :=
  oneFileHost ["srv", "a"] ⟨[65], true, false, true, false⟩

/-- The VM of a host with one VM. -/
def soleVm : Fin 1 :=
  ⟨0, Nat.one_pos⟩

/-- A VM alone, with the shared file `a`. -/
def contextA : GuestContext :=
  contextOf [("a", ["srv", "a"])] soleVm

/-- Memory that spells the name `a`. -/
def memoryA : GuestMemory :=
  memoryOf (2 * 1024 * 1024) [97, 0]

/-- A write of one byte from the end of guest memory, where there is none. -/
def writeFromEnd (descriptor : ℤ) : FileRequest :=
  { writeRequest descriptor 1 with buffer := memoryA.size }

/-- The VM opens `a` for reading and writing and writes one byte, which makes its private
copy; then it opens `a` again. -/
def copyThenReopen : List (GuestCall 1) :=
  [⟨soleVm, memoryA, openRequest fileOpenReadWrite⟩, ⟨soleVm, memoryA, writeRequest 3 1⟩,
    ⟨soleVm, memoryA, openRequest fileOpenReadWrite⟩]

/-- The file server of the VM, with the calls of the host ending as given. -/
def serverA (outcome : ℕ → PosixFiles.Outcome) :
    Machine (FileWorld 1) (GuestCall 1) (GuestCall 1 × Answer) :=
  (fileServer (plainSystem outcome) [("a", ["srv", "a"])]).machine (FileWorld.start sharedA)

end KvmHypervisor
